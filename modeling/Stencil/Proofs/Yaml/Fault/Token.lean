import Stencil.Proofs.Yaml.Fault.Text
import Stencil.Proofs.Yaml.Fetching

/-!
# The faults of tokens

Reading the tokens of a text ends with a fault of form, or because the text has a flaw. No other fault
comes from tokens.

Every step of reading leaves an end of the text or has a flaw in what was left (`Scan.fetch_outcome`), so
that what is found by any number of steps is part of the whole text (`Scan.run_fault`).

Main result: `TokenStream.fault_ofText`.
-/

namespace Stencil.Yaml

variable {cs ds : List Char} {e : Fault}

namespace Scan

/-! ## What may come of a step -/

/-- What may come of going on in a text: an end of it is left, or it has a flaw. -/
inductive Outcome (cs : List Char) : Except Fault Scan → Prop
  | ok {t : Scan} (h : t.rest <:+ cs) : Outcome cs (.ok t)
  | malformed : Outcome cs (.error .malformed)
  | flaw {e : Fault} (h : TextFlaw cs e) : Outcome cs (.error e)

variable {s t : Scan} {c : Char}

theorem Outcome.of_or (h : e = .malformed ∨ TextFlaw cs e) : Outcome cs (.error e) := by
  obtain rfl | h := h
  · exact .malformed
  · exact .flaw h

theorem Outcome.fault (h : Outcome cs (.error e)) : e = .malformed ∨ TextFlaw cs e := by
  cases h with
  | malformed => exact .inl rfl
  | flaw h => exact .inr h

theorem Outcome.isSuffix (h : Outcome cs (.ok t)) : t.rest <:+ cs := by
  cases h with
  | ok h => exact h

theorem Outcome.mono {x : Except Fault Scan} (h : Outcome cs x) (hcs : cs <:+ ds) : Outcome ds x := by
  cases h with
  | ok h => exact .ok (h.trans hcs)
  | malformed => exact .malformed
  | flaw h => exact .flaw (h.mono hcs.isInfix)

theorem Outcome.bind {x : Except Fault Scan} {f : Scan → Except Fault Scan} (h : Outcome cs x)
    (hf : ∀ t, t.rest <:+ cs → Outcome cs (f t)) : Outcome cs (x >>= f) := by
  cases h with
  | ok h => exact hf _ h
  | malformed => exact .malformed
  | flaw h => exact .flaw h

theorem Outcome.ite {p : Prop} [Decidable p] {x y : Except Fault Scan} (hx : Outcome cs x)
    (hy : Outcome cs y) : Outcome cs (if p then x else y) := by
  split
  · exact hx
  · exact hy

/-- What is read in a step that goes on behind it. -/
theorem Outcome.read {α : Type} {x : Except Fault α} {f : α → Scan}
    (hx : ∀ e, x = .error e → e = .malformed ∨ TextFlaw cs e) (hf : ∀ a, (f a).rest <:+ cs) :
    Outcome cs (do return f (← x)) := by
  rcases x with e | a
  · exact .of_or (hx e rfl)
  · exact .ok (hf a)

/-! ## What is left -/

theorem suffix_skip (n : Nat) (s : Scan) : (s.skip n).rest <:+ s.rest :=
  rest_skip n s ▸ List.drop_suffix n s.rest

theorem suffix_skipTo (cs : List Char) (s : Scan) : (s.skipTo cs).rest <:+ s.rest := suffix_skip _ s

theorem rest_closeAll (s : Scan) : s.closeAll.rest = s.rest := by
  unfold closeAll
  split <;> rfl

theorem rest_openBlock (t : Token) (position column : Nat) (s : Scan) :
    (s.openBlock t position column).rest = s.rest := by
  unfold openBlock
  split <;> rfl

theorem rest_openBlockOutside (t : Token) (s : Scan) : (s.openBlockOutside t).rest = s.rest := by
  unfold openBlockOutside
  split
  · rfl
  · exact rest_openBlock _ _ _ _

theorem suffix_settle (k : Candidate) (s : Scan) : (settle k s).rest <:+ s.rest := by
  unfold settle
  dsimp only
  split
  · exact suffix_skip 1 _
  · refine (suffix_skip 1 _).trans ?_
    rw [rest_openBlock]
    exact List.suffix_rfl

/-! ## Candidates -/

theorem dropCandidate_outcome (s : Scan) : Outcome s.rest s.dropCandidate := by
  unfold dropCandidate
  split
  · exact .malformed
  · exact .ok List.suffix_rfl

theorem dropLapsed_outcome (s : Scan) : Outcome s.rest s.dropLapsed := by
  unfold dropLapsed
  dsimp only
  split
  · exact .malformed
  · exact .ok List.suffix_rfl

theorem noteCandidate_outcome (s : Scan) : Outcome s.rest s.noteCandidate := by
  unfold noteCandidate
  split
  · exact (dropCandidate_outcome s).bind fun t ht => .ok ht
  · exact .ok List.suffix_rfl

theorem checkBlock_outcome (s : Scan) : Outcome s.rest s.checkBlock := by
  unfold checkBlock
  split
  · exact .malformed
  · exact .ok List.suffix_rfl

/-! ## Tokens of the structure -/

theorem openFlow_outcome (t : Token) (s : Scan) : Outcome s.rest (openFlow t s) :=
  (noteCandidate_outcome s).bind fun _ hu => .ok ((suffix_skip 1 _).trans hu)

theorem closeFlow_outcome (t : Token) (s : Scan) : Outcome s.rest (closeFlow t s) := by
  unfold closeFlow
  split
  · exact .malformed
  · exact .ok (suffix_skip 1 _)

theorem comma_outcome (s : Scan) : Outcome s.rest (comma s) :=
  (dropCandidate_outcome s).bind fun _ hu => .ok ((suffix_skip 1 _).trans hu)

/-- A mark before an item or a key. -/
theorem mark_outcome (block token : Token) (allows : Scan → Bool) (s : Scan) :
    Outcome s.rest (do
      let s ← checkBlock s
      let s ← dropCandidate (s.openBlockOutside block)
      return ((s.skip 1).emit token).allowing (allows s)) := by
  refine (checkBlock_outcome s).bind fun t ht => ?_
  have hopen : (t.openBlockOutside block).rest <:+ s.rest := rest_openBlockOutside block t ▸ ht
  exact ((dropCandidate_outcome _).mono hopen).bind fun u hu => .ok ((suffix_skip 1 u).trans hu)

theorem dash_outcome (s : Scan) : Outcome s.rest (dash s) := mark_outcome _ _ (fun _ => true) s

theorem key_outcome (s : Scan) : Outcome s.rest (key s) := mark_outcome _ _ (fun s => !s.inFlow) s

theorem value_outcome (s : Scan) : Outcome s.rest (value s) := by
  unfold value
  split
  · exact .ok (suffix_settle _ s)
  · refine (checkBlock_outcome s).bind fun t ht => .ok ?_
    have hopen : (t.openBlockOutside .mappingBlock).rest <:+ s.rest :=
      rest_openBlockOutside .mappingBlock t ▸ ht
    exact (suffix_skip 1 _).trans hopen

/-- A step behind all blocks. -/
theorem closeAll_outcome (s : Scan) : Outcome s.rest s.closeAll.dropCandidate :=
  rest_closeAll s ▸ dropCandidate_outcome s.closeAll

theorem marker_outcome (t : Token) (s : Scan) : Outcome s.rest (marker t s) :=
  (closeAll_outcome s).bind fun _ hu => .ok ((suffix_skip 3 _).trans hu)

/-! ## Tokens with a content -/

theorem rest_of_dropCandidate (h : s.dropCandidate = .ok t) : t.rest = s.rest := by
  unfold dropCandidate at h
  split at h
  · cases h
  · cases h
    rfl

theorem directive_outcome (hrest : s.rest = '%' :: cs) : Outcome s.rest (directive s) := by
  unfold directive
  rcases hdrop : s.closeAll.dropCandidate with e | t
  · have hclose := closeAll_outcome s
    rw [hdrop] at hclose
    exact hclose
  · have ht : t.rest = '%' :: cs := by rw [rest_of_dropCandidate hdrop, rest_closeAll, hrest]
    refine .read (fun e he => ?_) fun x => ?_
    · rw [ht, List.tail_cons] at he
      rw [hrest]
      exact Name.directive_error he
    · rw [hrest, ← ht]
      exact suffix_skipTo x.2 t

theorem property_outcome {α : Type} (read? : List Char → Option (α × List Char)) (t : α → Token)
    (s : Scan) : Outcome s.rest (property read? t s) := by
  refine (noteCandidate_outcome s).bind fun u hu => ?_
  exact .read (fun e he => .inl (Name.required_error he)) fun x => (suffix_skipTo x.2 u).trans hu

theorem blockScalar_outcome (isFolded : Bool) (s : Scan) : Outcome s.rest (blockScalar isFolded s) := by
  refine (dropCandidate_outcome s).bind fun u hu => ?_
  exact .read (fun e he => .inl (Name.required_error he)) fun x => (suffix_skipTo x.2 u).trans hu

theorem quotedScalar_outcome (isDouble : Bool) (s : Scan) :
    Outcome s.rest (quotedScalar isDouble s) := by
  refine (noteCandidate_outcome s).bind fun u hu => ?_
  refine .read (fun e he => ?_) fun x => (suffix_skipTo x.2 u).trans hu
  have hpart : u.rest.tail <:+ s.rest := (List.tail_suffix _).trans hu
  exact (Quoted.scan_error he).imp_right fun hflaw => hflaw.mono hpart.isInfix

theorem plainScalar_outcome (s : Scan) : Outcome s.rest (plainScalar s) :=
  (noteCandidate_outcome s).bind fun u hu => .ok ((suffix_skipTo _ u).trans hu)

/-! ## All steps -/

theorem suffix_toToken (s : Scan) : s.toToken.rest <:+ s.rest := by
  have hskip : ∀ rest, ((s.skip 1).skipTo rest).rest <:+ s.rest := fun rest =>
    (suffix_skipTo rest _).trans (suffix_skip 1 s)
  unfold toToken
  dsimp only
  split
  · split <;> exact hskip _
  · split <;> exact suffix_skipTo _ s

theorem settled_outcome (s : Scan) : Outcome s.rest (settled s) := by
  refine ((dropLapsed_outcome _).mono (suffix_toToken s)).bind fun t ht => .ok ?_
  rw [rest_closeToColumn]
  exact ht

theorem finish_outcome (s : Scan) : Outcome s.rest (finish s) :=
  (closeAll_outcome s).bind fun _ hu => .ok hu

/-- **The next token leaves an end of the text, or the text has a flaw.** -/
theorem fetch_outcome (hrest : s.rest = c :: cs) : Outcome s.rest (fetch c cs s) := by
  unfold fetch
  dsimp only
  by_cases hpercent : (s.column == 0 && c == '%') = true
  · obtain ⟨-, rfl⟩ : s.column = 0 ∧ c = '%' := by simpa using hpercent
    rw [if_pos hpercent]
    exact directive_outcome hrest
  · rw [if_neg hpercent]
    exact .ite (marker_outcome _ s) <| .ite (marker_outcome _ s) <|
      .ite (openFlow_outcome _ s) <| .ite (openFlow_outcome _ s) <|
      .ite (closeFlow_outcome _ s) <| .ite (closeFlow_outcome _ s) <| .ite (comma_outcome s) <|
      .ite (dash_outcome s) <| .ite (key_outcome s) <| .ite (value_outcome s) <|
      .ite (property_outcome _ _ s) <| .ite (property_outcome _ _ s) <|
      .ite (property_outcome _ _ s) <| .ite (blockScalar_outcome _ s) <|
      .ite (blockScalar_outcome _ s) <| .ite (quotedScalar_outcome _ s) <|
      .ite (quotedScalar_outcome _ s) <| .ite (plainScalar_outcome s) .malformed

/-- The fault behind the tokens is one of form or has its flaw in the text that was left. -/
theorem run_fault (fuel : Nat) (s : Scan) :
    (run fuel s).fault = .malformed ∨ TextFlaw s.rest (run fuel s).fault := by
  induction fuel generalizing s with
  | zero => exact .inl rfl
  | succ fuel ih =>
    rw [run]
    rcases hs : settled s with e | t
    · exact (hs ▸ settled_outcome s).fault
    · have ht : t.rest <:+ s.rest := (hs ▸ settled_outcome s).isSuffix
      dsimp only
      split
      · rcases hu : finish t with e | u
        · exact ((hu ▸ finish_outcome t).mono ht).fault
        · exact .inl rfl
      · next c cs hrest =>
        rcases hu : fetch c cs t with e | u
        · exact ((hu ▸ fetch_outcome hrest).mono ht).fault
        · have hrest' : u.rest <:+ t.rest := (hu ▸ fetch_outcome hrest).isSuffix
          exact (ih u).imp_right fun h => h.mono (hrest'.trans ht).isInfix

end Scan

/-- **The fault behind the tokens of a text is one of form, or the text has a flaw.** -/
theorem TokenStream.fault_ofText (cs : List Char) :
    (TokenStream.ofText cs).fault = .malformed ∨ TextFlaw cs (TokenStream.ofText cs).fault :=
  Scan.run_fault _ _

end Stencil.Yaml
