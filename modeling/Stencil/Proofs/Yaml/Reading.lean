import Stencil.Yaml.Grammar

/-!
# Tokens that read as a node

A step of reading nodes *takes* some tokens if it leaves all that follow them and changes nothing
else (`Takes`). Some tokens *read* as a node if the function for nodes takes them with enough fuel
(`Reads`): twice their count and two more. The lemmas below put nodes together, one for each kind of
collection, so that whoever finds the tokens of a text need not look into the functions of the
grammar.

**Rounds.** The five functions for the items and entries of collections go in rounds, one for each
item or entry, and differ in what a round takes and what ends them. `takes_rounds` has the induction
on the rounds for all of them.

Main results: `Reads.scalar`, the lemmas for collections, and `node?_of_reads` for whole streams.
-/

namespace Stencil.Yaml

/-- The token begins a node. A dash does where a sequence may stand without a block of its own. -/
def Token.opensNode (mayHang : Bool) : Token → Bool
  | .scalar .. | .openBracket | .openBrace | .sequenceBlock | .mappingBlock => true
  | .dash => mayHang
  | _ => false

namespace Reading

/-! ## Steps that take tokens -/

section Takes

variable {α β : Type} {x : Reader α} {f : α → Reader β} {a : α} {b : β} {t : Token}
  {ts us rest : List Token}

/-- A step takes some tokens before the others that follow. -/
def Takes (x : Reader α) (ts rest : List Token) (a : α) : Prop :=
  ∀ r : Reading, x.run { r with tokens := ts ++ rest } = .ok (a, { r with tokens := rest })

theorem takes_pure (a : α) (rest : List Token) : Takes (pure a) [] rest a := fun _ => rfl

theorem Takes.bind (hx : Takes x ts (us ++ rest) a) (hf : Takes (f a) us rest b) :
    Takes (x >>= f) (ts ++ us) rest b := by
  intro r
  rw [StateT.run_bind, List.append_assoc, hx r]
  exact hf r

/-- A step that takes nothing comes before one that takes some tokens. -/
theorem Takes.after (hf : Takes (f a) ts rest b) (hx : Takes x [] (ts ++ rest) a) :
    Takes (x >>= f) ts rest b :=
  hx.bind hf

theorem takes_head (t : Token) (rest : List Token) : Takes head [] (t :: rest) t := fun _ => rfl

theorem takes_skip (t : Token) (rest : List Token) : Takes skip [t] rest () := fun _ => rfl

/-- Looking at the next token takes nothing. -/
theorem Takes.afterHead {f : Token → Reader β} (h : Takes (f t) (t :: us) rest b) :
    Takes (head >>= f) (t :: us) rest b :=
  h.after (takes_head t _)

theorem Takes.afterSkip {y : Reader β} (h : Takes y us rest b) :
    Takes (skip >>= fun _ => y) (t :: us) rest b :=
  (takes_skip t _).bind h

theorem takes_expect (t : Token) (rest : List Token) : Takes (expect t) [t] rest () := by
  unfold expect
  refine Takes.afterHead ?_
  rw [if_pos (beq_self_eq_true t)]
  exact takes_skip t rest

theorem takes_isAt (ts : List Token) (t : Token) (rest : List Token) :
    Takes (isAt ts) [] (t :: rest) (ts.contains t) := fun _ => rfl

/-- What comes of a step may be put into another form. -/
theorem Takes.give (hx : Takes x ts rest a) (g : α → β) :
    Takes (x >>= fun a => pure (g a)) ts rest (g a) := by
  intro r
  rw [StateT.run_bind, hx r]
  rfl

/-- The results of two steps are put together. -/
theorem Takes.both {y : Reader β} {γ : Type} (hx : Takes x ts (us ++ rest) a)
    (hy : Takes y us rest b) (g : α → β → γ) :
    Takes (x >>= fun a => y >>= fun b => pure (g a b)) (ts ++ us) rest (g a b) :=
  hx.bind (hy.give (g a))

theorem Takes.nodeUnless {node : Reader Node} {n : Node} (h : Takes node (t :: us) rest n)
    (ht : ts.contains t = false) : Takes (nodeUnless ts node) (t :: us) rest n := by
  unfold Reading.nodeUnless
  refine Takes.after (a := false) h ?_
  rw [← ht]
  exact takes_isAt ts t _

end Takes

/-! ## Tokens that read as a node -/

/-- Some tokens read as a node, whatever comes behind them; behind a sequence without a block of its
own that must be no dash. -/
structure Reads (inBlock mayHang : Bool) (ts : List Token) (n : Node) : Prop where
  opens : ∃ t us, ts = t :: us ∧ t.opensNode mayHang = true
  takes : ∀ {fuel : Nat} {u : Token} {rest : List Token}, 2 * ts.length + 2 ≤ fuel →
    (mayHang = true → u ≠ .dash) → Takes (node inBlock mayHang fuel) ts (u :: rest) n

variable {inBlock mayHang : Bool} {ts : List Token} {n : Node}

theorem Reads.length_pos (h : Reads inBlock mayHang ts n) : 0 < ts.length := by
  obtain ⟨t, us, rfl, -⟩ := h.opens
  exact Nat.succ_pos _

/-- Where a node stands it is not missing. -/
theorem Reads.takes_nodeUnless (h : Reads inBlock mayHang ts n) {fuel : Nat} {u : Token}
    {rest others : List Token} (hfuel : 2 * ts.length + 2 ≤ fuel) (hu : mayHang = true → u ≠ .dash)
    (hothers : ∀ t, t.opensNode mayHang = true → others.contains t = false) :
    Takes (nodeUnless others (node inBlock mayHang fuel)) ts (u :: rest) n := by
  have htakes : Takes _ ts (u :: rest) n := h.takes hfuel hu
  obtain ⟨t, us, rfl, ht⟩ := h.opens
  exact htakes.nodeUnless (hothers t ht)

theorem Reads.scalar (text : List Char) (isPlain : Bool) :
    Reads inBlock mayHang [.scalar text isPlain] (.scalar (scalarTag none isPlain text) text) where
  opens := ⟨_, _, rfl, rfl⟩
  takes {fuel u rest} hfuel _ := by
    obtain ⟨fuel, rfl⟩ : ∃ f, fuel = f + 1 := ⟨fuel - 1, by omega⟩
    intro r
    cases mayHang <;> rfl

/-! ## Rounds -/

/-- A text of tokens begins with one of a kind. -/
def Begins (p : Token → Prop) (ts : List Token) : Prop := ∃ t us, ts = t :: us ∧ p t

/-- If each round takes the tokens of one part, the rounds take the tokens of all parts. -/
theorem takes_rounds {α β : Type} {loop : Nat → Reader (List β)} {tokens : α → List Token}
    {result : α → β} {closing rest : List Token} {p : Token → Prop} {xs : List α}
    (hbegins : ∀ x ∈ xs, Begins p (tokens x)) (hclosing : Begins p (closing ++ rest))
    (hend : ∀ fuel, Takes (loop (fuel + 1)) closing rest [])
    (hround : ∀ x ∈ xs, ∀ {fuel us bs}, 2 * (tokens x).length ≤ fuel → Begins p (us ++ rest) →
      Takes (loop fuel) us rest bs → Takes (loop (fuel + 1)) (tokens x ++ us) rest (result x :: bs))
    {fuel : Nat} (hfuel : 2 * (xs.flatMap tokens ++ closing).length < fuel) :
    Takes (loop fuel) (xs.flatMap tokens ++ closing) rest (xs.map result) := by
  obtain ⟨fuel, rfl⟩ : ∃ f, fuel = f + 1 := ⟨fuel - 1, by omega⟩
  induction xs generalizing fuel with
  | nil => exact hend fuel
  | cons x xs ih =>
    have hothers : Begins p ((xs.flatMap tokens ++ closing) ++ rest) := by
      cases xs with
      | nil => exact hclosing
      | cons y ys =>
        obtain ⟨t, us, hy, ht⟩ := hbegins y (by simp)
        exact ⟨t, us ++ ys.flatMap tokens ++ closing ++ rest, by simp [hy], ht⟩
    have hpos : 0 < (tokens x).length := by
      obtain ⟨t, us, hx, -⟩ := hbegins x (by simp)
      simp [hx]
    simp only [List.flatMap_cons, List.append_assoc, List.length_append] at hfuel ih ⊢
    obtain ⟨fuel, rfl⟩ : ∃ f, fuel = f + 1 := ⟨fuel - 1, by omega⟩
    refine hround x (by simp) (by omega) (by simpa using hothers) (ih ?_ ?_ fuel (by omega))
    · exact fun y hy => hbegins y (List.mem_cons_of_mem _ hy)
    · exact fun y hy => hround y (List.mem_cons_of_mem _ hy)

/-- A token that opens a collection, then all that the loop for the rest of it takes. -/
theorem Reads.collection {β : Type} (loop : Nat → Reader (List β)) {t : Token} {inner : List Token}
    {make : List β → Node} {bs : List β} (ht : t.opensNode mayHang = true)
    (hnode : ∀ (fuel : Nat) (r : Reading) (us : List Token),
      (node inBlock mayHang (fuel + 1)).run { r with tokens := t :: us } =
        (skip >>= fun _ => loop fuel >>= fun bs => pure (make bs)).run
          { r with tokens := t :: us })
    (hloop : ∀ {fuel u rest}, 2 * inner.length < fuel → Takes (loop fuel) inner (u :: rest) bs) :
    Reads inBlock mayHang (t :: inner) (make bs) where
  opens := ⟨t, inner, rfl, ht⟩
  takes {fuel u rest} hfuel _ := by
    rw [List.length_cons] at hfuel
    obtain ⟨fuel, rfl⟩ : ∃ f, fuel = f + 1 := ⟨fuel - 1, by omega⟩
    have hinner : Takes (loop fuel) inner (u :: rest) bs := hloop (by omega)
    intro r
    exact (hnode fuel r _).trans ((hinner.give make).afterSkip (t := t) r)

/-! ## Collections -/

/-- Tokens of several parts with commas between them. -/
def commaTokens : List (List Token) → List Token
  | [] => []
  | ts :: parts => ts ++ parts.flatMap (.comma :: ·)

/-- If each round takes the tokens of one part, behind a comma unless it is the first, the rounds
take the tokens of all parts with commas between them. -/
theorem takes_separated {α β : Type} {loop : Bool → Nat → Reader (List β)} {tokens : α → List Token}
    {result : α → β} {closing u : Token} {rest : List Token} {xs : List α}
    (hsome : ∀ x ∈ xs, 0 < (tokens x).length)
    (hend : ∀ isFirst fuel, Takes (loop isFirst (fuel + 1)) [closing] (u :: rest) [])
    (hround : ∀ x ∈ xs, ∀ {fuel us bs}, 2 * (tokens x).length + 2 ≤ fuel →
      (∃ v vs, us ++ u :: rest = v :: vs) → Takes (loop false fuel) us (u :: rest) bs →
      Takes (loop true (fuel + 1)) (tokens x ++ us) (u :: rest) (result x :: bs) ∧
        Takes (loop false (fuel + 1)) (.comma :: (tokens x ++ us)) (u :: rest) (result x :: bs))
    {fuel : Nat} (hfuel : 2 * (commaTokens (xs.map tokens) ++ [closing]).length < fuel) :
    Takes (loop true fuel) (commaTokens (xs.map tokens) ++ [closing]) (u :: rest)
      (xs.map result) := by
  obtain ⟨fuel, rfl⟩ : ∃ f, fuel = f + 1 := ⟨fuel - 1, by omega⟩
  cases xs with
  | nil => exact hend true fuel
  | cons x xs =>
    obtain ⟨hx, hxs⟩ := List.forall_mem_cons.1 hround
    have hlength := hsome x List.mem_cons_self
    simp only [List.map_cons, commaTokens, List.flatMap_map, List.append_assoc] at hfuel ⊢
    rw [List.length_append] at hfuel
    have hothers : Takes (loop false fuel) (xs.flatMap (fun y => .comma :: tokens y) ++ [closing])
        (u :: rest) (xs.map result) := by
      refine takes_rounds (p := fun _ => True) ?_ ?_ (hend false) ?_ (by omega)
      · exact fun y _ => ⟨_, _, rfl, trivial⟩
      · exact ⟨_, _, rfl, trivial⟩
      · intro y hy fuel us bs hf hus hloop
        obtain ⟨t, vs, heq, -⟩ := hus
        exact (hxs y hy hf ⟨t, vs, heq⟩ hloop).2
    refine (hx ?_ ?_ hothers).1
    · simp only [List.length_append, List.length_singleton] at hfuel
      omega
    · cases xs <;> exact ⟨_, _, rfl⟩

/-- The tokens of an entry. -/
def entryTokens (x : (List Token × Node) × (List Token × Node)) : List Token :=
  .key :: x.1.1 ++ .value :: x.2.1

/-- The node of an entry. -/
def entryNodes (x : (List Token × Node) × (List Token × Node)) : Node × Node := (x.1.2, x.2.2)

section Items

variable {xs : List (List Token × Node)}

/-- A block sequence. -/
theorem Reads.blockSequence (h : ∀ x ∈ xs, Reads true false x.1 x.2) :
    Reads true mayHang (.sequenceBlock :: (xs.flatMap (.dash :: ·.1) ++ [.blockEnd]))
      (.sequence .sequence (xs.map Prod.snd)) := by
  refine Reads.collection blockItems rfl ?_ fun {fuel u rest} hfuel => ?_
  · intro fuel r us
    cases mayHang <;> rfl
  refine takes_rounds (p := fun t => t = .dash ∨ t = .blockEnd) ?_ ?_ ?_ ?_ hfuel
  · exact fun x _ => ⟨_, _, rfl, .inl rfl⟩
  · exact ⟨_, _, rfl, .inr rfl⟩
  · intro fuel r
    rfl
  · intro x hx fuel us bs hf hus hloop
    obtain ⟨t, vs, heq, -⟩ := hus
    have hitem : Takes (nodeUnless [.dash, .blockEnd] (node true false fuel)) x.1
        (us ++ u :: rest) x.2 := by
      rw [heq]
      refine (h x hx).takes_nodeUnless hf nofun ?_
      intro t ht
      cases t <;> first | rfl | cases ht
    rw [blockItems]
    exact Takes.afterHead (Takes.afterSkip (hitem.both hloop _))

/-- A sequence without a block of its own. -/
theorem Reads.hangingSequence (hne : xs ≠ []) (h : ∀ x ∈ xs, Reads true false x.1 x.2) :
    Reads true true (xs.flatMap (.dash :: ·.1)) (.sequence .sequence (xs.map Prod.snd)) where
  opens := by
    obtain ⟨x, xs, rfl⟩ := List.exists_cons_of_ne_nil hne
    exact ⟨.dash, _, rfl, rfl⟩
  takes {fuel u rest} hfuel hu := by
    obtain ⟨fuel, rfl⟩ : ∃ f, fuel = f + 1 := ⟨fuel - 1, by omega⟩
    have hitems : Takes (hangingItems fuel) (xs.flatMap (.dash :: ·.1)) (u :: rest)
        (xs.map Prod.snd) := by
      rw [← List.append_nil (xs.flatMap _)]
      refine takes_rounds (p := fun t => t = .dash ∨ t = u) ?_ ?_ ?_ ?_ (by rw [List.append_nil]; omega)
      · exact fun x _ => ⟨_, _, rfl, .inl rfl⟩
      · exact ⟨_, _, rfl, .inr rfl⟩
      · intro fuel
        rw [hangingItems]
        refine Takes.after (a := false) (takes_pure [] _) ?_
        have hother : [Token.dash].contains u = false := by simpa using hu rfl
        rw [← hother]
        exact takes_isAt [.dash] u rest
      · intro x hx fuel us bs hf hus hloop
        obtain ⟨t, vs, heq, -⟩ := hus
        have hitem : Takes (nodeUnless [.dash, .key, .value, .blockEnd] (node true false fuel)) x.1
            (us ++ u :: rest) x.2 := by
          rw [heq]
          refine (h x hx).takes_nodeUnless hf nofun ?_
          intro t ht
          cases t <;> first | rfl | cases ht
        rw [hangingItems]
        exact Takes.after (a := true) (Takes.afterSkip (hitem.both hloop _))
          (takes_isAt [.dash] .dash _)
    obtain ⟨x, xs, rfl⟩ := List.exists_cons_of_ne_nil hne
    intro r
    exact hitems.give (Node.sequence .sequence) r

/-- An item between brackets, behind a comma unless it is the first. -/
theorem takes_flowItem {fuel : Nat} {ts us rest : List Token} {n : Node} {ns : List Node}
    (h : Reads false false ts n) (hfuel : 2 * ts.length + 2 ≤ fuel)
    (hus : ∃ u vs, us ++ rest = u :: vs) (hloop : Takes (flowItems false fuel) us rest ns) :
    Takes (flowItems true (fuel + 1)) (ts ++ us) rest (n :: ns) ∧
      Takes (flowItems false (fuel + 1)) (.comma :: (ts ++ us)) rest (n :: ns) := by
  obtain ⟨u, vs, heq⟩ := hus
  have hnode : Takes (node false false fuel) ts (us ++ rest) n := heq ▸ h.takes hfuel nofun
  have hbody := hnode.both hloop List.cons
  obtain ⟨t, ts, rfl, ht⟩ := h.opens
  constructor
  · rw [flowItems]
    refine Takes.after (a := false) ?_ ?_
    · refine Takes.afterHead ?_
      cases t <;> first | exact hbody | cases ht
    · cases t <;> first | exact takes_isAt [.closeBracket] _ _ | cases ht
  · rw [flowItems]
    refine Takes.after (a := false) ?_ (takes_isAt [.closeBracket] .comma _)
    refine (takes_expect .comma _).bind (Takes.afterHead ?_)
    cases t <;> first | exact hbody | cases ht

/-- Items between brackets. -/
theorem Reads.flowSequence (h : ∀ x ∈ xs, Reads false false x.1 x.2) :
    Reads inBlock mayHang
      (.openBracket :: (commaTokens (xs.map Prod.fst) ++ [.closeBracket]))
      (.sequence .sequence (xs.map Prod.snd)) := by
  refine Reads.collection (flowItems true) rfl ?_ fun {fuel u rest} hfuel => ?_
  · intro fuel r us
    cases mayHang <;> rfl
  refine takes_separated (fun x hx => (h x hx).length_pos) ?_ ?_ hfuel
  · intro isFirst fuel r
    rfl
  · intro x hx fuel us bs hf hus hloop
    exact takes_flowItem (h x hx) hf hus hloop

theorem Reads.emptySequence :
    Reads inBlock mayHang [.openBracket, .closeBracket] (.sequence .sequence []) := by
  have hnone : ∀ x ∈ ([] : List (List Token × Node)), Reads false false x.1 x.2 :=
    List.forall_mem_nil _
  exact Reads.flowSequence hnone

end Items

section Entries

variable {xs : List ((List Token × Node) × (List Token × Node))}

/-- The value behind a key. -/
theorem takes_valueOr {fuel : Nat} {others rest : List Token} {u : Token}
    (h : Reads inBlock inBlock ts n) (hfuel : 2 * ts.length + 4 ≤ fuel)
    (hu : inBlock = true → u ≠ .dash)
    (hothers : ∀ t, t.opensNode inBlock = true → others.contains t = false) :
    Takes (valueOr others inBlock fuel) (.value :: ts) (u :: rest) n := by
  obtain ⟨fuel, rfl⟩ : ∃ f, fuel = f + 1 := ⟨fuel - 1, by omega⟩
  rw [valueOr]
  refine Takes.after (a := true) ?_ (takes_isAt [.value] .value _)
  exact (h.takes_nodeUnless (by omega) hu hothers).afterSkip

/-- A key and its value in a block. -/
theorem takes_blockEntry {fuel : Nat} {us rest : List Token} {es : List (Node × Node)}
    {x : (List Token × Node) × (List Token × Node)} (hkey : Reads true true x.1.1 x.1.2)
    (hvalue : Reads true true x.2.1 x.2.2) (hfuel : 2 * (entryTokens x).length ≤ fuel)
    (hus : Begins (fun t => t = .key ∨ t = .blockEnd) (us ++ rest))
    (hloop : Takes (blockEntries fuel) us rest es) :
    Takes (blockEntries (fuel + 1)) (entryTokens x ++ us) rest (entryNodes x :: es) := by
  obtain ⟨t, vs, heq, ht⟩ := hus
  simp only [entryTokens, List.length_append, List.length_cons] at hfuel
  have hothers : ∀ t : Token, t.opensNode true = true →
      [Token.key, .value, .blockEnd].contains t = false := by
    intro t ht
    cases t <;> first | rfl | cases ht
  have htakesValue : Takes (valueOr [.key, .value, .blockEnd] true fuel) (.value :: x.2.1)
      (us ++ rest) x.2.2 := by
    rw [heq]
    refine takes_valueOr hvalue (by omega) (fun _ => ?_) hothers
    rintro rfl
    cases ht <;> contradiction
  have htakesKey : Takes (nodeUnless [.key, .value, .blockEnd] (node true true fuel)) x.1.1
      (.value :: x.2.1 ++ us ++ rest) x.1.2 :=
    hkey.takes_nodeUnless (by omega) (by simp) hothers
  rw [blockEntries, entryTokens, List.append_assoc]
  refine Takes.afterHead (Takes.afterSkip (htakesKey.bind ?_))
  exact htakesValue.both hloop fun value es => (x.1.2, value) :: es

/-- A block mapping. -/
theorem Reads.blockMapping (hkeys : ∀ x ∈ xs, Reads true true x.1.1 x.1.2)
    (hvalues : ∀ x ∈ xs, Reads true true x.2.1 x.2.2) :
    Reads true mayHang (.mappingBlock :: (xs.flatMap entryTokens ++ [.blockEnd]))
      (.mapping .mapping (xs.map entryNodes)) := by
  refine Reads.collection blockEntries rfl ?_ fun {fuel u rest} hfuel => ?_
  · intro fuel r us
    cases mayHang <;> rfl
  refine takes_rounds (p := fun t => t = .key ∨ t = .blockEnd) ?_ ?_ ?_ ?_ hfuel
  · exact fun x _ => ⟨_, _, rfl, .inl rfl⟩
  · exact ⟨_, _, rfl, .inr rfl⟩
  · intro fuel r
    rfl
  · intro x hx fuel us bs hf hus hloop
    exact takes_blockEntry (hkeys x hx) (hvalues x hx) hf hus hloop

/-- A key and its value between braces, behind a comma unless they are the first. -/
theorem takes_flowEntry {fuel : Nat} {us rest : List Token} {es : List (Node × Node)}
    {x : (List Token × Node) × (List Token × Node)} (hkey : Reads false false x.1.1 x.1.2)
    (hvalue : Reads false false x.2.1 x.2.2) (hfuel : 2 * (entryTokens x).length ≤ fuel)
    (hus : ∃ u vs, us ++ rest = u :: vs) (hloop : Takes (flowEntries false fuel) us rest es) :
    Takes (flowEntries true (fuel + 1)) (entryTokens x ++ us) rest (entryNodes x :: es) ∧
      Takes (flowEntries false (fuel + 1)) (.comma :: (entryTokens x ++ us)) rest
        (entryNodes x :: es) := by
  obtain ⟨u, vs, heq⟩ := hus
  simp only [entryTokens, List.length_append, List.length_cons] at hfuel
  have htakesValue : Takes (valueOr [.comma, .closeBrace] false fuel) (.value :: x.2.1)
      (us ++ rest) x.2.2 := by
    rw [heq]
    refine takes_valueOr hvalue (by omega) nofun ?_
    intro t ht
    cases t <;> first | rfl | cases ht
  have htakesKey : Takes (nodeUnless [.value, .comma, .closeBrace] (node false false fuel)) x.1.1
      (.value :: x.2.1 ++ us ++ rest) x.1.2 := by
    refine hkey.takes_nodeUnless (by omega) nofun ?_
    intro t ht
    cases t <;> first | rfl | cases ht
  have hboth : Takes (nodeUnless [.value, .comma, .closeBrace] (node false false fuel) >>= fun key =>
        valueOr [.comma, .closeBrace] false fuel >>= fun value =>
          flowEntries false fuel >>= fun es => pure ((key, value) :: es))
      (x.1.1 ++ (.value :: x.2.1 ++ us)) rest (entryNodes x :: es) :=
    htakesKey.bind (htakesValue.both hloop fun value es => (x.1.2, value) :: es)
  rw [entryTokens, List.append_assoc]
  constructor
  · rw [flowEntries]
    refine Takes.after (a := false) ?_ (takes_isAt [.closeBrace] .key _)
    exact Takes.afterHead (Takes.afterSkip hboth)
  · rw [flowEntries]
    refine Takes.after (a := false) ?_ (takes_isAt [.closeBrace] .comma _)
    exact (takes_expect .comma _).bind (Takes.afterHead (Takes.afterSkip hboth))

/-- Entries between braces. -/
theorem Reads.flowMapping (hkeys : ∀ x ∈ xs, Reads false false x.1.1 x.1.2)
    (hvalues : ∀ x ∈ xs, Reads false false x.2.1 x.2.2) :
    Reads inBlock mayHang (.openBrace :: (commaTokens (xs.map entryTokens) ++ [.closeBrace]))
      (.mapping .mapping (xs.map entryNodes)) := by
  refine Reads.collection (flowEntries true) rfl ?_ fun {fuel u rest} hfuel => ?_
  · intro fuel r us
    cases mayHang <;> rfl
  have hsome : ∀ x ∈ xs, 0 < (entryTokens x).length := fun x _ => Nat.succ_pos _
  refine takes_separated hsome ?_ ?_ hfuel
  · intro isFirst fuel r
    rfl
  · intro x hx fuel us bs hf hus hloop
    exact takes_flowEntry (hkeys x hx) (hvalues x hx) (by omega) hus hloop

theorem Reads.emptyMapping :
    Reads inBlock mayHang [.openBrace, .closeBrace] (.mapping .mapping []) := by
  let none : List ((List Token × Node) × (List Token × Node)) := []
  have hkeys : ∀ x ∈ none, Reads false false x.1.1 x.1.2 := List.forall_mem_nil _
  have hvalues : ∀ x ∈ none, Reads false false x.2.1 x.2.2 := List.forall_mem_nil _
  exact Reads.flowMapping hkeys hvalues

end Entries

/-! ## Streams -/

/-- No document begins where the stream ends. -/
theorem takes_documentStart {ends : List Token} (hends : ends = [] ∨ ends = [.documentEnd])
    (fuel : Nat) : Takes (documentStart (fuel + 2)) ends [.streamEnd] false := by
  intro r
  rcases hends with rfl | rfl <;> rfl

/-- A stream that holds one node, and an end mark of the document if it has one. -/
theorem node?_of_reads (h : Reads true false ts n) {ends : List Token}
    (hends : ends = [] ∨ ends = [.documentEnd]) :
    TokenStream.node? ⟨ts ++ (ends ++ [.streamEnd]), .malformed⟩ = .ok (some n) := by
  obtain ⟨u, rest, heq⟩ : ∃ u rest, ends ++ [Token.streamEnd] = u :: rest := by
    rcases hends with rfl | rfl <;> exact ⟨_, _, rfl⟩
  obtain ⟨fuel, hfuel⟩ : ∃ f, 2 * (ts ++ (ends ++ [Token.streamEnd])).length + 2 = f + 2 := ⟨_, rfl⟩
  have hlength : 2 * ts.length + 2 ≤ fuel + 2 := by
    rw [← hfuel, List.length_append]
    omega
  have hnode : Takes (node true false (fuel + 2)) ts (ends ++ [.streamEnd]) n :=
    heq ▸ h.takes hlength nofun
  have hend : Takes (documentStart (fuel + 2) >>= fun isThere =>
      if isThere then refuse else pure (some n)) ends [.streamEnd] (some n) := by
    intro r
    rw [StateT.run_bind, takes_documentStart hends fuel r]
    rfl
  have hdocument : Takes (node true false (fuel + 2) >>= fun n => documentStart (fuel + 2) >>=
      fun isThere => if isThere then refuse else pure (some n)) (ts ++ ends) [.streamEnd] (some n) :=
    hnode.bind hend
  have hrun := hdocument ⟨[], .malformed, commonHandles, []⟩
  rw [TokenStream.node?, hfuel]
  obtain ⟨t, us, rfl, ht⟩ := h.opens
  have hstream : (stream (fuel + 2)).run ⟨t :: us ++ (ends ++ [.streamEnd]), .malformed, [], []⟩ =
      .ok (some n, ⟨[.streamEnd], .malformed, commonHandles, []⟩) := by
    rw [← hrun, List.append_assoc]
    cases t <;> first | rfl | cases ht
  rw [hstream]
  rfl

/-- A stream that holds nothing but a node. -/
theorem node?_of_reads_alone (h : Reads true false ts n) :
    TokenStream.node? ⟨ts ++ [.streamEnd], .malformed⟩ = .ok (some n) := by
  have hends : ([] : List Token) = [] ∨ ([] : List Token) = [.documentEnd] := .inl rfl
  have hnode := node?_of_reads h hends
  rwa [List.nil_append] at hnode

end Reading
end Stencil.Yaml
