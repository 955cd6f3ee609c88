import Stencil.Proofs.Json.Text
import Stencil.Proofs.Yaml.Flow
import Stencil.Proofs.Yaml.Reading
import Stencil.Proofs.Yaml.Word

/-!
# JSON text as tokens

A text *scans* as some tokens if reading them from an afloat state leaves what follows the text and
the filler behind it (`Scans`). Words, strings and keys before their values scan, and if some parts
do, they do between brackets with commas and filler between them (`Scans.enclosed`); the induction
on the parts is in `gains_joined`.
-/

namespace Stencil.Json

open Text Yaml Yaml.Scan Yaml.Reading

variable {isPart : Bool} {cs ds w : List Char} {ts : List Token} {c : Char}

/-- A text scans as some tokens. A part of a collection may count on it that a key may begin where
it stands, and that brackets are open. -/
structure Scans (isPart : Bool) (cs : List Char) (ts : List Token) : Prop where
  solid : ∀ rest, isSolid (cs ++ rest) = true
  gains : ∀ {t : Scan} {v rest : List Char}, t.Afloat →
    (isPart = true → t.allowsKey = true ∧ t.inFlow = true) → t.rest = cs ++ (v ++ rest) →
    (∀ c ∈ v, isFiller c = true) → Unquoted.Stops t.inFlow rest →
    ∃ u, Gains t u ts rest t.suspended.length

/-! ## Scalars -/

/-- A word begins a plain scalar. -/
theorem fetch_word (h : IsWord w) (hw : w = c :: ds) (rest : List Char) (t : Scan) :
    fetch c (ds ++ rest) t = plainScalar t := by
  have hc : Unquoted.isLetter c = true := h.letters c (by simp [hw])
  subst hw
  refine fetch_plain (h.leadsWithIndicator_eq rest) (h.beginsLikeMarker_eq rest)
    (isBlankOrBreak_of_isLetter hc) fun _ => ⟨?_, ?_⟩
  · exact Unquoted.ne_of_isLetter hc (by decide)
  · exact Unquoted.ne_of_isLetter hc (by decide)

theorem Scans.word (h : IsWord w) : Scans isPart w [.scalar w true] := by
  obtain ⟨c, ds, hw⟩ := h.exists_cons
  refine ⟨?_, ?_⟩
  · intro rest
    rw [hw]
    exact isSolid_of_isLetter (h.letters c (by simp [hw])) _
  · intro t v rest ht _ hrest hv hstops
    have hscan : Unquoted.scan t.inFlow t.margin t.rest = ⟨w, rest, v.contains '\n'⟩ := by
      rw [hrest, Unquoted.scan_word h.letters hv hstops]
    rw [hw] at hrest
    exact ht.gains_plain hrest (fetch_word h hw _ t) hscan (Unquoted.isSolid_of_stops hstops)

theorem string_eq (cs : List Char) : string cs = '\x22' :: (cs.flatMap escaped ++ ['\x22']) := rfl

theorem Scans.string (h : isBasic cs = true) : Scans isPart (string cs) [.scalar cs false] where
  solid _ := rfl
  gains {t v rest} ht _ hrest hv hstops := by
    refine ht.gains_quoted (w := cs.flatMap escaped ++ ['\x22']) hrest ?_ hv
      (Unquoted.isSolid_of_stops hstops)
    rw [List.append_assoc]
    exact scan_string h _

/-- The characters of a string are printable and stand on one line. -/
theorem escaped_ascii (c : Char) : ∀ d ∈ escaped c, 0x20 ≤ d.toNat ∧ d.toNat ≤ 0x7e := by
  have hdigit : ∀ n < 16, 0x20 ≤ (hexDigit n).toNat ∧ (hexDigit n).toNat ≤ 0x7e := by decide
  have hunit : ∀ n, ∀ d ∈ unitEscape n, 0x20 ≤ d.toNat ∧ d.toNat ≤ 0x7e := by
    intro n d hd
    rcases List.mem_cons.1 hd with rfl | hd
    · decide
    rcases List.mem_cons.1 hd with rfl | hd
    · decide
    · exact forall_hexDigits (p := fun c => 0x20 ≤ c.toNat ∧ c.toNat ≤ 0x7e) hdigit 4 n d hd
  unfold escaped
  split
  · exact List.all_iff_forall_prop.1 (by decide)
  · exact List.all_iff_forall_prop.1 (by decide)
  · exact List.all_iff_forall_prop.1 (by decide)
  · exact List.all_iff_forall_prop.1 (by decide)
  · exact List.all_iff_forall_prop.1 (by decide)
  · exact List.all_iff_forall_prop.1 (by decide)
  · exact List.all_iff_forall_prop.1 (by decide)
  · dsimp only
    split
    · next hascii =>
      intro d hd
      rw [List.mem_singleton.1 hd]
      simpa using hascii
    · split
      · exact hunit _
      · intro d hd
        rcases List.mem_append.1 hd with hd | hd
        · exact hunit _ d hd
        · exact hunit _ d hd

theorem string_ascii (cs : List Char) : ∀ c ∈ string cs, 0x20 ≤ c.toNat ∧ c.toNat ≤ 0x7e := by
  intro c hc
  rw [string_eq] at hc
  rcases List.mem_cons.1 hc with rfl | hc
  · decide
  rcases List.mem_append.1 hc with hc | hc
  · obtain ⟨d, -, hd⟩ := List.mem_flatMap.1 hc
    exact escaped_ascii d c hd
  · rw [List.mem_singleton.1 hc]
    decide

/-- A key before its value. -/
theorem Scans.entry {key : List Char} (hkey : isBasic key = true)
    (hlength : (Json.string key).length ≤ keyLimit) (h : Scans false cs ts) :
    Scans true (Json.string key ++ ':' :: ' ' :: cs) (.key :: .scalar key false :: .value :: ts) where
  solid _ := rfl
  gains {t v rest} ht hpart hrest hv hstops := by
    obtain ⟨hallows, hflow⟩ := hpart rfl
    have hinline : ∀ c ∈ key.flatMap escaped ++ ['\x22'], Cursor.isInline c = true := by
      intro c hc
      exact Cursor.isInline_of_ascii (string_ascii key c (List.mem_cons_of_mem _ hc))
    have hsplit : t.rest = '\x22' :: ((key.flatMap escaped ++ ['\x22']) ++
        ':' :: ([' '] ++ (cs ++ (v ++ rest)))) := by
      rw [hrest, string_eq]
      simp
    have hscan : Quoted.scan true ((key.flatMap escaped ++ ['\x22']) ++
        ':' :: ([' '] ++ (cs ++ (v ++ rest)))) = .ok (key, ':' :: ([' '] ++ (cs ++ (v ++ rest)))) := by
      rw [List.append_assoc]
      exact scan_string hkey _
    obtain ⟨u, hu⟩ := ht.gains_key hallows hflow hsplit hscan hinline hlength (List.all_eq_true.1 rfl)
      (h.solid (v ++ rest))
    have huflow : u.inFlow = t.inFlow := by rw [inFlow_eq, hu.depth_eq, ← inFlow_eq]
    obtain ⟨z, hz⟩ := h.gains hu.afloat nofun hu.rest_eq hv (huflow ▸ hstops)
    exact ⟨z, hu.depth_eq ▸ hu.trans hz⟩

/-! ## Collections -/

theorem joinWith_cons (separator : List Char) (part : List Char) (parts : List (List Char)) :
    Value.joinWith separator (part :: parts) = part ++ parts.flatMap (separator ++ ·) := by
  induction parts generalizing part with
  | nil => exact (List.append_nil part).symm
  | cons next parts ih =>
    have hmore : next :: parts = [] → False := List.cons_ne_nil _ _
    rw [Value.joinWith.eq_3 _ _ _ hmore, ih, List.flatMap_cons, List.append_assoc, List.append_assoc]

/-- Parts with commas and filler between them. -/
theorem gains_joined {x : List Char × List Token} {xs : List (List Char × List Token)}
    {filler v rest : List Char} (h : ∀ y ∈ x :: xs, Scans true y.1 y.2)
    (hfiller : ∀ c ∈ filler, isFiller c = true) (hv : ∀ c ∈ v, isFiller c = true) {t : Scan}
    (ht : t.Afloat) (hallows : t.allowsKey = true) (hflow : t.inFlow = true)
    (hrest : t.rest = x.1 ++ (xs.flatMap (fun y => ',' :: (filler ++ y.1)) ++ (v ++ rest)))
    (hstops : Unquoted.Stops true rest) :
    ∃ u, Gains t u (commaTokens ((x :: xs).map Prod.snd)) rest t.suspended.length := by
  induction xs generalizing x t with
  | nil =>
    have hlast : t.rest = x.1 ++ (v ++ rest) := hrest
    obtain ⟨u, hu⟩ := (h x (by simp)).gains ht (fun _ => ⟨hallows, hflow⟩) hlast hv (hflow ▸ hstops)
    exact ⟨u, by simpa [commaTokens] using hu⟩
  | cons y ys ih =>
    obtain ⟨hx, hxs⟩ := List.forall_mem_cons.1 h
    have hy : Scans true y.1 y.2 := hxs y (by simp)
    rw [List.flatMap_cons, List.append_assoc, List.cons_append, List.append_assoc] at hrest
    obtain ⟨u, hu⟩ := hx.gains ht (fun _ => ⟨hallows, hflow⟩) (v := []) hrest (List.forall_mem_nil _)
      (.inr ⟨hflow, ',', _, rfl, by decide⟩)
    obtain ⟨u', hu', hallows'⟩ := hu.afloat.gains_comma hu.rest_eq hfiller (hy.solid _)
    have hflow' : u'.inFlow = true := by
      rw [inFlow_eq, hu'.depth_eq, hu.depth_eq, ← inFlow_eq, hflow]
    obtain ⟨z, hz⟩ := ih hxs hu'.afloat hallows' hflow' hu'.rest_eq
    have hall := (hu.trans hu').trans hz
    rw [hu'.depth_eq, hu.depth_eq] at hall
    exact ⟨z, by simpa [commaTokens] using hall⟩

/-- A bracket or brace, what closes it, and their tokens. -/
structure Brackets where
  opening : Char
  closing : Char
  opens : Token
  closes : Token
  fetch_opening : ∀ cs t, fetch opening cs t = openFlow opens t
  fetch_closing : ∀ cs t, fetch closing cs t = closeFlow closes t
  opening_solid : isSolid [opening] = true
  closing_stops : closing ∈ [',', ']', '\x7d']

/-- The brackets of lists. -/
def Brackets.square : Brackets :=
  ⟨'[', ']', .openBracket, .closeBracket, fetch_openBracket, fetch_closeBracket, by decide, by decide⟩

/-- The braces of documents. -/
def Brackets.curly : Brackets :=
  ⟨'\x7b', '\x7d', .openBrace, .closeBrace, fetch_openBrace, fetch_closeBrace, by decide, by decide⟩

theorem breakAt_filler (width depth : Nat) :
    ∀ c ∈ (Layout.indented width).breakAt depth, isFiller c = true := by
  intro c hc
  rcases List.mem_cons.1 hc with rfl | hc
  · rfl
  · rw [List.eq_of_mem_replicate hc]
    rfl

/-- **Parts between brackets.** If parts scan, they do between brackets. -/
theorem Scans.enclosed (b : Brackets) (width depth : Nat) {xs : List (List Char × List Token)}
    (h : ∀ x ∈ xs, Scans true x.1 x.2) :
    Scans isPart ((Layout.indented width).enclose depth b.opening b.closing (xs.map Prod.fst))
      (b.opens :: (commaTokens (xs.map Prod.snd) ++ [b.closes])) := by
  have hclosing : ∀ rest, Unquoted.Stops true (b.closing :: rest) :=
    fun rest => .inr ⟨rfl, _, _, rfl, b.closing_stops⟩
  cases xs with
  | nil =>
    refine ⟨fun _ => b.opening_solid, ?_⟩
    intro t v rest ht _ hrest hv hstops
    have hsplit : t.rest = b.opening :: ([] ++ b.closing :: (v ++ rest)) := hrest
    obtain ⟨u, hu, -⟩ := ht.gains_open hsplit (b.fetch_opening _ t) (List.forall_mem_nil _)
      (Unquoted.isSolid_of_stops (hclosing _))
    obtain ⟨z, hz⟩ := hu.afloat.gains_close hu.rest_eq (b.fetch_closing _ u) hu.depth_eq hv
      (Unquoted.isSolid_of_stops hstops)
    exact ⟨z, hu.trans hz⟩
  | cons x xs =>
    refine ⟨fun _ => b.opening_solid, ?_⟩
    intro t v rest ht _ hrest hv hstops
    have hx : Scans true x.1 x.2 := h x (by simp)
    have hsplit : t.rest = b.opening :: ((Layout.indented width).breakAt (depth + 1) ++
        (x.1 ++ (xs.flatMap (fun y => ',' :: ((Layout.indented width).breakAt (depth + 1) ++ y.1)) ++
          ((Layout.indented width).breakAt depth ++ b.closing :: (v ++ rest))))) := by
      rw [hrest, List.map_cons, Layout.enclose, joinWith_cons, List.flatMap_map]
      · simp [Layout.separator]
      · exact List.cons_ne_nil _ _
    obtain ⟨u, hu, hallows⟩ := ht.gains_open hsplit (b.fetch_opening _ t) (breakAt_filler _ _)
      (hx.solid _)
    have hflow : u.inFlow = true := by
      rw [inFlow_eq, hu.depth_eq, decide_eq_true_eq]
      exact Nat.succ_pos _
    obtain ⟨u', hu'⟩ := gains_joined h (breakAt_filler _ _) (breakAt_filler _ _) hu.afloat hallows
      hflow hu.rest_eq (hclosing _)
    obtain ⟨z, hz⟩ := hu'.afloat.gains_close hu'.rest_eq (b.fetch_closing _ u')
      (hu'.depth_eq.trans hu.depth_eq) hv (Unquoted.isSolid_of_stops hstops)
    exact ⟨z, by simpa using (hu.trans hu').trans hz⟩

end Stencil.Json
