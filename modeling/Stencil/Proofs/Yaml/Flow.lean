import Stencil.Proofs.Yaml.Fetching

/-!
# Tokens between brackets

A state is *afloat* if no block is open and no key must come (`Scan.Afloat`). It stays so from the
first bracket of a document to the last, and then nothing hangs on the candidates for keys but that
the one of a key is still there at the colon behind it. So a way of steps between such states is
told by the tokens it adds, the text it leaves and the count of brackets open at its end
(`Scan.Gains`).

Main results: `Scan.Afloat.gains_quoted`, `gains_plain`, `gains_key` and the lemmas for brackets and
commas.
-/

namespace Stencil.Yaml.Scan

variable {s t u : Scan} {c : Char} {v w cs ds text : List Char} {ts us : List Token} {m n : Nat}

theorem inFlow_eq (s : Scan) : s.inFlow = decide (0 < s.suspended.length) := by
  unfold inFlow
  cases s.suspended <;> rfl

/-! ## Afloat states -/

/-- No block is open, and no key must come. -/
structure Afloat (s : Scan) : Prop where
  margin_eq : s.margin = 0
  outer_eq : s.outer = []
  idle : s.IsIdle
  suspended : ∀ k, some k ∈ s.suspended → k.isRequired = false

namespace Afloat

theorem not_required (h : s.Afloat) {k : Candidate} (hk : s.HasCandidate k) :
    k.isRequired = false := by
  rcases hk with hk | hk
  · exact h.idle k hk
  · exact h.suspended k hk

theorem mem_keep {p : Cursor} {k? : Option Candidate} {k : Candidate} (h : keep p k? = some k) :
    k? = some k := by
  cases k? with
  | none => cases h
  | some k' =>
    have hk : k' = k := (Option.filter_eq_some_iff.1 h).1 |> Option.some.inj
    rw [hk]

theorem behind (h : s.Afloat) (v : List Char) : (s.behind v).Afloat where
  margin_eq := h.margin_eq
  outer_eq := h.outer_eq
  idle := by
    intro k hk
    exact h.idle k (mem_keep hk)
  suspended := by
    intro k hk
    obtain ⟨k?, hmem, hkeep⟩ := List.mem_map.1 hk
    exact h.suspended k (mem_keep hkeep ▸ hmem)

theorem closeToColumn_eq (h : s.Afloat) : s.closeToColumn = s := by
  unfold closeToColumn
  by_cases hflow : s.inFlow = true
  · exact if_pos hflow
  · rw [if_neg hflow, h.outer_eq]
    obtain ⟨cursor, reversed, margin, outer, candidate?, suspended, allowsKey⟩ := s
    obtain rfl : outer = [] := h.outer_eq
    rfl

theorem settled (h : s.Afloat) (hrest : s.rest = v ++ cs) (hv : ∀ c ∈ v, isFiller c = true)
    (hcs : isSolid cs = true) : settled s = .ok (s.behind v) := by
  rw [settled_eq hrest hv hcs, (h.behind v).closeToColumn_eq]
  intro k hk hrequired
  rw [h.not_required hk] at hrequired
  cases hrequired

theorem noted (h : s.Afloat) : s.noted.Afloat where
  margin_eq := by rw [margin_noted, h.margin_eq]
  outer_eq := by rw [outer_noted, h.outer_eq]
  idle := by
    unfold Scan.noted
    split
    · intro k hk
      cases hk
      simp [h.margin_eq]
    · exact h.idle
  suspended := by
    rw [suspended_noted]
    exact h.suspended

end Afloat

/-! ## Ways between afloat states -/

/-- A way to an afloat state that adds some tokens, leaves a text and ends with so many brackets
open. -/
structure Gains (t u : Scan) (ts : List Token) (cs : List Char) (depth : Nat) : Prop where
  leads : Leads t u
  afloat : u.Afloat
  rest_eq : u.rest = cs
  reversed_eq : u.reversed = ts.reverse ++ t.reversed
  depth_eq : u.suspended.length = depth

theorem Gains.trans {r : Scan} (h : Gains r t ts ds m) (h' : Gains t u us cs n) :
    Gains r u (ts ++ us) cs n where
  leads := h.leads.trans h'.leads
  afloat := h'.afloat
  rest_eq := h'.rest_eq
  reversed_eq := by rw [h'.reversed_eq, h.reversed_eq, List.reverse_append, List.append_assoc]
  depth_eq := h'.depth_eq

/-- A token is fetched, and the filler behind it is passed. -/
theorem Afloat.next (hs : s.Afloat) (hrest : t.rest = c :: ds) (hfetch : fetch c ds t = .ok s)
    (hleft : s.rest = v ++ cs) (hv : ∀ c ∈ v, isFiller c = true) (hcs : isSolid cs = true)
    (hshorter : (v ++ cs).length ≤ ds.length) : Next t (s.behind v) := by
  refine ⟨c, ds, s, hrest, hfetch, hs.settled hleft hv hcs, ?_⟩
  rw [rest_behind hleft]
  rw [List.length_append] at hshorter
  omega

theorem gains_of_fetch (hrest : t.rest = c :: ds) (hfetch : fetch c ds t = .ok s) (hs : s.Afloat)
    (hreversed : s.reversed = ts.reverse ++ t.reversed) (hleft : s.rest = v ++ cs)
    (hv : ∀ c ∈ v, isFiller c = true) (hcs : isSolid cs = true)
    (hshorter : (v ++ cs).length ≤ ds.length) :
    Gains t (s.behind v) ts cs s.suspended.length where
  leads := .single (hs.next hrest hfetch hleft hv hcs hshorter)
  afloat := hs.behind v
  rest_eq := rest_behind hleft
  reversed_eq := hreversed
  depth_eq := List.length_map _

namespace Afloat

/-! ## Brackets and commas -/

theorem gains_open {t' : Token} (h : t.Afloat) (hrest : t.rest = c :: (v ++ cs))
    (hfetch : fetch c (v ++ cs) t = openFlow t' t) (hv : ∀ c ∈ v, isFiller c = true)
    (hcs : isSolid cs = true) :
    ∃ u, Gains t u [t'] cs (t.suspended.length + 1) ∧ u.allowsKey = true := by
  let s := t.opened t'
  have hopen : openFlow t' t = .ok s := openFlow_eq h.idle
  have hs : s.Afloat := by
    refine ⟨h.noted.margin_eq, h.noted.outer_eq, isIdle_of_none rfl, ?_⟩
    intro k hk
    rcases List.mem_cons.1 hk with hk | hk
    · exact h.noted.idle k hk.symm
    · exact h.suspended k hk
  have hleft : s.rest = v ++ cs := by
    show (t.skip 1).rest = _
    rw [rest_skip, hrest]
    rfl
  refine ⟨s.behind v, gains_of_fetch hrest (hfetch.trans hopen) hs rfl hleft hv hcs ?_, rfl⟩
  exact Nat.le_refl _

theorem gains_comma (h : t.Afloat) (hrest : t.rest = ',' :: (v ++ cs))
    (hv : ∀ c ∈ v, isFiller c = true) (hcs : isSolid cs = true) :
    ∃ u, Gains t u [.comma] cs t.suspended.length ∧ u.allowsKey = true := by
  let s : Scan := { t with
    cursor := t.cursor.advance 1
    reversed := .comma :: t.reversed
    candidate? := none
    allowsKey := true }
  have hcomma : fetch ',' (v ++ cs) t = .ok s := by
    rw [fetch_comma, comma, dropCandidate_eq h.idle]
    rfl
  have hs : s.Afloat := ⟨h.margin_eq, h.outer_eq, isIdle_of_none rfl, h.suspended⟩
  have hleft : s.rest = v ++ cs := by
    show (t.skip 1).rest = _
    rw [rest_skip, hrest]
    rfl
  exact ⟨s.behind v, gains_of_fetch hrest hcomma hs rfl hleft hv hcs (Nat.le_refl _), rfl⟩

theorem gains_close {t' : Token} (h : t.Afloat) (hrest : t.rest = c :: (v ++ cs))
    (hfetch : fetch c (v ++ cs) t = closeFlow t' t) (hdepth : t.suspended.length = n + 1)
    (hv : ∀ c ∈ v, isFiller c = true) (hcs : isSolid cs = true) : ∃ u, Gains t u [t'] cs n := by
  obtain ⟨k?, suspended, hsuspended⟩ := List.exists_cons_of_length_eq_add_one hdepth
  let s : Scan := { t with
    cursor := t.cursor.advance 1
    reversed := t' :: t.reversed
    candidate? := k?
    suspended
    allowsKey := false }
  have hclose : fetch c (v ++ cs) t = .ok s := by
    rw [hfetch, closeFlow, hsuspended]
    rfl
  have hs : s.Afloat := by
    refine ⟨h.margin_eq, h.outer_eq, ?_, ?_⟩
    · intro k hk
      have hmem : some k ∈ t.suspended := by
        rw [hsuspended, show k? = some k from hk]
        exact List.mem_cons_self
      exact h.suspended k hmem
    · intro k hk
      have hmem : some k ∈ t.suspended := by
        rw [hsuspended]
        exact List.mem_cons_of_mem _ hk
      exact h.suspended k hmem
  have hleft : s.rest = v ++ cs := by
    show (t.skip 1).rest = _
    rw [rest_skip, hrest]
    rfl
  have hlength : s.suspended.length = n := by
    rw [hsuspended, List.length_cons] at hdepth
    exact Nat.succ.inj hdepth
  have hgains : Gains t (s.behind v) [t'] cs _ :=
    gains_of_fetch hrest hclose hs rfl hleft hv hcs (Nat.le_refl _)
  exact ⟨s.behind v, hlength ▸ hgains⟩

/-! ## Scalars -/

theorem behindScalar (h : t.Afloat) (n : Nat) (text : List Char) (isPlain allowsKey : Bool) :
    (t.behindScalar n text isPlain allowsKey).Afloat :=
  ⟨h.noted.margin_eq, h.noted.outer_eq, h.noted.idle, h.noted.suspended⟩

theorem depth_behindScalar (n : Nat) (text : List Char) (isPlain allowsKey : Bool) (t : Scan) :
    (t.behindScalar n text isPlain allowsKey).suspended.length = t.suspended.length :=
  congrArg List.length (suspended_noted t)

theorem gains_quoted (h : t.Afloat) (hrest : t.rest = '\x22' :: (w ++ (v ++ cs)))
    (hscan : Quoted.scan true (w ++ (v ++ cs)) = .ok (text, v ++ cs))
    (hv : ∀ c ∈ v, isFiller c = true) (hcs : isSolid cs = true) :
    ∃ u, Gains t u [.scalar text false] cs t.suspended.length := by
  let s := t.behindScalar (w.length + 1) text false false
  have hfetch : fetch '\x22' (w ++ (v ++ cs)) t = .ok s := by
    rw [fetch_double, quotedScalar_eq h.idle hrest hscan]
  have hleft : s.rest = v ++ cs := by
    show (t.noted.skip (w.length + 1)).rest = _
    rw [rest_skip, rest_noted, hrest, List.drop_succ_cons, List.drop_left]
  have hreversed : s.reversed = [.scalar text false].reverse ++ t.reversed :=
    congrArg (_ :: ·) (reversed_noted t)
  have hgains := gains_of_fetch hrest hfetch (h.behindScalar _ _ _ _) hreversed hleft hv hcs (by simp)
  exact ⟨s.behind v, depth_behindScalar _ _ _ _ t ▸ hgains⟩

/-- A plain scalar; the filler behind it is read with it. -/
theorem gains_plain {crossed : Bool} (h : t.Afloat) (hrest : t.rest = c :: (w ++ (v ++ cs)))
    (hfetch : fetch c (w ++ (v ++ cs)) t = plainScalar t)
    (hscan : Unquoted.scan t.inFlow t.margin t.rest = ⟨text, cs, crossed⟩)
    (hcs : isSolid cs = true) : ∃ u, Gains t u [.scalar text true] cs t.suspended.length := by
  have hsplit : t.rest = (c :: (w ++ v)) ++ cs := by simp [hrest]
  let s := t.behindScalar (c :: (w ++ v)).length text true crossed
  have hplain : fetch c (w ++ (v ++ cs)) t = .ok s := by
    rw [hfetch, plainScalar_eq h.idle hsplit hscan]
  have hleft : s.rest = [] ++ cs := by
    show (t.noted.skip (c :: (w ++ v)).length).rest = _
    rw [rest_skip, rest_noted, hsplit, List.drop_left]
    rfl
  have hreversed : s.reversed = [.scalar text true].reverse ++ t.reversed :=
    congrArg (_ :: ·) (reversed_noted t)
  have hgains := gains_of_fetch hrest hplain (h.behindScalar _ _ _ _) hreversed hleft nofun hcs
    (by simp; omega)
  exact ⟨s.behind [], depth_behindScalar _ _ _ _ t ▸ hgains⟩

/-- Behind a scalar on its line the candidate for it is still there. -/
theorem candidate_behindScalar (hkey : t.allowsKey = true) (hflow : t.inFlow = true)
    (hrest : t.rest = w ++ cs) (hinline : ∀ c ∈ w, Cursor.isInline c = true)
    (hlength : w.length ≤ keyLimit) :
    ((t.behindScalar w.length text false false).behind []).candidate? =
      some ⟨t.reversed.length, false, t.cursor⟩ := by
  have hnoted : t.noted.candidate? = some ⟨t.reversed.length, false, t.cursor⟩ := by
    unfold Scan.noted
    rw [if_pos hkey, hflow]
    rfl
  show keep (t.noted.cursor.advance w.length) t.noted.candidate? = _
  rw [cursor_noted, hnoted]
  exact keep_inline (k := ⟨t.reversed.length, false, t.cursor⟩) hrest hinline hlength

/-- At a colon the token of the key is put before the scalar, and the filler is passed. -/
theorem gains_colon {k : Candidate} {x : Token} (h : s.Afloat) (hflow : s.inFlow = true)
    (hrest : s.rest = ':' :: (v ++ cs)) (hcandidate : s.candidate? = some k)
    (hreversed : s.reversed = x :: t.reversed) (hposition : k.position = t.reversed.length)
    (hv : ∀ c ∈ v, isFiller c = true) (hcs : isSolid cs = true) :
    ∃ u, Next s u ∧ u.Afloat ∧ u.rest = cs ∧ u.reversed = .value :: x :: .key :: t.reversed ∧
      u.suspended.length = s.suspended.length := by
  let s' := settle k s
  have hs' : s' = { s with
      cursor := s.cursor.advance 1
      reversed := .value :: x :: .key :: t.reversed
      candidate? := none
      allowsKey := false } :=
    settle_of_inFlow hflow hreversed hposition
  have hvalue : fetch ':' (v ++ cs) s = .ok s' := by
    rw [fetch_colon (by rw [hflow]; rfl), value, hcandidate]
  have hafloat : s'.Afloat := by
    rw [hs']
    exact ⟨h.margin_eq, h.outer_eq, isIdle_of_none rfl, h.suspended⟩
  have hleft : s'.rest = v ++ cs := by
    rw [hs']
    show (s.skip 1).rest = _
    rw [rest_skip, hrest]
    rfl
  refine ⟨s'.behind v, hafloat.next hrest hvalue hleft hv hcs (Nat.le_refl _), hafloat.behind v,
    rest_behind hleft, congrArg reversed hs', ?_⟩
  exact (List.length_map _).trans (congrArg (·.suspended.length) hs')

/-- A key in quotes with the colon behind it, which is on the same line and not too far away. -/
theorem gains_key (h : t.Afloat) (hkey : t.allowsKey = true) (hflow : t.inFlow = true)
    (hrest : t.rest = '\x22' :: (w ++ ':' :: (v ++ cs)))
    (hscan : Quoted.scan true (w ++ ':' :: (v ++ cs)) = .ok (text, ':' :: (v ++ cs)))
    (hinline : ∀ c ∈ w, Cursor.isInline c = true) (hlength : w.length < keyLimit)
    (hv : ∀ c ∈ v, isFiller c = true) (hcs : isSolid cs = true) :
    ∃ u, Gains t u [.key, .scalar text false, .value] cs t.suspended.length := by
  let k : Scan := t.behindScalar (w.length + 1) text false false
  let s : Scan := k.behind []
  have hk : k.Afloat := h.behindScalar _ _ _ _
  have hfetch : fetch '\x22' (w ++ ':' :: (v ++ cs)) t = .ok k := by
    rw [fetch_double, quotedScalar_eq h.idle hrest hscan]
  have hleft : k.rest = [] ++ ':' :: (v ++ cs) := by
    show (t.noted.skip (w.length + 1)).rest = _
    rw [rest_skip, rest_noted, hrest, List.drop_succ_cons, List.drop_left]
    rfl
  have hfirst : Next t s := hk.next hrest hfetch hleft nofun rfl (by simp)
  have hcandidate : s.candidate? = some ⟨t.reversed.length, false, t.cursor⟩ :=
    candidate_behindScalar (w := '\x22' :: w) hkey hflow hrest
      (List.forall_mem_cons.2 ⟨by decide, hinline⟩) (Nat.succ_le_of_lt hlength)
  have hdepth : s.suspended.length = t.suspended.length :=
    (List.length_map _).trans (depth_behindScalar _ _ _ _ t)
  have hsflow : s.inFlow = true := by
    rw [inFlow_eq, hdepth, ← inFlow_eq, hflow]
  have hreversed : s.reversed = .scalar text false :: t.reversed :=
    congrArg (_ :: ·) (reversed_noted t)
  obtain ⟨u, hsecond, hafloat, hurest, hureversed, hudepth⟩ :=
    gains_colon (hk.behind []) hsflow (rest_behind hleft) hcandidate hreversed rfl hv hcs
  exact ⟨u, .tail (.single hfirst) hsecond, hafloat, hurest, hureversed, hudepth.trans hdepth⟩

end Afloat
end Stencil.Yaml.Scan
