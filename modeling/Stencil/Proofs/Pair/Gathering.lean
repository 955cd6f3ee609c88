import Mathlib.Data.List.Forall2
import Mathlib.Data.List.Induction
import Mathlib.Data.List.TakeWhile
import Stencil.Pair
import Stencil.Proofs.Document.Removal

/-!
# Gathering pairs

`parse` looks through its texts twice, for complaints and for entries. The same comes of one loop
that takes the texts in turn and puts something of each on one of two piles (`parse_eq_result`).

**The invariant** (`Gathering.Holds`) says what is on both piles after some texts. One has a complaint
for every faulty text, in their order (`Sorted`). The other has every key once, in the place where it
came first and with the value that it was given last, so it can be only one document
(`Gathers.eq_lastValues`).

**The outcome** hangs on whether there are complaints; if so, nothing comes of the other pile. Texts
that are made of distinct keys give the keys and their values back.

Main result: `parse_outcome`.
-/

namespace Stencil.Pair

/-! ## One text -/

/-- The text has no equals sign, or nothing in front of it. -/
def IsFaulty (pair : String) : Prop := '=' ∉ pair.toList ∨ pair.toList.head? = some '='

/-- The text is a key, an equals sign and a value. The sign is the first one of the text. -/
def IsPair (pair k v : String) : Prop := k ≠ "" ∧ '=' ∉ k.toList ∧ pair = k ++ "=" ++ v

section

variable {pair k v : String}

theorem IsPair.toList_eq (h : IsPair pair k v) : pair.toList = k.toList ++ '=' :: v.toList := by
  obtain ⟨-, -, rfl⟩ := h
  simp

theorem IsPair.split_eq (h : IsPair pair k v) : split pair.toList = .ok (k.toList, v.toList) := by
  rw [h.toList_eq]
  exact split_append (by simpa using h.1) h.2.1

theorem IsPair.not_isFaulty (h : IsPair pair k v) : ¬ IsFaulty pair := by
  rw [IsFaulty, h.toList_eq]
  obtain ⟨hne, hmem, -⟩ := h
  cases hk : k.toList with
  | nil => exact absurd hk (by simpa using hne)
  | cons c cs =>
    rw [hk, List.mem_cons, not_or] at hmem
    simpa using Ne.symm hmem.1

theorem split_of_notMem {cs : List Char} (h : '=' ∉ cs) : split cs = .error .noEquals := by
  have hdrop : cs.dropWhile (· != '=') = [] := by
    rw [List.dropWhile_eq_nil_iff]
    intro c hc
    rw [bne_iff_ne]
    rintro rfl
    exact h hc
  rw [split, hdrop]

theorem split_of_head? {cs : List Char} (h : cs.head? = some '=') : split cs = .error .noKey := by
  cases cs with
  | nil => cases h
  | cons c cs =>
    cases h
    simp [split]

/-- A text that is not faulty is a pair. -/
theorem exists_isPair (h : ¬ IsFaulty pair) : ∃ k v, IsPair pair k v := by
  rw [IsFaulty, not_or, not_not] at h
  obtain ⟨hmem, hhead⟩ := h
  obtain ⟨before, after, hpair, hbefore⟩ := List.eq_append_cons_of_mem hmem
  refine ⟨String.ofList before, String.ofList after, ?_, by simpa using hbefore, ?_⟩
  · intro hempty
    have hnil : before = [] := by simpa using congrArg String.toList hempty
    rw [hpair, hnil] at hhead
    exact hhead rfl
  · rw [← String.toList_inj, hpair]
    simp

end

/-! ## Two piles -/

/-- Some texts, parted into pairs and complaints about the faulty ones. -/
inductive Sorted : List String → List (String × String) → List Complaint → Prop
  | nil : Sorted [] [] []
  | pair {pairs : List String} {parts : List (String × String)} {complaints : List Complaint}
      {pair k v : String} (hs : Sorted pairs parts complaints) (h : IsPair pair k v) :
      Sorted (pairs ++ [pair]) (parts ++ [(k, v)]) complaints
  | noEquals {pairs : List String} {parts : List (String × String)} {complaints : List Complaint}
      {pair : String} (hs : Sorted pairs parts complaints) (h : '=' ∉ pair.toList) :
      Sorted (pairs ++ [pair]) parts
        (complaints ++ [{ message := "Invalid pair (expected KEY=VALUE): " ++ pair }])
  | noKey {pairs : List String} {parts : List (String × String)} {complaints : List Complaint}
      {pair : String} (hs : Sorted pairs parts complaints) (h : pair.toList.head? = some '=') :
      Sorted (pairs ++ [pair]) parts
        (complaints ++ [{ message := "Invalid KEY in pair: " ++ pair }])

variable {pairs : List String} {parts : List (String × String)} {complaints : List Complaint}
  {d : Document}

/-- Only faulty texts are complained about. -/
theorem Sorted.complaints_eq_nil_iff (h : Sorted pairs parts complaints) :
    complaints = [] ↔ ∀ pair ∈ pairs, ¬ IsFaulty pair := by
  induction h with
  | nil => simp
  | pair _ hpair ih => simp [ih, or_imp, forall_and, hpair.not_isFaulty]
  | noEquals _ hfault | noKey _ hfault =>
    refine iff_of_false (by simp) fun hall => ?_
    exact hall _ (List.mem_append_right _ (List.mem_singleton_self _)) (by simp [IsFaulty, hfault])

/-- Without complaints every text is a pair. -/
theorem Sorted.isPair (h : Sorted pairs parts complaints) (hnone : complaints = []) :
    List.Forall₂ (fun pair part => IsPair pair part.1 part.2) pairs parts := by
  induction h with
  | nil => exact .nil
  | pair _ hpair ih => exact List.rel_append (ih hnone) (.cons hpair .nil)
  | noEquals | noKey => exact absurd hnone (by simp)

/-- Each key once in the place where it comes first, with the value that it is given last. -/
def lastValues (parts : List (String × String)) : Document :=
  (parts.map Prod.fst).eraseDups.map fun k => (.text k, .text ((parts.reverse.lookup k).getD ""))

/-- What the document of some pairs holds. -/
structure Gathers (parts : List (String × String)) (d : Document) : Prop where
  distinct : d.Distinct
  keys : Document.keys d = (parts.map Prod.fst).eraseDups.map Value.text
  find? : ∀ k, Document.find? (.text k) d = (parts.reverse.lookup k).map Value.text

theorem gathers_nil : Gathers [] [] where
  distinct := List.Pairwise.nil
  keys := rfl
  find? _ := rfl

theorem Gathers.any_sameKey (h : Gathers parts d) (k : String) :
    d.any (·.1.sameKey (.text k)) = true ↔ k ∈ parts.map Prod.fst := by
  have hkeys : d.any (·.1.sameKey (.text k)) = (Document.keys d).any (·.sameKey (.text k)) := by
    rw [Document.keys, List.any_map]
    rfl
  rw [hkeys, h.keys, List.any_map, List.any_eq_true, ← List.mem_eraseDups]
  simp

/-- One more pair goes to the place of its key, or to the end. -/
theorem Gathers.insert (h : Gathers parts d) (k v : String) :
    Gathers (parts ++ [(k, v)]) (Document.insert (.text k) (.text v) d) where
  distinct := h.distinct.insert _ _
  keys := by
    rw [Document.keys_insert, List.map_append, List.eraseDups_append]
    by_cases hk : k ∈ parts.map Prod.fst
    · have hgone : [k].removeAll (parts.map Prod.fst) = [] := by
        simpa [List.removeAll] using hk
      rw [if_pos ((h.any_sameKey k).2 hk), h.keys, List.map_singleton, hgone]
      simp
    · have hstays : [k].removeAll (parts.map Prod.fst) = [k] := by
        simpa [List.removeAll] using hk
      rw [if_neg fun hany => hk ((h.any_sameKey k).1 hany), h.keys, List.map_singleton, hstays,
        List.map_append]
      rfl
  find? key := by
    rw [Document.find?_insert, h.find?, List.reverse_append, List.reverse_singleton,
      List.singleton_append, List.lookup_cons, Value.sameKey_text]
    by_cases hk : k = key
    · simp [hk]
    · have hkey : (key == k) = false := beq_eq_false_iff_ne.2 (Ne.symm hk)
      simp [hk, hkey]

/-- Keys and values leave no choice. -/
theorem Gathers.eq_lastValues (h : Gathers parts d) : d = lastValues parts := by
  have hself : ∀ a ∈ Document.keys d, a.sameKey a = true := by
    rw [h.keys, List.forall_mem_map]
    intro k _
    simp
  have hlast : ∀ k ∈ (parts.map Prod.fst).eraseDups,
      (Document.find? (.text k) d).getD .null = .text ((parts.reverse.lookup k).getD "") := by
    intro k hk
    rw [h.find?]
    cases hlookup : parts.reverse.lookup k with
    | some v => rfl
    | none =>
      obtain ⟨part, hpart, rfl⟩ := List.mem_map.1 (List.mem_eraseDups.1 hk)
      have hne := List.lookup_eq_none_iff.1 hlookup part (List.mem_reverse.2 hpart)
      simp at hne
  rw [h.distinct.eq_map_keys hself, h.keys, List.map_map, lastValues]
  exact List.map_congr_left fun k hk => congrArg _ (hlast k hk)

/-! ## The loop -/

/-- What has been gathered of some texts. -/
structure Gathering where
  values : Document := []
  complaints : List Complaint := []

namespace Gathering

/-- Gather one more text. -/
def add (g : Gathering) (pair : String) : Gathering :=
  match split pair.toList with
  | .ok (k, v) =>
    { g with values := Document.insert (.text (String.ofList k)) (.text (String.ofList v)) g.values }
  | .error fault => { g with complaints := g.complaints ++ [{ message := fault.message pair }] }

/-- The outcome once all texts are gathered. -/
def result (g : Gathering) : Except ValidationError Document :=
  match g.complaints with
  | [] => .ok g.values
  | complaints => .error ⟨complaints⟩

/-- The invariant of the loop. -/
def Holds (pairs : List String) (parts : List (String × String)) (g : Gathering) : Prop :=
  Sorted pairs parts g.complaints ∧ Gathers parts g.values

theorem Holds.add {g : Gathering} (h : Holds pairs parts g) (pair : String) :
    ∃ parts', Holds (pairs ++ [pair]) parts' (g.add pair) := by
  obtain ⟨hsorted, hgathers⟩ := h
  by_cases hfaulty : IsFaulty pair
  · refine ⟨parts, ?_⟩
    rcases hfaulty with hnone | hhead
    · rw [Gathering.add, split_of_notMem hnone]
      exact ⟨hsorted.noEquals hnone, hgathers⟩
    · rw [Gathering.add, split_of_head? hhead]
      exact ⟨hsorted.noKey hhead, hgathers⟩
  · obtain ⟨k, v, hpair⟩ := exists_isPair hfaulty
    refine ⟨parts ++ [(k, v)], ?_⟩
    rw [Gathering.add, hpair.split_eq]
    simp only [String.ofList_toList]
    exact ⟨hsorted.pair hpair, hgathers.insert k v⟩

theorem holds_foldl (pairs : List String) : ∃ parts, Holds pairs parts (pairs.foldl add {}) := by
  induction pairs using List.reverseRecOn with
  | nil => exact ⟨[], .nil, gathers_nil⟩
  | append_singleton pairs pair ih =>
    obtain ⟨parts, hparts⟩ := ih
    rw [List.foldl_append]
    exact hparts.add pair

theorem foldl_add (pairs : List String) (g : Gathering) : pairs.foldl add g =
    ⟨Document.update g.values (pairs.filterMap entry?), g.complaints ++ pairs.filterMap complaint?⟩ := by
  induction pairs generalizing g with
  | nil => simp
  | cons pair pairs ih =>
    rw [List.foldl_cons, ih, List.filterMap_cons, List.filterMap_cons, add, entry?, complaint?]
    rcases split pair.toList with fault | ⟨k, v⟩
    · simp
    · rfl

end Gathering

/-- **One loop does both passes.** -/
theorem parse_eq_result (pairs : List String) : parse pairs = (pairs.foldl Gathering.add {}).result := by
  rw [Gathering.foldl_add, parse, Gathering.result]
  rfl

/-! ## The outcome -/

theorem parse_of_complaints {e : ValidationError} (h : parse pairs = .error e) :
    e.complaints ≠ [] ∧ ∃ parts, Sorted pairs parts e.complaints := by
  obtain ⟨parts, hsorted, -⟩ := Gathering.holds_foldl pairs
  rw [parse_eq_result, Gathering.result] at h
  split at h
  · cases h
  · next hne =>
    cases h
    exact ⟨hne, parts, hsorted⟩

theorem parse_of_ok (h : parse pairs = .ok d) :
    ∃ parts, Sorted pairs parts [] ∧ d = lastValues parts := by
  obtain ⟨parts, hsorted, hgathers⟩ := Gathering.holds_foldl pairs
  rw [parse_eq_result, Gathering.result] at h
  split at h
  · next hnil =>
    cases h
    exact ⟨parts, hnil ▸ hsorted, hgathers.eq_lastValues⟩
  · cases h

/-- Texts made of distinct keys and values. -/
theorem parse_map {entries : List (String × String)} (hdistinct : (entries.map Prod.fst).Nodup)
    (hkeys : ∀ e ∈ entries, e.1 ≠ "" ∧ '=' ∉ e.1.toList) :
    parse (entries.map fun e => e.1 ++ "=" ++ e.2) =
      .ok (entries.map fun e => (.text e.1, .text e.2)) := by
  have hsplit : ∀ e ∈ entries,
      split (e.1 ++ "=" ++ e.2).toList = .ok (e.1.toList, e.2.toList) := fun e he =>
    IsPair.split_eq ⟨(hkeys e he).1, (hkeys e he).2, rfl⟩
  have hcomplaints : (entries.map fun e => e.1 ++ "=" ++ e.2).filterMap complaint? = [] := by
    rw [List.filterMap_map, List.filterMap_eq_nil_iff]
    intro e he
    rw [Function.comp_apply, complaint?, hsplit e he]
  have hentries : (entries.map fun e => e.1 ++ "=" ++ e.2).filterMap entry? =
      entries.map fun e => (.text e.1, .text e.2) := by
    rw [List.filterMap_map, ← List.filterMap_eq_map]
    refine List.filterMap_congr fun e he => ?_
    rw [Function.comp_apply, entry?, hsplit e he]
    simp
  have hapart : Document.Distinct (entries.map fun e => (.text e.1, .text e.2)) := by
    have hnames : Document.keys (entries.map fun e => (.text e.1, .text e.2)) =
        (entries.map Prod.fst).map Value.text := by simp [Document.keys]
    rw [Document.Distinct, hnames, List.pairwise_map]
    exact hdistinct.imp fun hne => by simpa using hne
  rw [parse, hcomplaints, hentries]
  exact congrArg _ hapart.ofEntries_eq

/-- **Pairs are parsed as they stand.** Parsing fails exactly if some text has no equals sign or
begins with one, and then there is a complaint for each such text, in their order, and nothing else.
Otherwise each key stands once, in the place where it comes first and with the value that it is given
last. Texts that are made of distinct keys and values give them back. -/
theorem parse_outcome :
    (∀ pairs, (∃ e, parse pairs = .error e) ↔ ∃ pair ∈ pairs, IsFaulty pair) ∧
    (∀ pairs e, parse pairs = .error e → ∃ parts, Sorted pairs parts e.complaints) ∧
    (∀ pairs d, parse pairs = .ok d → ∃ parts,
      List.Forall₂ (fun pair part => IsPair pair part.1 part.2) pairs parts ∧
        d = lastValues parts) ∧
    ∀ entries : List (String × String), (entries.map Prod.fst).Nodup →
      (∀ e ∈ entries, e.1 ≠ "" ∧ '=' ∉ e.1.toList) →
      parse (entries.map fun e => e.1 ++ "=" ++ e.2) =
        .ok (entries.map fun e => (.text e.1, .text e.2)) := by
  refine ⟨fun pairs => ⟨?_, ?_⟩, fun pairs e h => (parse_of_complaints h).2, fun pairs d h => ?_,
    fun entries => parse_map⟩
  · rintro ⟨e, h⟩
    obtain ⟨hne, parts, hsorted⟩ := parse_of_complaints h
    by_contra hnone
    push Not at hnone
    exact hne (hsorted.complaints_eq_nil_iff.2 hnone)
  · rintro ⟨pair, hmem, hfaulty⟩
    rcases h : parse pairs with e | d
    · exact ⟨e, rfl⟩
    · obtain ⟨parts, hsorted, -⟩ := parse_of_ok h
      exact absurd hfaulty (hsorted.complaints_eq_nil_iff.1 rfl pair hmem)
  · obtain ⟨parts, hsorted, hd⟩ := parse_of_ok h
    exact ⟨parts, hsorted.isPair rfl, hd⟩

/-- A key that comes again, and values that are empty or hold equals signs. -/
theorem parse_outcome_repeated :
    (∃ parts, List.Forall₂ (fun pair part => IsPair pair part.1 part.2)
        ["a=1", "b=", "a=x=y"] parts ∧
      [(.text "a", .text "x=y"), (.text "b", .text "")] = lastValues parts) ∧
    parse ["a==", "b="] = .ok [(.text "a", .text "="), (.text "b", .text "")] := by
  obtain ⟨-, -, hok, hback⟩ := parse_outcome
  refine ⟨hok ["a=1", "b=", "a=x=y"] _ (by rfl), ?_⟩
  exact hback [("a", "="), ("b", "")] (by decide) (by decide)

end Stencil.Pair
