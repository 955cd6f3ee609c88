import Stencil.Output
import Stencil.Proofs.Itemwise
import Stencil.Proofs.Value.Part
import Stencil.Proofs.Value.Shown

/-!
# Values that can be written

An integer past the limit of decimal text keeps a value from being written in either format, and
nothing else keeps it from being written as YAML (`exists_writeNamed_yaml_iff`). JSON text is lacking,
too, if some document inside the value has a key that is neither text nor number nor boolean nor
null (`exists_writeNamed_json_iff`): what has no form of its own in JSON is written as a string where it
is a value, but is refused where it is a key.
-/

namespace Stencil

namespace Value

variable {vs : List Value} {es : Document}

/-! ## Oversized integers -/

theorem anyOversized_eq_false : anyOversized vs = false ↔ ∀ v ∈ vs, v.holdsOversized = false := by
  induction vs with
  | nil => simp [anyOversized]
  | cons v vs ih => simp [anyOversized, ih]

theorem anyEntryOversized_eq_false : anyEntryOversized es = false ↔
    ∀ e ∈ es, e.1.holdsOversized = false ∧ e.2.holdsOversized = false := by
  induction es with
  | nil => simp [anyEntryOversized]
  | cons e es ih =>
    obtain ⟨k, v⟩ := e
    simp [anyEntryOversized, ih, and_assoc]

end Value

open Value

/-! ## YAML -/

namespace Yaml.Node

mutual

theorem isSome_ofValue? (v : Value) : (ofValue? v).isSome = !v.holdsOversized := by
  cases v with
  | int n => simp [ofValue?, holdsOversized, isSome_text?]
  | list items => simp [ofValue?, holdsOversized, isSome_ofItems? items]
  | tuple items => simp [ofValue?, holdsOversized, isSome_ofItems? items]
  | set items => simp [ofValue?, holdsOversized, isSome_ofItems? items]
  | document entries => simp [ofValue?, holdsOversized, isSome_ofEntries? entries]
  | _ => simp [ofValue?, holdsOversized]

theorem isSome_ofItems? (vs : List Value) : (ofItems? vs).isSome = !anyOversized vs := by
  cases vs with
  | nil => simp [ofItems?, anyOversized]
  | cons v vs =>
    have hv := isSome_ofValue? v
    have hvs := isSome_ofItems? vs
    rw [ofItems?, anyOversized]
    cases hn : ofValue? v <;> cases hns : ofItems? vs <;> simp_all

theorem isSome_ofEntries? (es : List (Value × Value)) :
    (ofEntries? es).isSome = !anyEntryOversized es := by
  cases es with
  | nil => simp [ofEntries?, anyEntryOversized]
  | cons e es =>
    obtain ⟨k, v⟩ := e
    have hk := isSome_ofValue? k
    have hv := isSome_ofValue? v
    have hes := isSome_ofEntries? es
    rw [ofEntries?, anyEntryOversized]
    cases hnk : ofValue? k <;> cases hnv : ofValue? v <;> cases hns : ofEntries? es <;> simp_all

end

end Yaml.Node

/-- A value has YAML text exactly if it holds no oversized integer. -/
theorem OutputFormat.exists_writeNamed_yaml_iff {v : Value} {names : Position → Option Nat} :
    (∃ cs, yaml.writeNamed names v = .ok cs) ↔ v.holdsOversized = false := by
  have hsome := Yaml.Node.isSome_ofValue? v
  unfold writeNamed
  cases hn : Yaml.Node.ofValue? v with
  | none =>
    rw [hn] at hsome
    simpa using hsome
  | some n =>
    rw [hn] at hsome
    simpa using hsome

/-! ## JSON -/

namespace Json

variable {k v : Value} {vs : List Value} {es : Document} {l : Layout} {depth : Nat}

/-- JSON has a name for the key. -/
def hasName : Value → Bool
  | .text _ | .float _ | .bool _ | .null | .int _ => true
  | _ => false

theorem exists_integer_iff {n : Int} :
    (∃ cs, integer n = .ok cs) ↔ (Value.int n).holdsOversized = false := by
  have hsome := isSome_text? n
  unfold integer
  cases ht : Integer.text? n <;> rw [ht] at hsome <;> simpa [holdsOversized] using hsome

theorem exists_keyText_iff :
    (∃ cs, keyText k = .ok cs) ↔ k.holdsOversized = false ∧ hasName k = true := by
  cases k with
  | int n => simpa [hasName, keyText] using exists_integer_iff
  | _ => simp [hasName, keyText, holdsOversized]

theorem exists_foreign_iff : (∃ cs, foreign v = .ok cs) ↔ v.holdsOversized = false := by
  have hsome := isSome_plain? v
  unfold foreign
  cases hp : v.plain? <;> rw [hp] at hsome <;> simpa using hsome

/-! ### Parts of themselves -/

/-- What is written of a value for itself: all of it, an item of a list or a tuple, or a value of a
document, at any depth. -/
inductive IsWrittenAt (w : Value) : Position → Value → Prop
  | self : IsWrittenAt w [] w
  | item {i : Nat} {p : Position} {v : Value} {vs : List Value} (hv : vs[i]? = some v)
      (h : IsWrittenAt w p v) : IsWrittenAt w (i :: p) (.list vs)
  | part {i : Nat} {p : Position} {v : Value} {vs : List Value} (hv : vs[i]? = some v)
      (h : IsWrittenAt w p v) : IsWrittenAt w (i :: p) (.tuple vs)
  | value {i : Nat} {p : Position} {k v : Value} {es : Document} (he : es[i]? = some (k, v))
      (h : IsWrittenAt w p v) : IsWrittenAt w ((2 * i + 1) :: p) (.document es)

/-- A list, a tuple or a document that is not empty. -/
def hasParts : Value → Bool
  | .list items | .tuple items => !items.isEmpty
  | .document entries => !entries.isEmpty
  | _ => false

/-- Nothing that is written of a value is a part of itself. -/
def IsOpen (circles : Position → Bool) (v : Value) : Prop :=
  ∀ (p : Position) (w : Value), IsWrittenAt w p v → hasParts w = true → circles p = false

variable {circles : Position → Bool}

/-- A value that is no list, tuple or document is written alone. -/
theorem isOpen_of_alone (h : ∀ p w, IsWrittenAt w p v → hasParts w = false) :
    IsOpen circles v := by
  intro p w hw hparts
  rw [h p w hw] at hparts
  cases hparts

theorem isOpen_list : IsOpen circles (.list vs) ↔ (circles [] && !vs.isEmpty) = false ∧
    ∀ i v, vs[i]? = some v → IsOpen (fun p => circles (i :: p)) v := by
  rw [Bool.and_comm, Bool.and_eq_false_imp]
  constructor
  · exact fun h => ⟨h [] _ .self, fun i v hv p w hw => h (i :: p) w (.item hv hw)⟩
  · rintro ⟨hself, hitems⟩ p w hw hparts
    cases hw with
    | self => exact hself hparts
    | item hv hw => exact hitems _ _ hv _ w hw hparts

theorem isOpen_tuple : IsOpen circles (.tuple vs) ↔ (circles [] && !vs.isEmpty) = false ∧
    ∀ i v, vs[i]? = some v → IsOpen (fun p => circles (i :: p)) v := by
  rw [Bool.and_comm, Bool.and_eq_false_imp]
  constructor
  · exact fun h => ⟨h [] _ .self, fun i v hv p w hw => h (i :: p) w (.part hv hw)⟩
  · rintro ⟨hself, hitems⟩ p w hw hparts
    cases hw with
    | self => exact hself hparts
    | part hv hw => exact hitems _ _ hv _ w hw hparts

theorem isOpen_document : IsOpen circles (.document es) ↔ (circles [] && !es.isEmpty) = false ∧
    ∀ i e, es[i]? = some e → IsOpen (fun p => circles ((2 * i + 1) :: p)) e.2 := by
  rw [Bool.and_comm, Bool.and_eq_false_imp]
  constructor
  · exact fun h => ⟨h [] _ .self, fun i e he p w hw => h ((2 * i + 1) :: p) w (.value he hw)⟩
  · rintro ⟨hself, hvalues⟩ p w hw hparts
    cases hw with
    | self => exact hself hparts
    | value he hw => exact hvalues _ _ he _ w hw hparts

/-- What is said of all items with their numbers is said of the first and of those behind it. -/
theorem forall_getElem?_cons {α : Type} {a : α} {as : List α} {q : Nat → α → Prop} :
    (∀ i b, (a :: as)[i]? = some b → q i b) ↔ q 0 a ∧ ∀ i b, as[i]? = some b → q (i + 1) b := by
  constructor
  · exact fun h => ⟨h 0 a rfl, fun i b hb => h (i + 1) b hb⟩
  · rintro ⟨ha, has⟩ i b hb
    cases i with
    | zero =>
      cases hb
      exact ha
    | succ i => exact has i b hb

/-! ### Writable values -/

/-- Nothing inside the value keeps it from being written. -/
@[mk_iff]
structure IsWritable (circles : Position → Bool) (v : Value) : Prop where
  small : v.holdsOversized = false
  named : v.KeysAre fun k => hasName k = true
  opened : IsOpen circles v

/-- All of some items can be written. -/
def AreWritable (circles : Position → Bool) (vs : List Value) : Prop :=
  ∀ i v, vs[i]? = some v → IsWritable (fun p => circles (i :: p)) v

/-- All of some entries can be written. -/
def AreEntriesWritable (circles : Position → Bool) (es : Document) : Prop :=
  ∀ i e, es[i]? = some e → (e.1.holdsOversized = false ∧ hasName e.1 = true) ∧
    IsWritable (fun p => circles ((2 * i + 1) :: p)) e.2

theorem areWritable_iff : AreWritable circles vs ↔ (∀ v ∈ vs, v.holdsOversized = false) ∧
    (∀ v ∈ vs, v.KeysAre fun k => hasName k = true) ∧
      ∀ i v, vs[i]? = some v → IsOpen (fun p => circles (i :: p)) v := by
  constructor
  · intro h
    refine ⟨fun v hv => ?_, fun v hv => ?_, fun i v hv => (h i v hv).opened⟩
    · obtain ⟨i, hi⟩ := List.getElem?_of_mem hv
      exact (h i v hi).small
    · obtain ⟨i, hi⟩ := List.getElem?_of_mem hv
      exact (h i v hi).named
  · rintro ⟨hsmall, hnamed, hopened⟩ i v hv
    have hmem := List.mem_of_getElem? hv
    exact ⟨hsmall v hmem, hnamed v hmem, hopened i v hv⟩

theorem isWritable_list : IsWritable circles (.list vs) ↔
    (circles [] && !vs.isEmpty) = false ∧ AreWritable circles vs := by
  rw [isWritable_iff, holdsOversized, anyOversized_eq_false, keysAre_list, isOpen_list,
    areWritable_iff]
  tauto

theorem isWritable_tuple : IsWritable circles (.tuple vs) ↔
    (circles [] && !vs.isEmpty) = false ∧ AreWritable circles vs := by
  rw [isWritable_iff, holdsOversized, anyOversized_eq_false, keysAre_tuple, isOpen_tuple,
    areWritable_iff]
  tauto

theorem isWritable_document : IsWritable circles (.document es) ↔
    (circles [] && !es.isEmpty) = false ∧ AreEntriesWritable circles es := by
  rw [isWritable_iff, holdsOversized, anyEntryOversized_eq_false, keysAre_document, isOpen_document]
  constructor
  · rintro ⟨hsmall, hnamed, hself, hopened⟩
    refine ⟨hself, fun i e he => ?_⟩
    have hmem := List.mem_of_getElem? he
    exact ⟨⟨(hsmall e hmem).1, (hnamed e hmem).1⟩, (hsmall e hmem).2, (hnamed e hmem).2,
      hopened i e he⟩
  · rintro ⟨hself, h⟩
    refine ⟨fun e he => ?_, fun e he => ?_, hself, fun i e he => (h i e he).2.opened⟩
    · obtain ⟨i, hi⟩ := List.getElem?_of_mem he
      exact ⟨(h i e hi).1.1, (h i e hi).2.small⟩
    · obtain ⟨i, hi⟩ := List.getElem?_of_mem he
      exact ⟨(h i e hi).1.2, (h i e hi).2.named⟩

/-- What is written alone can be written unless it holds an oversized integer. -/
theorem isWritable_iff_of_alone (hkeys : ∀ k : Value, ¬ k.IsKeyIn v)
    (halone : ∀ p w, IsWrittenAt w p v → hasParts w = false) :
    IsWritable circles v ↔ v.holdsOversized = false :=
  ⟨fun h => h.small, fun h => ⟨h, fun k hk => absurd hk (hkeys k), isOpen_of_alone halone⟩⟩

theorem exists_opened_iff {isClosed isEmpty : Bool} {parts : Except Error (List (List Char))} :
    (∃ ps, opened isClosed isEmpty parts = .ok ps) ↔
      (isClosed && !isEmpty) = false ∧ ∃ ps, parts = .ok ps := by
  unfold opened
  cases isClosed && !isEmpty <;> simp

mutual

/-- A value has JSON text exactly if nothing inside it keeps it from being written. -/
theorem exists_write_iff (l : Layout) (depth : Nat) (circles : Position → Bool) (v : Value) :
    (∃ cs, write l depth circles v = .ok cs) ↔ IsWritable circles v := by
  cases v with
  | list items =>
    rw [write, exists_bind_pure_iff, isWritable_list, exists_opened_iff,
      exists_writeItems_iff l (depth + 1) circles items]
  | tuple items =>
    rw [write, exists_bind_pure_iff, isWritable_tuple, exists_opened_iff,
      exists_writeItems_iff l (depth + 1) circles items]
  | document entries =>
    rw [write, exists_bind_pure_iff, isWritable_document, exists_opened_iff,
      exists_writeEntries_iff l (depth + 1) circles entries]
  | int n =>
    rw [write]
    exact exists_integer_iff.trans
      (isWritable_iff_of_alone (by rintro k ⟨⟩) (by rintro p w ⟨⟩; rfl)).symm
  | set | bytes | date | moment | decimal =>
    rw [write]
    exact exists_foreign_iff.trans
      (isWritable_iff_of_alone (by rintro k ⟨⟩) (by rintro p w ⟨⟩; rfl)).symm
  | null | bool | float | text =>
    rw [write]
    refine iff_of_true ⟨_, rfl⟩
      ((isWritable_iff_of_alone (by rintro k ⟨⟩) (by rintro p w ⟨⟩; rfl)).2 ?_)
    rw [holdsOversized] <;> simp

theorem exists_writeItems_iff (l : Layout) (depth : Nat) (circles : Position → Bool)
    (vs : List Value) :
    (∃ parts, writeItems l depth circles vs = .ok parts) ↔ AreWritable circles vs := by
  cases vs with
  | nil => simp [writeItems, AreWritable]
  | cons v vs =>
    have hv := exists_write_iff l depth (Position.first circles) v
    have hvs := exists_writeItems_iff l depth (Position.rest circles) vs
    have hcons : AreWritable circles (v :: vs) ↔
        IsWritable (Position.first circles) v ∧ AreWritable (Position.rest circles) vs :=
      forall_getElem?_cons
    rw [hcons, ← hv, ← hvs, writeItems]
    simp only [bind_eq_ok_iff]
    constructor
    · rintro ⟨_, cs, hcs, rest, hrest, -⟩
      exact ⟨⟨cs, hcs⟩, ⟨rest, hrest⟩⟩
    · rintro ⟨⟨cs, hcs⟩, ⟨rest, hrest⟩⟩
      exact ⟨_, cs, hcs, rest, hrest, rfl⟩

theorem exists_writeEntries_iff (l : Layout) (depth : Nat) (circles : Position → Bool)
    (es : List (Value × Value)) :
    (∃ parts, writeEntries l depth circles es = .ok parts) ↔ AreEntriesWritable circles es := by
  cases es with
  | nil => simp [writeEntries, AreEntriesWritable]
  | cons e es =>
    obtain ⟨k, v⟩ := e
    have hv := exists_write_iff l depth (Position.first (Position.rest circles)) v
    have hes := exists_writeEntries_iff l depth (Position.rest (Position.rest circles)) es
    have hcons : AreEntriesWritable circles ((k, v) :: es) ↔
        ((k.holdsOversized = false ∧ hasName k = true) ∧
          IsWritable (Position.first (Position.rest circles)) v) ∧
        AreEntriesWritable (Position.rest (Position.rest circles)) es :=
      forall_getElem?_cons
    rw [hcons, ← exists_keyText_iff, ← hv, ← hes, writeEntries]
    simp only [bind_eq_ok_iff]
    constructor
    · rintro ⟨_, key, hkey, cs, hcs, rest, hrest, -⟩
      exact ⟨⟨⟨key, hkey⟩, ⟨cs, hcs⟩⟩, ⟨rest, hrest⟩⟩
    · rintro ⟨⟨⟨key, hkey⟩, ⟨cs, hcs⟩⟩, ⟨rest, hrest⟩⟩
      exact ⟨_, key, hkey, cs, hcs, rest, hrest, rfl⟩

end

end Json

/-- A value has JSON text exactly if it holds no oversized integer, JSON has a name for every key
inside it, and no part of it is a part of itself. -/
theorem OutputFormat.exists_writeNamed_json_iff {v : Value} {names : Position → Option Nat} :
    (∃ cs, json.writeNamed names v = .ok cs) ↔ Json.IsWritable (Json.closed names) v := by
  rw [← Json.exists_write_iff (.indented 2) 0]
  unfold writeNamed Json.indented
  cases Json.write (.indented 2) 0 (Json.closed names) v <;> simp [Except.map]

end Stencil
