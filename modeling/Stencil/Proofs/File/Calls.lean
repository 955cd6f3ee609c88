import Mathlib.Data.List.Forall2
import Stencil.Proofs.File.Variables
import Stencil.Proofs.Value.Shown
import Stencil.Proofs.Yaml.Hexadecimal
import Stencil.Proofs.Yaml.Whole

/-!
# Loaders that are used again

One loader may serve many calls. A call empties it before it begins, so nothing that an earlier call
left behind can come into a later one, and all but one of the ways in which a call may end leave the
loader empty as well.

**Keys.** A file of variables that holds a mapping is refused for each of its *foreign* keys, those
that are no texts, in the order of the keys. A complaint shows its key, and a key with an oversized
integer cannot be shown: there the call breaks off, and leaves the complaints about the keys before.

Main result: `runs_afresh`.
-/

namespace Stencil.Loader

/-! ## Calls -/

/-- A call of a loader, with the files as they are at that time. -/
inductive Call where
  | load (t : Tree) (p : Path)
  | loadTemplate (t : Tree) (p : Path)

/-- What a call does. -/
def Call.perform : Call → Loading Value
  | load t p => do return .document (← Loader.load t p)
  | loadTemplate t p => Loader.loadTemplate t p

/-- What comes of a call: how it ends, and the loader after it. -/
abbrev Outcome := Except LoadError Value × Loader

/-- The outcomes of the calls of one loader, one after the other. -/
def run (l : Loader) : List Call → List Outcome
  | [] => []
  | c :: cs =>
    let outcome := c.perform.run.run l
    outcome :: run outcome.2 cs

theorem perform_run (c : Call) (l : Loader) : c.perform.run.run l = c.perform.run.run {} := by
  cases c with
  | load t p =>
    rw [Call.perform, load, bind_assoc]
    exact bind_value_run t p _ l
  | loadTemplate t p => exact bind_value_run t p _ l

/-- **What earlier calls left in a loader does not count.** -/
theorem run_eq_map (l : Loader) (cs : List Call) :
    l.run cs = cs.map fun c => c.perform.run.run {} := by
  induction cs generalizing l with
  | nil => rfl
  | cons c cs ih => rw [run, perform_run, ih, List.map_cons]

/-! ## Complaints about keys -/

variable {p : Path} {keys ks : List Value} {cs : List Complaint} {l : Loader}

/-- A key that is no text. -/
def isForeign : Value → Bool
  | .text _ => false
  | _ => true

/-- The complaint about a key that is no text, if the key can be shown. -/
def keyComplaint? (p : Path) (key : Value) : Option Complaint :=
  (keyMessage? key).map fun message => { message, path := String.ofList p.text }

/-- Every key has its complaint. -/
abbrev Complained (p : Path) : List Value → List Complaint → Prop :=
  List.Forall₂ fun key c => keyComplaint? p key = some c

theorem isSome_keyComplaint? (p : Path) (key : Value) :
    (keyComplaint? p key).isSome = !key.holdsOversized := by
  rw [keyComplaint?, Option.isSome_map, keyMessage?, Option.isSome_map, Value.isSome_quoted?]

theorem complained_unique {cs' : List Complaint} (h : Complained p keys cs)
    (h' : Complained p keys cs') : cs = cs' :=
  List.right_unique_forall₂' (fun _ _ _ hc hc' => Option.some_inj.1 (hc.symm.trans hc')) h h'

/-- Keys without oversized integers have their complaints. -/
theorem exists_complained (h : ∀ key ∈ keys, key.holdsOversized = false) :
    ∃ cs, Complained p keys cs := by
  induction keys with
  | nil => exact ⟨[], .nil⟩
  | cons key keys ih =>
    obtain ⟨hkey, hkeys⟩ := List.forall_mem_cons.1 h
    obtain ⟨cs, hcs⟩ := ih hkeys
    have hsome : (keyComplaint? p key).isSome = true := by rw [isSome_keyComplaint?, hkey]; rfl
    obtain ⟨c, hc⟩ := Option.isSome_iff_exists.1 hsome
    exact ⟨c :: cs, .cons hc hcs⟩

theorem isForeign_eq_false_iff {key : Value} : isForeign key = false ↔ ∃ s, key = .text s := by
  cases key <;> simp [isForeign]

/-- Keys that are texts are passed over. -/
theorem checkKeys_filter (p : Path) (keys : List Value) :
    checkKeys p keys = checkKeys p (keys.filter isForeign) := by
  induction keys with
  | nil => rfl
  | cons key keys ih =>
    cases hkey : isForeign key with
    | false =>
      obtain ⟨s, rfl⟩ := isForeign_eq_false_iff.1 hkey
      rw [List.filter_cons_of_neg (by simp [hkey]), checkKeys, ih]
    | true =>
      rw [List.filter_cons_of_pos hkey]
      cases key with
      | text s => cases hkey
      | _ => rw [checkKeys, checkKeys, ih] <;> simp

theorem checkKeys_run_cons {key : Value} {c : Complaint} (hforeign : isForeign key = true)
    (hc : keyComplaint? p key = some c) (keys : List Value) (l : Loader) :
    (checkKeys p (key :: keys)).run.run l = (checkKeys p keys).run.run ⟨l.complaints ++ [c]⟩ := by
  obtain ⟨message, hmessage, rfl⟩ := Option.map_eq_some_iff.1 hc
  cases key with
  | text s => cases hforeign
  | _ =>
    rw [checkKeys, hmessage]
    · rfl
    · simp

theorem checkKeys_run_stuck {key : Value} (hforeign : isForeign key = true)
    (hstuck : key.holdsOversized = true) (keys : List Value) (l : Loader) :
    (checkKeys p (key :: keys)).run.run l = (.error .unshowableKey, l) := by
  have hnone : keyMessage? key = none := by
    have hisSome := isSome_keyComplaint? p key
    rw [hstuck, keyComplaint?, Option.isSome_map] at hisSome
    simpa using hisSome
  cases key with
  | text s => cases hforeign
  | _ =>
    rw [checkKeys, hnone]
    · rfl
    · simp

/-- Foreign keys are complained about one by one. -/
theorem checkKeys_run_append (hforeign : ∀ key ∈ keys, isForeign key = true)
    (h : Complained p keys cs) (ks : List Value) (l : Loader) :
    (checkKeys p (keys ++ ks)).run.run l = (checkKeys p ks).run.run ⟨l.complaints ++ cs⟩ := by
  induction h generalizing l with
  | nil => rw [List.nil_append, List.append_nil]
  | @cons key c keys cs hc _ ih =>
    obtain ⟨hkey, hkeys⟩ := List.forall_mem_cons.1 hforeign
    rw [List.cons_append, checkKeys_run_cons hkey hc, ih hkeys, List.append_assoc,
      List.singleton_append]

/-! ## Calls that leave the loader empty -/

variable {t : Tree} {v : Value} {d : Document}

/-- Reading a file leaves the loader empty, however it ends. -/
theorem value_run_snd (t : Tree) (p : Path) (l : Loader) : ((value t p).run.run l).2 = {} := by
  unfold value
  rw [run_bind_of_ok (s := l) (t := {}) (a := ()) rfl]
  split
  · rfl
  · split
    · rfl
    · rfl
    · split <;> rfl

theorem exists_value_run (t : Tree) (p : Path) (l : Loader) :
    ∃ x, (value t p).run.run l = (x, {}) :=
  ⟨_, Prod.ext rfl (value_run_snd t p l)⟩

/-- The report takes the complaints out of the loader. -/
theorem report_run (l : Loader) : report.run.run l =
    (if l.complaints = [] then .ok () else .error (.invalid ⟨l.complaints⟩), {}) := by
  obtain ⟨complaints⟩ := l
  cases complaints <;> rfl

/-- The keys of a document that are no texts. -/
def foreignKeys (d : Document) : List Value := (Document.keys d).filter isForeign

/-- Check the keys of a document and report. -/
def judge (p : Path) (d : Document) : Loading Document := do
  checkKeys p (foreignKeys d)
  report
  return d

theorem isForeign_of_mem {key : Value} (h : key ∈ foreignKeys d) : isForeign key = true :=
  (List.mem_filter.1 h).2

/-- A document whose foreign keys can all be shown has all their complaints reported. -/
theorem judge_run_shown (h : Complained p (foreignKeys d) cs) : (judge p d).run.run {} =
    (if cs = [] then .ok d else .error (.invalid ⟨cs⟩), {}) := by
  have hcheck : (checkKeys p (foreignKeys d)).run.run {} = (.ok (), ⟨cs⟩) := by
    have happend := checkKeys_run_append (fun key => isForeign_of_mem) h [] {}
    rwa [List.append_nil] at happend
  rw [judge, run_bind_of_ok hcheck]
  by_cases hcs : cs = []
  · rw [if_pos hcs, run_bind_of_ok ((report_run _).trans (by rw [if_pos hcs]))]
    rfl
  · rw [if_neg hcs, run_bind_of_error ((report_run _).trans (by rw [if_neg hcs]))]

/-- The first foreign key that cannot be shown breaks the call off. -/
theorem judge_run_stuck {before after : List Value} {key : Value}
    (hkeys : foreignKeys d = before ++ key :: after) (h : Complained p before cs)
    (hstuck : key.holdsOversized = true) :
    (judge p d).run.run {} = (.error .unshowableKey, ⟨cs⟩) := by
  have hforeign : ∀ k ∈ before ++ key :: after, isForeign k = true := fun k hk =>
    isForeign_of_mem (hkeys ▸ hk)
  obtain ⟨hbefore, hkey⟩ := List.forall_mem_append.1 hforeign
  refine run_bind_of_error ?_
  rw [hkeys, checkKeys_run_append hbefore h,
    checkKeys_run_stuck (hkey key List.mem_cons_self) hstuck]
  rfl

/-- Either all foreign keys can be shown, or there is a first one that cannot. -/
theorem shown_or_stuck (d : Document) : (∀ key ∈ foreignKeys d, key.holdsOversized = false) ∨
    ∃ before key after, foreignKeys d = before ++ key :: after ∧
      (∀ b ∈ before, b.holdsOversized = false) ∧ key.holdsOversized = true := by
  cases hfind : (foreignKeys d).find? Value.holdsOversized with
  | none => exact .inl fun key hkey => by simpa using List.find?_eq_none.1 hfind key hkey
  | some key =>
    obtain ⟨hkey, before, after, hkeys, hbefore⟩ := List.find?_eq_some_iff_append.1 hfind
    exact .inr ⟨before, key, after, hkeys, fun b hb => by simpa using hbefore b hb, hkey⟩

theorem judge_run_snd (h : ((judge p d).run.run {}).1 ≠ .error .unshowableKey) :
    ((judge p d).run.run {}).2 = {} := by
  obtain hshown | ⟨before, key, after, hkeys, hbefore, hkey⟩ := shown_or_stuck d
  · obtain ⟨cs, hcs⟩ := exists_complained (p := p) hshown
    rw [judge_run_shown hcs]
  · obtain ⟨cs, hcs⟩ := exists_complained (p := p) hbefore
    exact absurd (by rw [judge_run_stuck hkeys hcs hkey]) h

/-- What becomes of the value in a file of variables. -/
def accept (p : Path) : Value → Loading Document
  | .null => return []
  | .document d => judge p d
  | v => refuse p ("Top level must be a mapping, got " ++ v.typeName)

theorem load_eq (t : Tree) (p : Path) : load t p = value t p >>= accept p := by
  refine bind_congr fun v => ?_
  cases v with
  | document d =>
    dsimp only
    rw [checkKeys_filter]
    rfl
  | _ => rfl

/-- Only a key that cannot be shown lets a file of variables leave something in the loader. -/
theorem accept_run_snd (h : ((accept p v).run.run {}).1 ≠ .error .unshowableKey) :
    ((accept p v).run.run {}).2 = {} := by
  cases v with
  | document d => exact judge_run_snd h
  | _ => rfl

theorem load_run_snd (h : ((load t p).run.run l).1 ≠ .error .unshowableKey) :
    ((load t p).run.run l).2 = {} := by
  obtain ⟨e | v, hvalue⟩ := exists_value_run t p l
  · rw [load_eq, run_bind_of_error hvalue]
  · rw [load_eq, run_bind_of_ok hvalue] at h ⊢
    exact accept_run_snd h

theorem loadTemplate_run_snd (t : Tree) (p : Path) (l : Loader) :
    ((loadTemplate t p).run.run l).2 = {} := by
  obtain ⟨e | v, hvalue⟩ := exists_value_run t p l
  · rw [loadTemplate, run_bind_of_error hvalue]
  · rw [loadTemplate, run_bind_of_ok hvalue]
    rfl

/-- **A call leaves the loader empty unless a key breaks it off.** -/
theorem perform_run_snd (c : Call) (h : (c.perform.run.run l).1 ≠ .error .unshowableKey) :
    (c.perform.run.run l).2 = {} := by
  cases c with
  | loadTemplate t p => exact loadTemplate_run_snd t p l
  | load t p =>
    rcases hload : (load t p).run.run l with ⟨e | d, l'⟩
    · have hrun : (Call.load t p).perform.run.run l = (.error e, l') := run_bind_of_error hload
      rw [hrun] at h ⊢
      have hsnd : ((load t p).run.run l).2 = {} := load_run_snd (by simpa [hload] using h)
      rwa [hload] at hsnd
    · have hrun : (Call.load t p).perform.run.run l = (.ok (.document d), l') := run_bind_of_ok hload
      have hsnd : ((load t p).run.run l).2 = {} := load_run_snd (by simp [hload])
      rw [hrun]
      rwa [hload] at hsnd

/-! ## Files that parse -/

/-- A file is there, its suffix is known, and it holds the text of a value. -/
structure Parses (t : Tree) (p : Path) (v : Value) : Prop where
  isSupported : suffixes.contains (Text.lowercase p.suffix) = true
  exists_data : ∃ data, t.read p = .ok data ∧ Yaml.read t.library data = .ok v

theorem Parses.value_run (h : Parses t p v) (l : Loader) :
    (value t p).run.run l = (.ok v, {}) := by
  obtain ⟨data, hdata, hv⟩ := h.exists_data
  unfold value
  rw [run_bind_of_ok (s := l) (t := {}) (a := ()) rfl, h.isSupported, hdata]
  dsimp only
  rw [hv]
  rfl

theorem Parses.load_run (h : Parses t p v) (l : Loader) :
    (load t p).run.run l = (accept p v).run.run {} := by
  rw [load_eq, run_bind_of_ok (h.value_run l)]

theorem Parses.loadTemplate_run (h : Parses t p v) (l : Loader) :
    (loadTemplate t p).run.run l = (.ok v, {}) := by
  rw [loadTemplate, run_bind_of_ok (h.value_run l)]
  rfl

/-- What must come of a file of variables with a path and a value: how the call ends, and the loader
after it. -/
structure Judged (p : Path) (v : Value) (outcome : Except LoadError Document × Loader) : Prop where
  /-- There are variables exactly if the value is a mapping whose keys are all texts, or nothing. -/
  ok_iff : ∀ d, outcome.1 = .ok d ↔
    (v = .null ∧ d = []) ∨ (v = .document d ∧ ∀ key ∈ Document.keys d, ∃ s, key = .text s)
  /-- Any other value has one complaint. -/
  other : v ≠ .null → (∀ d, v ≠ .document d) → outcome = (.error (.invalid ⟨[{
    message := "Top level must be a mapping, got " ++ v.typeName
    path := String.ofList p.text }]⟩), {})
  /-- A mapping with other keys has a complaint for each of them, in their order. -/
  foreign : ∀ d, v = .document d → foreignKeys d ≠ [] →
    (∀ key ∈ foreignKeys d, key.holdsOversized = false) →
      ∃ cs, Complained p (foreignKeys d) cs ∧ outcome = (.error (.invalid ⟨cs⟩), {})
  /-- A key that cannot be shown breaks the call off; the complaints before stay in the loader. -/
  stuck : ∀ d before key after, v = .document d → foreignKeys d = before ++ key :: after →
    (∀ b ∈ before, b.holdsOversized = false) → key.holdsOversized = true →
      ∃ cs, Complained p before cs ∧ outcome = (.error .unshowableKey, ⟨cs⟩)

theorem foreignKeys_eq_nil_iff :
    foreignKeys d = [] ↔ ∀ key ∈ Document.keys d, ∃ s, key = .text s := by
  rw [foreignKeys, List.filter_eq_nil_iff]
  refine forall₂_congr fun key _ => ?_
  rw [Bool.not_eq_true, isForeign_eq_false_iff]

/-- The verdict on a mapping. -/
theorem judge_ok_iff {es : Document} :
    ((judge p es).run.run {}).1 = .ok d ↔ es = d ∧ foreignKeys d = [] := by
  obtain hshown | ⟨before, key, after, hkeys, hbefore, hkey⟩ := shown_or_stuck es
  · obtain ⟨cs, hcs⟩ := exists_complained (p := p) hshown
    rw [judge_run_shown hcs]
    cases hcs' : foreignKeys es with
    | nil =>
      rw [hcs'] at hcs
      cases hcs
      constructor
      · rintro ⟨⟩
        exact ⟨rfl, hcs'⟩
      · rintro ⟨rfl, -⟩
        rfl
    | cons key keys =>
      rw [hcs'] at hcs
      cases hcs
      constructor
      · rintro ⟨⟩
      · rintro ⟨rfl, hnone⟩
        rw [hcs'] at hnone
        cases hnone
  · obtain ⟨cs, hcs⟩ := exists_complained (p := p) hbefore
    rw [judge_run_stuck hkeys hcs hkey]
    constructor
    · rintro ⟨⟩
    · rintro ⟨rfl, hnone⟩
      rw [hkeys] at hnone
      exact absurd hnone (List.append_ne_nil_of_right_ne_nil _ (List.cons_ne_nil _ _))

/-- **The verdict on a file of variables.** -/
theorem judged_accept (p : Path) (v : Value) : Judged p v ((accept p v).run.run {}) where
  ok_iff d := by
    cases v with
    | null =>
      constructor
      · rintro ⟨⟩
        exact .inl ⟨rfl, rfl⟩
      · rintro (⟨-, rfl⟩ | ⟨⟨⟩, -⟩)
        rfl
    | document es =>
      rw [← foreignKeys_eq_nil_iff]
      refine judge_ok_iff.trans ?_
      simp
    | _ =>
      constructor
      · rintro ⟨⟩
      · rintro (⟨⟨⟩, -⟩ | ⟨⟨⟩, -⟩)
  other hnull hdocument := by
    cases v with
    | null => exact absurd rfl hnull
    | document d => exact absurd rfl (hdocument d)
    | _ => rfl
  foreign d hv hforeign hshown := by
    subst hv
    obtain ⟨cs, hcs⟩ := exists_complained (p := p) hshown
    have hne : cs ≠ [] := by
      rintro rfl
      exact hforeign (List.forall₂_nil_right_iff.1 hcs)
    refine ⟨cs, hcs, (judge_run_shown hcs).trans ?_⟩
    rw [if_neg hne]
  stuck d before key after hv hkeys hbefore hkey := by
    subst hv
    obtain ⟨cs, hcs⟩ := exists_complained (p := p) hbefore
    exact ⟨cs, hcs, judge_run_stuck hkeys hcs hkey⟩

/-- Nothing stands in an empty file, which has the value null. -/
theorem parses_empty (hsupported : suffixes.contains (Text.lowercase p.suffix) = true)
    (hdata : t.read p = .ok []) : Parses t p .null := by
  refine ⟨hsupported, [], hdata, ?_⟩
  rw [Yaml.read, t.library.isTooDeep_eq_false (by decide), if_neg Bool.false_ne_true]
  rfl

/-! ## A file with integers as keys -/

/-- A mapping with two integers in base sixteen as keys, zero and another. -/
def hexKeys (width n : Nat) : Yaml.Node :=
  .mapping .mapping [(.scalar .int (Yaml.hexText width 0), .scalar .null "null".toList),
    (.scalar .int (Yaml.hexText width n), .scalar .null "null".toList)]

section

variable {width n : Nat}

theorem hexKeys_isReadBack (hwidth : 128 ≤ width) (n : Nat) : (hexKeys width n).IsReadBack := by
  have hkey : ∀ {slot? : Option Yaml.Slot} {n : Nat},
      Yaml.Node.Readable slot? (.scalar .int (Yaml.hexText width n)) :=
    Yaml.Node.readable_word (Yaml.isWord_hexText _ _) (by decide) fun hrules =>
      Yaml.plainTag_hexText hrules (by omega)
  have hnull : ∀ {slot? : Option Yaml.Slot}, Yaml.Node.Readable slot? (.scalar .null "null".toList) := by
    refine Yaml.Node.readable_word Yaml.isWord_null (by decide) fun hrules => ?_
    rcases hrules with rfl | rfl <;> decide
  have hlong : ∀ n : Nat, (Yaml.Node.scalar .int (Yaml.hexText width n)).isSimpleKey = false := by
    intro n
    have hlength : ¬ Yaml.Tag.int.shorthand.length + (Yaml.hexText width n).length <
        Yaml.simpleKeyLimit := by
      simp only [Yaml.hexText, List.length_cons, Text.length_hexDigits, Yaml.simpleKeyLimit]
      omega
    simp [Yaml.Node.isSimpleKey_scalar, hlength]
  have hsafe : ∀ n, (Yaml.Node.scalar .int (Yaml.hexText width n)).IsSafeKey 0 := by
    intro n hsimple
    rw [hlong] at hsimple
    cases hsimple
  refine Yaml.Node.isReadBack_of_readable (.mapping ?_ ?_ ?_)
  · exact List.forall_mem_cons.2 ⟨hsafe 0, List.forall_mem_singleton.2 (hsafe n)⟩
  · exact List.forall_mem_cons.2 ⟨fun _ => hkey, List.forall_mem_singleton.2 fun _ => hkey⟩
  · exact List.forall_mem_cons.2 ⟨hnull, List.forall_mem_singleton.2 hnull⟩

/-- Zero is the same key as no other integer. -/
theorem sameKey_int_zero (hn : n ≠ 0) : (Value.int 0).sameKey (.int n) = false := by
  obtain ⟨k, hk, -⟩ := Double.stripZeros_spec (Decimal.digitCount n) n 0
  have hstrip : (Decimal.stripZeros (Decimal.digitCount n) n 0).1 ≠ 0 := by
    intro hzero
    rw [hzero, Nat.zero_mul] at hk
    exact hn hk
  simp [Value.sameKey, Value.key?, Key.ofInt, Key.ofDecimal, Decimal.canonical, hn, hstrip.symm]

theorem hexKeys_value (hwidth : 0 < width) (hn : n ≠ 0) (hlt : n < 16 ^ width) :
    (hexKeys width n).valueAt 0 = .ok (.document [(.int 0, .null), (.int n, .null)]) := by
  have hkey : ∀ {m : Nat}, m < 16 ^ width →
      Yaml.Scalar.value .int (Yaml.hexText width m) = .ok (.int m) := by
    intro m hm
    rw [Yaml.Scalar.value, Yaml.Scalar.int_hexText hwidth hm]
    rfl
  have hnull : ∀ cs, Yaml.Scalar.value .null cs = .ok .null := fun _ => rfl
  have hisKey : ∀ m : Int, (Value.int m).isKey = true := fun m => by simp [Value.isKey, Value.key?]
  have hentries : Document.ofEntries [(.int 0, .null), (.int n, .null)] =
      [(.int 0, .null), (.int n, .null)] := by
    simp [Document.ofEntries, Document.update, Document.insert, sameKey_int_zero hn]
  simp [hexKeys, Yaml.Node.valueAt, Yaml.Node.entriesAt, Yaml.Node.tag, Yaml.Node.valueKeyText?,
    Yaml.Node.isCollectionTag, Yaml.Node.at_, Yaml.Node.asKey, Yaml.Node.both, Yaml.Node.asDocument,
    Yaml.Node.every, Except.map, Except.mapError, hkey (Nat.pow_pos (by decide) : 0 < 16 ^ width),
    hkey hlt, hnull, hisKey, hentries]

/-- A file whose only content is such a mapping. -/
def hexTree (width n : Nat) : Tree where
  entries := [(["a.yaml".toList], .file (Text.Utf8.encode (hexKeys width n).render))]

theorem parses_hexTree (hwidth : 128 ≤ width) (hn : n ≠ 0) (hlt : n < 16 ^ width) :
    Parses (hexTree width n) (Path.ofText "a.yaml".toList)
      (.document [(.int 0, .null), (.int n, .null)]) where
  isSupported := by decide
  exists_data := by
    obtain ⟨hkept, hnode⟩ := hexKeys_isReadBack hwidth n
    exact ⟨_, rfl, Yaml.read_encode rfl hkept hnode rfl (hexKeys_value (by omega) hn hlt) rfl⟩

end

/-! ## Calls in a row -/

/-- **A loader can be used again.** Every call ends as it would on a new loader, and the loader is
empty after it unless a key that cannot be shown broke it off. Where a file parses, it is its template;
its variables are what the verdict on its value says, and an empty file parses as null. -/
theorem runs_afresh (l : Loader) (cs : List Call) (t : Tree) (p : Path) :
    l.run cs = cs.map (fun c => c.perform.run.run {}) ∧
    (∀ outcome ∈ l.run cs, outcome.1 ≠ .error .unshowableKey → outcome.2 = {}) ∧
    (∀ v, Parses t p v →
      (loadTemplate t p).run.run l = (.ok v, {}) ∧ Judged p v ((load t p).run.run l)) ∧
    (suffixes.contains (Text.lowercase p.suffix) = true → t.read p = .ok [] → Parses t p .null) := by
  refine ⟨run_eq_map l cs, fun outcome houtcome hshown => ?_, fun v h =>
    ⟨h.loadTemplate_run l, ?_⟩, parses_empty⟩
  · rw [run_eq_map] at houtcome
    obtain ⟨c, -, rfl⟩ := List.mem_map.1 houtcome
    exact perform_run_snd c hshown
  · rw [h.load_run]
    exact judged_accept p v

/-- A file with two foreign keys is refused by a loader that holds a complaint about something else, and
can be loaded as a template by the same loader afterwards. -/
theorem runs_afresh_foreignKeys :
    let p := Path.ofText "a.yaml".toList
    let t := hexTree 128 1
    let v : Value := .document [(.int 0, .null), (.int 1, .null)]
    let stale : Loader := ⟨[{ message := "stale" }]⟩
    let complaints := [{ message := "Keys must be strings, got int key 0", path := "a.yaml" },
      { message := "Keys must be strings, got int key 1", path := "a.yaml" }]
    Parses t p v ∧ (load t p).run.run stale = (.error (.invalid ⟨complaints⟩), {}) ∧
      stale.run [.load t p, .loadTemplate t p] =
        [(.error (.invalid ⟨complaints⟩), {}), (.ok v, {})] := by
  intro p t v stale complaints
  have hparses : Parses t p v := parses_hexTree (by decide) (by decide) (by decide +kernel)
  obtain ⟨hrun, -⟩ := runs_afresh stale [.load t p, .loadTemplate t p] t p
  have hjudged (l : Loader) := (runs_afresh l [] t p).2.2.1 v hparses
  have hcomplained : Complained p [.int 0, .int 1] complaints :=
    .cons (by decide +kernel) (.cons (by decide +kernel) .nil)
  have hload : ∀ l, (load t p).run.run l = (.error (.invalid ⟨complaints⟩), {}) := by
    intro l
    obtain ⟨cs, hcs, hload⟩ := (hjudged l).2.foreign _ rfl (List.cons_ne_nil _ _)
      (by decide +kernel)
    rw [hload, complained_unique hcs hcomplained]
  refine ⟨hparses, hload stale, hrun.trans ?_⟩
  have htemplate := (hjudged {}).1
  have hfirst : (Call.load t p).perform.run.run {} = _ := run_bind_of_error (hload {})
  rw [List.map_cons, hfirst, List.map_singleton]
  exact congrArg (fun x => [_, x]) htemplate

/-- An integer past the limit of decimal text breaks the call off and leaves the complaint about the
key before it in the loader. -/
theorem load_hexTree {width n : Nat} (hwidth : 128 ≤ width) (hlarge : ¬ n < Integer.limitBound)
    (hlt : n < 16 ^ width) :
    (load (hexTree width n) (Path.ofText "a.yaml".toList)).run.run {} = (.error .unshowableKey,
      ⟨[{ message := "Keys must be strings, got int key 0", path := "a.yaml" }]⟩) := by
  have hn : n ≠ 0 := by
    rintro rfl
    exact hlarge (Nat.pow_pos (by decide))
  rw [(parses_hexTree hwidth hn hlt).load_run]
  have hzero : keyComplaint? (Path.ofText "a.yaml".toList) (.int 0) =
      some { message := "Keys must be strings, got int key 0", path := "a.yaml" } := by decide +kernel
  have hstuck : (Value.int n).holdsOversized = true := by
    simp [Value.holdsOversized, Integer.isWritable, hlarge]
  have hkeys : foreignKeys [(.int 0, .null), (.int n, .null)] = [.int 0] ++ .int n :: [] := rfl
  exact judge_run_stuck hkeys (.cons hzero .nil) hstuck

/-- The complaint about zero stays behind where the least integer without decimal text is a key. -/
theorem load_hexTree_limitBound :
    (load (hexTree 3600 Integer.limitBound) (Path.ofText "a.yaml".toList)).run.run {} =
      (.error .unshowableKey,
        ⟨[{ message := "Keys must be strings, got int key 0", path := "a.yaml" }]⟩) :=
  load_hexTree (by decide) (Nat.lt_irrefl _) (by decide +kernel)

end Stencil.Loader
