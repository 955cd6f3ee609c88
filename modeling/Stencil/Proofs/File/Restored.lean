import Stencil.Output
import Stencil.Proofs.File.Save
import Stencil.Proofs.File.Variables
import Stencil.Proofs.Json.Legible
import Stencil.Proofs.Yaml.Whole

/-!
# What is written is read back

A value is *restored* in a format if its text, saved in a file that can be loaded, is loaded as the
value (`IsRestored`), unless the system refuses to read the file or the library has no room for it.
Saving and loading are done with here, so what remains for a format is that the bytes of its text are
read as the value (`isRestored_of_read`).

In JSON the legible values are restored (`isRestored_json`), not so a float that is written as a
digit and an exponent (`not_isRestored_json_exponent`). In YAML the restorable values are restored
whose texts are safe where they are written (`isRestored_yaml`), not so a text with a next-line
character between single quotes (`not_isRestored_yaml_nextLine`).
-/

namespace Stencil

variable {v : Value}

/-- The text of a value, saved in a file that can be loaded and read, is loaded as the value by every
library that has room for it. -/
def IsRestored (format : OutputFormat) (v : Value) : Prop :=
  ∃ cs, OutputFormat.write v format = .ok cs ∧ ∀ (t : Tree) (p : Path) (l : Loader),
    Loader.suffixes.contains (Text.lowercase p.suffix) = true →
    (t.save p (Text.Utf8.encode cs)).2 = none →
    (t.save p (Text.Utf8.encode cs)).1.refused? .read p = none →
    t.library.isTooDeep (Text.Utf8.encode cs) = false →
    (Loader.loadTemplate (t.save p (Text.Utf8.encode cs)).1 p).run.run l = (.ok v, {})

theorem Loader.loadTemplate_of_read {t : Tree} {p : Path} {data : List UInt8}
    (hsuffix : suffixes.contains (Text.lowercase p.suffix) = true) (hfile : t.read p = .ok data)
    (hread : Yaml.read t.library data = .ok v) (l : Loader) :
    (loadTemplate t p).run.run l = (.ok v, {}) := by
  have hvalue : (value t p).run.run l = (.ok v, {}) := by
    unfold value
    rw [run_bind_of_ok (s := l) (t := {}) (a := ()) rfl, hsuffix, hfile]
    dsimp only
    rw [hread]
    rfl
  unfold loadTemplate
  rw [run_bind_of_ok hvalue]
  rfl

theorem isRestored_of_read {format : OutputFormat} {cs : List Char}
    (hwrite : OutputFormat.write v format = .ok cs)
    (hread : ∀ lib : Library, lib.isTooDeep (Text.Utf8.encode cs) = false →
      Yaml.read lib (Text.Utf8.encode cs) = .ok v) : IsRestored format v := by
  refine ⟨cs, hwrite, ?_⟩
  intro t p l hsuffix hsave hrefused hroom
  obtain ⟨here, hlocate, hcontent⟩ := Tree.content?_save hsave
  have hfile := Tree.read_of_content? hrefused hlocate ((hcontent here).trans (if_pos rfl))
  refine Loader.loadTemplate_of_read hsuffix hfile ?_ l
  rw [Tree.library_save]
  exact hread t.library hroom

/-! ## JSON -/

/-- **JSON is read back** by the rules for all documents. The values are those whose floats have a
point and whose keys are short; of texts nothing is said that hold characters past the first plane. -/
theorem isRestored_json (h : Json.Legible v) : IsRestored .json v := by
  obtain ⟨piece, hpiece, hnode⟩ := Json.exists_piece h 0
  obtain ⟨n, hn, htree, hvalue⟩ := Yaml.Node.standsFor_of_restorable h.restorable
  rw [hnode] at hn
  cases hn
  have hwrite : OutputFormat.write v .json = .ok (piece.text ++ ['\n']) := by
    show (Json.write (.indented 2) 0 (fun _ => false) v).map (· ++ ['\n']) = _
    rw [show Json.write (.indented 2) 0 (fun _ => false) v = .ok piece.text from hpiece]
    rfl
  have hkept : ∀ c ∈ piece.text ++ ['\n'], Yaml.isKept c = true := by
    intro c hc
    rcases List.mem_append.1 hc with hc | hc
    · exact piece.kept c hc
    · rw [List.mem_singleton.1 hc]
      rfl
  have hstream : (Yaml.TokenStream.ofText (piece.text ++ ['\n'])).node? = .ok (some piece.node) := by
    have hends : ([] : List Yaml.Token) = [] ∨ ([] : List Yaml.Token) = [.documentEnd] := .inl rfl
    have hstream := Yaml.Reading.node?_of_reads (piece.reads true false) hends
    rw [Json.ofText_piece]
    exact hstream
  exact isRestored_of_read hwrite fun lib hroom => Yaml.read_encode hroom hkept hstream htree
    (hvalue 0) (Yaml.ordered_of_restorable h.restorable lib.order)

/-- A document with a float, a text that needs escapes, and an empty list. -/
theorem isRestored_json_document :
    let half := Double.round false 1 2
    let v : Value := .document [(.text "a", .list [.float half, .null, .text "\"é\n "]),
      (.text "1.5", .list [])]
    Json.Legible v ∧ IsRestored .json v := by
  intro half v
  have hhalf : Json.Legible (.float half) := .float (by decide +kernel) (by decide +kernel)
  have htext : Json.Legible (.text "\"é\n ") := .text (by decide +kernel)
  have hitems : Json.Legible (.list [.float half, .null, .text "\"é\n "]) := by
    refine .list ?_
    intro w hw
    simp only [List.mem_cons, List.not_mem_nil, or_false] at hw
    rcases hw with rfl | rfl | rfl
    · exact hhalf
    · exact .null
    · exact htext
  have hempty : Json.Legible (.list []) := .list (List.forall_mem_nil _)
  have hv : Json.Legible v := by
    refine .document ?_ ?_ ?_
    · intro e he
      simp only [List.mem_cons, List.not_mem_nil, or_false] at he
      rcases he with rfl | rfl
      · exact ⟨"a", rfl, by decide +kernel, by decide +kernel⟩
      · exact ⟨"1.5", rfl, by decide +kernel, by decide +kernel⟩
    · simp only [Document.Distinct, Document.keys, List.map_cons, List.map_nil, List.pairwise_cons,
        List.mem_singleton, List.not_mem_nil]
      refine ⟨?_, fun _ h => absurd h not_false, .nil⟩
      rintro _ rfl
      decide +kernel
    · intro e he
      simp only [List.mem_cons, List.not_mem_nil, or_false] at he
      rcases he with rfl | rfl
      · exact hitems
      · exact hempty
  exact ⟨hv, isRestored_json hv⟩

/-- Ten to the sixteenth is written as a digit and an exponent, and that is read as text. -/
theorem not_isRestored_json_exponent :
    ¬ IsRestored .json (.float (Double.round false (10 ^ 16) 1)) := by
  rintro ⟨cs, hwrite, hload⟩
  let p := Path.ofText "a.json".toList
  have hcs : cs = "1e+16\n".toList := by
    have hwritten : (OutputFormat.write (.float (Double.round false (10 ^ 16) 1)) .json).toOption =
        some "1e+16\n".toList := by decide +kernel
    rw [hwrite] at hwritten
    exact Option.some.inj hwritten
  subst hcs
  have htype : ((Loader.loadTemplate
      (({} : Tree).save p (Text.Utf8.encode "1e+16\n".toList)).1 p).run.run {}).1.toOption.map
        Value.typeName = some "str" := by decide +kernel
  rw [hload {} p {} (by decide +kernel) (by decide +kernel) rfl rfl] at htype
  exact absurd htype (by decide +kernel)

/-! ## YAML -/

/-- **YAML is read back.** Of the values that are restored in JSON none needs short keys or characters
of the first plane here; but no text may hold a next-line character in the style chosen for it, no
simple key may be too long with its escapes, and no line may be folded between the backslash of an
escape and a space. -/
theorem isRestored_yaml (h : Yaml.Restorable v)
    (hsafe : (Yaml.Node.ofValue? v).all (Yaml.Node.isSafe none) = true) : IsRestored .yaml v := by
  obtain ⟨n, hnode, htree, hvalue⟩ := Yaml.Node.standsFor_of_restorable h
  rw [hnode, Option.all_some] at hsafe
  obtain ⟨hkept, hread⟩ := Yaml.Node.isReadBack_of_readable (Yaml.Node.readable_of_restorable h hnode hsafe)
  have hwrite : OutputFormat.write v .yaml = .ok n.render := by
    unfold OutputFormat.write OutputFormat.writeNamed
    dsimp only
    rw [hnode]
    dsimp only
    rw [Yaml.Sheet.ofNode_bare]
    rfl
  exact isRestored_of_read hwrite fun lib hroom => Yaml.read_encode hroom hkept hread htree
    (hvalue 0) (Yaml.ordered_of_restorable h lib.order)

/-- A document with keys in quotes and behind a question mark, an item that breaks lines, a text with
escapes, and collections that are empty, nested, and hung under a key. -/
theorem isRestored_yaml_document :
    let v : Value := .document [(.text "yes", .list [.text "012", .list [.text " a: b\n\n", .null]]),
      (.text "", .document [(.text "k", .bool true)]), (.text "t", .text "é\t x"), (.text "u", .list [])]
    Yaml.Restorable v ∧ (Yaml.Node.ofValue? v).all (Yaml.Node.isSafe none) = true ∧
      IsRestored .yaml v := by
  intro v
  have hdeep : Yaml.Restorable (.list [.text " a: b\n\n", .null]) :=
    .list (List.forall_mem_cons.2 ⟨.text _, List.forall_mem_singleton.2 .null⟩)
  have hlist : Yaml.Restorable (.list [.text "012", .list [.text " a: b\n\n", .null]]) :=
    .list (List.forall_mem_cons.2 ⟨.text _, List.forall_mem_singleton.2 hdeep⟩)
  have hinner : Yaml.Restorable (.document [(.text "k", .bool true)]) :=
    .document (List.forall_mem_singleton.2 ⟨_, rfl⟩) (List.pairwise_singleton _ _)
      (List.forall_mem_singleton.2 (.bool true))
  have hv : Yaml.Restorable v := by
    refine .document ?_ ?_ ?_
    · intro e he
      simp only [List.mem_cons, List.not_mem_nil, or_false] at he
      rcases he with rfl | rfl | rfl | rfl <;> exact ⟨_, rfl⟩
    · simp [Document.Distinct, Document.keys]
    · intro e he
      simp only [List.mem_cons, List.not_mem_nil, or_false] at he
      rcases he with rfl | rfl | rfl | rfl
      · exact hlist
      · exact hinner
      · exact .text _
      · exact .list (List.forall_mem_nil _)
  have hsafe : (Yaml.Node.ofValue? v).all (Yaml.Node.isSafe none) = true := by decide +kernel
  exact ⟨hv, hsafe, isRestored_yaml hv hsafe⟩

/-- Single quotes hold a next-line character as it is, and there it is read as a space. -/
theorem not_isRestored_yaml_nextLine : ¬ IsRestored .yaml (.text "a\u0085b") := by
  rintro ⟨cs, hwrite, hload⟩
  let p := Path.ofText "a.yaml".toList
  have hcs : cs = "'a\u0085  b'\n".toList := by
    have hwritten : (OutputFormat.write (.text "a\u0085b") .yaml).toOption =
        some "'a\u0085  b'\n".toList := by decide +kernel
    rw [hwrite] at hwritten
    exact Option.some.inj hwritten
  subst hcs
  have hread : ((Loader.loadTemplate
      (({} : Tree).save p (Text.Utf8.encode "'a\u0085  b'\n".toList)).1 p).run.run {}).1.toOption.bind
        Value.key? = Value.key? (.text "a b") := by decide +kernel
  rw [hload {} p {} (by decide +kernel) (by decide +kernel) rfl rfl] at hread
  exact absurd hread (by decide +kernel)

end Stencil
