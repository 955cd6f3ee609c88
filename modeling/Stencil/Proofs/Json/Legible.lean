import Stencil.Proofs.Json.Scan
import Stencil.Proofs.Yaml.Kept
import Stencil.Proofs.Yaml.Meaning

/-!
# Values whose JSON text is read back

A value is *legible* if it is restorable, none of its texts holds a character past the first plane,
and no key is too long to be known by the colon behind it (`Legible`). A `Piece` is a part of an
indented JSON text with the tokens that it scans as and the node that these read as; whoever writes a
legible value writes a piece whose node is that of the value (`exists_piece`), by induction on the
value with a piece for each kind of value.
-/

namespace Stencil.Json

open Text Yaml Yaml.Reading Integer

/-! ## Pieces -/

/-- A part of a text, the tokens that it scans as, and the node that they read as. -/
structure Piece where
  text : List Char
  tokens : List Token
  node : Node
  scans : ∀ isPart, Scans isPart text tokens
  reads : ∀ inBlock mayHang, Reads inBlock mayHang tokens node
  kept : ∀ c ∈ text, isKept c = true

/-- A word and its tag. -/
def Piece.word (tag : Tag) (w : List Char) (h : IsWord w) (htag : plainTag readingRules w = tag) :
    Piece where
  text := w
  tokens := [.scalar w true]
  node := .scalar tag w
  scans _ := Scans.word h
  reads _ _ := htag ▸ Reads.scalar w true
  kept c hc := isKept_of_isLetter (h.letters c hc)

/-- A string. -/
def Piece.string (cs : List Char) (h : isBasic cs = true) : Piece where
  text := Json.string cs
  tokens := [.scalar cs false]
  node := .scalar .text cs
  scans _ := Scans.string h
  reads _ _ := Reads.scalar cs false
  kept c hc := isKept_of_ascii (string_ascii cs c hc)

theorem breakAt_kept (width depth : Nat) :
    ∀ c ∈ (Layout.indented width).breakAt depth, isKept c = true := by
  intro c hc
  have hfiller := breakAt_filler width depth c hc
  simp only [isFiller, Bool.or_eq_true, beq_iff_eq] at hfiller
  rcases hfiller with rfl | rfl <;> decide

/-- What stands between brackets is kept if its parts are. -/
theorem enclose_kept {opening closing : Char} (hopening : isKept opening = true)
    (hclosing : isKept closing = true) (width depth : Nat) {parts : List (List Char)}
    (h : ∀ part ∈ parts, ∀ c ∈ part, isKept c = true) :
    ∀ c ∈ (Layout.indented width).enclose depth opening closing parts, isKept c = true := by
  intro c hc
  cases parts with
  | nil =>
    rcases List.mem_cons.1 hc with rfl | hc
    · exact hopening
    · rw [List.mem_singleton.1 hc]
      exact hclosing
  | cons part parts =>
    obtain ⟨hpart, hparts⟩ := List.forall_mem_cons.1 h
    have hsome : part :: parts = [] → False := List.cons_ne_nil _ _
    rw [Layout.enclose.eq_2 _ _ _ _ _ hsome, joinWith_cons] at hc
    simp only [List.cons_append, List.mem_cons, List.mem_append, List.mem_flatMap, List.not_mem_nil,
      or_false] at hc
    rcases hc with rfl | ((hc | hc | ⟨other, hother, hc⟩) | hc) | rfl
    · exact hopening
    · exact breakAt_kept _ _ c hc
    · exact hpart c hc
    · rcases hc with hc | hc
      · rcases List.mem_cons.1 hc with rfl | hc
        · decide
        · exact breakAt_kept _ _ c hc
      · exact hparts other hother c hc
    · exact breakAt_kept _ _ c hc
    · exact hclosing

/-- The width of a level. -/
def indentation : Nat := 2

/-- A list of pieces. -/
def Piece.sequence (depth : Nat) (ps : List Piece) : Piece where
  text := (Layout.indented indentation).enclose depth '[' ']' (ps.map Piece.text)
  tokens := .openBracket :: (commaTokens (ps.map Piece.tokens) ++ [.closeBracket])
  node := .sequence .sequence (ps.map Piece.node)
  scans isPart := by
    have hparts : ∀ x ∈ ps.map fun p => (p.text, p.tokens), Scans true x.1 x.2 := by
      intro x hx
      obtain ⟨p, -, rfl⟩ := List.mem_map.1 hx
      exact p.scans true
    have hscans : Scans isPart _ _ := Scans.enclosed Brackets.square indentation depth hparts
    rw [List.map_map, List.map_map] at hscans
    exact hscans
  reads inBlock mayHang := by
    have hreads : ∀ x ∈ ps.map fun p => (p.tokens, p.node), Reads false false x.1 x.2 := by
      intro x hx
      obtain ⟨p, -, rfl⟩ := List.mem_map.1 hx
      exact p.reads false false
    have hsequence : Reads inBlock mayHang _ _ := Reads.flowSequence hreads
    rw [List.map_map, List.map_map] at hsequence
    exact hsequence
  kept := by
    refine enclose_kept rfl rfl _ _ ?_
    intro part hpart
    obtain ⟨p, -, rfl⟩ := List.mem_map.1 hpart
    exact p.kept

/-- A key that is known by the colon behind it. -/
structure Key where
  text : List Char
  basic : isBasic text = true
  length_le : (Json.string text).length ≤ Scan.keyLimit

/-- A document of keys and pieces. -/
def Piece.mapping (depth : Nat) (es : List (Key × Piece)) : Piece where
  text := (Layout.indented indentation).enclose depth '\x7b' '\x7d'
    (es.map fun e => Json.string e.1.text ++ ':' :: ' ' :: e.2.text)
  tokens := .openBrace :: (commaTokens (es.map fun e =>
    .key :: .scalar e.1.text false :: .value :: e.2.tokens) ++ [.closeBrace])
  node := .mapping .mapping (es.map fun e => (.scalar .text e.1.text, e.2.node))
  scans isPart := by
    have hparts : ∀ x ∈ es.map fun e => (Json.string e.1.text ++ ':' :: ' ' :: e.2.text,
        Token.key :: .scalar e.1.text false :: .value :: e.2.tokens), Scans true x.1 x.2 := by
      intro x hx
      obtain ⟨e, -, rfl⟩ := List.mem_map.1 hx
      exact Scans.entry e.1.basic e.1.length_le (e.2.scans false)
    have hscans : Scans isPart _ _ := Scans.enclosed Brackets.curly indentation depth hparts
    rw [List.map_map, List.map_map] at hscans
    exact hscans
  reads inBlock mayHang := by
    let entry (e : Key × Piece) : (List Token × Node) × (List Token × Node) :=
      (([.scalar e.1.text false], .scalar .text e.1.text), (e.2.tokens, e.2.node))
    have hkeys : ∀ x ∈ es.map entry, Reads false false x.1.1 x.1.2 := by
      intro x hx
      obtain ⟨e, -, rfl⟩ := List.mem_map.1 hx
      exact Reads.scalar e.1.text false
    have hvalues : ∀ x ∈ es.map entry, Reads false false x.2.1 x.2.2 := by
      intro x hx
      obtain ⟨e, -, rfl⟩ := List.mem_map.1 hx
      exact e.2.reads false false
    have hmapping : Reads inBlock mayHang _ _ := Reads.flowMapping hkeys hvalues
    rw [List.map_map, List.map_map] at hmapping
    exact hmapping
  kept := by
    refine enclose_kept rfl rfl _ _ ?_
    intro part hpart c hc
    obtain ⟨e, -, rfl⟩ := List.mem_map.1 hpart
    rcases List.mem_append.1 hc with hc | hc
    · exact isKept_of_ascii (string_ascii _ c hc)
    rcases List.mem_cons.1 hc with rfl | hc
    · decide
    rcases List.mem_cons.1 hc with rfl | hc
    · decide
    · exact e.2.kept c hc

/-! ## Legible values -/

/-- A value whose JSON text is read back. -/
inductive Legible : Value → Prop
  | null : Legible .null
  | bool (b : Bool) : Legible (.bool b)
  | int {n : Int} (h : isWritable n = true) : Legible (.int n)
  | float {x : Double} (hfinite : x.isFinite = true) (hpoint : '.' ∈ x.text) : Legible (.float x)
  | text {s : String} (h : isBasic s.toList = true) : Legible (.text s)
  | list {items : List Value} (h : ∀ v ∈ items, Legible v) : Legible (.list items)
  | document {entries : Document} (hkeys : ∀ e ∈ entries, ∃ s, e.1 = .text s ∧
        isBasic s.toList = true ∧ (string s.toList).length ≤ Scan.keyLimit)
      (hdistinct : Document.Distinct entries) (hvalues : ∀ e ∈ entries, Legible e.2) :
      Legible (.document entries)

theorem Legible.restorable {v : Value} (h : Legible v) : Restorable v := by
  induction h with
  | null => exact .null
  | bool b => exact .bool b
  | int h => exact .int h
  | float hfinite hpoint => exact .float hfinite hpoint
  | text => exact .text _
  | list _ ih => exact .list ih
  | document hkeys hdistinct _ ih =>
    refine .document ?_ hdistinct ih
    intro e he
    obtain ⟨s, hs, -⟩ := hkeys e he
    exact ⟨s, hs⟩

/-! ### Values as pieces -/

/-- At a depth the value is written as a piece whose node is that of the value. -/
def IsPiece (depth : Nat) (v : Value) : Prop :=
  ∃ p : Piece, write (.indented indentation) depth (fun _ => false) v = .ok p.text ∧
    Node.ofValue? v = some p.node

theorem exists_pieces {depth : Nat} {items : List Value} (h : ∀ v ∈ items, IsPiece depth v) :
    ∃ ps : List Piece,
      writeItems (.indented indentation) depth (fun _ => false) items = .ok (ps.map Piece.text) ∧
      Node.ofItems? items = some (ps.map Piece.node) := by
  induction items with
  | nil => exact ⟨[], rfl, rfl⟩
  | cons v vs ih =>
    obtain ⟨hv, hvs⟩ := List.forall_mem_cons.1 h
    obtain ⟨p, hwrite, hnode⟩ := hv
    obtain ⟨ps, hwrites, hnodes⟩ := ih hvs
    refine ⟨p :: ps, ?_, ?_⟩
    · rw [writeItems, Position.first_const, Position.rest_const, hwrite, hwrites]
      rfl
    · rw [Node.ofItems?, hnode, hnodes]
      rfl

theorem exists_entries {depth : Nat} {entries : Document}
    (hkeys : ∀ e ∈ entries, ∃ s, e.1 = .text s ∧ isBasic s.toList = true ∧
      (string s.toList).length ≤ Scan.keyLimit) (h : ∀ e ∈ entries, IsPiece depth e.2) :
    ∃ es : List (Key × Piece),
      writeEntries (.indented indentation) depth (fun _ => false) entries =
        .ok (es.map fun e => string e.1.text ++ ':' :: ' ' :: e.2.text) ∧
      Node.ofEntries? entries = some (es.map fun e => (.scalar .text e.1.text, e.2.node)) := by
  induction entries with
  | nil => exact ⟨[], rfl, rfl⟩
  | cons e entries ih =>
    obtain ⟨k, v⟩ := e
    obtain ⟨⟨s, hk, hbasic, hlength⟩, hkeys⟩ := List.forall_mem_cons.1 hkeys
    obtain ⟨hv, hvs⟩ := List.forall_mem_cons.1 h
    obtain ⟨p, hwrite, hnode⟩ := hv
    obtain ⟨es, hwrites, hnodes⟩ := ih hkeys hvs
    dsimp only at hk hwrite hnode
    subst hk
    have htext : Node.ofValue? (.text s) = some (.scalar .text s.toList) := rfl
    refine ⟨(⟨s.toList, hbasic, hlength⟩, p) :: es, ?_, ?_⟩
    · simp only [writeEntries, Position.first_const, Position.rest_const, hwrite, hwrites]
      rfl
    · rw [Node.ofEntries?, htext, hnode, hnodes]
      rfl

/-- **A legible value is written as a piece.** -/
theorem exists_piece {v : Value} (h : Legible v) (depth : Nat) : IsPiece depth v := by
  induction h generalizing depth with
  | null =>
    exact ⟨.word .null _ isWord_null (by decide +kernel), rfl, rfl⟩
  | bool b =>
    cases b with
    | true => exact ⟨.word .bool _ (isWord_bool true) (by decide +kernel), rfl, rfl⟩
    | false => exact ⟨.word .bool _ (isWord_bool false) (by decide +kernel), rfl, rfl⟩
  | @int n h =>
    have htext : Integer.text? n = some (Integer.text n) := Integer.text?_eq_some.2 ⟨h, rfl⟩
    have hinteger : integer n = .ok (Integer.text n) := by
      unfold integer
      rw [htext]
    refine ⟨.word .int _ (isWord_integer n) (plainTag_integer (.inr rfl) n), ?_, ?_⟩
    · rw [write, hinteger]
      rfl
    · rw [Node.ofValue?, htext]
      rfl
  | @float x hfinite hpoint =>
    refine ⟨.word .float _ (isWord_float hfinite hpoint)
      (plainTag_float (.inr rfl) hfinite hpoint), ?_, ?_⟩
    · rw [write]
      cases x with
      | infinity => cases hfinite
      | nan => cases hfinite
      | finite => rfl
    · rw [Node.ofValue?, Node.floatText_of_point hfinite hpoint]
      rfl
  | @text s h => exact ⟨.string s.toList h, rfl, rfl⟩
  | list _ ih =>
    obtain ⟨ps, hwrites, hnodes⟩ := exists_pieces fun v hv => ih v hv (depth + 1)
    refine ⟨.sequence depth ps, ?_, ?_⟩
    · rw [write, hwrites]
      rfl
    · rw [Node.ofValue?, hnodes]
      rfl
  | document hkeys _ _ ih =>
    obtain ⟨es, hwrites, hnodes⟩ := exists_entries hkeys fun e he => ih e he (depth + 1)
    refine ⟨.mapping depth es, ?_, ?_⟩
    · rw [write, hwrites]
      rfl
    · rw [Node.ofValue?, hnodes]
      rfl

/-! ## Whole texts -/

theorem afloat_start (cs : List Char) : Scan.Afloat { cursor := { rest := cs } } :=
  ⟨rfl, rfl, Scan.isIdle_of_none rfl, nofun⟩

/-- A piece and a line feed are read as the tokens of the piece. -/
theorem ofText_piece (p : Piece) :
    TokenStream.ofText (p.text ++ ['\n']) = ⟨p.tokens ++ [.streamEnd], .malformed⟩ := by
  let s : Scan := { cursor := { rest := p.text ++ ['\n'] } }
  have hs : s.Afloat := afloat_start _
  have hsettled : s.settled = .ok (s.behind []) :=
    hs.settled (v := []) rfl (List.forall_mem_nil _) ((p.scans false).solid _)
  have hrest : (s.behind []).rest = p.text ++ (['\n'] ++ []) := Scan.rest_behind (v := []) rfl
  obtain ⟨u, hu⟩ := (p.scans false).gains (hs.behind []) nofun hrest (List.all_eq_true.1 rfl) (.inl rfl)
  have hidle : u.closeAll.IsIdle := by
    unfold Scan.closeAll
    split
    · exact hu.afloat.idle
    · exact hu.afloat.idle
  have hfinish : u.finish = .ok (Scan.emit .streamEnd { u.closeAll with candidate? := none }) := by
    unfold Scan.finish
    rw [Scan.dropCandidate_eq hidle]
    rfl
  have hreversed : u.closeAll.reversed = p.tokens.reverse := by
    have hu' := hu.reversed_eq
    unfold Scan.closeAll
    split
    · rw [hu']
      exact List.append_nil _
    · dsimp only
      rw [hu.afloat.outer_eq, hu']
      exact List.append_nil _
  rw [TokenStream.ofText_of_leads hsettled hrest hu.leads hu.rest_eq hfinish]
  show TokenStream.mk (List.reverse (.streamEnd :: u.closeAll.reversed)) _ = _
  rw [hreversed, List.reverse_cons, List.reverse_reverse]

end Stencil.Json
