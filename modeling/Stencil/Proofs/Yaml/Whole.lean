import Stencil.Proofs.Yaml.Readable

/-!
# Whole documents

What is written for a node alone ends with a line feed, and behind a plain scalar with an end mark on
a line of its own. From its start, this is read as a node on its line, as a block at the first
column, or as a plain scalar before the mark (`ofText_leaf`, `ofText_part`, `ofText_plain`).

Main result: `Node.node?_render`, that the text of a readable node reads as the node.
-/

namespace Stencil.Yaml

open Scan

variable {cs w x text : List Char} {tok : Token} {ts : List Token} {n indent : Nat}

/-! ## From the start to the end -/

namespace Scan

/-- The state at the start of a text. -/
def start (cs : List Char) : Scan := { cursor := { rest := cs } }

theorem inBlock_start (cs : List Char) : (start cs).InBlock := ⟨rfl, rfl⟩

theorem stands_start (cs : List Char) : (start cs).Stands := ⟨inBlock_start cs, fun _ => Nat.le_refl 0⟩

theorem settled_start (h : isSolid cs = true) : settled (start cs) = .ok (start cs) := by
  have hsettled := settled_passing (v := []) (inBlock_start cs) rfl (List.forall_mem_nil _) h
    (Nat.zero_le _)
  exact hsettled

end Scan

/-- At the end of a text the blocks that are open are closed. -/
theorem ofText_of_leads_past {s : Scan} (hs : s.InBlock) (hmargin : s.margin ≤ 1)
    (hsolid : isSolid cs = true) (hleads : Leads (start cs) (s.past n ts).closeToColumn)
    (hrest : (s.past n ts).rest = []) :
    TokenStream.ofText cs =
      ⟨s.reversed.reverse ++ ts ++ s.outer.map (fun _ => .blockEnd) ++ [.streamEnd], .malformed⟩ := by
  let u := s.past n ts
  have hclose : u.closeToColumn = u :=
    closeToColumn_eq_self (Nat.le_trans hmargin (Nat.le_add_left 1 _))
  have hall : u.closeAll = { u with
      margin := 0
      outer := []
      reversed := s.outer.map (fun _ => .blockEnd) ++ u.reversed } := by
    unfold closeAll
    rw [(hs.past n ts).inFlow_eq]
    rfl
  have hfinish : u.finish = .ok (emit .streamEnd { u.closeAll with candidate? := none }) := by
    unfold finish
    rw [dropCandidate_eq (isIdle_of_none (by rw [hall]; rfl))]
    rfl
  rw [hclose] at hleads
  rw [TokenStream.ofText_of_leads (settled_start hsolid) rfl hleads hrest hfinish]
  show TokenStream.mk (List.reverse (.streamEnd :: u.closeAll.reversed)) _ = _
  rw [hall]
  show TokenStream.mk
    (List.reverse (.streamEnd :: (s.outer.map (fun _ => .blockEnd) ++ (ts.reverse ++ s.reversed)))) _ = _
  simp [List.map_const']

theorem resumes_end (margin : Nat) : Resumes margin 0 [] := ⟨rfl, rfl, .inr ⟨rfl, rfl⟩⟩

/-- A node on its line. -/
theorem ofText_leaf (h : IsLeaf indent w ts) :
    TokenStream.ofText (w ++ freshLine 0 []) = ⟨ts ++ [.streamEnd], .malformed⟩ := by
  have hleads := h.leads (stands_start _) (Nat.zero_le _) rfl (resumes_end 0)
  have htext := ofText_of_leads_past (inBlock_start _) (Nat.zero_le 1) (h.solid _) hleads
    (rest_past_freshLine (s := start (w ++ freshLine 0 [])) rfl ts)
  rw [htext]
  show TokenStream.mk ([] ++ ts ++ [] ++ [.streamEnd]) _ = _
  simp

/-- A block. -/
theorem ofText_part (h : IsPart tok 0 x ts) :
    TokenStream.ofText (x ++ freshLine 0 []) = ⟨tok :: (ts ++ [.blockEnd]) ++ [.streamEnd], .malformed⟩ := by
  let s := start (x ++ freshLine 0 [])
  have hs : s.openBlockHere tok = { s with
      reversed := [tok]
      margin := 1
      outer := [0] } := openBlockHere_of_le (Nat.le_refl 0)
  have hleads := h.leads (inBlock_start _) rfl rfl (Nat.zero_le 1) rfl (resumes_end 1)
  have hblock : (s.openBlockHere tok).InBlock := (inBlock_start _).openBlockHere tok
  have hrest : (s.openBlockHere tok).rest = x ++ freshLine 0 [] :=
    congrArg Cursor.rest (cursor_openBlockHere s tok)
  have htext := ofText_of_leads_past hblock (by rw [hs]) (h.solid _) hleads
    (rest_past_freshLine hrest ts)
  rw [htext, hs]
  simp

/-- The end mark on a line of its own. -/
def endLine : List Char := "...\n".toList

/-- A plain scalar with the end mark behind it. -/
theorem ofText_plain (h : Spells indent w text true) :
    TokenStream.ofText (w ++ freshLine 0 endLine) =
      ⟨[.scalar text true] ++ ([.documentEnd] ++ [.streamEnd]), .malformed⟩ := by
  let t := (start (w ++ freshLine 0 endLine)).past (w.length + 1) [.scalar text true]
  have hscalar := h.marker rfl (stands_start (w ++ freshLine 0 endLine)) (Nat.zero_le _) rfl rfl rfl
  have ht : t.InBlock := (inBlock_start _).past _ _
  have hclose : t.closeToColumn = t := closeToColumn_eq_self (Nat.zero_le _)
  have htrest : t.rest = endLine := rest_past_freshLine (s := start (w ++ freshLine 0 endLine)) rfl _
  have htcolumn : t.column = 0 := column_advance_freshLine (j := 0) rfl
  -- The end mark, and the line feed behind it.
  let s : Scan := { t with
    cursor := t.cursor.advance 3
    reversed := [.documentEnd, .scalar text true]
    allowsKey := false }
  have hfetch : fetch '.' "..\n".toList t = .ok s := by
    rw [fetch_documentEnd htcolumn (by decide)]
    rfl
  have hsrest : s.rest = ['\n'] ++ [] := by
    show (t.skip 3).rest = _
    rw [rest_skip, htrest]
    rfl
  have hend : (s.past 1 []).rest = [] := rest_past hsrest rfl
  have hsettled : settled s = .ok (s.past 1 []).closeToColumn :=
    settled_past hsrest (List.forall_mem_singleton.2 rfl) rfl ht.suspended_eq nofun rfl
  have hmark : Next t (s.past 1 []).closeToColumn := by
    refine ⟨'.', "..\n".toList, s, htrest, hfetch, hsettled, ?_⟩
    rw [rest_closeToColumn, hend]
    exact Nat.zero_le _
  rw [hclose] at hscalar
  have hleads : Leads (start (w ++ freshLine 0 endLine)) (s.past 1 []).closeToColumn :=
    .head hscalar (.single hmark)
  have hs : s.InBlock := ⟨rfl, rfl⟩
  exact ofText_of_leads_past hs (Nat.zero_le 1) (h.solid _) hleads hend

/-! ## What is written for a node alone -/

namespace Node

variable {n : Node}

theorem atColumn_empty : Pen.AtColumn {} 0 := ⟨rfl, rfl, rfl, rfl⟩

/-- Behind anything but a plain scalar only a line feed is written. -/
theorem render_of_writes (hwrites : Pen.Writes {} w (renderNode {} .root none n))
    (hended : (renderNode {} .root none n).Ended) : n.render = w ++ freshLine 0 [] := by
  have hopen : ((renderNode {} .root none n).indentTo 0).isOpen = false := by
    rw [Pen.isOpen_indentTo]
    exact hwrites.isOpen_eq rfl
  have htext := (hwrites.trans (hended.writes_indentTo 0)).text_eq
  rw [render_eq]
  dsimp only
  rw [hopen, if_neg Bool.false_ne_true, htext]
  rfl

/-- Behind a plain scalar the end mark is written. -/
theorem render_of_isOpen (hreversed : (renderNode {} .root none n).reversed = w.reverse)
    (hended : (renderNode {} .root none n).Ended) (hopen : (renderNode {} .root none n).isOpen = true) :
    n.render = w ++ freshLine 0 endLine := by
  let p := (renderNode {} .root none n).indentTo 0
  have hp : p = { renderNode {} .root none n with
      reversed := '\n' :: w.reverse
      column := 0
      afterBlank := true
      atIndent := true } := by
    rw [show p = _ from Pen.indentTo_of_needsLine (Pen.needsLine_of_ended hended 0), hreversed]
    rfl
  let q := p.indicator ['.', '.', '.'] true false false
  have hmark : p.Writes ['.', '.', '.'] q := by
    have hwrites := Pen.writes_indicator p ['.', '.', '.'] false false
    rwa [Pen.lead, hp, if_pos rfl, ← hp] at hwrites
  have hq : q.Ended := ⟨rfl, Bool.and_false _⟩
  have htext := (hmark.trans (hq.writes_indentTo 0)).text_eq
  have hptext : p.text = w ++ ['\n'] := by
    rw [hp, Pen.text]
    simp
  rw [render_eq]
  dsimp only
  rw [show p.isOpen = true by rw [hp]; exact hopen, if_pos rfl, htext, hptext, List.append_assoc]
  rfl

/-- The text of a node is kept in a file, and it reads as the node. -/
def IsReadBack (n : Node) : Prop :=
  (∀ c ∈ n.render, isKept c = true) ∧ (TokenStream.ofText n.render).node? = .ok (some n)

theorem isReadBack_leaf (h : IsLeaf indent w ts) (hkept : ∀ c ∈ w, isKept c = true)
    (hwrites : Pen.Writes {} w (renderNode {} .root none n))
    (hended : (renderNode {} .root none n).Ended) (hreads : Reading.Reads true false ts n) :
    IsReadBack n := by
  unfold IsReadBack
  rw [render_of_writes hwrites hended, ofText_leaf h]
  exact ⟨List.forall_mem_append.2 ⟨hkept, isKept_freshLine 0 (List.forall_mem_nil _)⟩,
    Reading.node?_of_reads_alone hreads⟩

theorem isReadBack_block {f : Pen → Pen} (h : WritesPart tok 0 f ts)
    (hrender : renderNode {} .root none n = f {})
    (hreads : Reading.Reads true false (tok :: (ts ++ [.blockEnd])) n) : IsReadBack n := by
  obtain ⟨x, hx, hkept, hwrites, hended⟩ := h {} atColumn_empty
  rw [← hrender] at hwrites hended
  unfold IsReadBack
  rw [render_of_writes hwrites hended, ofText_part hx]
  exact ⟨List.forall_mem_append.2 ⟨hkept, isKept_freshLine 0 (List.forall_mem_nil _)⟩,
    Reading.node?_of_reads_alone hreads⟩

theorem isReadBack_scalar {tag : Tag} {cs : List Char} (h : IsReadable 2 tag cs) :
    IsReadBack (.scalar tag cs) := by
  obtain ⟨isPlain, rfl, hspelling⟩ := exists_spelling none h (by decide : Place.root ≠ .key)
  obtain ⟨w, hw, hopen⟩ := hspelling (p := {}) rfl
  rw [← renderNode_scalar] at hopen
  have hreversed := hw.reversed_eq
  have hended := hw.ended
  have hspells := hw.spells
  rw [← renderNode_scalar] at hreversed hended
  have hreads : Reading.Reads true false [.scalar cs isPlain] _ := Reading.Reads.scalar cs isPlain
  cases isPlain with
  | false =>
    exact isReadBack_leaf hspells.isLeaf hspells.kept ⟨hreversed, fun _ => hopen⟩ hended hreads
  | true =>
    unfold IsReadBack
    have hends : [Token.documentEnd] = [] ∨ [Token.documentEnd] = [.documentEnd] := .inr rfl
    rw [render_of_isOpen (hreversed.trans (List.append_nil w.reverse)) hended hopen, ofText_plain hspells]
    refine ⟨List.forall_mem_append.2 ⟨hspells.kept, isKept_freshLine 0 ?_⟩,
      Reading.node?_of_reads hreads hends⟩
    exact List.all_eq_true.1 rfl

/-- **The text of a readable node reads as the node.** -/
theorem isReadBack_of_readable (h : Readable none n) : IsReadBack n := by
  cases h with
  | scalar h => exact isReadBack_scalar h
  | @sequence _ ns h =>
    by_cases hne : ns = []
    · subst hne
      refine isReadBack_leaf (isLeaf_emptySequence 0) (List.all_eq_true.1 rfl) ?_ ?_
        Reading.Reads.emptySequence
      · rw [renderNode_sequence]
        exact ⟨rfl, fun _ => rfl⟩
      · rw [renderNode_sequence]
        exact ⟨rfl, rfl⟩
    · obtain ⟨xs, rfl, hreads, hwrites⟩ :=
        exists_items hne fun n hn => isContent_of_readable (h n hn) rfl
      refine isReadBack_block hwrites ?_ (Reading.Reads.blockSequence hreads)
      rw [renderNode_sequence, List.isEmpty_eq_false_iff.2 hne, if_neg Bool.false_ne_true, ← renderItems_eq]
      rfl
  | @mapping _ es hsimple hcomplex hvalues =>
    by_cases hne : es = []
    · subst hne
      refine isReadBack_leaf (isLeaf_emptyMapping 0) (List.all_eq_true.1 rfl) ?_ ?_
        Reading.Reads.emptyMapping
      · rw [renderNode_mapping]
        exact ⟨rfl, fun _ => rfl⟩
      · rw [renderNode_mapping]
        exact ⟨rfl, rfl⟩
    · have hentries : ∀ e ∈ es, IsEntry 0 e := by
        intro e he
        refine isEntry_of_isContent (hsimple e he) ?_ ?_
        · exact fun hkey => isContent_of_readable (hcomplex e he hkey) rfl
        · refine isContent_of_readable (hvalues e he) ?_
          cases e.1.valueSlot (mappingColumn none) <;> rfl
      obtain ⟨xs, rfl, hreads, hwrites⟩ := exists_entries hne hentries
      refine isReadBack_block hwrites ?_ (Reading.Reads.blockMapping
        (fun x hx => (hreads x hx).1) (fun x hx => (hreads x hx).2))
      rw [renderNode_mapping, List.isEmpty_eq_false_iff.2 hne, if_neg Bool.false_ne_true, ← renderEntries_eq]
      rfl

end Node
end Stencil.Yaml
