import Stencil.Proofs.Itemwise
import Stencil.Yaml.Grammar

/-!
# The faults of the grammar

The grammar adds nothing but faults of form to the fault of its tokens (`TokenStream.node?_error`).
-/

namespace Stencil.Yaml

/-! ## The grammar -/

namespace Reading

variable {α β : Type} {x : Reader α} {f : α → Reader β}

/-- A reader leaves the fault behind the tokens as it is, and ends early with it or with a fault of
form. -/
structure KeepsFault (x : Reader α) : Prop where
  ok : ∀ r a r', x.run r = .ok (a, r') → r'.fault = r.fault
  error : ∀ r e, x.run r = .error e → e = .malformed ∨ e = r.fault

theorem keepsFault_pure (a : α) : KeepsFault (pure a) where
  ok := by
    rintro r b r' ⟨⟩
    rfl
  error := by
    rintro r e ⟨⟩

theorem KeepsFault.bind (hx : KeepsFault x) (hf : ∀ a, KeepsFault (f a)) : KeepsFault (x >>= f) where
  ok r b r' h := by
    rw [StateT.run_bind] at h
    obtain ⟨⟨a, s⟩, ha, hb⟩ := bind_eq_ok_iff.1 h
    exact ((hf a).ok s b r' hb).trans (hx.ok r a s ha)
  error r e h := by
    rw [StateT.run_bind] at h
    obtain ha | ⟨⟨a, s⟩, ha, hb⟩ := bind_eq_error_iff.1 h
    · exact hx.error r e ha
    · rw [← hx.ok r a s ha]
      exact (hf a).error s e hb

theorem keepsFault_refuse : KeepsFault (refuse : Reader α) where
  ok := by
    rintro r a r' ⟨⟩
  error := by
    rintro r e ⟨⟩
    exact .inl rfl

theorem keepsFault_head : KeepsFault head where
  ok r t r' h := by
    obtain ⟨tokens, fault, handles, anchors⟩ := r
    cases tokens <;> cases h
    rfl
  error r e h := by
    obtain ⟨tokens, fault, handles, anchors⟩ := r
    cases tokens <;> cases h
    exact .inr rfl

/-- A change of the state that leaves the fault as it is. -/
theorem keepsFault_modify {g : Reading → Reading} (hg : ∀ r, (g r).fault = r.fault) :
    KeepsFault (modify g) where
  ok := by
    rintro r a r' ⟨⟩
    exact hg r
  error := by
    rintro r e ⟨⟩

theorem keepsFault_skip : KeepsFault skip := keepsFault_modify fun _ => rfl

/-- A reader behind a taken token. -/
theorem KeepsFault.afterSkip {y : Reader β} (h : KeepsFault y) : KeepsFault (do skip; y) :=
  keepsFault_skip.bind fun _ => h

theorem keepsFault_expect (t : Token) : KeepsFault (expect t) := by
  refine keepsFault_head.bind fun u => ?_
  split
  · exact keepsFault_skip
  · exact keepsFault_refuse

theorem keepsFault_isAt (ts : List Token) : KeepsFault (isAt ts) :=
  keepsFault_head.bind fun _ => keepsFault_pure _

theorem KeepsFault.unless {node : Reader Node} (h : KeepsFault node) (ts : List Token) :
    KeepsFault (nodeUnless ts node) := by
  refine (keepsFault_isAt ts).bind fun b => ?_
  split
  · exact keepsFault_pure _
  · exact h

/-! ### Documents, anchors and tags -/

theorem keepsFault_directives (hasVersion : Bool) (handles : List (String × String)) (fuel : Nat) :
    KeepsFault (directives hasVersion handles fuel) := by
  induction fuel generalizing hasVersion handles with
  | zero => exact keepsFault_refuse
  | succ fuel ih =>
    refine keepsFault_head.bind fun t => ?_
    split
    · refine KeepsFault.afterSkip ?_
      split
      · exact keepsFault_refuse
      · exact ih _ _
    · refine KeepsFault.afterSkip ?_
      split
      · exact keepsFault_refuse
      · exact ih _ _
    · exact (ih _ _).afterSkip
    · exact keepsFault_pure _

theorem keepsFault_documentEnds (fuel : Nat) : KeepsFault (documentEnds fuel) := by
  induction fuel with
  | zero => exact keepsFault_refuse
  | succ fuel ih =>
    refine (keepsFault_isAt _).bind fun b => ?_
    split
    · exact ih.afterSkip
    · exact keepsFault_pure _

theorem keepsFault_documentStart (fuel : Nat) : KeepsFault (documentStart fuel) := by
  refine (keepsFault_documentEnds fuel).bind fun _ => (keepsFault_isAt _).bind fun b => ?_
  split
  · exact keepsFault_pure _
  · refine (keepsFault_directives _ _ _).bind fun handles => (keepsFault_expect _).bind fun _ =>
      (keepsFault_modify ?_).bind fun _ => keepsFault_pure _
    exact fun _ => rfl

theorem keepsFault_properties : KeepsFault properties := by
  refine keepsFault_head.bind fun t => ?_
  split
  · refine KeepsFault.afterSkip (keepsFault_head.bind fun u => ?_)
    split
    · exact (keepsFault_pure _).afterSkip
    · exact keepsFault_pure _
  · refine KeepsFault.afterSkip (keepsFault_head.bind fun u => ?_)
    split
    · exact (keepsFault_pure _).afterSkip
    · exact keepsFault_pure _
  · exact keepsFault_pure _

theorem keepsFault_get : KeepsFault (get : Reader Reading) where
  ok := by
    rintro r a r' ⟨⟩
    rfl
  error := by
    rintro r e ⟨⟩

theorem keepsFault_tagOf (t : TagText) : KeepsFault (tagOf t) := by
  unfold tagOf
  split
  · exact keepsFault_pure _
  · refine keepsFault_get.bind fun r => ?_
    split
    · exact keepsFault_pure _
    · exact keepsFault_refuse

theorem keepsFault_written (written? : Option TagText) : KeepsFault (written?.mapM tagOf) := by
  cases written? with
  | none => exact keepsFault_pure _
  | some t => exact (keepsFault_tagOf t).bind fun _ => keepsFault_pure _

theorem beginAnchor_run (name : String) (r : Reading) : (beginAnchor (some name)).run r =
    if (r.anchors.lookup name).isSome then .error .malformed
    else .ok ((), { r with anchors := (name, none) :: r.anchors }) := by
  show (if (r.anchors.lookup name).isSome then refuse else set _ : Reader Unit).run r = _
  split <;> rfl

theorem keepsFault_beginAnchor (name? : Option String) : KeepsFault (beginAnchor name?) := by
  cases name? with
  | none => exact keepsFault_pure _
  | some name =>
    constructor
    · intro r a r' h
      rw [beginAnchor_run] at h
      split at h <;> cases h
      rfl
    · intro r e h
      rw [beginAnchor_run] at h
      split at h <;> cases h
      exact .inl rfl

theorem keepsFault_endAnchor (name? : Option String) (n : Node) : KeepsFault (endAnchor name? n) := by
  unfold endAnchor
  split
  · exact keepsFault_pure _
  · refine (keepsFault_modify ?_).bind fun _ => keepsFault_pure _
    exact fun _ => rfl

theorem keepsFault_aliased (name : String) : KeepsFault (aliased name) := by
  refine keepsFault_get.bind fun r => ?_
  split
  · exact keepsFault_pure _
  · exact keepsFault_pure _
  · exact keepsFault_refuse

/-! ### Nodes -/

/-- All readers of nodes keep the fault with some fuel. -/
structure NodesKeepFault (fuel : Nat) : Prop where
  node : ∀ inBlock mayHang, KeepsFault (node inBlock mayHang fuel)
  blockItems : KeepsFault (blockItems fuel)
  hangingItems : KeepsFault (hangingItems fuel)
  blockEntries : KeepsFault (blockEntries fuel)
  valueOr : ∀ ts inBlock, KeepsFault (valueOr ts inBlock fuel)
  flowItems : ∀ isFirst, KeepsFault (flowItems isFirst fuel)
  flowEntries : ∀ isFirst, KeepsFault (flowEntries isFirst fuel)

variable {fuel : Nat}

/-- A collection behind its mark and with its anchor. -/
theorem KeepsFault.anchored {items : Reader α} (h : KeepsFault items) (anchor? : Option String)
    (n : α → Node) : KeepsFault (do
      beginAnchor anchor?
      let xs ← items
      endAnchor anchor? (n xs)) :=
  (keepsFault_beginAnchor anchor?).bind fun _ => h.bind fun _ => keepsFault_endAnchor _ _

theorem NodesKeepFault.node_succ (h : NodesKeepFault fuel) (inBlock mayHang : Bool) :
    KeepsFault (Reading.node inBlock mayHang (fuel + 1)) := by
  rw [Reading.node]
  refine keepsFault_head.bind fun t => ?_
  split
  · exact (keepsFault_aliased _).afterSkip
  · refine keepsFault_properties.bind fun x => ?_
    obtain ⟨anchor?, written?⟩ := x
    refine (keepsFault_written written?).bind fun tag? => keepsFault_head.bind fun next => ?_
    dsimp only
    split
    · exact h.hangingItems.anchored anchor? _
    · split
      · exact KeepsFault.afterSkip
          ((keepsFault_beginAnchor anchor?).bind fun _ => keepsFault_endAnchor _ _)
      · exact ((h.flowItems true).anchored anchor? _).afterSkip
      · exact ((h.flowEntries true).anchored anchor? _).afterSkip
      · split
        · exact keepsFault_refuse
        · exact (h.blockItems.anchored anchor? _).afterSkip
      · split
        · exact keepsFault_refuse
        · exact (h.blockEntries.anchored anchor? _).afterSkip
      · split
        · exact keepsFault_refuse
        · exact (keepsFault_beginAnchor anchor?).bind fun _ => keepsFault_endAnchor _ _

/-- A part and the parts behind it. -/
theorem KeepsFault.both {γ : Type} {y : Reader β} (hx : KeepsFault x) (hy : KeepsFault y)
    (g : α → β → γ) : KeepsFault (do
      let a ← x
      let b ← y
      return g a b) :=
  hx.bind fun _ => hy.bind fun _ => keepsFault_pure _

/-- An entry and the parts behind it. -/
theorem KeepsFault.entry {γ : Type} {key value : Reader Node} {y : Reader β} (hkey : KeepsFault key)
    (hvalue : KeepsFault value) (hy : KeepsFault y) (g : Node → Node → β → γ) : KeepsFault (do
      let k ← key
      let v ← value
      let b ← y
      return g k v b) :=
  hkey.bind fun k => hvalue.both hy (g k)

/-- The comma before a part between brackets, unless it is the first. -/
theorem KeepsFault.afterComma (hx : KeepsFault x) (isFirst : Bool) : KeepsFault (do
    if !isFirst then expect .comma
    x) := by
  cases isFirst with
  | true => exact hx
  | false => exact (keepsFault_expect _).bind fun _ => hx

theorem keepsFault_closing (t : Token) : KeepsFault (do
    expect t
    return ([] : List α)) :=
  (keepsFault_expect t).bind fun _ => keepsFault_pure _

namespace NodesKeepFault

theorem blockItems_succ (h : NodesKeepFault fuel) : KeepsFault (Reading.blockItems (fuel + 1)) := by
  rw [Reading.blockItems]
  refine keepsFault_head.bind fun t => ?_
  split
  · exact (((h.node true false).unless _).both h.blockItems _).afterSkip
  · exact keepsFault_closing _

theorem hangingItems_succ (h : NodesKeepFault fuel) :
    KeepsFault (Reading.hangingItems (fuel + 1)) := by
  rw [Reading.hangingItems]
  refine (keepsFault_isAt _).bind fun b => ?_
  split
  · exact (((h.node true false).unless _).both h.hangingItems _).afterSkip
  · exact keepsFault_pure _

theorem blockEntries_succ (h : NodesKeepFault fuel) :
    KeepsFault (Reading.blockEntries (fuel + 1)) := by
  rw [Reading.blockEntries]
  refine keepsFault_head.bind fun t => ?_
  split
  · exact (((h.node true true).unless _).entry (h.valueOr _ true) h.blockEntries _).afterSkip
  · exact keepsFault_closing _

theorem valueOr_succ (h : NodesKeepFault fuel) (ts : List Token) (inBlock : Bool) :
    KeepsFault (Reading.valueOr ts inBlock (fuel + 1)) := by
  rw [Reading.valueOr]
  refine (keepsFault_isAt _).bind fun b => ?_
  split
  · exact ((h.node inBlock inBlock).unless ts).afterSkip
  · exact keepsFault_pure _

theorem flowItems_succ (h : NodesKeepFault fuel) (isFirst : Bool) :
    KeepsFault (Reading.flowItems isFirst (fuel + 1)) := by
  rw [Reading.flowItems]
  refine (keepsFault_isAt _).bind fun b => ?_
  split
  · exact (keepsFault_pure _).afterSkip
  · refine (keepsFault_head.bind fun t => ?_).afterComma isFirst
    split
    · exact (((h.node false false).unless _).entry (h.valueOr _ false) (h.flowItems false) _).afterSkip
    · exact (keepsFault_pure _).afterSkip
    · exact (h.node false false).both (h.flowItems false) _

theorem flowEntries_succ (h : NodesKeepFault fuel) (isFirst : Bool) :
    KeepsFault (Reading.flowEntries isFirst (fuel + 1)) := by
  rw [Reading.flowEntries]
  refine (keepsFault_isAt _).bind fun b => ?_
  split
  · exact (keepsFault_pure _).afterSkip
  · refine (keepsFault_head.bind fun t => ?_).afterComma isFirst
    split
    · exact (((h.node false false).unless _).entry (h.valueOr _ false) (h.flowEntries false) _).afterSkip
    · exact (keepsFault_pure _).afterSkip
    · exact (h.node false false).both (h.flowEntries false) _

end NodesKeepFault

/-- **All readers of nodes keep the fault.** -/
theorem nodesKeepFault (fuel : Nat) : NodesKeepFault fuel := by
  induction fuel with
  | zero =>
    exact ⟨fun _ _ => keepsFault_refuse, keepsFault_refuse, keepsFault_refuse, keepsFault_refuse,
      fun _ _ => keepsFault_refuse, fun _ => keepsFault_refuse, fun _ => keepsFault_refuse⟩
  | succ fuel ih =>
    exact ⟨ih.node_succ, ih.blockItems_succ, ih.hangingItems_succ, ih.blockEntries_succ,
      ih.valueOr_succ, ih.flowItems_succ, ih.flowEntries_succ⟩

theorem keepsFault_content (fuel : Nat) : KeepsFault (content fuel) := by
  refine keepsFault_head.bind fun t => ?_
  split
  · exact keepsFault_pure _
  · exact keepsFault_pure _
  · exact keepsFault_pure _
  · exact keepsFault_pure _
  · exact (nodesKeepFault fuel).node true false

/-- What comes behind the only document. -/
theorem keepsFault_last (fuel : Nat) (n : Node) : KeepsFault (do
    if ← documentStart fuel then refuse else return some n) := by
  refine (keepsFault_documentStart fuel).bind fun b => ?_
  split
  · exact keepsFault_refuse
  · exact keepsFault_pure _

theorem keepsFault_stream (fuel : Nat) : KeepsFault (stream fuel) := by
  have hdocument : KeepsFault (do
      if ← documentStart fuel then
        let n ← content fuel
        if ← documentStart fuel then refuse else return some n
      else return none) := by
    refine (keepsFault_documentStart fuel).bind fun b => ?_
    split
    · exact (keepsFault_content fuel).bind fun n => keepsFault_last fuel n
    · exact keepsFault_pure _
  refine keepsFault_head.bind fun t => ?_
  split
  · exact keepsFault_pure _
  · exact hdocument
  · exact hdocument
  · refine (keepsFault_modify ?_).bind fun _ => ((nodesKeepFault fuel).node true false).bind fun n =>
      keepsFault_last fuel n
    exact fun _ => rfl

end Reading

/-- **The fault of a node is one of form or the fault behind its tokens.** -/
theorem TokenStream.node?_error {s : TokenStream} {e : Fault} (h : s.node? = .error e) :
    e = .malformed ∨ e = s.fault :=
  (Reading.keepsFault_stream _).error _ e ((map_eq_error_iff _).1 h)

end Stencil.Yaml
