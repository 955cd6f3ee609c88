import Stencil.Proofs.Session.History
import Stencil.Session

/-!
# Sessions by their histories

The answers that a session must give, told by what its stores held at first and by the steps before.
A step writes to one store at most, and a step that fails, reads or fills a template writes nothing
(`Step.writes`). So each store has a history of its own (`History.writes`), and `History.answer` says
from the histories alone what a step must answer: a look-up takes the last value, the keys are those
born and not taken out, a kept snapshot is the content at its time.

One step keeps all stores and snapshots in agreement with the histories (`Agrees.step`), and so does
a whole session.

Main result: `run_eq_history`. Only one thing stands against what one expects of keys: taking a key
out of an empty store answers null even if the value can be no key (`not_fails_remove_empty`).
-/

namespace Stencil

open Document

namespace Step

/-- What a step writes to a store. -/
def writes (name : StoreName) : Step → List Write
  | put n k v => if n = name ∧ k.isKey then [.put k v] else []
  | remove n k => if n = name ∧ k.isKey then [.remove k] else []
  | update n (.document es) => if n = name then es.map fun e => .put e.1 e.2 else []
  | clear n => if n = name then [.clear] else []
  | _ => []

/-- No step puts a not-a-number as a key, and stores are updated by documents. A value is the same
key as itself if it is a key without a not-a-number. -/
def IsProper : Step → Prop
  | put _ k _ => k.isKey = true → k.sameKey k = true
  | update _ values => ∃ es, values = .document es ∧ ∀ k ∈ Document.keys es, k.sameKey k = true
  | _ => True

end Step

/-- What the stores of a session held at first, and its steps so far. -/
structure History where
  initial : StoreName → Document
  steps : List Step

namespace History

/-- The writes to a store so far, those of its first content in front. -/
def writes (h : History) (name : StoreName) : List Write :=
  (h.initial name).map (fun e => .put e.1 e.2) ++ h.steps.flatMap (Step.writes name)

/-- The content of a store. -/
def content (h : History) (name : StoreName) : Document := Write.content (h.writes name)

/-- The value of a key in a store. -/
def value? (h : History) (name : StoreName) (key : Value) : Option Value :=
  Write.value? key (h.writes name)

/-- The history with one more step. -/
def after (h : History) (t : Step) : History := { h with steps := h.steps ++ [t] }

/-- The content that a step keeps under a name. -/
def keptBy (h : History) (name : String) : Step → Option Document
  | .snapshot store (some n) => if n = name then some (h.content store) else none
  | _ => none

/-- The content that was kept last under a name: that of its store before the step that kept it.
`earlier` are the steps before these. -/
def keptFrom (initial : StoreName → Document) (name : String) (earlier : List Step) :
    List Step → Option Document
  | [] => none
  | t :: later =>
    (keptFrom initial name (earlier ++ [t]) later).or (keptBy ⟨initial, earlier⟩ name t)

/-- The content that was kept last under a name. -/
def kept? (h : History) (name : String) : Option Document := keptFrom h.initial name [] h.steps

/-- An answer that needs a key. -/
def needingKey (key : Value) (answer : Value) : Except Failure Value :=
  if key.isKey then .ok answer else .error .notKey

/-- The answer that a history asks of a step. -/
def answer (h : History) : Step → Except Failure Value
  | .put _ k _ => needingKey k .null
  | .get name k fallback => needingKey k ((h.value? name k).getD fallback)
  | .contains name k => needingKey k (.bool (h.value? name k).isSome)
  | .remove name k =>
    if h.content name = [] then .ok .null else needingKey k ((h.value? name k).getD .null)
  | .update _ (.document _) => .ok .null
  | .update _ _ => .error .notItems
  | .clear _ => .ok .null
  | .keys name => .ok (.list (Write.births [] (h.writes name)))
  | .size name => .ok (.int (Write.births [] (h.writes name)).length)
  | .snapshot name _ => .ok (.document (h.content name))
  | .saved name => .ok (((h.kept? name).map Value.document).getD .null)
  | .resolve name k r =>
    ((Engine.resolve { r with globals := h.content name } k).outcome).map Session.lookupValue
  | .fill name op r v => (op.perform { r with globals := h.content name } v).outcome
  | .globalScope name => .ok (.list [.text name.text])

/-- The answers that a history asks of some steps, and the contents of the stores after each. -/
def answers (h : History) : List Step → List (Except Failure Value × (StoreName → Document))
  | [] => []
  | t :: ts => (h.answer t, (h.after t).content) :: answers (h.after t) ts

theorem writes_after (h : History) (t : Step) (name : StoreName) :
    (h.after t).writes name = h.writes name ++ t.writes name := by
  simp [writes, after]

theorem keptFrom_concat (initial : StoreName → Document) (name : String) (earlier ts : List Step)
    (t : Step) : keptFrom initial name earlier (ts ++ [t]) =
      (keptBy ⟨initial, earlier ++ ts⟩ name t).or (keptFrom initial name earlier ts) := by
  induction ts generalizing earlier with
  | nil => simp [keptFrom]
  | cons u us ih =>
    rw [List.cons_append, keptFrom, ih, keptFrom, Option.or_assoc, List.append_assoc,
      List.singleton_append]

theorem kept?_after (h : History) (t : Step) (name : String) :
    (h.after t).kept? name = (h.keptBy name t).or (h.kept? name) :=
  keptFrom_concat h.initial name [] h.steps t

end History

namespace Session

variable {s : Session} {h : History}

/-- The stores and the snapshots are what a history says. -/
structure Agrees (s : Session) (h : History) : Prop where
  tracks : ∀ name, Tracks (s.store name) (h.writes name)
  self : ∀ name, ∀ k ∈ keys (s.store name), k.sameKey k = true
  kept : ∀ name, s.snapshots.lookup name = h.kept? name

theorem Agrees.content_eq (hs : s.Agrees h) (name : StoreName) : h.content name = s.store name :=
  ((hs.tracks name).eq_content (hs.self name)).symm

theorem Agrees.value?_eq (hs : s.Agrees h) (name : StoreName) (key : Value) :
    h.value? name key = find? key (s.store name) := ((hs.tracks name).find?_eq key).symm

@[simp] theorem store_withStore (s : Session) (name n : StoreName) (d : Store) :
    (s.withStore name d).store n = if name = n then d else s.store n := by
  cases name <;> cases n <;> rfl

@[simp] theorem snapshots_withStore (s : Session) (name : StoreName) (d : Store) :
    (s.withStore name d).snapshots = s.snapshots := by
  cases name <;> rfl

/-- A step that writes nothing and keeps nothing. -/
theorem Agrees.idle (hs : s.Agrees h) {t : Step} (hwrites : ∀ name, t.writes name = [])
    (hkept : ∀ name, h.keptBy name t = none) : s.Agrees (h.after t) where
  tracks name := by
    rw [History.writes_after, hwrites, List.append_nil]
    exact hs.tracks name
  self := hs.self
  kept name := by rw [History.kept?_after, hkept, hs.kept, Option.none_or]

/-- A step that writes to one store and keeps nothing. -/
theorem Agrees.write (hs : s.Agrees h) {t : Step} {name : StoreName} {d : Store}
    (htracks : Tracks d (h.writes name ++ t.writes name))
    (hself : ∀ k ∈ keys d, k.sameKey k = true) (hother : ∀ n ≠ name, t.writes n = [])
    (hkept : ∀ n, h.keptBy n t = none) : (s.withStore name d).Agrees (h.after t) where
  tracks n := by
    rw [History.writes_after, store_withStore]
    by_cases hn : name = n
    · subst hn
      rwa [if_pos rfl]
    · rw [if_neg hn, hother n (Ne.symm hn), List.append_nil]
      exact hs.tracks n
  self n k hk := by
    rw [store_withStore] at hk
    by_cases hn : name = n
    · rw [if_pos hn] at hk
      exact hself k hk
    · rw [if_neg hn] at hk
      exact hs.self n k hk
  kept n := by rw [snapshots_withStore, History.kept?_after, hkept, hs.kept, Option.none_or]

/-! ## One step -/

/-- A step with an answer of its own and the session as it was. -/
theorem step_of_reading {t : Step} {x : Except Failure Value}
    (h : s.perform t = x.map fun v => (v, s)) : s.step t = (x, s) := by
  rw [Session.step, h]
  cases x <;> rfl

theorem step_of_ok {t : Step} {v : Value} {s' : Session} (h : s.perform t = .ok (v, s')) :
    s.step t = (.ok v, s') := by
  rw [Session.step, h]

/-- A reading step answers what it reads and keeps the agreement. -/
theorem Agrees.reading (hs : s.Agrees h) {t : Step} {x : Except Failure Value}
    (hperform : s.perform t = x.map fun v => (v, s)) (hanswer : x = h.answer t)
    (hwrites : ∀ name, t.writes name = []) (hkept : ∀ name, h.keptBy name t = none) :
    (s.step t).1 = h.answer t ∧ (s.step t).2.Agrees (h.after t) := by
  rw [step_of_reading hperform]
  exact ⟨hanswer, hs.idle hwrites hkept⟩

theorem checked_bind {α : Type} (k : Value) (f : Value → Except Failure α) :
    (Store.checked k >>= f) = if k.isKey then f k else .error .notKey := by
  by_cases hk : k.isKey = true
  · rw [Store.checked, if_pos hk, if_pos hk]
    rfl
  · rw [Store.checked, if_neg hk, if_neg hk]
    rfl

theorem mem_keys_insert {a k v : Value} {d : Document} (ha : a ∈ Document.keys (insert k v d)) :
    a ∈ Document.keys d ∨ a = k := by
  rw [keys_insert] at ha
  split at ha
  · exact .inl ha
  · simpa using ha

theorem mem_keys_update {a : Value} {d es : Document} (ha : a ∈ Document.keys (update d es)) :
    a ∈ Document.keys d ∨ a ∈ Document.keys es := by
  induction es generalizing d with
  | nil => exact .inl ha
  | cons e es ih =>
    rcases ih (d := insert e.1 e.2 d) ha with h | h
    · rcases mem_keys_insert h with h | rfl
      · exact .inl h
      · exact .inr List.mem_cons_self
    · exact .inr (List.mem_cons_of_mem _ h)

theorem Agrees.put (hs : s.Agrees h) (name : StoreName) (k v : Value)
    (ht : (Step.put name k v).IsProper) :
    (s.step (.put name k v)).1 = h.answer (.put name k v) ∧
      (s.step (.put name k v)).2.Agrees (h.after (.put name k v)) := by
  have hperform : s.perform (.put name k v) =
      if k.isKey then .ok (.null, s.withStore name (insert k v (s.store name)))
      else .error .notKey := by
    show (Store.put (s.store name) k v).map _ = _
    rw [Store.put, checked_bind]
    split <;> rfl
  by_cases hk : k.isKey = true
  · rw [if_pos hk] at hperform
    rw [step_of_ok hperform]
    refine ⟨by simp [History.answer, History.needingKey, hk], hs.write ?_ ?_ ?_ fun _ => rfl⟩
    · simpa [Step.writes, hk] using (hs.tracks name).put k v
    · intro a ha
      rcases mem_keys_insert ha with ha | rfl
      · exact hs.self name a ha
      · exact ht hk
    · intro n hn
      simp [Step.writes, Ne.symm hn]
  · rw [if_neg hk] at hperform
    exact hs.reading (x := .error .notKey) hperform
      (by simp [History.answer, History.needingKey, hk]) (fun _ => by simp [Step.writes, hk])
      fun _ => rfl

theorem Agrees.remove (hs : s.Agrees h) (name : StoreName) (k : Value) :
    (s.step (.remove name k)).1 = h.answer (.remove name k) ∧
      (s.step (.remove name k)).2.Agrees (h.after (.remove name k)) := by
  have hperform : s.perform (.remove name k) =
      if s.store name = [] then .ok (.null, s.withStore name (s.store name))
      else if k.isKey then .ok ((find? k (s.store name)).getD .null,
        s.withStore name (erase k (s.store name)))
      else .error .notKey := by
    show (Store.remove (s.store name) k >>= fun r => pure (r.1, s.withStore name r.2)) = _
    rw [Store.remove, checked_bind]
    by_cases hempty : s.store name = []
    · simp [hempty]
    · rw [if_neg (by simpa using hempty), if_neg hempty]
      split <;> rfl
  have hother : ∀ n ≠ name, (Step.remove name k).writes n = [] := by
    intro n hn
    simp [Step.writes, Ne.symm hn]
  by_cases hempty : s.store name = []
  · -- In an empty store taking out is the same whether the key is a key or not.
    rw [if_pos hempty] at hperform
    rw [step_of_ok hperform]
    refine ⟨by simp [History.answer, hs.content_eq, hempty],
      hs.write ?_ (hs.self name) hother fun _ => rfl⟩
    by_cases hk : k.isKey = true
    · simpa [Step.writes, hk, hempty, erase] using (hs.tracks name).remove k
    · simpa [Step.writes, hk] using hs.tracks name
  · rw [if_neg hempty] at hperform
    by_cases hk : k.isKey = true
    · rw [if_pos hk] at hperform
      rw [step_of_ok hperform]
      refine ⟨by simp [History.answer, History.needingKey, hk, hs.content_eq, hempty, hs.value?_eq],
        hs.write ?_ ?_ hother fun _ => rfl⟩
      · simpa [Step.writes, hk] using (hs.tracks name).remove k
      · intro a ha
        rw [keys_erase k (hs.tracks name).distinct] at ha
        exact hs.self name a (List.mem_filter.1 ha).1
    · rw [if_neg hk] at hperform
      exact hs.reading (x := .error .notKey) hperform
        (by simp [History.answer, History.needingKey, hk, hs.content_eq, hempty])
        (fun _ => by simp [Step.writes, hk]) fun _ => rfl

theorem Agrees.update (hs : s.Agrees h) (name : StoreName) (es : Document)
    (hes : ∀ k ∈ Document.keys es, k.sameKey k = true) :
    (s.step (.update name (.document es))).1 = h.answer (.update name (.document es)) ∧
      (s.step (.update name (.document es))).2.Agrees (h.after (.update name (.document es))) := by
  refine ⟨rfl, hs.write (d := Document.update (s.store name) es) ?_ ?_ ?_ fun _ => rfl⟩
  · simpa [Step.writes] using (hs.tracks name).update es
  · intro a ha
    rcases mem_keys_update ha with ha | ha
    · exact hs.self name a ha
    · exact hes a ha
  · intro n hn
    simp [Step.writes, Ne.symm hn]

theorem Agrees.clear (hs : s.Agrees h) (name : StoreName) :
    (s.step (.clear name)).1 = h.answer (.clear name) ∧
      (s.step (.clear name)).2.Agrees (h.after (.clear name)) := by
  refine ⟨rfl, hs.write (d := []) ?_ (fun _ ha => absurd ha List.not_mem_nil) ?_ fun _ => rfl⟩
  · simpa [Step.writes] using Tracks.clear (h.writes name)
  · intro n hn
    simp [Step.writes, Ne.symm hn]

theorem Agrees.snapshot (hs : s.Agrees h) (name : StoreName) (name? : Option String) :
    (s.step (.snapshot name name?)).1 = h.answer (.snapshot name name?) ∧
      (s.step (.snapshot name name?)).2.Agrees (h.after (.snapshot name name?)) := by
  refine ⟨by rw [History.answer, hs.content_eq]; rfl, ⟨?_, hs.self, ?_⟩⟩
  · intro n
    have hstore : (s.step (.snapshot name name?)).2.store n = s.store n := by cases n <;> rfl
    rw [History.writes_after, hstore]
    simpa [Step.writes] using hs.tracks n
  · intro n
    rw [History.kept?_after]
    show List.lookup n ((name?.map fun m => (m, s.store name)).toList ++ s.snapshots) = _
    cases name? with
    | none => simpa [History.keptBy] using hs.kept n
    | some m =>
      by_cases hn : m = n
      · subst hn
        simp [History.keptBy, hs.content_eq]
      · simp [History.keptBy, hn, hs.kept, List.lookup_cons, beq_false_of_ne (Ne.symm hn)]

/-- **One step.** It answers what the history asks for, and keeps the agreement. -/
theorem Agrees.step (hs : s.Agrees h) {t : Step} (ht : t.IsProper) :
    (s.step t).1 = h.answer t ∧ (s.step t).2.Agrees (h.after t) := by
  cases t with
  | put name k v => exact hs.put name k v ht
  | remove name k => exact hs.remove name k
  | update name values =>
    obtain ⟨es, rfl, hes⟩ := ht
    exact hs.update name es hes
  | clear name => exact hs.clear name
  | snapshot name name? => exact hs.snapshot name name?
  | get name k fallback =>
    refine hs.reading (x := History.needingKey k ((find? k (s.store name)).getD fallback)) ?_
      (by rw [History.answer, hs.value?_eq]) (fun _ => rfl) fun _ => rfl
    show (Store.get (s.store name) k fallback >>= fun v => pure (v, s)) = _
    rw [Store.get, checked_bind, History.needingKey]
    split <;> rfl
  | contains name k =>
    refine hs.reading (x := History.needingKey k (.bool (find? k (s.store name)).isSome)) ?_
      (by rw [History.answer, hs.value?_eq]) (fun _ => rfl) fun _ => rfl
    show (Store.contains (s.store name) k >>= fun b => pure (Value.bool b, s)) = _
    rw [Store.contains, checked_bind, History.needingKey]
    split <;> rfl
  | keys name =>
    refine hs.reading (x := .ok (.list (Document.keys (s.store name)))) rfl ?_ (fun _ => rfl)
      fun _ => rfl
    rw [History.answer, (hs.tracks name).keys_eq]
  | size name =>
    refine hs.reading (x := .ok (.int (s.store name).length)) rfl ?_ (fun _ => rfl) fun _ => rfl
    rw [History.answer, ← (hs.tracks name).keys_eq, Document.keys, List.length_map]
  | saved name =>
    refine hs.reading (x := .ok (((s.snapshots.lookup name).map Value.document).getD .null)) ?_
      (by rw [History.answer, hs.kept]) (fun _ => rfl) fun _ => rfl
    rcases hkept : s.snapshots.lookup name with _ | content
    · simp only [perform, hkept]
      rfl
    · simp only [perform, hkept]
      rfl
  | resolve name k r =>
    refine hs.reading (x := (Engine.resolve (s.bound name r) k).outcome.map lookupValue) ?_
      (by rw [History.answer, hs.content_eq]; rfl) (fun _ => rfl) fun _ => rfl
    show ((Engine.resolve (s.bound name r) k).outcome >>= fun found =>
      pure (lookupValue found, s)) = _
    cases (Engine.resolve (s.bound name r) k).outcome <;> rfl
  | fill name op r v =>
    refine hs.reading (x := (op.perform (s.bound name r) v).outcome) ?_
      (by rw [History.answer, hs.content_eq]; rfl) (fun _ => rfl) fun _ => rfl
    show ((op.perform (s.bound name r) v).outcome >>= fun w => pure (w, s)) = _
    cases (op.perform (s.bound name r) v).outcome <;> rfl
  | globalScope name => exact hs.reading rfl rfl (fun _ => rfl) fun _ => rfl

/-! ## Whole sessions -/

/-- A session that holds two documents and no snapshots. -/
def starting (initial : StoreName → Document) : Session :=
  { own := initial .own, process := initial .process }

theorem store_starting (initial : StoreName → Document) (name : StoreName) :
    (starting initial).store name = initial name := by
  cases name <;> rfl

theorem agrees_starting {initial : StoreName → Document} (hdistinct : ∀ name, Distinct (initial name))
    (hself : ∀ name, ∀ k ∈ Document.keys (initial name), k.sameKey k = true) :
    (starting initial).Agrees ⟨initial, []⟩ where
  tracks name := by
    rw [store_starting]
    simpa [History.writes] using Tracks.of_distinct (hdistinct name)
  self name := by
    rw [store_starting]
    exact hself name
  kept _ := rfl

theorem Agrees.run (hs : s.Agrees h) {ts : List Step} (hts : ∀ t ∈ ts, t.IsProper) :
    (s.run ts).map (fun r => (r.1, r.2.store)) = h.answers ts := by
  induction ts generalizing s h with
  | nil => rfl
  | cons t ts ih =>
    obtain ⟨hanswer, hafter⟩ := hs.step (hts t List.mem_cons_self)
    have hcontent : (s.step t).2.store = (h.after t).content :=
      funext fun name => (hafter.content_eq name).symm
    rw [Session.run, List.map_cons, History.answers, hanswer, hcontent,
      ih hafter fun u hu => hts u (List.mem_cons_of_mem _ hu)]

theorem Agrees.afterAll (hs : s.Agrees h) {ts : List Step} (hts : ∀ t ∈ ts, t.IsProper) :
    ∃ s' : Session, s'.Agrees { h with steps := h.steps ++ ts } := by
  induction ts generalizing s h with
  | nil => exact ⟨s, by simpa using hs⟩
  | cons t ts ih =>
    have hafter := (hs.step (hts t List.mem_cons_self)).2
    simpa [History.after] using ih hafter fun u hu => hts u (List.mem_cons_of_mem _ hu)

/-- A step that fails changes nothing. -/
theorem step_of_error {t : Step} {e : Failure} (h : (s.step t).1 = .error e) : (s.step t).2 = s := by
  unfold Session.step at h ⊢
  split at h
  · cases h
  · rfl

theorem fst_step (s : Session) (t : Step) : (s.step t).1 = (s.perform t).map Prod.fst := by
  unfold Session.step
  split
  · next h => rw [h]; rfl
  · next h => rw [h]; rfl

/-- An engine looks at the store that it reads and at nothing else of the session. -/
theorem answer_congr {s s' : Session} {name : StoreName} (h : s.store name = s'.store name)
    (r : Request) :
    (∀ op v, (s.step (.fill name op r v)).1 = (s'.step (.fill name op r v)).1) ∧
      ∀ k, (s.step (.resolve name k r)).1 = (s'.step (.resolve name k r)).1 := by
  have hbound : s.bound name r = s'.bound name r := by rw [bound, bound, h]
  have hfirst {α : Type} {t : Step} {u : Session} (x : Except Failure α) (f : α → Value)
      (h : u.perform t = x >>= fun a => pure (f a, u)) : (u.step t).1 = x.map f := by
    rw [fst_step, h]
    cases x <;> rfl
  refine ⟨fun op v => ?_, fun k => ?_⟩
  · calc (s.step (.fill name op r v)).1
        = (op.perform (s.bound name r) v).outcome.map id := hfirst _ id rfl
      _ = (op.perform (s'.bound name r) v).outcome.map id := by rw [hbound]
      _ = (s'.step (.fill name op r v)).1 := (hfirst _ id rfl).symm
  · calc (s.step (.resolve name k r)).1
        = (Engine.resolve (s.bound name r) k).outcome.map lookupValue := hfirst _ _ rfl
      _ = (Engine.resolve (s'.bound name r) k).outcome.map lookupValue := by rw [hbound]
      _ = (s'.step (.resolve name k r)).1 := (hfirst _ _ rfl).symm

/-- **Sessions are told by their histories.** Whatever the stores held at first and whatever steps
are taken, each step answers what the histories ask for and leaves the contents that they say. The
content of a store has no repeated keys and gives each key its last value. A step that fails changes
nothing, and an engine looks only at the store it was given, or else at that of the process. -/
theorem run_eq_history (initial : StoreName → Document)
    (hdistinct : ∀ name, Distinct (initial name))
    (hself : ∀ name, ∀ k ∈ Document.keys (initial name), k.sameKey k = true)
    (ts : List Step) (hts : ∀ t ∈ ts, t.IsProper) :
    ((starting initial).run ts).map (fun r => (r.1, r.2.store)) =
        History.answers ⟨initial, []⟩ ts ∧
      (∀ name, Distinct (History.content ⟨initial, ts⟩ name) ∧
        ∀ key, find? key (History.content ⟨initial, ts⟩ name) =
          History.value? ⟨initial, ts⟩ name key) ∧
      (∀ (s : Session) (t : Step) (e : Failure), (s.step t).1 = .error e → (s.step t).2 = s) ∧
      ∀ (given? : Option StoreName) (s s' : Session),
        s.store (.ofEngine given?) = s'.store (.ofEngine given?) →
        ∀ r : Request,
          (∀ op v, (s.step (.fill (.ofEngine given?) op r v)).1 =
            (s'.step (.fill (.ofEngine given?) op r v)).1) ∧
          ∀ k, (s.step (.resolve (.ofEngine given?) k r)).1 =
            (s'.step (.resolve (.ofEngine given?) k r)).1 := by
  have hstart := agrees_starting hdistinct hself
  refine ⟨hstart.run hts, fun name => ?_, fun s t e => step_of_error,
    fun given? s s' => answer_congr⟩
  obtain ⟨s', hs'⟩ := hstart.afterAll hts
  have hcontent : History.content ⟨initial, ts⟩ name = s'.store name := hs'.content_eq name
  rw [hcontent]
  exact ⟨(hs'.tracks name).distinct, (hs'.tracks name).find?_eq⟩

/-- A key put twice keeps its place and its first spelling, a list is no key, and a key that was
taken out and put again stands at the end. -/
theorem run_eq_history_overwritten :
    let initial : StoreName → Document
      | .own => [(.int 1, .text "one"), (.text "k", .null)]
      | .process => []
    let ts : List Step := [.put .own (.bool true) (.text "%k%"), .put .own (.list []) .null,
      .snapshot .own (some "kept"), .remove .own (.text "k"),
      .update .process (.document [(.text "k", .text "p")]), .put .own (.text "k") (.text "v"),
      .fill (.ofEngine (some .own)) .template {} (.text "%k%"), .saved "kept", .keys .own]
    ((starting initial).run ts).map (fun r => (r.1, r.2.store)) =
        History.answers ⟨initial, []⟩ ts ∧
      History.content ⟨initial, ts⟩ .own =
        [(.int 1, .text "%k%"), (.text "k", .text "v")] := by
  refine ⟨(run_eq_history _ ?_ ?_ _ ?_).1, rfl⟩
  · intro name
    cases name
    · show [Value.int 1, .text "k"].Pairwise fun a b => a.sameKey b = false
      exact List.pairwise_pair.2 (by decide +kernel)
    · exact List.Pairwise.nil
  · intro name
    cases name
    · show ∀ k ∈ [Value.int 1, .text "k"], k.sameKey k = true
      simp only [List.forall_mem_cons]
      exact ⟨by decide +kernel, by decide +kernel, by simp⟩
    · exact fun _ hk => absurd hk List.not_mem_nil
  · simp only [List.forall_mem_cons]
    refine ⟨fun _ => by decide +kernel, fun hk => absurd hk (by decide +kernel), trivial, trivial,
      ⟨_, rfl, ?_⟩, fun _ => by decide +kernel, trivial, trivial, trivial, by simp⟩
    intro k hk
    obtain rfl := List.mem_singleton.1 hk
    decide +kernel

/-- Taking a key out of an empty store does not fail if the value can be no key. -/
theorem not_fails_remove_empty : ¬ ∀ (s : Session) (name : StoreName) (key : Value),
    key.isKey = false → ∃ e, (s.step (.remove name key)).1 = .error e := by
  intro h
  obtain ⟨e, he⟩ := h {} .own (.list []) rfl
  cases he

end Session

end Stencil
