import Stencil.Proofs.Command.Stages
import Stencil.Session

/-!
# The store from run to run

All that a run leaves in the store is the variables of its file of global variables and its global
pairs. Both are loaded after the template and the local scopes and before anything is filled. So a
run either changes nothing, or adds the file alone since the pairs behind it are faulty, or adds
both, and then it makes no difference how filling and writing end (`StoreChange`).

Updates keep the keys that are there, so no run takes a key out of the store.

Main result: `storeChange_runAll`.
-/

namespace Stencil

/-- What the arguments of a run make of the store. -/
inductive StoreChange (w : World) (args : List String) : Store → Prop
  /-- The arguments are refused, or ask for help or nothing. -/
  | idle (h : ∀ c argument settings, Arguments.read args ≠ .run c argument settings) :
      StoreChange w args w.store
  /-- The template, a local pair, the file of a local scope or the file of global variables is
  missing or faulty. -/
  | unloaded {c : Command} {argument : String} {settings : Settings}
      (h : Arguments.read args = .run c argument settings)
      (hfault : Loaded.template? w.files argument c = none ∨
        (∃ e, Pair.parse settings.pairs = .error e) ∨
        (∃ file ∈ settings.scopeFiles,
          Loader.variables? w.files (Path.ofText file.toList) = none) ∨
        ∃ p, Running.named settings.globalFile? = some p ∧ Loader.variables? w.files p = none) :
      StoreChange w args w.store
  /-- A global pair is faulty. -/
  | file {c : Command} {argument : String} {settings : Settings} {l : Loaded} {e : ValidationError}
      (h : Arguments.read args = .run c argument settings)
      (hl : Loaded.ofFiles? w.files c argument settings = some l)
      (hpairs : Pair.parse settings.globalPairs = .error e) :
      StoreChange w args (Document.update w.store l.globalFile)
  /-- Everything is loaded. -/
  | both {c : Command} {argument : String} {settings : Settings} {l : Loaded} {gs : Document}
      (h : Arguments.read args = .run c argument settings)
      (hl : Loaded.ofFiles? w.files c argument settings = some l)
      (hpairs : Pair.parse settings.globalPairs = .ok gs) :
      StoreChange w args (Document.update (Document.update w.store l.globalFile) gs)

/-- Every key of the store is still there after a run, at its place. -/
theorem keys_prefix_of_storeChange {w : World} {args : List String} {store : Store}
    (h : StoreChange w args store) : Document.keys w.store <+: Document.keys store := by
  cases h with
  | idle | unloaded => exact List.prefix_rfl
  | file => exact Document.keys_prefix_update _ _
  | both => exact (Document.keys_prefix_update _ _).trans (Document.keys_prefix_update _ _)

namespace Running

variable {c : Command} {argument : String} {settings : Settings} {s : Progress}

theorem write_store (settings : Settings) (cs : List Char) (s : Progress) :
    ((write settings cs).run.run s).2.world.store = s.world.store := by
  unfold write
  split
  · next p _ => rw [(save_endsAs p cs s).2.1]
  · rfl

/-- Filling and writing keep the store, however they end. -/
theorem finish_store (c : Command) (settings : Settings) (v : Value) (r : Request) (s : Progress) :
    ((do write settings (← draft c settings v r) : Running Unit).run.run s).2.world.store =
      s.world.store := by
  have hdraft := readsFiles_draft c settings v r
  cases hfinal : finalText? s.world.files.library c settings r v with
  | none =>
    obtain ⟨e, t, hrun, -, hworld, -⟩ := hdraft.run_of_none (s := s) hfinal
    rw [run_bind_of_error hrun, hworld]
  | some cs =>
    obtain ⟨t, hrun, hworld, -⟩ := hdraft.run_of_some (s := s) hfinal
    rw [run_bind_of_ok hrun, write_store, hworld]

/-- A command leaves the store as preparing leaves it. -/
theorem command_store (c : Command) (argument : String) (settings : Settings) (s : Progress) :
    ((command c argument settings).run.run s).2.world.store =
      ((prepare c argument settings).run.run s).2.world.store := by
  rw [command_eq]
  rcases hrun : (prepare c argument settings).run.run s with ⟨e | ⟨v, r⟩, t⟩
  · rw [run_bind_of_error hrun]
  · rw [run_bind_of_ok hrun]
    exact finish_store c settings v r t

end Running

namespace Program

/-- **One run.** -/
theorem storeChange_run (w : World) (args : List String) :
    StoreChange w args (run args w).2.store := by
  cases hread : Arguments.read args with
  | run c argument settings =>
    rw [run_eq_seen hread, seen_store, Running.command_store]
    cases hl : Loaded.ofFiles? w.files c argument settings with
    | none =>
      obtain ⟨e, t, hrun, -, hworld, -⟩ := Running.prepare_of_none (s := { world := w }) hl
      rw [hrun, hworld]
      exact .unloaded hread (Loaded.ofFiles?_eq_none_iff.1 hl)
    | some l =>
      cases hpairs : Pair.parse settings.globalPairs with
      | error e =>
        obtain ⟨e, t, hrun, -, hworld, -⟩ :=
          Running.prepare_of_faulty (s := { world := w }) hl hpairs
        rw [hrun, hworld]
        exact .file hread hl hpairs
      | ok gs =>
        obtain ⟨t, hrun, hworld, -⟩ := Running.prepare_of_sound (s := { world := w }) hl hpairs
        rw [hrun, hworld]
        exact .both hread hl hpairs
  | _ =>
    have hidle : (run args w).2 = w := by rw [run, hread]
    rw [hidle]
    refine .idle fun c argument settings h => ?_
    rw [hread] at h
    cases h

theorem runAll_append (w : World) (earlier later : List (List String)) :
    (runAll w (earlier ++ later)).2 = (runAll (runAll w earlier).2 later).2 := by
  induction earlier generalizing w with
  | nil => rfl
  | cons args rest ih => exact ih (run args w).2

/-- No run takes a key out of the store or moves it. -/
theorem keys_prefix_runAll (w : World) (runs : List (List String)) :
    Document.keys w.store <+: Document.keys (runAll w runs).2.store := by
  induction runs generalizing w with
  | nil => exact List.prefix_rfl
  | cons args rest ih =>
    exact (keys_prefix_of_storeChange (storeChange_run w args)).trans (ih (run args w).2)

end Program

/-- Filling changes no store. -/
theorem Session.step_fill (s : Session) (name : StoreName) (op : Operation) (r : Request)
    (v : Value) : (s.step (.fill name op r v)).2 = s := by
  have hperform : s.perform (.fill name op r v) =
      ((op.perform (s.bound name r) v).outcome >>= fun w => pure (w, s)) := rfl
  rw [Session.step, hperform]
  cases (op.perform (s.bound name r) v).outcome <;> rfl

/-- **The store from run to run.** Every run changes the store as `StoreChange` says. Keys that are
there keep their places and new ones are appended, also over many runs; a key takes the value it is
given last. Filling as such writes to no store. -/
theorem Program.storeChange_runAll (w : World) (earlier : List (List String))
    (args : List String) :
    let before := (runAll w earlier).2
    let after := (runAll w (earlier ++ [args])).2
    StoreChange before args after.store ∧
      Document.keys w.store <+: Document.keys before.store ∧
      Document.keys before.store <+: Document.keys after.store ∧
      (∀ (d es : Document),
        Document.keys (Document.update d es) = Document.keys d ++
          (Document.keys (Document.ofEntries es)).filter fun k => !Document.contains k d) ∧
      (∀ (d es : Document) (key : Value), Document.find? key (Document.update d es) =
        (Document.find? key es.reverse).or (Document.find? key d)) ∧
      ∀ (s : Session) (name : StoreName) (op : Operation) (r : Request) (v : Value),
        (s.step (.fill name op r v)).2 = s := by
  have hchange : StoreChange (runAll w earlier).2 args (runAll w (earlier ++ [args])).2.store := by
    rw [runAll_append]
    exact storeChange_run _ args
  exact ⟨hchange, keys_prefix_runAll w earlier, keys_prefix_of_storeChange hchange,
    Document.keys_update, fun d es key => Document.find?_update key d es, Session.step_fill⟩

end Stencil
