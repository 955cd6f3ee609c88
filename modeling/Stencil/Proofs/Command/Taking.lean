import Stencil.Command.Program
import Stencil.Proofs.Itemwise

/-!
# Taking arguments

What a command is asked for may matter only in part. A view of settings is a function of them that
keeps the part that matters; settings with the same view are alike.

**Options.** An option keeps settings alike (`OptionKind.KeepsAlike`) if alike settings are alike
after it, with every value that it takes. What an option does is one of a few changes (`Change`), so
it is enough to look at these.

**Words.** Words of such options are taken alike from alike states (`take_alike`). Words in front
that hold no double dash do not change this, whatever they are (`take_append_alike`): an option
behind them is never the value of another option.

**Invocations.** Arguments whose words are taken alike ask for the same command with the same
argument and alike settings, or for the same page of help, or are refused for the same reason
(`Arguments.Alike`).

Main results: `take_alike` and `OptionPair.read_alike`.
-/

namespace Stencil

variable {β : Type} (view : Settings → β)

/-! ## Options -/

/-- A change keeps settings alike. -/
def KeepsAlike (set : Settings → Settings) : Prop :=
  ∀ s s' : Settings, view s = view s' → view (set s) = view (set s')

/-- An option keeps settings alike, with every value that it takes. -/
def OptionKind.KeepsAlike : OptionKind → Prop
  | .help => True
  | .flag set => Stencil.KeepsAlike view set
  | .value read? => ∀ v set, read? v = some set → Stencil.KeepsAlike view set

/-- A change keeps settings alike if it needs no more of them than the view keeps. -/
theorem keepsAlike_of_view {view set : Settings → Settings}
    (h : ∀ s, view (set s) = view (set (view s))) : KeepsAlike view set := by
  intro s s' hs
  rw [h s, h s', hs]

/-- The changes that options make. -/
inductive Change : (Settings → Settings) → Prop
  | pair (v : String) : Change fun s => { s with pairs := s.pairs ++ [v] }
  | scopeFile (v : String) : Change fun s => { s with scopeFiles := s.scopeFiles ++ [v] }
  | globalPair (v : String) : Change fun s => { s with globalPairs := s.globalPairs ++ [v] }
  | globalFile (v : String) : Change fun s => { s with globalFile? := some v }
  | selector (v : Selector) : Change fun s => { s with selector := v }
  | default (v : String) : Change fun s => { s with default? := some v }
  | output (v : String) : Change fun s => { s with output? := some v }
  | debug : Change fun s => { s with isDebug := true }
  | quiet : Change fun s => { s with isQuiet := true }
  | logLevel (v : LogLevel) : Change fun s => { s with logLevel := v }
  | recurse : Change fun s => { s with recurse := true }
  | includeNulls : Change fun s => { s with includeNulls := true }
  | format (v : OutputFormat) : Change fun s => { s with format := v }
  | shape (v : Shape) : Change fun s => { s with shape := v }

namespace Arguments

/-- The options among some words keep settings alike. -/
def WordsKeepAlike (words : List Word) : Prop :=
  ∀ kind attached?, Word.option kind attached? ∈ words → kind.KeepsAlike view

variable {view}

theorem keepsAlike_choice {α : Type} {choices : List (String × α)} {set : α → Settings → Settings}
    (h : ∀ a, Stencil.KeepsAlike view (set a)) : (choice choices set).KeepsAlike view := by
  intro v f hf
  obtain ⟨a, -, rfl⟩ := Option.map_eq_some_iff.1 hf
  exact h a

theorem keepsAlike_anyValue {set : String → Settings → Settings}
    (h : ∀ v, Stencil.KeepsAlike view (set v)) : (anyValue set).KeepsAlike view := by
  intro v f hf
  cases hf
  exact h v

/-- What every change keeps alike, every option keeps alike. -/
theorem keepsAlike_options (h : ∀ set, Change set → Stencil.KeepsAlike view set) (c : Command) :
    ∀ rule ∈ options c, rule.2.KeepsAlike view := by
  have hcommon : ∀ rule ∈ commonOptions, rule.2.KeepsAlike view := by
    simp only [commonOptions, helpOptions, List.cons_append, List.nil_append, List.forall_mem_cons]
    exact ⟨trivial, trivial, keepsAlike_anyValue fun v => h _ (.pair v),
      keepsAlike_anyValue fun v => h _ (.scopeFile v),
      keepsAlike_anyValue fun v => h _ (.globalPair v),
      keepsAlike_anyValue fun v => h _ (.globalFile v),
      keepsAlike_choice fun v => h _ (.selector v), keepsAlike_anyValue fun v => h _ (.default v),
      keepsAlike_anyValue fun v => h _ (.output v), h _ .debug, h _ .quiet,
      keepsAlike_choice fun v => h _ (.logLevel v), fun _ h => absurd h List.not_mem_nil⟩
  cases c with
  | render =>
    refine List.forall_mem_append.2 ⟨hcommon, ?_⟩
    simp only [List.forall_mem_cons]
    exact ⟨h _ .recurse, h _ .includeNulls, keepsAlike_choice fun v => h _ (.format v),
      fun _ h => absurd h List.not_mem_nil⟩
  | text =>
    refine List.forall_mem_append.2 ⟨hcommon, ?_⟩
    simp only [List.forall_mem_cons]
    exact ⟨keepsAlike_choice fun v => h _ (.shape v), fun _ h => absurd h List.not_mem_nil⟩

theorem WordsKeepAlike.tail {w : Word} {words : List Word} (h : WordsKeepAlike view (w :: words)) :
    WordsKeepAlike view words := fun kind a hmem => h kind a (List.mem_cons_of_mem _ hmem)

/-! ## Single arguments -/

theorem exists_mem_of_lookup {rules : List (String × OptionKind)} {s : String} {kind : OptionKind}
    (h : rules.lookup s = some kind) : ∃ rule ∈ rules, rule.2 = kind := by
  obtain ⟨before, after, rfl, -⟩ := List.lookup_eq_some_iff.1 h
  exact ⟨(s, kind), by simp, rfl⟩

theorem classifyOther_cases (s : String) :
    classifyOther s = .argument s ∨ classifyOther s = .unknown := by
  unfold classifyOther
  split
  · exact Or.inl rfl
  · exact Or.inr rfl

/-- An argument is classified as itself, as an option of the rules, as a cluster or as unknown. -/
inductive Classified (rules : List (String × OptionKind)) (s : String) : Word → Prop
  | argument : Classified rules s (.argument s)
  | option {rule : String × OptionKind} (h : rule ∈ rules) (attached? : Option String) :
      Classified rules s (.option rule.2 attached?)
  | cluster (letters : List Char) : Classified rules s (.cluster letters)
  | unknown : Classified rules s .unknown

theorem classified_other (rules : List (String × OptionKind)) (s : String) :
    Classified rules s (classifyOther s) := by
  rcases classifyOther_cases s with h | h
  · rw [h]
    exact .argument
  · rw [h]
    exact .unknown

theorem classified_lookup {rules : List (String × OptionKind)} {s name : String} {kind : OptionKind}
    (h : rules.lookup name = some kind) (attached? : Option String) :
    Classified rules s (.option kind attached?) := by
  obtain ⟨rule, hrule, rfl⟩ := exists_mem_of_lookup h
  exact .option hrule attached?

theorem classified_of_classify {rules : List (String × OptionKind)} {s : String} {w : Word}
    (h : classify rules s = .ok w) : Classified rules s w := by
  unfold classify at h
  split at h
  · cases h
    exact .argument
  · split at h
    · next hlookup =>
      cases h
      exact classified_lookup hlookup none
    · unfold classifyPart at h
      simp only at h
      split at h
      · next hlookup =>
        cases h
        exact classified_lookup hlookup _
      · split at h
        · split at h
          · cases h
            exact classified_other rules s
          · next rule hrule =>
            cases h
            have hmem : rule ∈ [rule] := List.mem_singleton_self _
            rw [← hrule] at hmem
            exact .option (List.mem_filter.1 hmem).1 _
          · cases h
        · cases h
          exact .cluster _
        · cases h
          exact classified_other rules s

/-! ## Arguments in a row -/

theorem classifyAll_cons {rules : List (String × OptionKind)} {s : String}
    (hs : (s == "--") = false) (rest : List String) : classifyAll rules (s :: rest) =
      (classify rules s >>= fun w => (classifyAll rules rest).map (w :: ·)) := by
  rw [classifyAll, hs, if_neg Bool.false_ne_true]
  cases classify rules s with
  | error e => rfl
  | ok w => cases classifyAll rules rest <;> rfl

/-- An option is classified together with its value behind it. -/
theorem classifyAll_option {rules : List (String × OptionKind)} {name value : String}
    {kind : OptionKind} (hname : (name == "--") = false) (hvalue : (value == "--") = false)
    (h : classify rules name = .ok (.option kind none))
    (h' : classify rules value = .ok (.argument value)) (rest : List String) :
    classifyAll rules (name :: value :: rest) =
      (classifyAll rules rest).map ([.option kind none, .argument value] ++ ·) := by
  rw [classifyAll_cons hname, h, classifyAll_cons hvalue, h']
  cases classifyAll rules rest <;> rfl

/-- Without a double dash the arguments in front are classified on their own. -/
theorem classifyAll_append {rules : List (String × OptionKind)} {before : List String}
    (h : "--" ∉ before) (rest : List String) : classifyAll rules (before ++ rest) =
      (classifyAll rules before >>= fun ws => (classifyAll rules rest).map (ws ++ ·)) := by
  induction before with
  | nil =>
    show classifyAll rules rest = (classifyAll rules rest).map ([] ++ ·)
    cases classifyAll rules rest <;> rfl
  | cons s before ih =>
    obtain ⟨hs, hbefore⟩ := List.ne_and_not_mem_of_not_mem_cons h
    have hdash : (s == "--") = false := beq_eq_false_iff_ne.2 hs.symm
    rw [List.cons_append, classifyAll_cons hdash, classifyAll_cons hdash, ih hbefore]
    rcases classify rules s with e | w
    · rfl
    · rcases classifyAll rules before with e | ws
      · rfl
      · rcases classifyAll rules rest with e | ws' <;> rfl

theorem separator_not_mem {rules : List (String × OptionKind)} {before : List String}
    {ws : List Word} (h : "--" ∉ before) (hws : classifyAll rules before = .ok ws) :
    Word.separator ∉ ws := by
  induction before generalizing ws with
  | nil =>
    cases hws
    exact List.not_mem_nil
  | cons s before ih =>
    obtain ⟨hs, hbefore⟩ := List.ne_and_not_mem_of_not_mem_cons h
    rw [classifyAll_cons (beq_eq_false_iff_ne.2 hs.symm), bind_eq_ok_iff] at hws
    obtain ⟨w, hw, hws⟩ := hws
    obtain ⟨ws', hws', rfl⟩ := (map_eq_ok_iff _).1 hws
    intro hmem
    rcases List.mem_cons.1 hmem with rfl | hmem
    · cases classified_of_classify hw
    · exact ih hbefore hws' hmem

theorem wordsKeepAlike_of_classifyAll {rules : List (String × OptionKind)} {args : List String}
    {words : List Word} (hrules : ∀ rule ∈ rules, rule.2.KeepsAlike view)
    (h : classifyAll rules args = .ok words) : WordsKeepAlike view words := by
  induction args generalizing words with
  | nil =>
    cases h
    exact fun _ _ hmem => absurd hmem List.not_mem_nil
  | cons s rest ih =>
    by_cases hs : (s == "--") = true
    · rw [classifyAll, if_pos hs] at h
      cases h
      intro kind attached? hmem
      simp at hmem
    · rw [classifyAll_cons (by simpa using hs), bind_eq_ok_iff] at h
      obtain ⟨w, hw, h⟩ := h
      obtain ⟨ws, hws, rfl⟩ := (map_eq_ok_iff _).1 h
      intro kind attached? hmem
      rcases List.mem_cons.1 hmem with rfl | hmem
      · cases classified_of_classify hw with
        | option hrule => exact hrules _ hrule
      · exact ih hws kind attached? hmem

/-! ## From left to right -/

/-- Two states of taking arguments are alike. -/
structure Taken.Alike (view : Settings → β) (t t' : Taken) : Prop where
  argument? : t.argument? = t'.argument?
  hasSuperfluous : t.hasSuperfluous = t'.hasSuperfluous
  settings : view t.settings = view t'.settings

theorem Taken.Alike.superfluous {t t' : Taken} (h : t.Alike view t') :
    Alike view { t with hasSuperfluous := true } { t' with hasSuperfluous := true } :=
  ⟨h.argument?, rfl, h.settings⟩

theorem Taken.Alike.withArgument {t t' : Taken} (h : t.Alike view t') (s : String) :
    Alike view { t with argument? := some s } { t' with argument? := some s } :=
  ⟨rfl, h.hasSuperfluous, h.settings⟩

/-- Two ways to take arguments end alike. -/
inductive EndAlike (view : Settings → β) : Except Stop Taken → Except Stop Taken → Prop
  | ok {t t' : Taken} (h : t.Alike view t') : EndAlike view (.ok t) (.ok t')
  | error (e : Stop) : EndAlike view (.error e) (.error e)

theorem EndAlike.bind {x y : Except Stop Taken} (h : EndAlike view x y)
    {f g : Taken → Except Stop Taken}
    (hfg : ∀ t t' : Taken, t.Alike view t' → EndAlike view (f t) (g t')) :
    EndAlike view (x >>= f) (y >>= g) := by
  cases h with
  | ok ht => exact hfg _ _ ht
  | error e => exact .error e

theorem takeValue_alike {t t' : Taken} (ht : t.Alike view t')
    {read? : String → Option (Settings → Settings)}
    (hread : (OptionKind.value read?).KeepsAlike view) (value : String) :
    EndAlike view (takeValue t read? value) (takeValue t' read? value) := by
  unfold takeValue
  cases hset : read? value with
  | none => exact .error _
  | some set => exact .ok ⟨ht.argument?, ht.hasSuperfluous, hread value set hset _ _ ht.settings⟩

/-- Arguments are taken alike from alike states. -/
theorem take_alike {t t' : Taken} (ht : t.Alike view t') {words : List Word}
    (hwords : WordsKeepAlike view words) : EndAlike view (take t words) (take t' words) := by
  fun_induction take t words generalizing t' with
  | case1 t => exact .ok ht
  | case2 t s words harg ih =>
    rw [take.eq_2, if_pos (ht.argument? ▸ harg)]
    exact ih ht.superfluous hwords.tail
  | case3 t s harg u words =>
    rename_i ih
    rw [take.eq_2, if_neg (ht.argument? ▸ harg)]
    exact ih (ht.withArgument s) hwords.tail.tail
  | case4 t s harg u words hsep =>
    rename_i ih
    rw [take.eq_2, if_neg (ht.argument? ▸ harg)]
    cases words with
    | nil => exact ih (ht.withArgument s) hwords.tail
    | cons w ws =>
      cases w with
      | separator => exact (hsep ws rfl).elim
      | _ => exact ih (ht.withArgument s) hwords.tail
  | case5 t s words harg ih =>
    rw [take.eq_3 t' s words (ht.argument? ▸ harg)]
    exact ih (ht.withArgument s) hwords.tail.tail
  | case6 t words hno ih =>
    rw [take.eq_4 t' words (ht.argument? ▸ hno)]
    exact ih ht.superfluous hwords.tail
  | case7 t words ih => exact ih ht.superfluous hwords.tail
  | case8 t letters words => exact .error _
  | case9 t attached? words => exact .error _
  | case10 t set attached? words hvalue =>
    rw [take, if_pos hvalue]
    exact .error _
  | case11 t set attached? words hvalue ih =>
    rw [take, if_neg hvalue]
    have hset := hwords _ _ List.mem_cons_self
    exact ih ⟨ht.argument?, ht.hasSuperfluous, hset _ _ ht.settings⟩ hwords.tail
  | case12 t read? value words ih =>
    have hread := hwords _ _ List.mem_cons_self
    exact (takeValue_alike ht hread value).bind fun u u' hu => ih u hu hwords.tail
  | case13 t read? value words ih =>
    have hread := hwords _ _ List.mem_cons_self
    exact (takeValue_alike ht hread value).bind fun u u' hu => ih u hu hwords.tail.tail
  | case14 t read? words hno =>
    cases words with
    | nil => exact .error _
    | cons w ws =>
      cases w with
      | argument s => exact (hno s ws rfl).elim
      | _ => exact .error _

theorem EndAlike.bind_same {x : Except Stop Taken} {f g : Taken → Except Stop Taken}
    (hfg : ∀ t, EndAlike view (f t) (g t)) : EndAlike view (x >>= f) (x >>= g) := by
  cases x with
  | error e => exact .error e
  | ok t => exact hfg t

/-- Words in front are taken before an option and what is behind it. The words are looked through
one by one, or two if the first asks for a value; the option is neither a value nor a separator. -/
theorem take_append_alike {kind : OptionKind} {attached? : Option String} {words words' : List Word}
    (h : ∀ t, EndAlike view (take t (.option kind attached? :: words))
      (take t (.option kind attached? :: words'))) :
    ∀ (ws : List Word) (t : Taken), Word.separator ∉ ws →
      EndAlike view (take t (ws ++ .option kind attached? :: words))
        (take t (ws ++ .option kind attached? :: words'))
  | [], t, _ => h t
  | .separator :: ws, t, hsep => absurd List.mem_cons_self hsep
  | .unknown :: ws, t, hsep => take_append_alike h ws _ (List.not_mem_of_not_mem_cons hsep)
  | .cluster letters :: ws, t, _ => .error _
  | .option .help attached? :: ws, t, _ => .error _
  | .option (.flag set) attached? :: ws, t, hsep => by
    rw [List.cons_append, List.cons_append, take, take]
    split
    · exact .error _
    · exact take_append_alike h ws _ (List.not_mem_of_not_mem_cons hsep)
  | .option (.value read?) (some value) :: ws, t, hsep =>
    .bind_same fun u => take_append_alike h ws u (List.not_mem_of_not_mem_cons hsep)
  | .argument s :: ws, t, hsep => by
    have htail := List.not_mem_of_not_mem_cons hsep
    rw [List.cons_append, List.cons_append, take.eq_2, take.eq_2]
    split
    · exact take_append_alike h ws _ htail
    · have ih := take_append_alike h ws { t with argument? := some s } htail
      cases ws with
      | nil => exact ih
      | cons w ws =>
        cases w with
        | separator => exact absurd List.mem_cons_self htail
        | _ => exact ih
  | [.option (.value read?) none], t, _ => .error _
  | .option (.value read?) none :: w :: ws, t, hsep => by
    cases w with
    | argument value =>
      exact .bind_same fun u => take_append_alike h ws u
        (List.not_mem_of_not_mem_cons (List.not_mem_of_not_mem_cons hsep))
    | _ => exact .error _

/-! ## Invocations -/

/-- What a command is asked for when its arguments are taken. -/
def settle (c : Command) (hasSuperfluous : Bool) : Except Stop Taken → Invocation
  | .error .help => .help (some c)
  | .error (.refused r) => .refused r
  | .ok t =>
    match t.argument? with
    | none => .refused .noArgument
    | some s =>
      if t.hasSuperfluous || hasSuperfluous then .refused .superfluous else .run c s t.settings

/-- Two invocations are alike. -/
inductive Alike (view : Settings → β) : Invocation → Invocation → Prop
  | run {c : Command} {argument : String} {s s' : Settings} (h : view s = view s') :
      Alike view (.run c argument s) (.run c argument s')
  | same (i : Invocation) : Alike view i i

theorem settle_alike (c : Command) (hasSuperfluous : Bool) {x y : Except Stop Taken}
    (h : EndAlike view x y) :
    Alike view (settle c hasSuperfluous x) (settle c hasSuperfluous y) := by
  cases h with
  | error e => exact .same _
  | @ok t t' h =>
    rw [settle, settle, h.argument?, h.hasSuperfluous]
    cases t'.argument? with
    | none => exact .same _
    | some s =>
      dsimp only
      split
      · exact .same _
      · exact .run h.settings

/-- The name of a command in front takes all arguments behind it. -/
theorem read_command (c : Command) (args : List String) :
    read (c.name :: args) = ofCommand c false args := by
  cases c <;> rfl

theorem ofCommand_of_classifyAll {c : Command} {args : List String} {words : List Word}
    (h : classifyAll (options c) args = .ok words) (hasSuperfluous : Bool) :
    ofCommand c hasSuperfluous args = settle c hasSuperfluous (take {} words) := by
  rw [ofCommand, h]
  rfl

theorem ofCommand_of_error {c : Command} {args : List String} {r : Refusal}
    (h : classifyAll (options c) args = .error r) (hasSuperfluous : Bool) :
    ofCommand c hasSuperfluous args = .refused r := by
  rw [ofCommand, h]

/-! ## Two values of an option -/

/-- An option and its value are two arguments that make a change. -/
structure OptionPair (c : Command) (name value : String)
    (read? : String → Option (Settings → Settings)) (set : Settings → Settings) : Prop where
  name_ne : (name == "--") = false
  value_ne : (value == "--") = false
  option : classify (options c) name = .ok (.option (.value read?) none)
  argument : classify (options c) value = .ok (.argument value)
  reads : read? value = some set

namespace OptionPair

variable {c : Command} {name value value' : String}
  {read? : String → Option (Settings → Settings)} {set set' : Settings → Settings}

theorem take_eq (h : OptionPair c name value read? set) (t : Taken) (words : List Word) :
    take t (.option (.value read?) none :: .argument value :: words) =
      take { t with settings := set t.settings } words := by
  rw [take, takeValue, h.reads]
  rfl

theorem classifyAll_eq (h : OptionPair c name value read? set) {before : List String}
    (hbefore : "--" ∉ before) (after : List String) :
    classifyAll (options c) (before ++ name :: value :: after) =
      (classifyAll (options c) before >>= fun ws => (classifyAll (options c) after).map fun ws' =>
        ws ++ .option (.value read?) none :: .argument value :: ws') := by
  rw [classifyAll_append hbefore, classifyAll_option h.name_ne h.value_ne h.option h.argument]
  refine congrArg _ (funext fun ws => ?_)
  rcases classifyAll (options c) after with e | ws' <;> rfl

/-- **Two values of an option.** Arguments that differ in the value of one option mean the same, but
for what the view of settings leaves out, if the changes for these values do. -/
theorem read_alike (h : OptionPair c name value read? set)
    (h' : OptionPair c name value' read? set') (hset : ∀ s, view (set s) = view (set' s))
    (hrules : ∀ rule ∈ options c, rule.2.KeepsAlike view) {before : List String}
    (hbefore : "--" ∉ before) (after : List String) :
    Alike view (read (c.name :: (before ++ name :: value :: after)))
      (read (c.name :: (before ++ name :: value' :: after))) := by
  rw [read_command, read_command]
  have hall := h.classifyAll_eq hbefore after
  have hall' := h'.classifyAll_eq hbefore after
  rcases hws : classifyAll (options c) before with e | ws
  · rw [hws] at hall hall'
    rw [ofCommand_of_error hall, ofCommand_of_error hall']
    exact .same _
  rcases hws' : classifyAll (options c) after with e | ws'
  · rw [hws, hws'] at hall hall'
    rw [ofCommand_of_error hall, ofCommand_of_error hall']
    exact .same _
  rw [hws, hws'] at hall hall'
  rw [ofCommand_of_classifyAll hall, ofCommand_of_classifyAll hall']
  have hsep := separator_not_mem hbefore hws
  refine settle_alike c false (take_append_alike (fun t => ?_) ws {} hsep)
  rw [h.take_eq, h'.take_eq]
  have hstart : Taken.Alike view { t with settings := set t.settings }
      { t with settings := set' t.settings } := ⟨rfl, rfl, hset t.settings⟩
  exact take_alike hstart (wordsKeepAlike_of_classifyAll hrules hws')

end OptionPair

end Arguments
end Stencil
