/-!
# Computations with a trace

A `Traced` computation leaves a list of events behind and ends with a result or an error. The
events up to an error are kept, and nothing after the error leaves a trace: `bind` appends the trace
of the second computation only if the first had a result.
-/

namespace Stencil

/-- What a computation did, and how it ended. -/
structure Traced (τ ε α : Type) where
  trace : List τ
  outcome : Except ε α

namespace Traced

variable {τ ε α β : Type}

/-- A result without a trace. -/
def ok (a : α) : Traced τ ε α := ⟨[], .ok a⟩

/-- An error without a trace. -/
def fail (e : ε) : Traced τ ε α := ⟨[], .error e⟩

/-- An outcome without a trace. -/
def ofExcept (x : Except ε α) : Traced τ ε α := ⟨[], x⟩

/-- Leave one event behind. -/
def emit (t : τ) : Traced τ ε Unit := ⟨[t], .ok ()⟩

/-- Go on with the result. -/
def bind (x : Traced τ ε α) (f : α → Traced τ ε β) : Traced τ ε β :=
  match x.outcome with
  | .ok a => ⟨x.trace ++ (f a).trace, (f a).outcome⟩
  | .error e => ⟨x.trace, .error e⟩

instance : Monad (Traced τ ε) where
  pure := ok
  bind := bind

/-! ## Basic facts -/

@[simp] theorem pure_eq (a : α) : (pure a : Traced τ ε α) = ⟨[], .ok a⟩ := rfl

@[simp] theorem bind_ok (t : List τ) (a : α) (f : α → Traced τ ε β) :
    (Traced.mk t (.ok a) >>= f) = ⟨t ++ (f a).trace, (f a).outcome⟩ := rfl

@[simp] theorem bind_error (t : List τ) (e : ε) (f : α → Traced τ ε β) :
    (Traced.mk t (.error e) >>= f) = ⟨t, .error e⟩ := rfl

@[ext] theorem ext {x y : Traced τ ε α} (ht : x.trace = y.trace) (ho : x.outcome = y.outcome) :
    x = y := by
  cases x; cases y; simp_all

instance : LawfulMonad (Traced τ ε) := LawfulMonad.mk' (Traced τ ε)
  (fun x => by
    obtain ⟨t, _ | a⟩ := x
    · rfl
    · exact ext (by simp [Functor.map, bind, ok]) rfl)
  (fun a f => by simp)
  (fun x f g => by
    obtain ⟨t, e | a⟩ := x
    · rfl
    · rw [bind_ok]
      rcases h : f a with ⟨u, e | b⟩ <;> simp [h])

/-! ## Traces and outcomes apart -/

@[simp] theorem outcome_bind (x : Traced τ ε α) (f : α → Traced τ ε β) :
    (x >>= f).outcome = x.outcome >>= fun a => (f a).outcome := by
  obtain ⟨t, _ | a⟩ := x <;> rfl

@[simp] theorem outcome_map (f : α → β) (x : Traced τ ε α) :
    (f <$> x).outcome = x.outcome.map f := by
  obtain ⟨t, _ | a⟩ := x <;> rfl

/-- Two computations in a row whose results are put together. -/
theorem outcome_both {γ : Type} (f : α → β → γ) (x : Traced τ ε α) (y : Traced τ ε β) :
    (x >>= fun a => y >>= fun b => pure (f a b)).outcome =
      (x.outcome >>= fun a => y.outcome.map (f a)) := by
  obtain ⟨t, _ | a⟩ := x
  · rfl
  · obtain ⟨u, _ | b⟩ := y <;> rfl

@[simp] theorem trace_map (f : α → β) (x : Traced τ ε α) : (f <$> x).trace = x.trace := by
  obtain ⟨t, _ | a⟩ := x
  · rfl
  · show t ++ [] = t
    exact List.append_nil t

@[simp] theorem outcome_emit (t : τ) : (emit t : Traced τ ε Unit).outcome = .ok () := rfl

theorem ofExcept_ok_bind (a : α) (f : α → Traced τ ε β) : (ofExcept (.ok a) >>= f) = f a :=
  pure_bind a f

@[simp] theorem outcome_ofExcept (x : Except ε α) : (ofExcept x : Traced τ ε α).outcome = x := rfl

end Traced
end Stencil
