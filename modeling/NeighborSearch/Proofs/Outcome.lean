/-!
# Outcomes

How a sequence of steps that may fail comes to its outcome: a failed step ends it, and it succeeds
only if each of its steps does.
-/

namespace NeighborSearch

variable {ε α β : Type}

@[simp] theorem ok_bind (a : α) (f : α → Except ε β) : (Except.ok a >>= f) = f a := rfl

@[simp] theorem error_bind (e : ε) (f : α → Except ε β) :
    ((Except.error e : Except ε α) >>= f) = .error e := rfl

/-- Two steps succeed if the first one does and the second one does on its result. -/
theorem bind_eq_ok_iff {x : Except ε α} {f : α → Except ε β} {b : β} :
    (x >>= f) = .ok b ↔ ∃ a, x = .ok a ∧ f a = .ok b := by
  cases x with
  | error e => simp
  | ok a => simp

theorem map_eq_ok_iff {x : Except ε α} {f : α → β} {b : β} :
    x.map f = .ok b ↔ ∃ a, x = .ok a ∧ f a = b := by
  cases x with
  | error e => simp [Except.map]
  | ok a => simp [Except.map]

section Lift

variable {m : Type → Type} [Monad m] [LawfulMonad m]

theorem ofExcept_ok_bind (a : α) (k : α → ExceptT ε m β) :
    (MonadExcept.ofExcept (Except.ok a : Except ε α) >>= k) = k a :=
  pure_bind a k

theorem throw_bind (e : ε) (k : α → ExceptT ε m β) :
    ((throw e : ExceptT ε m α) >>= k) = throw e := by
  apply ExceptT.ext
  rw [ExceptT.run_bind, ExceptT.run_throw, pure_bind]
  rfl

theorem ofExcept_error_bind (e : ε) (k : α → ExceptT ε m β) :
    (MonadExcept.ofExcept (Except.error e : Except ε α) >>= k) = throw e :=
  throw_bind e k

end Lift

end NeighborSearch
