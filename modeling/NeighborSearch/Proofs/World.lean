/-!
# Programs in a world

A program that reads and changes a world and may fail has an outcome and leaves a world behind. If
the first of two programs fails, the second one does not run, and the world is what the first left.
-/

namespace NeighborSearch

variable {σ ε α β : Type}

/-- The error of an outcome, if it is one. -/
def error? : Except ε α → Option ε
  | .error e => some e
  | .ok _ => none

@[simp] theorem error?_ok (a : α) : error? (.ok a : Except ε α) = none := rfl

@[simp] theorem error?_error (e : ε) : error? (.error e : Except ε α) = some e := rfl

/-- The second of two programs runs on the result of the first one in the world that it leaves. -/
theorem run_bind_of_run {x : StateM σ α} {f : α → StateM σ β} {world after : σ} {a : α}
    (h : x.run world = (a, after)) : (x >>= f).run world = (f a).run after := by
  rw [StateT.run_bind, h]
  rfl

/-- The outcome of a program that starts in a world, and the world after it. -/
def outcome (program : ExceptT ε (StateM σ) α) (world : σ) : Except ε α × σ :=
  program.run.run world

@[simp] theorem outcome_pure (a : α) (world : σ) :
    outcome (pure a : ExceptT ε (StateM σ) α) world = (.ok a, world) := rfl

@[simp] theorem outcome_throw (e : ε) (world : σ) :
    outcome (throw e : ExceptT ε (StateM σ) α) world = (.error e, world) := rfl

@[simp] theorem outcome_ofExcept (x : Except ε α) (world : σ) :
    outcome (MonadExcept.ofExcept x : ExceptT ε (StateM σ) α) world = (x, world) := by
  cases x <;> rfl

/-- The second of two programs runs in the world that the first one leaves. -/
theorem outcome_bind_of_ok {x : ExceptT ε (StateM σ) α} {f : α → ExceptT ε (StateM σ) β}
    {world after : σ} {a : α} (h : outcome x world = (.ok a, after)) :
    outcome (x >>= f) world = outcome (f a) after := by
  show (match (outcome x world).1 with
    | .ok a => (f a).run
    | .error e => pure (.error e)).run (outcome x world).2 = _
  rw [h]
  rfl

/-- The second of two programs does not run if the first one fails. -/
theorem outcome_bind_of_error {x : ExceptT ε (StateM σ) α} {f : α → ExceptT ε (StateM σ) β}
    {world after : σ} {e : ε} (h : outcome x world = (.error e, after)) :
    outcome (x >>= f) world = (.error e, after) := by
  show (match (outcome x world).1 with
    | .ok a => (f a).run
    | .error e => pure (.error e)).run (outcome x world).2 = _
  rw [h]
  rfl

/-- A program that cannot fail has an outcome. -/
theorem outcome_lift {x : StateM σ α} {world after : σ} {a : α} (h : x.run world = (a, after)) :
    outcome (liftM x : ExceptT ε (StateM σ) α) world = (.ok a, after) := by
  show (Except.ok (x.run world).1, (x.run world).2) = _
  rw [h]

/-- A program succeeds if its two parts do, one after the other. -/
theorem outcome_bind_eq_ok_iff {x : ExceptT ε (StateM σ) α} {f : α → ExceptT ε (StateM σ) β}
    {world last : σ} {b : β} :
    outcome (x >>= f) world = (.ok b, last)
      ↔ ∃ a after, outcome x world = (.ok a, after) ∧ outcome (f a) after = (.ok b, last) := by
  constructor
  · intro h
    cases hx : outcome x world with
    | mk first after =>
      cases first with
      | error e =>
        rw [outcome_bind_of_error hx] at h
        cases h
      | ok a =>
        rw [outcome_bind_of_ok hx] at h
        exact ⟨a, after, rfl, h⟩
  · rintro ⟨a, after, hx, hf⟩
    rw [outcome_bind_of_ok hx, hf]

/-- A program fails if one of its two parts does; the second one has run only if the first one
succeeded. -/
theorem outcome_bind_eq_error_iff {x : ExceptT ε (StateM σ) α} {f : α → ExceptT ε (StateM σ) β}
    {world last : σ} {e : ε} :
    outcome (x >>= f) world = (.error e, last)
      ↔ outcome x world = (.error e, last)
        ∨ ∃ a after, outcome x world = (.ok a, after) ∧ outcome (f a) after = (.error e, last) := by
  constructor
  · intro h
    cases hx : outcome x world with
    | mk first after =>
      cases first with
      | error e =>
        rw [outcome_bind_of_error hx] at h
        cases h
        exact .inl rfl
      | ok a =>
        rw [outcome_bind_of_ok hx] at h
        exact .inr ⟨a, after, rfl, h⟩
  · rintro (hx | ⟨a, after, hx, hf⟩)
    · exact outcome_bind_of_error hx
    · rw [outcome_bind_of_ok hx, hf]

/-! ## Programs that change nothing -/

/-- A program leaves every world as it was. -/
def Keeps (program : ExceptT ε (StateM σ) α) : Prop :=
  ∀ world, (outcome program world).2 = world

theorem keeps_pure (a : α) : Keeps (pure a : ExceptT ε (StateM σ) α) :=
  fun _ => rfl

theorem keeps_throw (e : ε) : Keeps (throw e : ExceptT ε (StateM σ) α) :=
  fun _ => rfl

theorem keeps_ofExcept (x : Except ε α) :
    Keeps (MonadExcept.ofExcept x : ExceptT ε (StateM σ) α) := by
  intro world
  rw [outcome_ofExcept]

theorem Keeps.outcome_eq {program : ExceptT ε (StateM σ) α} (h : Keeps program) (world : σ) :
    outcome program world = ((outcome program world).1, world) :=
  Prod.ext rfl (h world)

theorem Keeps.bind {x : ExceptT ε (StateM σ) α} {f : α → ExceptT ε (StateM σ) β} (hx : Keeps x)
    (hf : ∀ a, Keeps (f a)) : Keeps (x >>= f) := by
  intro world
  have hfirst := hx.outcome_eq world
  cases hresult : (outcome x world).1 with
  | error e =>
    rw [hresult] at hfirst
    rw [outcome_bind_of_error hfirst]
  | ok a =>
    rw [hresult] at hfirst
    rw [outcome_bind_of_ok hfirst]
    exact hf a world

/-- After a program that changes nothing, the next one starts in the same world. -/
theorem Keeps.outcome_bind_eq_ok_iff {x : ExceptT ε (StateM σ) α}
    {f : α → ExceptT ε (StateM σ) β} (hx : Keeps x) {world last : σ} {b : β} :
    outcome (x >>= f) world = (.ok b, last)
      ↔ ∃ a, (outcome x world).1 = .ok a ∧ outcome (f a) world = (.ok b, last) := by
  rw [NeighborSearch.outcome_bind_eq_ok_iff]
  constructor
  · rintro ⟨a, after, hfirst, hsecond⟩
    obtain rfl : world = after := by rw [← hx world, hfirst]
    exact ⟨a, by rw [hfirst], hsecond⟩
  · rintro ⟨a, hfirst, hsecond⟩
    refine ⟨a, world, ?_, hsecond⟩
    rw [hx.outcome_eq, hfirst]

end NeighborSearch
