/-
# Actions

An action is a step over an outside world of some type: it may fail with an error, and leaves the
world as it then is, whether it failed or not.  Stores, inventories and publishers are given as
actions, so a statement about all of them is a statement about all worlds and all actions.

* `Action` : actions over a world;
* `Action.perform` : the result of an action and the world after it;
* `Action.within` : an action over a part of the world.
-/
import Firewall.Error

namespace Firewall

/-- A step over a world of type `σ` that may fail. -/
abbrev Action (σ α : Type) := ExceptT Error (StateM σ) α

namespace Action

variable {σ τ α : Type}

/-- The result of an action, and the world after it. -/
def perform (a : Action σ α) (s : σ) : Except Error α × σ := StateT.run (ExceptT.run a) s

/-- The action with the given results and effects. -/
def ofFun (f : σ → Except Error α × σ) : Action σ α := ExceptT.mk fun s => f s

/-- An action that does nothing but give a result. -/
def ofResult (r : Except Error α) : Action σ α := ofFun fun s => (r, s)

/-- An action that only looks at the world. -/
def read (f : σ → Except Error α) : Action σ α := ofFun fun s => (f s, s)

/-- An action on a part of the world. -/
def within (view : σ → τ) (update : τ → σ → σ) (a : Action τ α) : Action σ α :=
  ofFun fun s =>
    let (r, t) := a.perform (view s)
    (r, update t s)

/-- An action that never fails, because it hands on the failure as a result. -/
def attempt (a : Action σ α) : StateM σ (Except Error α) := fun s => a.perform s

/-- The action with its error, if any, told in another way. -/
def mapError (f : Error → Error) (a : Action σ α) : Action σ α :=
  ofFun fun s =>
    match a.perform s with
    | (.ok x, t) => (.ok x, t)
    | (.error e, t) => (.error (f e), t)

/-! ## What actions do -/

@[simp] theorem perform_ofFun (f : σ → Except Error α × σ) (s : σ) :
    (ofFun f).perform s = f s := rfl

@[simp] theorem perform_ofResult (r : Except Error α) (s : σ) :
    (ofResult r : Action σ α).perform s = (r, s) := rfl

@[simp] theorem perform_read (f : σ → Except Error α) (s : σ) :
    (read f).perform s = (f s, s) := rfl

@[simp] theorem perform_pure (a : α) (s : σ) : (pure a : Action σ α).perform s = (.ok a, s) := rfl

@[simp] theorem perform_throw (e : Error) (s : σ) :
    (throw e : Action σ α).perform s = (.error e, s) := rfl

/-- One action after another: the second starts from the world the first left, and does not start
at all if the first failed. -/
theorem perform_bind {β : Type} (a : Action σ α) (f : α → Action σ β) (s : σ) :
    (a >>= f).perform s =
      match a.perform s with
      | (.ok x, t) => (f x).perform t
      | (.error e, t) => (.error e, t) := by
  simp only [perform, ExceptT.run_bind, StateT.run_bind]
  change (match (StateT.run (ExceptT.run a) s) with | (x, t) => _) = _
  rcases StateT.run (ExceptT.run a) s with ⟨⟨e⟩ | ⟨x⟩, t⟩ <;> rfl

@[simp] theorem perform_mapError (f : Error → Error) (a : Action σ α) (s : σ) :
    (a.mapError f).perform s =
      match a.perform s with
      | (.ok x, t) => (.ok x, t)
      | (.error e, t) => (.error (f e), t) := rfl

@[simp] theorem perform_within (view : σ → τ) (update : τ → σ → σ) (a : Action τ α) (s : σ) :
    (within view update a).perform s =
      ((a.perform (view s)).1, update (a.perform (view s)).2 s) := rfl

end Action

end Firewall
