import Mathlib.Logic.Function.Basic
import ZSystem.Shared.Transition

set_option autoImplicit false

/-!
# Actions torn in two

An action reads a value and writes what follows from it. Here an agent does the two one after the other, and
others act between them. Nothing here knows what is read.
-/

namespace Torn

open Transition

/-- What an action reads, and what it makes of the state from the value that it has read. -/
structure Access (σ α ν : Type) where
  read : σ -> α -> Option ν
  write : σ -> α -> ν -> Option σ
  -- The actions that are never torn.
  whole : α -> Bool

variable {σ α ι ν : Type}

/-- The action in one step. -/
def Access.step (access : Access σ α ν) (state : σ) (action : α) : Option σ :=
  (access.read state action).bind (access.write state action)

structure State (σ α ι ν : Type) where
  base : σ
  -- What an agent has read, and for which action.
  begun : ι -> Option (α × ν) := fun _ => none

inductive Op (α ι : Type) where
  | whole (action : α)
  | load (agent : ι) (action : α)
  | store (agent : ι)

def step [DecidableEq ι] (access : Access σ α ν) (state : State σ α ι ν) : Op α ι -> Option (State σ α ι ν)
  | .whole action =>
      if access.whole action then (access.step state.base action).map fun base => { state with base := base }
      else none
  | .load agent action =>
      if access.whole action ∨ (state.begun agent).isSome then none
      else (access.read state.base action).map fun value =>
        { state with begun := Function.update state.begun agent (some (action, value)) }
  | .store agent =>
      (state.begun agent).bind fun begun => (access.write state.base begun.1 begun.2).map fun base =>
        { base := base, begun := Function.update state.begun agent none }

/-- The action that the step brings to its end. -/
def State.performs (state : State σ α ι ν) : Op α ι -> Option α
  | .whole action => some action
  | .load _ _ => none
  | .store agent => (state.begun agent).map Prod.fst

/-- A store writes what it would write if it had read just now. -/
def Fresh (access : Access σ α ν) (state : State σ α ι ν) : Op α ι -> Prop
  | .store agent => ∀ begun, state.begun agent = some begun -> access.read state.base begun.1 = some begun.2
  | _ => True

/-- The store is fresh, and the action meets `cond` at that time. -/
def Timely (access : Access σ α ν) (cond : σ -> α -> Prop) (state : State σ α ι ν) (op : Op α ι) : Prop :=
  Fresh access state op ∧ ∀ action, state.performs op = some action -> cond state.base action

instance (access : Access σ α ν) [DecidableEq ν] (state : State σ α ι ν) : ∀ op, Decidable (Fresh access state op)
  | .store agent =>
      inferInstanceAs (Decidable (∀ begun ∈ state.begun agent, access.read state.base begun.1 = some begun.2))
  | .whole _ | .load _ _ => isTrue trivial

instance (access : Access σ α ν) [DecidableEq ν] (cond : σ -> α -> Prop)
    [∀ state action, Decidable (cond state action)] (state : State σ α ι ν) (op : Op α ι) :
    Decidable (Timely access cond state op) :=
  inferInstanceAs (Decidable (Fresh access state op ∧ ∀ action ∈ state.performs op, cond state.base action))

/-- Only actions that can be torn are under way. -/
def Split (access : Access σ α ν) (state : State σ α ι ν) : Prop :=
  ∀ agent begun, state.begun agent = some begun -> access.whole begun.1 = false

/-- A whole action is always fresh. -/
theorem Split.fresh {access : Access σ α ν} {state : State σ α ι ν} {op : Op α ι} (split : Split access state)
    (stale : ¬ Fresh access state op) {action : α} (performed : state.performs op = some action) : access.whole action = false := by
  cases op with
  | whole action => exact absurd trivial stale
  | load agent action => exact absurd trivial stale
  | store agent =>
      obtain ⟨begun, found, rfl⟩ := Option.map_eq_some_iff.mp performed
      exact split agent begun found

section Steps

variable [DecidableEq ι] {access : Access σ α ν} {cond : σ -> α -> Prop} {state next : State σ α ι ν} {op : Op α ι}

/-- A step is one of reading, which does not change the state, or it brings an action to its end. -/
theorem step_cases (taken : step access state op = some next) :
    (state.performs op = none ∧ Fresh access state op ∧ next.base = state.base) ∨
      ∃ action value, state.performs op = some action ∧ access.write state.base action value = some next.base ∧
        (Fresh access state op ↔ access.read state.base action = some value) := by
  cases op with
  | whole action =>
      simp only [step] at taken
      split_ifs at taken
      obtain ⟨base, done, rfl⟩ := Option.map_eq_some_iff.mp taken
      obtain ⟨value, read, written⟩ := Option.bind_eq_some_iff.mp done
      exact Or.inr ⟨action, value, rfl, written, iff_of_true trivial read⟩
  | load agent action =>
      simp only [step] at taken
      split_ifs at taken
      obtain ⟨value, -, rfl⟩ := Option.map_eq_some_iff.mp taken
      exact Or.inl ⟨rfl, trivial, rfl⟩
  | store agent =>
      obtain ⟨⟨action, value⟩, begun, taken⟩ := Option.bind_eq_some_iff.mp taken
      obtain ⟨base, written, rfl⟩ := Option.map_eq_some_iff.mp taken
      refine Or.inr ⟨action, value, by simp [State.performs, begun], written, fun fresh => fresh _ begun, ?_⟩
      intro read other same
      cases begun.symm.trans same
      exact read

theorem Split.step (split : Split access state) (taken : step access state op = some next) : Split access next := by
  cases op with
  | whole action =>
      simp only [Torn.step] at taken
      split_ifs at taken
      obtain ⟨base, -, rfl⟩ := Option.map_eq_some_iff.mp taken
      exact split
  | load agent action =>
      simp only [Torn.step] at taken
      split_ifs at taken with refused
      obtain ⟨value, -, rfl⟩ := Option.map_eq_some_iff.mp taken
      intro other begun found
      by_cases same : other = agent
      · subst same
        simp only [Function.update_self, Option.some.injEq] at found
        subst found
        exact Bool.eq_false_iff.mpr (not_or.mp refused).1
      · exact split other begun (by simpa [same] using found)
  | store agent =>
      obtain ⟨_, -, written⟩ := Option.bind_eq_some_iff.mp taken
      obtain ⟨base, -, rfl⟩ := Option.map_eq_some_iff.mp written
      intro other begun found
      by_cases same : other = agent
      · simp [same] at found
      · exact split other begun (by simpa [same] using found)

theorem step_timely (timely : Timely access cond state op) (taken : step access state op = some next) :
    next.base = state.base ∨ ∃ action, cond state.base action ∧ access.step state.base action = some next.base := by
  obtain ⟨-, -, same⟩ | ⟨action, value, performed, written, fresh⟩ := step_cases taken
  · exact Or.inl same
  · refine Or.inr ⟨action, timely.2 action performed, Option.bind_eq_some_iff.mpr ⟨value, ?_, written⟩⟩
    exact fresh.mp timely.1

/-- With nothing begun an action is done at once, by any agent. -/
theorem reach_action (agent : ι) {before after : σ} {action : α} (meets : cond before action)
    (taken : access.step before action = some after) :
    Reach (step access) (Timely access cond) ({ base := before } : State σ α ι ν) { base := after } := by
  obtain ⟨value, read, written⟩ := Option.bind_eq_some_iff.mp taken
  by_cases whole : access.whole action = true
  · have done : step access ({ base := before } : State σ α ι ν) (.whole action) = some { base := after } := by
      simp [step, whole, taken]
    have timely : Timely access cond ({ base := before } : State σ α ι ν) (.whole action) :=
      ⟨trivial, fun other same => Option.some.inj same ▸ meets⟩
    exact .tail .refl timely done
  · let between : State σ α ι ν :=
      { base := before, begun := Function.update (fun _ => none) agent (some (action, value)) }
    have loaded : step access ({ base := before } : State σ α ι ν) (.load agent action) = some between := by
      simp [step, whole, read, between]
    have stored : step access between (.store agent) = some { base := after } := by
      simp [step, written, between]
    have reads : Timely access cond ({ base := before } : State σ α ι ν) (.load agent action) :=
      ⟨trivial, fun other same => by cases same⟩
    have writes : Timely access cond between (.store agent) := by
      constructor
      · intro begun same
        simp only [between, Function.update_self, Option.some.injEq] at same
        exact same ▸ read
      · intro other same
        simp only [between, State.performs, Function.update_self, Option.map_some, Option.some.injEq] at same
        exact same ▸ meets
    exact .tail (.tail .refl reads loaded) writes stored

/-- Where every store is fresh the torn actions reach what they reach in one step each. -/
theorem reach_iff (agent : ι) {start final : σ} :
    (∃ state, Reach (step access) (Timely access cond) ({ base := start } : State σ α ι ν) state ∧
      state.base = final) ↔ Reach access.step cond start final := by
  constructor
  · rintro ⟨state, reached, rfl⟩
    induction reached with
    | refl => exact .refl
    | tail _ timely taken ih =>
        obtain same | ⟨action, meets, done⟩ := step_timely timely taken
        · exact same ▸ ih
        · exact .tail ih meets done
  · intro reached
    suffices clean : Reach (step access) (Timely access cond) ({ base := start } : State σ α ι ν) { base := final } from
      ⟨_, clean, rfl⟩
    induction reached with
    | refl => exact .refl
    | tail _ meets taken ih => exact .trans ih (reach_action agent meets taken)

end Steps

end Torn
