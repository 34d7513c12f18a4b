import Mathlib.Data.List.Basic

set_option autoImplicit false

/-!
# Traces

A system that writes down an event for some of its steps, and orders of events. Nothing here knows what a
state, an action or an event is.
-/

namespace Trace

variable {σ α ε : Type}

structure Traced (σ ε : Type) where
  state : σ
  -- The latest event comes last.
  trace : List ε

def observe (step : σ -> α -> Option σ) (event : σ -> α -> Option ε) (traced : Traced σ ε) (action : α) :
    Option (Traced σ ε) :=
  (step traced.state action).map fun state =>
    { state := state, trace := traced.trace ++ (event traced.state action).toList }

theorem observe_eq_some {step : σ -> α -> Option σ} {event : σ -> α -> Option ε} {traced next : Traced σ ε}
    {action : α} (taken : observe step event traced action = some next) :
    step traced.state action = some next.state ∧
      next.trace = traced.trace ++ (event traced.state action).toList := by
  obtain ⟨state, stepped, rfl⟩ := Option.map_eq_some_iff.mp taken
  exact ⟨stepped, rfl⟩

/-- Each event is allowed behind those in front of it. -/
def Ordered (allowed : List ε -> ε -> Prop) (trace : List ε) : Prop :=
  ∀ front event back, trace = front ++ event :: back -> allowed front event

section Ordered

variable {allowed : List ε -> ε -> Prop} {trace front back : List ε} {event : ε}

theorem ordered_nil : Ordered allowed [] := fun front event back same => by
  simp at same

theorem Ordered.snoc (ordered : Ordered allowed trace) (next : allowed trace event) :
    Ordered allowed (trace ++ [event]) := by
  intro front other back same
  rcases List.eq_nil_or_concat back with rfl | ⟨rest, last, rfl⟩
  · obtain ⟨rfl, one⟩ := List.append_inj' same rfl
    exact List.singleton_inj.mp one ▸ next
  · have split : trace ++ [event] = (front ++ other :: rest) ++ [last] := by simpa using same
    exact ordered front other rest (List.append_inj' split rfl).1

theorem Ordered.toList (ordered : Ordered allowed trace) (next : Option ε)
    (fits : ∀ event, next = some event -> allowed trace event) : Ordered allowed (trace ++ next.toList) := by
  cases next with
  | none => simpa using ordered
  | some event => exact ordered.snoc (fits event rfl)

end Ordered

end Trace
