import Mathlib.Data.List.Basic

set_option autoImplicit false

/-!
# Partial transition systems

A system is a partial step function: `step s a` is the state after action `a`, or `none` where `a`
is disabled in `s`. Nothing here knows what a state or an action is.
-/

namespace Transition

variable {σ α : Type}

/-- Perform a list of actions in order; `none` as soon as one of them is disabled. -/
def exec (step : σ -> α -> Option σ) : σ -> List α -> Option σ
  | state, [] => some state
  | state, action :: rest => (step state action).bind fun next => exec step next rest

inductive Reach (step : σ -> α -> Option σ) (allowed : σ -> α -> Prop) (start : σ) : σ -> Prop where
  | refl : Reach step allowed start start
  | tail {state next : σ} {action : α} (before : Reach step allowed start state)
      (meets : allowed state action) (taken : step state action = some next) :
      Reach step allowed start next

abbrev Reachable (step : σ -> α -> Option σ) (start : σ) : σ -> Prop :=
  Reach step (fun _ _ => True) start

/-- `property` holds in every state that the run visits, the first and the last included. -/
def Throughout (step : σ -> α -> Option σ) (property : σ -> Prop) : σ -> List α -> Prop
  | state, [] => property state
  | state, action :: rest =>
      property state ∧ ∀ next, step state action = some next -> Throughout step property next rest

def Along (step : σ -> α -> Option σ) (cond : σ -> α -> Prop) : σ -> List α -> Prop
  | _, [] => True
  | state, action :: rest =>
      cond state action ∧ ∀ next, step state action = some next -> Along step cond next rest

variable {step : σ -> α -> Option σ} {allowed : σ -> α -> Prop} {start : σ}

theorem Reach.invariant (property : σ -> Prop) (initial : property start)
    (preserved : ∀ state action next, property state -> allowed state action ->
      step state action = some next -> property next)
    {state : σ} (reached : Reach step allowed start state) : property state := by
  induction reached with
  | refl => exact initial
  | tail _ meets taken ih => exact preserved _ _ _ ih meets taken

theorem Reach.mono {weaker : σ -> α -> Prop}
    (implies : ∀ state action, allowed state action -> weaker state action)
    {state : σ} (reached : Reach step allowed start state) : Reach step weaker start state := by
  induction reached with
  | refl => exact .refl
  | tail _ meets taken ih => exact .tail ih (implies _ _ meets) taken

/-- What is allowed may be said with the help of an invariant of the run. -/
theorem Reach.mono_of_invariant {other : σ -> α -> Prop} (property : σ -> Prop) (initial : property start)
    (preserved : ∀ state action next, property state -> allowed state action ->
      step state action = some next -> property next)
    (implies : ∀ state action, property state -> allowed state action -> other state action)
    {state : σ} (reached : Reach step allowed start state) : Reach step other start state := by
  have both : property state ∧ Reach step other start state := by
    induction reached with
    | refl => exact ⟨initial, .refl⟩
    | tail _ meets taken ih =>
        exact ⟨preserved _ _ _ ih.1 meets taken, .tail ih.2 (implies _ _ ih.1 meets) taken⟩
  exact both.2

theorem Reach.trans {middle state : σ} (first : Reach step allowed start middle)
    (second : Reach step allowed middle state) : Reach step allowed start state := by
  induction second with
  | refl => exact first
  | tail _ meets taken ih => exact .tail ih meets taken

theorem throughout_head {property : σ -> Prop} {actions : List α} {state : σ}
    (throughout : Throughout step property state actions) : property state := by
  cases actions with
  | nil => exact throughout
  | cons _ _ => exact throughout.1

theorem throughout_final {property : σ -> Prop} {actions : List α} {state final : σ}
    (throughout : Throughout step property state actions) (run : exec step state actions = some final) :
    property final := by
  induction actions generalizing state with
  | nil => cases run; exact throughout
  | cons action rest ih =>
      obtain ⟨next, taken, remaining⟩ := Option.bind_eq_some_iff.mp run
      exact ih (throughout.2 next taken) remaining

instance Along.decide (step : σ -> α -> Option σ) (cond : σ -> α -> Prop)
    [∀ state action, Decidable (cond state action)] :
    ∀ (state : σ) (actions : List α), Decidable (Along step cond state actions)
  | _, [] => isTrue trivial
  | state, action :: rest =>
      match taken : step state action with
      | none => decidable_of_iff (cond state action) (by simp [Along, taken])
      | some next =>
          have := Along.decide step cond next rest
          decidable_of_iff (cond state action ∧ Along step cond next rest) (by simp [Along, taken])

theorem reach_of_along {cond : σ -> α -> Prop} {actions : List α} {state final : σ}
    (run : exec step state actions = some final) (along : Along step cond state actions) :
    Reach step cond state final := by
  induction actions generalizing state with
  | nil => cases run; exact .refl
  | cons action rest ih =>
      obtain ⟨next, taken, remaining⟩ := Option.bind_eq_some_iff.mp run
      exact .trans (.tail .refl along.1 taken) (ih remaining (along.2 next taken))

theorem exec_append {state : σ} {front back : List α} :
    exec step state (front ++ back) = (exec step state front).bind fun middle => exec step middle back := by
  induction front generalizing state with
  | nil => rfl
  | cons action rest ih =>
      cases taken : step state action with
      | none => simp [exec, taken]
      | some next => simp [exec, taken, ih]

theorem exec_isSome (total : ∀ state action, (step state action).isSome) (state : σ) (actions : List α) :
    (exec step state actions).isSome := by
  induction actions generalizing state with
  | nil => rfl
  | cons action rest ih =>
      obtain ⟨next, taken⟩ := Option.isSome_iff_exists.mp (total state action)
      simpa [exec, taken] using ih next

theorem reachable_of_exec (actions : List α) {state final : σ}
    (run : exec step state actions = some final) : Reachable step state final := by
  induction actions generalizing state with
  | nil => cases run; exact .refl
  | cons action rest ih =>
      obtain ⟨next, taken, remaining⟩ := Option.bind_eq_some_iff.mp run
      exact .trans (.tail .refl trivial taken) (ih remaining)

def restrict (step : σ -> α -> Option σ) (allowed : α -> Bool) (state : σ) (action : α) : Option σ :=
  if allowed action then step state action else none

theorem restrict_eq_some {allowed : α -> Bool} {action : α} {state next : σ} :
    restrict step allowed state action = some next ↔
      allowed action = true ∧ step state action = some next := by
  simp [restrict]

/-- A doomed run that leaves its doom meets a state that is not good. -/
theorem not_throughout_of_doomed {doomed good : σ -> Prop}
    (fated : ∀ state action next, doomed state -> good state -> step state action = some next ->
      doomed next ∨ ¬ good next)
    {actions : List α} {state final : σ} (doom : doomed state)
    (run : exec step state actions = some final) (ended : ¬ doomed final) :
    ¬ Throughout step good state actions := by
  induction actions generalizing state with
  | nil => cases run; exact absurd doom ended
  | cons action rest ih =>
      obtain ⟨next, taken, remaining⟩ := Option.bind_eq_some_iff.mp run
      rintro ⟨fine, throughout⟩
      rcases fated state action next doom fine taken with still | bad
      · exact ih still remaining (throughout next taken)
      · exact bad (throughout_head (throughout next taken))

theorem throughout_of_along (inv : σ -> Prop) {good : σ -> Prop} {cond : σ -> α -> Prop}
    (implies : ∀ state, inv state -> good state)
    (kept : ∀ state action next, inv state -> cond state action ->
      step state action = some next -> inv next)
    {actions : List α} {state : σ} (established : inv state)
    (along : Along step cond state actions) : Throughout step good state actions := by
  induction actions generalizing state with
  | nil => exact implies _ established
  | cons action rest ih =>
      exact ⟨implies _ established, fun next taken =>
        ih (kept _ _ _ established along.1 taken) (along.2 next taken)⟩

/--
Let every step that meets `cond` keep `inv`, let every step that does not meet it end in a doomed or a
bad state, and let doom only end in a bad state. Then in a run that is good throughout every step meets
`cond`, unless the run ends doomed.
-/
theorem along_or_doomed (inv doomed : σ -> Prop) {good : σ -> Prop} {cond : σ -> α -> Prop}
    (kept : ∀ state action next, inv state -> cond state action ->
      step state action = some next -> inv next)
    (broken : ∀ state action next, inv state -> ¬ cond state action ->
      step state action = some next -> doomed next ∨ ¬ good next)
    (fated : ∀ state action next, doomed state -> good state -> step state action = some next ->
      doomed next ∨ ¬ good next)
    {actions : List α} {state final : σ} (established : inv state)
    (run : exec step state actions = some final)
    (throughout : Throughout step good state actions) :
    Along step cond state actions ∨ doomed final := by
  induction actions generalizing state with
  | nil => exact Or.inl trivial
  | cons action rest ih =>
      obtain ⟨next, taken, remaining⟩ := Option.bind_eq_some_iff.mp run
      have later := throughout.2 next taken
      by_cases meets : cond state action
      · refine (ih (kept _ _ _ established meets taken) remaining later).imp_left fun along => ?_
        refine ⟨meets, fun other same => ?_⟩
        rwa [Option.some.inj (same.symm.trans taken)]
      · refine Or.inr (by_contra fun ended => ?_)
        rcases broken _ _ _ established meets taken with doom | bad
        · exact not_throughout_of_doomed fated doom remaining ended later
        · exact bad (throughout_head later)

theorem throughout_iff_along_of_doomed (inv doomed : σ -> Prop) {good : σ -> Prop}
    {cond : σ -> α -> Prop} (implies : ∀ state, inv state -> good state)
    (kept : ∀ state action next, inv state -> cond state action ->
      step state action = some next -> inv next)
    (broken : ∀ state action next, inv state -> ¬ cond state action ->
      step state action = some next -> doomed next ∨ ¬ good next)
    (fated : ∀ state action next, doomed state -> good state -> step state action = some next ->
      doomed next ∨ ¬ good next)
    {actions : List α} {state final : σ} (established : inv state)
    (run : exec step state actions = some final) (ended : ¬ doomed final) :
    Throughout step good state actions ↔ Along step cond state actions :=
  ⟨fun throughout => (along_or_doomed inv doomed kept broken fated established run throughout).resolve_right
    ended, throughout_of_along inv implies kept established⟩

/-- The exactness rule where a step that does not meet `cond` ends in a bad state at once. -/
theorem throughout_iff_along (inv : σ -> Prop) {good : σ -> Prop} {cond : σ -> α -> Prop}
    (implies : ∀ state, inv state -> good state)
    (kept : ∀ state action next, inv state -> cond state action ->
      step state action = some next -> inv next)
    (broken : ∀ state action next, inv state -> ¬ cond state action ->
      step state action = some next -> ¬ good next)
    {actions : List α} {state : σ} (established : inv state)
    (run : (exec step state actions).isSome) :
    Throughout step good state actions ↔ Along step cond state actions := by
  obtain ⟨final, finished⟩ := Option.isSome_iff_exists.mp run
  exact throughout_iff_along_of_doomed inv (fun _ => False) implies kept
    (fun _ _ _ holds violated taken => Or.inr (broken _ _ _ holds violated taken))
    (fun _ _ _ doom _ _ => doom.elim) established finished id

/-- A run whose steps another system can follow is followed from beginning to end. -/
theorem exec_follows {τ : Type} {other : τ -> α -> Option τ} (related : σ -> τ -> Prop) {cond : σ -> α -> Prop}
    (follows : ∀ state twin action next, related state twin -> cond state action -> step state action = some next ->
      ∃ after, other twin action = some after ∧ related next after)
    {actions : List α} {state final : σ} {twin : τ} (start : related state twin)
    (run : exec step state actions = some final) (along : Along step cond state actions) :
    ∃ last, exec other twin actions = some last ∧ related final last := by
  induction actions generalizing state twin with
  | nil =>
      cases run
      exact ⟨twin, rfl, start⟩
  | cons action rest ih =>
      obtain ⟨next, taken, remaining⟩ := Option.bind_eq_some_iff.mp run
      obtain ⟨after, followed, again⟩ := follows _ _ _ _ start along.1 taken
      obtain ⟨last, ran, holds⟩ := ih again remaining (along.2 next taken)
      exact ⟨last, Option.bind_eq_some_iff.mpr ⟨after, followed, ran⟩, holds⟩

/-- Every step from a state of `inv` stays there and makes `measure` smaller. -/
structure Descends (step : σ -> α -> Option σ) (inv : σ -> Prop) (measure : σ -> Nat) : Prop where
  kept : ∀ state action next, inv state -> step state action = some next -> inv next
  smaller : ∀ state action next, inv state -> step state action = some next -> measure next < measure state

section Descends

variable {inv : σ -> Prop} {measure : σ -> Nat} {state final : σ}

theorem Descends.bound (descends : Descends step inv measure) {actions : List α} (established : inv state)
    (run : exec step state actions = some final) : actions.length ≤ measure state := by
  induction actions generalizing state with
  | nil => exact Nat.zero_le _
  | cons action rest ih =>
      obtain ⟨next, taken, remaining⟩ := Option.bind_eq_some_iff.mp run
      have shorter := ih (descends.kept _ _ _ established taken) remaining
      have smaller := descends.smaller _ _ _ established taken
      simp only [List.length_cons]
      omega

/-- Some run comes to a state without a step. -/
theorem Descends.ends (descends : Descends step inv measure) (established : inv state) :
    ∃ final, Reachable step state final ∧ ∀ action, step final action = none := by
  induction size : measure state using Nat.strongRecOn generalizing state with
  | ind size ih =>
      by_cases stuck : ∀ action, step state action = none
      · exact ⟨state, .refl, stuck⟩
      · obtain ⟨action, acts⟩ := not_forall.mp stuck
        obtain ⟨next, taken⟩ := Option.ne_none_iff_exists'.mp acts
        obtain ⟨final, reached, ended⟩ := ih _ (size ▸ descends.smaller _ _ _ established taken)
          (descends.kept _ _ _ established taken) rfl
        exact ⟨final, Reach.trans (.tail .refl trivial taken) reached, ended⟩

end Descends

variable (step) in
/-- Where something can always be done that makes `rank` smaller until the goal is there, the goal can be reached. -/
theorem exists_reach_of_rank (inv goal : σ -> Prop) (rank : σ -> Nat)
    (progress : ∀ state, inv state -> ¬ goal state ->
      ∃ next, Reachable step state next ∧ inv next ∧ rank next < rank state)
    {state : σ} (established : inv state) : ∃ final, Reachable step state final ∧ inv final ∧ goal final := by
  induction size : rank state using Nat.strongRecOn generalizing state with
  | ind size ih =>
      by_cases done : goal state
      · exact ⟨state, .refl, established, done⟩
      · obtain ⟨next, reached, holds, smaller⟩ := progress state established done
        obtain ⟨final, onward, kept, there⟩ := ih _ (size ▸ smaller) holds rfl
        exact ⟨final, reached.trans onward, kept, there⟩

/-- No run from `start` goes on for ever, and where one cannot go on it is `done`. -/
structure Terminates (step : σ -> α -> Option σ) (done : σ -> Prop) (start : σ) : Prop where
  bound : ∃ bound, ∀ actions final, exec step start actions = some final -> actions.length ≤ bound
  ended : ∀ state, Reachable step start state -> (∀ action, step state action = none) -> done state

theorem Descends.terminates {inv : σ -> Prop} {measure : σ -> Nat} {done : σ -> Prop}
    (descends : Descends step inv measure) (established : inv start)
    (stuck : ∀ state, inv state -> (∀ action, step state action = none) -> done state) :
    Terminates step done start where
  bound := ⟨measure start, fun _ _ run => descends.bound established run⟩
  ended state reached := stuck state
    (reached.invariant inv established fun _ _ _ holds _ taken => descends.kept _ _ _ holds taken)

/-- Where every state of an invariant has a step there are runs of every length. -/
theorem exists_run (inv : σ -> Prop)
    (kept : ∀ state action next, inv state -> step state action = some next -> inv next)
    (proceeds : ∀ state, inv state -> ∃ action, (step state action).isSome)
    (length : Nat) {state : σ} (established : inv state) :
    ∃ actions final, exec step state actions = some final ∧ actions.length = length := by
  induction length generalizing state with
  | zero => exact ⟨[], state, rfl, rfl⟩
  | succ length ih =>
      obtain ⟨action, acts⟩ := proceeds state established
      obtain ⟨next, taken⟩ := Option.isSome_iff_exists.mp acts
      obtain ⟨actions, final, run, size⟩ := ih (kept _ _ _ established taken)
      exact ⟨action :: actions, final, Option.bind_eq_some_iff.mpr ⟨next, taken, run⟩,
        by rw [List.length_cons, size]⟩

theorem not_terminates (inv : σ -> Prop) {done : σ -> Prop}
    (kept : ∀ state action next, inv state -> step state action = some next -> inv next)
    (proceeds : ∀ state, inv state -> ∃ action, (step state action).isSome) (established : inv start) :
    ¬ Terminates step done start := by
  rintro ⟨⟨bound, bounded⟩, -⟩
  obtain ⟨actions, final, run, size⟩ := exists_run inv kept proceeds (bound + 1) established
  have short := bounded actions final run
  omega

end Transition
