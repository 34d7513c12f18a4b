import ZSystem.Thread.Valid

set_option autoImplicit false

/-!
# The start gate

`zs__thread_create` leaves `waiting_threads_mutex` locked until `zs__thread_execute`, which has to take
the map first. A `zs__thread_wait` in between keeps the map for good.
-/

namespace ZSystem.Thread

open Posix Transition

def Closed (state : State) (handle : Nat) : Prop :=
  handle ∈ state.data.gated ∧ state.data.executed handle = 0 ∧
    state.owner (.waitingThreadsMutex handle) ≠ none

/-- A caller owns the map and is blocked on a mutex that is still locked from `zs__thread_create`. -/
def RegistryBlocked (state : State) : Prop :=
  ∃ thread pc handle place, state.owner .threadMapMutex = some thread ∧
    state.status thread = .running pc ∧
    code thread pc = .lock (.waitingThreadsMutex handle) place ∧ Closed state handle

/-- A `zs__thread_wait` finds its thread only after a `zs__thread_execute` of that thread. -/
def WaitsForExecuted (state : State) : Action -> Prop
  | .run thread _ => ∀ handle, state.status thread = .running (.waitFind handle) ->
      state.data.find handle = true -> state.data.executed handle ≠ 0
  | _ => True

structure Open (state : State) : Prop where
  valid : Valid state
  executed : ∀ thread handle, state.status thread = .running (.waitLockEntry handle) ->
    state.data.executed handle ≠ 0

theorem Open.not_blocked {state : State} (opened : Open state) : ¬ RegistryBlocked state := by
  rintro ⟨thread, pc, handle, place, owner, here, instr, -, closed, -⟩
  have holds := (opened.valid.map.owns here).mp owner
  have wait : pc = .waitLockEntry handle := by
    cases pc <;> cases thread <;> simp [code, goTo, branch, lookUp, withRecord, inExecute] at instr <;>
      simp [PC.holdsMap] at holds
    all_goals exact instr.1 ▸ rfl
  exact opened.executed thread handle (wait ▸ here) closed

theorem Open.preserved {state next : State} {action : Action} (opened : Open state)
    (executed : WaitsForExecuted state action) (taken : step state action = some next) : Open next := by
  refine ⟨opened.valid.preserved taken, fun thread handle there => ?_⟩
  have grows := opened.valid.grows taken
  obtain same | ⟨pick, pc, rfl, here, -, -, rfl, found⟩ := opened.valid.arrives taken rfl there
  · exact grows.executed handle (opened.executed thread handle same)
  · exact grows.executed handle (executed handle here found)

theorem Open.blocks {state next : State} {action : Action} (opened : Open state)
    (unexecuted : ¬ WaitsForExecuted state action) (taken : step state action = some next) :
    RegistryBlocked next := by
  cases action with
  | run thread pick =>
      simp only [WaitsForExecuted, not_forall, not_not] at unexecuted
      obtain ⟨handle, here, found, closed⟩ := unexecuted
      have stepped : next = state.goto thread (.waitLockEntry handle) := by
        simp [step, Program.step, here, program, Program.perform, code, lookUp, Data.defined, found, note] at taken
        exact taken.symm
      subst stepped
      have member : handle ∈ state.data.gated :=
        (opened.valid.data.registered handle (Data.find_iff.mp found).1).1
      obtain ⟨owner, known⟩ := opened.valid.gated handle member closed
      exact ⟨thread, .waitLockEntry handle, handle, _, (opened.valid.map.owns here).mpr rfl,
        by simp [State.goto], rfl, member, closed, fun free => known (owner.symm.trans free)⟩
  | _ => exact absurd trivial unexecuted

/--
The registry is never blocked in a run if and only if every `zs__thread_wait` of the run finds its
thread after a `zs__thread_execute` of it.
-/
theorem never_blocked_iff_waitsForExecuted (actions : List Action)
    (run : (exec step initial actions).isSome) :
    Throughout step (fun state => ¬ RegistryBlocked state) initial actions ↔
      Along step WaitsForExecuted initial actions :=
  throughout_iff_along Open (fun _ => Open.not_blocked)
    (fun _ _ _ opened executed taken => opened.preserved executed taken)
    (fun _ _ _ opened unexecuted taken good => good (opened.blocks unexecuted taken))
    ⟨initial_valid, fun thread handle there => by cases thread <;> simp [initial] at there⟩ run

def waitBeforeExecute : List Action :=
  launch ++ create (.library 0) { thread := 1, run := true, abort := false } ++
    [.call (.library 0) (.waitLockMap 1)] ++ runs (.library 0) 2

theorem never_blocked_iff_waitsForExecuted_waitBeforeExecute :
    Throughout step (fun state => ¬ RegistryBlocked state) initial waitBeforeExecute ↔
      Along step WaitsForExecuted initial waitBeforeExecute :=
  never_blocked_iff_waitsForExecuted waitBeforeExecute (by decide)

/-- Thread 0 then owns the map for good: whoever could unlock the mutex has to lock the map first. -/
theorem never_blocked_fails_waitBeforeExecute :
    ∃ final, exec step initial waitBeforeExecute = some final ∧ RegistryBlocked final := by
  have reached : (exec step initial waitBeforeExecute).map (fun final =>
      (final.owner .threadMapMutex, final.status (.library 0), final.owner (.waitingThreadsMutex 1),
        decide (1 ∈ final.data.gated), final.data.executed 1)) =
      some (some (.library 0), .running (.waitLockEntry 1), some (.library 0), true, 0) := by decide
  obtain ⟨final, run, parts⟩ := Option.map_eq_some_iff.mp reached
  simp only [Prod.mk.injEq, decide_eq_true_eq] at parts
  obtain ⟨map, here, entry, gated, executed⟩ := parts
  exact ⟨final, run, _, _, 1, _, map, here, rfl, gated, executed, by simp [entry]⟩

end ZSystem.Thread
