import ZSystem.Thread.Cancel
import ZSystem.Thread.Gate

set_option autoImplicit false

/-!
# Calls come to an end

What becomes of the threads when none of them makes a new call: every call that has begun returns, ends its
thread or goes to sleep, whatever the interleaving.
-/

namespace ZSystem.Thread

open Posix Transition

/-! ## Where the threads stop -/

/-- The thread is not inside a call, or it sleeps, or it is new and waits for `zs__thread_execute`. -/
def Rests (state : State) (thread : ThreadId) : Prop :=
  match state.status thread with
  | .absent => True
  | .running pc => pc.rests = true ∨
      pc = .startLock ∧ ∃ own, thread = .library own ∧ state.data.executed own = 0
  | .waiting cv _ _ => thread ∈ state.sleepers cv

/-- Somebody is about to come to an entry that has been freed; nothing is defined from there on. -/
def ReachesFreed (state : State) : Prop :=
  ∃ thread pc, state.status thread = .running pc ∧ state.data.reachesFreed thread pc = true

structure Going (state : State) : Prop where
  owned : Owned state
  -- The mutex of a thread that is still to be made.
  fresh : ∀ handle, handle ∉ state.data.gated -> state.owner (.waitingThreadsMutex handle) = none
  finite : state.Finite fun _ pc => pc.weight

section

variable {state next : State} {action : Action} {handle : Nat} {thread : ThreadId} {pc : PC}

theorem HoldsEntry.gated (valid : Valid state) (holds : HoldsEntry handle thread pc)
    (here : state.status thread = .running pc) : handle ∈ state.data.gated := by
  have known := valid.at here
  cases pc <;> simp only [HoldsEntry] at holds <;> subst holds
  case waitIncrement | waitUnlockMap => exact (valid.data.registered _ known.place.1).1
  case waitCond | waitUnlockEntry => exact known.place.1
  all_goals exact (known.own _ rfl).gated

theorem Going.preserved (going : Going state) (uncancelled : WaitsUncancelled state action)
    (taken : step state action = some next) : Going next := by
  have owned := going.owned.preserved uncancelled taken
  refine ⟨owned, fun handle unused => ?_, going.finite.step taken⟩
  by_contra known
  obtain ⟨thread, owner⟩ := Option.ne_none_iff_exists'.mp known
  obtain before | ⟨pick, place, rfl, there, ⟨pc, here, instr⟩ | ⟨cv, here⟩⟩ := owner_taken taken owner
  · have new : handle ∉ state.data.gated := fun old => unused ((going.owned.valid.grows taken).gated old)
    simp [going.fresh handle new] at before
  · obtain ⟨args, rfl, rfl⟩ | holds := code_lock_entry instr
    · obtain ⟨-, ran, -⟩ := run_parts here taken
      simp only [Program.outcome, program, code, Instr.result, Option.map_some, Option.some.injEq,
        Prod.mk.injEq] at ran
      exact unused (ran.1 ▸ Finset.mem_insert_self _ _)
    · exact unused (holds.gated owned.valid there)
  · obtain ⟨-, -, wrong, -⟩ | ⟨other, -, same, placed, -⟩ := (going.owned.valid.waits here).2
    · cases wrong
    · cases same
      exact unused ((going.owned.valid.grows taken).gated placed.1)

theorem initial_going : Going initial where
  owned := initial_owned
  fresh _ _ := rfl
  finite := by
    have nothing : weights (fun _ pc => PC.weight pc) initial.status = 0 := by
      funext thread
      cases thread <;> rfl
    rw [Posix.State.Finite, nothing, Function.support_zero]
    exact Set.finite_empty

/-! ## What a thread that cannot go on waits for -/

section Stuck

variable (going : Going state) (stuck : ∀ turn, program.turn state turn = none) (defined : ¬ ReachesFreed state)

include going stuck defined

theorem Going.locked (here : state.status thread = .running pc) (active : pc.rests = false) :
    ∃ mutex place owner, code thread pc = .lock mutex place ∧ state.owner mutex = some owner := by
  by_contra unlocked
  have known : state.data.reachesFreed thread pc = false := by
    by_contra freed
    exact defined ⟨thread, pc, here, by simpa using freed⟩
  have enabled := going.owned.valid.enabled here (fun mutex place instr => by
    by_contra known
    obtain ⟨owner, owns⟩ := Option.ne_none_iff_exists'.mp known
    exact unlocked ⟨mutex, place, owner, instr, owns⟩) known
  obtain ⟨after, status, ran⟩ := outcome_some (going.owned.valid.at here).placed active known
  obtain ⟨next, taken, -⟩ := goes_on here ran enabled
  exact absurd taken (by simp [show step state (.run thread 0) = none from stuck (thread, 0)])

theorem Going.running_free : state.owner .threadsRunningMutex = none := by
  by_contra known
  obtain ⟨owner, owns⟩ := Option.ne_none_iff_exists'.mp known
  obtain ⟨pc, here, holds⟩ := (going.owned.valid.running.owner owner).mp owns
  have active : pc.rests = false := by cases pc <;> first | rfl | simp [PC.holdsRunning] at holds
  obtain ⟨mutex, place, _, instr, -⟩ := going.locked stuck defined here active
  simp [(code_lock instr).2.1] at holds

theorem Going.entry_free (executed : state.data.executed handle ≠ 0) :
    state.owner (.waitingThreadsMutex handle) = none := by
  by_contra known
  obtain ⟨owner, owns⟩ := Option.ne_none_iff_exists'.mp known
  obtain ⟨closed, -⟩ | ⟨pc, here, holds⟩ := going.owned.owns handle owner owns
  · exact executed closed
  · have active : pc.rests = false := by cases pc <;> first | rfl | exact holds.elim
    obtain ⟨mutex, place, _, instr, -⟩ := going.locked stuck defined here active
    exact (code_lock instr).2.2 handle holds

/-- The mutex is one that `zs__thread_create` has locked and `zs__thread_execute` has not unlocked. -/
theorem Going.closed (known : state.owner (.waitingThreadsMutex handle) ≠ none) : Closed state handle := by
  refine ⟨by_contra fun new => known (going.fresh handle new), ?_, known⟩
  by_contra executed
  exact known (going.entry_free stuck defined executed)

theorem Going.map_free (unblocked : ¬ RegistryBlocked state) : state.owner .threadMapMutex = none := by
  by_contra known
  obtain ⟨owner, owns⟩ := Option.ne_none_iff_exists'.mp known
  obtain ⟨pc, here, holds⟩ := (going.owned.valid.map.owner owner).mp owns
  have active : pc.rests = false := by cases pc <;> first | rfl | simp [PC.holdsMap] at holds
  obtain ⟨mutex, place, other, instr, taken⟩ := going.locked stuck defined here active
  have locks := (code_lock instr).1
  cases mutex with
  | threadMapMutex | threadsRunningMutex => simp [show pc.holdsMap = false from locks] at holds
  | waitingThreadsMutex handle =>
      exact unblocked ⟨owner, pc, handle, place, owns, here, instr,
        going.closed stuck defined (by simp [taken])⟩
  | threadsRunningCv | waitingThreadsCv => exact locks

theorem Going.rests (unblocked : ¬ RegistryBlocked state) (thread : ThreadId) : Rests state thread := by
  unfold Rests
  cases here : state.status thread with
  | absent => trivial
  | running pc =>
      refine or_iff_not_imp_left.mpr fun active => ?_
      obtain ⟨mutex, place, other, instr, taken⟩ := going.locked stuck defined here (by simpa using active)
      have locks := (code_lock instr).1
      have known := going.owned.valid.at here
      cases mutex with
      | threadMapMutex => simp [going.map_free stuck defined unblocked] at taken
      | threadsRunningMutex => simp [going.running_free stuck defined] at taken
      | waitingThreadsMutex handle =>
          have closed := going.closed stuck defined (by simp [taken] : state.owner (.waitingThreadsMutex handle) ≠ none)
          obtain ⟨args, rfl, rfl⟩ | rfl | ⟨rfl | rfl, rfl⟩ := locks
          · exact absurd closed.1 (by simpa using known.place.1.gated)
          · have owner := (going.owned.valid.map.owns here).mpr rfl
            exact absurd ⟨thread, _, handle, place, owner, here, instr, closed⟩ unblocked
          · exact ⟨rfl, handle, rfl, closed.2.1⟩
          · exact absurd closed.2.1 ((known.own handle rfl).executed PC.noConfusion)
      | threadsRunningCv | waitingThreadsCv => exact locks.elim
  | waiting cv mutex pc =>
      by_contra awake
      have free : state.owner mutex = none := by
        obtain ⟨-, -, rfl, -⟩ | ⟨handle, -, rfl, placed, -⟩ := (going.owned.valid.waits here).2
        · exact going.running_free stuck defined
        · exact going.entry_free stuck defined placed.2.1
      have none := stuck (thread, 0)
      simp [Program.turn, Program.step, here, awake, free] at none

end Stuck

/-- A place with the map locked is not one of rest. -/
theorem Going.busy (going : Going state) (wrong : RegistryBlocked state ∨ ReachesFreed state) :
    ¬ ∀ thread, Rests state thread := by
  intro rests
  obtain ⟨thread, pc, here, holds⟩ : ∃ thread pc, state.status thread = .running pc ∧ pc.holdsMap = true := by
    obtain ⟨thread, pc, handle, place, owner, here, instr, -⟩ | ⟨thread, pc, here, walks⟩ := wrong
    · exact ⟨thread, pc, here, (going.owned.valid.map.owns here).mp owner⟩
    · refine ⟨thread, pc, here, ?_⟩
      cases pc <;> simp only [Data.reachesFreed, Bool.false_eq_true] at walks <;> rfl
  have rest := rests thread
  simp only [Rests, here] at rest
  obtain rest | ⟨rfl, -⟩ := rest
  · cases pc <;> simp [PC.rests, PC.holdsMap] at rest holds
  · simp [PC.holdsMap] at holds

/--
When no thread makes a new call, the threads stop after finitely many turns, in whatever order they take
them. Then all are at rest, except where the registry is blocked or somebody comes to an entry that has been
freed and is still linked.
-/
theorem calls_end (reached : Reach step WaitsUncancelled initial state) :
    Terminates program.turn
      (fun final => (∀ thread, Rests final thread) ↔ ¬ (RegistryBlocked final ∨ ReachesFreed final)) state := by
  have going : Going state := reached.invariant Going initial_going fun _ _ _ going uncancelled taken =>
    going.preserved uncancelled taken
  have kept (state : State) (turn : ThreadId × Nat) (next : State) (going : Going state)
      (taken : program.turn state turn = some next) : Going next :=
    going.preserved (show WaitsUncancelled state (.run turn.1 turn.2) from trivial) taken
  refine shortens.terminates Going going.finite going kept fun final going stuck => ?_
  refine ⟨fun rests wrong => going.busy wrong rests, fun fine thread => ?_⟩
  obtain ⟨unblocked, defined⟩ := not_or.mp fine
  exact going.rests stuck defined unblocked thread

end

/-- Thread 0 waits for thread 1, which somebody is about to abort. -/
def abortAwaited : List Action :=
  launchTwo ++ wait (.library 0) 1 ++ [.call (.outside 0) (.abortLockMap 1)]

theorem calls_end_abortAwaited : ∃ state, exec step initial abortAwaited = some state ∧
    Terminates program.turn
      (fun final => (∀ thread, Rests final thread) ↔ ¬ (RegistryBlocked final ∨ ReachesFreed final)) state := by
  obtain ⟨state, run⟩ := Option.isSome_iff_exists.mp (by decide : (exec step initial abortAwaited).isSome)
  exact ⟨state, run, calls_end (reach_of_along run (by decide))⟩

end ZSystem.Thread
