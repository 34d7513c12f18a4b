import ZSystem.Shared.Turns
import ZSystem.Thread.Enqueue

set_option autoImplicit false

/-!
# Turns

What is left to do from a place, and what can keep a thread from its next step.
-/

namespace ZSystem.Thread

open Posix Transition

/-! ## How much is left to do -/

/-- The most turns that a thread takes from a place, those of a thread that it starts included. -/
def PC.weight : PC -> Nat
  | .caller | .finished | .mainStart | .mainReturn => 0
  | .mainDestroy => 1
  | .mainUnlock => 2
  | .mainCond => 4
  | .mainLock => 5
  | .executeUnlockMap _ _ => 6
  | .executeUnlockGate _ => 7
  | .executeFind _ => 8
  | .executeLockMap _ => 9
  | .abortUnlockMap _ => 1
  | .abortCallback _ | .abortCancel _ => 2
  | .abortFind _ => 3
  | .abortLockMap _ => 4
  | .waitUnlockEntry _ | .waitMissing _ => 1
  | .waitCond _ => 3
  | .waitUnlockMap _ => 4
  | .waitIncrement _ => 5
  | .waitLockEntry _ => 6
  | .waitFind _ => 7
  | .waitLockMap _ => 8
  | .availableUnlockMap _ _ => 1
  | .availableFind _ => 2
  | .availableLockMap _ => 3
  | .cleanupDestroy => 1
  | .cleanupUnlockEntry => 2
  | .cleanupBroadcast => 3
  | .cleanupTest => 4
  | .cleanupLockEntry => 5
  | .cleanupUnlockRunning => 6
  | .cleanupSignal => 7
  | .cleanupDecrement => 8
  | .cleanupLockRunning => 9
  | .cleanupUnlockMap => 10
  | .cleanupRemove => 11
  | .cleanupLockMap => 12
  | .startRun => 13
  | .startUnlock => 14
  | .startLock => 15
  | .createReturn _ => 10
  | .createStart _ => 26
  | .createHandle _ => 27
  | .createUnlockMap _ => 28
  | .createInsert _ => 29
  | .createLockMap _ => 30
  | .createLockGate _ => 31
  | .createInit _ => 32
  | .createUnlockRunning _ => 33
  | .createIncrement _ => 34
  | .createLockRunning _ => 35

theorem result_shorter {thread : ThreadId} {pc : PC} {pick : Nat} {data after : Data} {status : Status Obj PC}
    (result : (program.code thread pc).result pick data = some (after, status)) :
    status.weight PC.weight + (program.code thread pc).spawns (fun _ pc => pc.weight) < pc.weight := by
  cases pc <;> cases thread <;>
    simp only [program, code, Instr.result, goTo, branch, lookUp, withRecord, inExecute, afterCreate, afterExecute,
      Option.map_some, Option.some.injEq, Prod.mk.injEq, reduceCtorEq] at result
  case cleanupRemove.library =>
    obtain ⟨_, ⟨_, -, rfl⟩, -, rfl⟩ := by simpa [Option.map_map, Option.map_eq_some_iff] using result
    simp [Status.weight, program, code, withRecord, Instr.spawns, PC.weight]
  all_goals
    obtain ⟨-, rfl⟩ := result
    simp only [Status.weight, program, code, Instr.spawns, goTo, branch, lookUp, withRecord, inExecute]
    try split_ifs
    all_goals simp [PC.weight]

theorem shortens : Shortens program (fun _ pc => pc.weight) fun _ _ => 0 := by
  intro state thread pick pc after _ performed
  obtain ⟨-, data, status, result, -, -, statuses, -⟩ := perform_parts performed
  have shorter := result_shorter result
  simpa [statuses] using shorter

/-! ## What a thread that cannot go on waits for -/

/-- The places at which a thread runs code of its own, or none any more. -/
def PC.rests : PC -> Bool
  | .caller | .finished | .mainStart | .mainReturn => true
  | _ => false

section

variable {state : State} {thread : ThreadId} {pc : PC}

theorem outcome_some {data : Data} (placed : Placed thread pc) (active : pc.rests = false)
    (defined : data.reachesFreed thread pc = false) :
    ∃ after status, program.outcome thread 0 pc data = some (after, status) := by
  cases pc <;> cases thread <;> simp only [Placed, ThreadId.isLibrary, PC.rests, reduceCtorEq] at placed active
  case cleanupRemove.library own =>
    obtain ⟨result, removed⟩ := removable defined
    simp [Program.outcome, program, code, withRecord, Instr.result, removed]
  all_goals
    simp [Program.outcome, program, code, Instr.result, goTo, branch, lookUp, withRecord, inExecute]

theorem Valid.enabled (valid : Valid state) (here : state.status thread = .running pc)
    (free : ∀ mutex place, code thread pc = .lock mutex place -> state.owner mutex = none)
    (defined : state.data.reachesFreed thread pc = false) :
    (code thread pc).Enabled state := by
  cases instr : code thread pc with
  | lock mutex place => exact free mutex place instr
  | look test place =>
      cases pc <;> cases thread <;> simp [code, goTo, branch, lookUp, withRecord, inExecute] at instr
      all_goals
        obtain ⟨rfl, -⟩ := instr
        simpa [Instr.Enabled, Data.reachesFreed] using defined
  | acquire sem place =>
      cases pc <;> cases thread <;> simp [code, goTo, branch, lookUp, withRecord, inExecute] at instr
  | start child first place =>
      obtain ⟨args, rfl, rfl, rfl⟩ := code_start instr
      have new := (valid.at here).place.1.notStarted
      have outline := valid.outline (.library args.thread)
      change state.status (.library args.thread) = .absent
      cases there : state.status (.library args.thread) with
      | absent => rfl
      | running pc =>
          rw [there] at outline
          exact absurd (outline.own _ rfl).started new
      | waiting cv mutex pc =>
          rw [there] at outline
          exact absurd (outline.1.own _ rfl).started new
  | _ => trivial

/-- What a place that locks a mutex locks. -/
def Wants (thread : ThreadId) (pc : PC) : Obj -> Prop
  | .threadMapMutex => pc.holdsMap = false
  | .threadsRunningMutex => pc.holdsMap = false
  | .waitingThreadsMutex handle => (∃ args, pc = .createLockGate args ∧ args.thread = handle) ∨
      pc = .waitLockEntry handle ∨ (pc = .startLock ∨ pc = .cleanupLockEntry) ∧ thread = .library handle
  | _ => False

theorem code_lock {mutex : Obj} {place : PC} (instr : code thread pc = .lock mutex place) :
    Wants thread pc mutex ∧ pc.holdsRunning = false ∧ ∀ handle, ¬ HoldsEntry handle thread pc := by
  cases pc <;> cases thread <;> simp [code, goTo, branch, lookUp, withRecord, inExecute] at instr
  all_goals
    obtain ⟨rfl, -⟩ := instr
    simp [Wants, PC.holdsMap, PC.holdsRunning, HoldsEntry]

end

end ZSystem.Thread
