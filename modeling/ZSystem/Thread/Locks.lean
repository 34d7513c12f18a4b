import ZSystem.Thread.Program

set_option autoImplicit false

/-!
# The two global mutexes

Which places own `thread_map_mutex` and `threads_running_mutex`, for every interleaving.
-/

namespace ZSystem.Thread

open Posix Transition

def PC.holdsMap : PC -> Bool
  | .createInsert _ | .createUnlockMap _ | .executeFind _ | .executeUnlockGate _
  | .executeUnlockMap _ _ | .abortFind _ | .abortCallback _ | .abortCancel _ | .abortUnlockMap _
  | .waitFind _ | .waitLockEntry _ | .waitIncrement _ | .waitUnlockMap _ | .waitMissing _
  | .availableFind _ | .availableUnlockMap _ _ | .cleanupRemove | .cleanupUnlockMap => true
  | _ => false

def PC.holdsRunning : PC -> Bool
  | .createIncrement _ | .createUnlockRunning _ | .cleanupDecrement | .cleanupSignal
  | .cleanupUnlockRunning | .mainCond | .mainUnlock => true
  | _ => false

section Respects

variable {mutex : Obj} {holds : ThreadId -> PC -> Prop} {thread : ThreadId} {pc : PC}

@[simp] theorem respects_withRecord {body : Nat -> Code} :
    Respects mutex holds thread pc (withRecord thread body) ↔
      ∀ own, thread = .library own -> Respects mutex holds thread pc (body own) := by
  cases thread <;> simp [withRecord]

@[simp] theorem respects_inExecute {instr : Code} :
    Respects mutex holds thread pc (inExecute thread instr) ↔
      (thread = .main -> Respects mutex holds thread pc instr) := by
  cases thread <;> simp [inExecute]

@[simp] theorem respects_act {change : Data -> Data} {next : Data -> PC} :
    Respects mutex holds thread pc (.act fun _ data => some (change data, next data) : Code) ↔
      ∀ data, (holds thread (next data) ↔ holds thread pc) := by
  constructor
  · intro each data
    exact each 0 data _ _ rfl
  · rintro each pick data result place ⟨⟩
    exact each data

@[simp] theorem respects_goTo {next : PC} {change : Data -> Data} :
    Respects mutex holds thread pc (goTo next change) ↔ (holds thread next ↔ holds thread pc) := by
  rw [goTo, respects_act]
  exact ⟨fun each => each {}, fun same _ => same⟩

theorem respects_attempt {next : PC} {change : Data -> Option Data}
    (same : holds thread next ↔ holds thread pc) :
    Respects mutex holds thread pc
      (.act fun _ data => (change data).map fun result => (result, next) : Code) := by
  intro pick data result place effective
  simp only [Option.map_eq_some_iff, Prod.mk.injEq] at effective
  obtain ⟨_, -, -, rfl⟩ := effective
  exact same

@[simp] theorem respects_branch {next : Data -> PC} :
    Respects mutex holds thread pc (branch next) ↔
      ∀ data, (holds thread (next data) ↔ holds thread pc) :=
  respects_act

@[simp] theorem respects_lookUp {handle : Nat} {next : Data -> PC} :
    Respects mutex holds thread pc (lookUp handle next) ↔
      ∀ data, (holds thread (next data) ↔ holds thread pc) :=
  respects_look

end Respects

theorem calls_cases {thread : ThreadId} {pc place : PC} {data result : Data}
    (chosen : calls thread pc place data = some result) :
    (∃ args, place = .createLockRunning args ∧ data.creator args.thread = none ∧
      result = { data with creator := Function.update data.creator args.thread (some thread) } ∧
        (pc = .caller ∨ pc = .mainStart ∧ args.abort = false)) ∨
    (pc = .caller ∧ result = data ∧
      ((∃ handle, place = .executeLockMap handle ∨ place = .abortLockMap handle ∨
          place = .waitLockMap handle ∨ place = .availableLockMap handle) ∨
        place = .cleanupLockMap ∧ thread.isLibrary)) := by
  unfold calls at chosen
  split at chosen <;> simp_all [issue]

def PC.entrance : PC -> Bool
  | .caller | .mainStart | .cleanupLockMap | .createLockRunning _ | .executeLockMap _
  | .abortLockMap _ | .waitLockMap _ | .availableLockMap _ => true
  | _ => false

theorem guards_of_instr {mutex : Obj} {holds irregular : ThreadId -> PC -> Prop}
    {handler : ThreadId -> Option PC}
    (handles : ∀ thread place, handler thread = some place -> place = .cleanupLockMap)
    (instr : ∀ thread pc, ¬ irregular thread pc -> Respects mutex holds thread pc (code thread pc))
    (entrance : ∀ thread pc, pc.entrance = true -> ¬ holds thread pc)
    (waiter : ∀ thread pc cv next, code thread pc = .wait cv mutex next ->
      handler thread = none) :
    Guards { program with handler := handler } mutex holds irregular where
  instr := instr
  call thread pc place data result chosen := by
    have away : ¬ holds thread place ∧ ¬ holds thread pc := by
      obtain ⟨args, rfl, -, -, rfl | ⟨rfl, -⟩⟩ |
        ⟨rfl, -, ⟨handle, rfl | rfl | rfl | rfl⟩ | ⟨rfl, -⟩⟩ := calls_cases chosen <;>
          exact ⟨entrance thread _ rfl, entrance thread _ rfl⟩
    simp [away]
  handler thread place handled := entrance thread place (handles thread place handled ▸ rfl)
  interruptible thread pc point := by
    obtain rfl : pc = .caller := by simpa [program] using point
    exact entrance thread _ rfl
  waiter := waiter

theorem handler_place {thread : ThreadId} {place : PC} (handled : program.handler thread = some place) :
    place = .cleanupLockMap ∧ thread.isLibrary = true := by
  simp only [program, Option.ite_none_right_eq_some, Option.some.injEq] at handled
  exact ⟨handled.2.symm, handled.1⟩

theorem map_guards :
    Guards program .threadMapMutex (fun _ pc => pc.holdsMap = true) (fun _ _ => False) := by
  refine guards_of_instr (fun _ _ handled => (handler_place handled).1) (fun thread pc _ => ?_)
    (fun thread pc => ?_) (fun thread pc cv next instr => ?_)
  · cases pc <;> simp [code, PC.holdsMap]
    case createReturn => cases thread <;> simp [afterCreate]
    case executeUnlockMap => cases thread <;> simp [afterExecute]
    case cleanupRemove => exact fun _ _ => respects_attempt (by simp)
    all_goals
      intros
      split_ifs <;> simp
  · cases pc <;> simp [PC.holdsMap, PC.entrance]
  · cases pc <;> simp [code, goTo, branch, lookUp, withRecord, inExecute] at instr
    all_goals cases thread <;> simp at instr

theorem running_guards :
    Guards program .threadsRunningMutex (fun _ pc => pc.holdsRunning = true) (fun _ _ => False) := by
  refine guards_of_instr (fun _ _ handled => (handler_place handled).1) (fun thread pc _ => ?_)
    (fun thread pc => ?_) (fun thread pc cv next instr => ?_)
  · cases pc <;> simp [code, PC.holdsRunning]
    case createReturn => cases thread <;> simp [afterCreate]
    case executeUnlockMap => cases thread <;> simp [afterExecute]
    case cleanupRemove => exact fun _ _ => respects_attempt (by simp)
    all_goals
      intros
      split_ifs <;> simp
  · cases pc <;> simp [PC.holdsRunning, PC.entrance]
  · cases pc <;> simp [code, goTo, branch, lookUp, withRecord, inExecute] at instr
    all_goals cases thread <;> simp [ThreadId.isLibrary] at instr ⊢

end ZSystem.Thread
