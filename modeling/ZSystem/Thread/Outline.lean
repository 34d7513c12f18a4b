import ZSystem.Thread.Locks

set_option autoImplicit false

/-!
# The proof outline

What a thread knows at each place of its code, whatever the other threads do in between. A number is
the business of the thread that creates it until `pthread_create`, and of the new thread from then on.
-/

namespace ZSystem.Thread

open Posix Transition

def Data.Stored (data : Data) (handle : Nat) : Prop :=
  ∃ record, data.record handle = some record ∧ record.handleStored = true

theorem Data.find_iff {data : Data} {handle : Nat} :
    data.find handle = true ↔ handle ∈ data.threadMap ∧ data.Stored handle := by
  simp only [Data.find, Data.Stored, Bool.and_eq_true, List.contains_iff_mem, beq_iff_eq,
    Option.map_eq_some_iff]

def Data.Awaited (data : Data) (handle : Nat) : Prop :=
  ∀ record, data.record handle = some record -> 0 < record.waitingThreads

structure Creating (data : Data) (thread : ThreadId) (new : Nat) (counted gated : Prop) : Prop where
  mine : data.creator new = some thread
  notStarted : new ∉ data.started
  counted : new ∈ data.counted ↔ counted
  gated : new ∈ data.gated ↔ gated

def Placed (thread : ThreadId) : PC -> Prop
  | .mainStart | .mainLock | .mainCond | .mainUnlock | .mainDestroy | .mainReturn => thread = .main
  | .startLock | .startUnlock | .startRun | .cleanupLockMap | .cleanupRemove | .cleanupUnlockMap
  | .cleanupLockRunning | .cleanupDecrement | .cleanupSignal | .cleanupUnlockRunning
  | .cleanupLockEntry | .cleanupTest | .cleanupBroadcast | .cleanupUnlockEntry | .cleanupDestroy
  | .finished => thread.isLibrary = true
  | .createLockRunning args | .createIncrement args | .createUnlockRunning args | .createInit args
  | .createLockGate args | .createLockMap args | .createInsert args | .createUnlockMap args
  | .createHandle args | .createStart args | .createReturn args => thread = .main -> args.abort = false
  | .executeLockMap _ | .executeFind _ | .executeUnlockGate _ | .executeUnlockMap _ _ => True
  | _ => thread ≠ .main

def Place (data : Data) (thread : ThreadId) : PC -> Prop
  | .createLockRunning args | .createIncrement args =>
      Creating data thread args.thread False False
  | .createUnlockRunning args | .createInit args => Creating data thread args.thread True False
  | .createLockGate args =>
      Creating data thread args.thread True False ∧ (data.record args.thread).isSome
  | .createLockMap args | .createInsert args =>
      Creating data thread args.thread True True ∧ (data.record args.thread).isSome ∧
        args.thread ∉ data.threadMap
  | .createUnlockMap args | .createHandle args =>
      Creating data thread args.thread True True ∧ (data.record args.thread).isSome
  | .createStart args => Creating data thread args.thread True True ∧ data.Stored args.thread
  | .createReturn args => args.thread ∈ data.started ∧ args.thread ∈ data.gated
  | .executeUnlockGate handle => handle ∈ data.gated
  | .waitLockEntry handle => handle ∈ data.threadMap
  | .waitIncrement handle => handle ∈ data.threadMap ∧ data.executed handle ≠ 0
  | .waitUnlockMap handle =>
      handle ∈ data.threadMap ∧ data.executed handle ≠ 0 ∧ data.Awaited handle
  | .waitCond handle | .waitUnlockEntry handle =>
      handle ∈ data.gated ∧ data.executed handle ≠ 0 ∧ data.Awaited handle
  | _ => True

def PC.removed : PC -> Bool
  | .cleanupUnlockMap | .cleanupLockRunning | .cleanupDecrement | .cleanupSignal
  | .cleanupUnlockRunning | .cleanupLockEntry | .cleanupTest | .cleanupBroadcast
  | .cleanupUnlockEntry | .cleanupDestroy | .finished => true
  | _ => false

def PC.uncounted : PC -> Bool
  | .cleanupSignal | .cleanupUnlockRunning | .cleanupLockEntry | .cleanupTest | .cleanupBroadcast
  | .cleanupUnlockEntry | .cleanupDestroy | .finished => true
  | _ => false

/-- What holds of a library thread's own number while it is at a place. -/
structure Own (data : Data) (own : Nat) (pc : PC) : Prop where
  started : own ∈ data.started
  gated : own ∈ data.gated
  removed : pc.removed = true -> own ∉ data.threadMap
  counted : own ∈ data.counted ↔ pc.uncounted = false
  stored : pc ≠ .finished -> data.Stored own
  executed : pc ≠ .startLock -> data.executed own ≠ 0

structure At (data : Data) (thread : ThreadId) (pc : PC) : Prop where
  placed : Placed thread pc
  place : Place data thread pc
  own : ∀ own, thread = .library own -> Own data own pc

/-- Why a thread is inside `pthread_cond_wait`, and where it goes on. -/
def Waits (data : Data) (thread : ThreadId) (cv mutex : Obj) (pc : PC) : Prop :=
  (thread = .main ∧ cv = .threadsRunningCv ∧ mutex = .threadsRunningMutex ∧ pc = .mainUnlock) ∨
  ∃ handle, cv = .waitingThreadsCv handle ∧ mutex = .waitingThreadsMutex handle ∧
    Place data thread (.waitUnlockEntry handle) ∧ (pc = .waitUnlockEntry handle ∨ pc = .cleanupLockMap)

def HoldsAt (data : Data) (thread : ThreadId) : Status Obj PC -> Prop
  | .absent => ∃ own, thread = .library own ∧ own ∉ data.started
  | .running pc => At data thread pc
  | .waiting cv mutex pc => At data thread pc ∧ Waits data thread cv mutex pc

structure DataValid (data : Data) : Prop where
  card : data.counted.card = data.threadsRunning
  nodup : data.threadMap.Nodup
  registered : ∀ handle ∈ data.threadMap, handle ∈ data.gated ∧ (data.record handle).isSome
  executed : ∀ handle, data.executed handle ≠ 0 -> handle ∈ data.gated
  unused : ∀ new, data.creator new = none ->
    new ∉ data.started ∧ new ∉ data.counted ∧ new ∉ data.gated

/-- Until `zs__thread_execute`, the creator of a thread owns its `waiting_threads_mutex`. -/
def Gated (data : Data) (owner : Obj -> Option ThreadId) : Prop :=
  ∀ handle ∈ data.gated, data.executed handle = 0 ->
    owner (.waitingThreadsMutex handle) = data.creator handle ∧ data.creator handle ≠ none

structure Valid (state : State) : Prop where
  map : Held program .threadMapMutex (fun _ pc => pc.holdsMap = true)
    (state.owner .threadMapMutex) state.status
  running : Held program .threadsRunningMutex (fun _ pc => pc.holdsRunning = true)
    (state.owner .threadsRunningMutex) state.status
  asleep : Asleep state.sleepers state.status
  data : DataValid state.data
  gated : Gated state.data state.owner
  outline : ∀ thread, HoldsAt state.data thread (state.status thread)

/-! ## Whose business a number is -/

/-- The thread is the creator of `number` and has not started it, or it is that thread. -/
def Data.Concerns (data : Data) (number : Nat) (thread : ThreadId) : Prop :=
  (data.creator number = some thread ∧ number ∉ data.started) ∨
    (thread = .library number ∧ number ∈ data.started)

theorem Data.Concerns.unique {data : Data} {number : Nat} {one two : ThreadId}
    (left : data.Concerns number one) (right : data.Concerns number two) : one = two := by
  rcases left with ⟨creator, new⟩ | ⟨rfl, started⟩ <;>
    rcases right with ⟨creator', new'⟩ | ⟨rfl, started'⟩
  · exact Option.some.inj (creator.symm.trans creator')
  · exact absurd started' new
  · exact absurd started new'
  · rfl

/-- What a step leaves as it was about a number that is not its business. -/
structure Frame (number : Nat) (data after : Data) : Prop where
  creator : data.creator number ≠ none -> after.creator number = data.creator number
  started : number ∈ after.started ↔ number ∈ data.started
  counted : number ∈ after.counted ↔ number ∈ data.counted
  gated : number ∈ after.gated ↔ number ∈ data.gated
  record : (data.record number).isSome -> (after.record number).isSome
  stored : data.Stored number -> after.Stored number
  threadMap : number ∈ after.threadMap -> number ∈ data.threadMap

structure Grows (data after : Data) : Prop where
  gated : data.gated ⊆ after.gated
  started : data.started ⊆ after.started
  executed : ∀ handle, data.executed handle ≠ 0 -> after.executed handle ≠ 0
  awaited : ∀ handle ∈ data.gated, data.Awaited handle -> after.Awaited handle

theorem Frame.refl (number : Nat) (data : Data) : Frame number data data :=
  ⟨fun _ => rfl, .rfl, .rfl, .rfl, id, id, id⟩

theorem Grows.refl (data : Data) : Grows data data :=
  ⟨fun _ => id, fun _ => id, fun _ => id, fun _ _ => id⟩

section Stable

variable {data after : Data} {thread : ThreadId} {pc : PC}

theorem Creating.stable {new : Nat} {counted gated : Prop}
    (creating : Creating data thread new counted gated) (frame : Frame new data after) :
    Creating after thread new counted gated :=
  ⟨(frame.creator (by simp [creating.mine])).trans creating.mine,
    fun started => creating.notStarted (frame.started.mp started),
    frame.counted.trans creating.counted, frame.gated.trans creating.gated⟩

theorem Creating.concerns {new : Nat} {counted gated : Prop}
    (creating : Creating data thread new counted gated) : data.Concerns new thread :=
  Or.inl ⟨creating.mine, creating.notStarted⟩

theorem Own.concerns {own : Nat} (mine : Own data own pc) : data.Concerns own (.library own) :=
  Or.inr ⟨rfl, mine.started⟩

theorem Own.stable {own : Nat} (mine : Own data own pc) (frame : Frame own data after)
    (grows : Grows data after) : Own after own pc :=
  ⟨grows.started mine.started, grows.gated mine.gated,
    fun removed member => mine.removed removed (frame.threadMap member),
    frame.counted.trans mine.counted, fun present => frame.stored (mine.stored present),
    fun opened => grows.executed own (mine.executed opened)⟩

theorem Place.stable (valid : DataValid data) (place : Place data thread pc)
    (frame : ∀ number, data.Concerns number thread -> Frame number data after)
    (grows : Grows data after)
    (threadMap : pc.holdsMap = true -> after.threadMap = data.threadMap) :
    Place after thread pc := by
  have awaited {handle : Nat} (member : handle ∈ data.threadMap) (was : data.Awaited handle) :=
    grows.awaited handle (valid.registered handle member).1 was
  cases pc <;> simp only [Place, PC.holdsMap, true_implies] at place threadMap ⊢
  case createLockRunning | createIncrement | createUnlockRunning | createInit =>
    exact place.stable (frame _ place.concerns)
  case createLockGate | createUnlockMap | createHandle =>
    have same := frame _ place.1.concerns
    exact ⟨place.1.stable same, same.record place.2⟩
  case createLockMap | createInsert =>
    have same := frame _ place.1.concerns
    exact ⟨place.1.stable same, same.record place.2.1, fun member => place.2.2 (same.threadMap member)⟩
  case createStart =>
    have same := frame _ place.1.concerns
    exact ⟨place.1.stable same, same.stored place.2⟩
  case createReturn => exact ⟨grows.started place.1, grows.gated place.2⟩
  case executeUnlockGate => exact grows.gated place
  case waitLockEntry => exact threadMap ▸ place
  case waitIncrement => exact threadMap ▸ ⟨place.1, grows.executed _ place.2⟩
  case waitUnlockMap =>
    exact threadMap ▸ ⟨place.1, grows.executed _ place.2.1, awaited place.1 place.2.2⟩
  case waitCond | waitUnlockEntry =>
    exact ⟨grows.gated place.1, grows.executed _ place.2.1, grows.awaited _ place.1 place.2.2⟩

end Stable

end ZSystem.Thread
