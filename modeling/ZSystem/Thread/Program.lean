import Mathlib.Data.Finset.Card
import ZSystem.Shared.Posix

set_option autoImplicit false

/-!
# Threads

`zs__execute` and the functions on threads as one program. The registry is the list of the threads in
`zs__thread_map`, in the order of the chain; how that list lies in memory is the subject of
`ZSystem.Thread.Registry`. An entry can be freed and stay in the chain. Nothing is defined for a walk that
comes to it, so a thread has no step there; until then every step is as in the source.
-/

namespace ZSystem.Thread

open Posix

inductive ThreadId where
  | main
  /-- A thread made by `zs__thread_create`; the number also names its handle and its record. -/
  | library (thread : Nat)
  | outside (number : Nat)
  deriving DecidableEq, Repr

def ThreadId.isLibrary : ThreadId -> Bool
  | .library _ => true
  | _ => false

inductive Obj where
  | threadsRunningMutex
  | threadsRunningCv
  | threadMapMutex
  | waitingThreadsMutex (thread : Nat)
  | waitingThreadsCv (thread : Nat)
  deriving DecidableEq, Repr

/-- The arguments of `zs__thread_create`, with the thread that the call is going to make. -/
structure Create where
  thread : Nat
  -- `a_run` is not null.
  run : Bool
  -- `a_abort` is not null.
  abort : Bool
  deriving DecidableEq, Repr

/-- `struct zs__thread`; `handleStored` says that `pthread_create` has written `thread_handle`. -/
structure Record where
  run : Bool
  abort : Bool
  waitingThreads : Nat
  handleStored : Bool
  deriving DecidableEq, Repr

/-- A place names the next thing to do; the prefix is the function it belongs to. -/
inductive PC where
  | caller
  | createLockRunning (args : Create)
  | createIncrement (args : Create)
  | createUnlockRunning (args : Create)
  | createInit (args : Create)
  | createLockGate (args : Create)
  | createLockMap (args : Create)
  | createInsert (args : Create)
  | createUnlockMap (args : Create)
  | createHandle (args : Create)
  | createStart (args : Create)
  | createReturn (args : Create)
  | executeLockMap (handle : Nat)
  | executeFind (handle : Nat)
  | executeUnlockGate (handle : Nat)
  | executeUnlockMap (handle : Nat) (back : Bool)
  | abortLockMap (handle : Nat)
  | abortFind (handle : Nat)
  | abortCallback (handle : Nat)
  | abortCancel (handle : Nat)
  | abortUnlockMap (handle : Nat)
  | waitLockMap (handle : Nat)
  | waitFind (handle : Nat)
  | waitLockEntry (handle : Nat)
  | waitIncrement (handle : Nat)
  | waitUnlockMap (handle : Nat)
  | waitCond (handle : Nat)
  | waitUnlockEntry (handle : Nat)
  | waitMissing (handle : Nat)
  | availableLockMap (handle : Nat)
  | availableFind (handle : Nat)
  | availableUnlockMap (handle : Nat) (back : Bool)
  | startLock
  | startUnlock
  | startRun
  | cleanupLockMap
  | cleanupRemove
  | cleanupUnlockMap
  | cleanupLockRunning
  | cleanupDecrement
  | cleanupSignal
  | cleanupUnlockRunning
  | cleanupLockEntry
  | cleanupTest
  | cleanupBroadcast
  | cleanupUnlockEntry
  | cleanupDestroy
  | finished
  | mainStart
  | mainLock
  | mainCond
  | mainUnlock
  | mainDestroy
  | mainReturn
  deriving DecidableEq, Repr

structure Data where
  threadsRunning : Nat := 0
  -- The entries of the chain, up to the first one that has been freed.
  threadMap : List Nat := []
  -- Behind the entries of `threadMap` the chain goes on with an entry that has been freed.
  dangling : Bool := false
  -- `none` for a record that is not allocated.
  record : Nat -> Option Record := fun _ => none
  -- History: whose call of `zs__thread_create` makes a thread; `none` for a number not in use.
  creator : Nat -> Option ThreadId := fun _ => none
  -- History: the threads counted by `++threads_running` and not yet by `--threads_running`.
  counted : Finset Nat := ∅
  -- History: the threads whose `waiting_threads_mutex` has been locked by `zs__thread_create`.
  gated : Finset Nat := ∅
  -- History: the threads that `pthread_create` has started.
  started : Finset Nat := ∅
  -- History: how often `zs__thread_execute` has unlocked the `waiting_threads_mutex` of a thread.
  executed : Nat -> Nat := fun _ => 0

/--
`zs__thread_map_find`: an entry matches once the handle of its thread is stored. What is in a record that
`malloc` has just given is taken to be no thread's handle.
-/
def Data.find (data : Data) (handle : Nat) : Bool :=
  data.threadMap.contains handle && ((data.record handle).map Record.handleStored == some true)

/-- The walk of `zs__thread_map_find` ends before it comes to an entry that has been freed. -/
def Data.defined (data : Data) (handle : Nat) : Bool := data.find handle || !data.dangling

/--
`zs__thread_map_remove`, with whether the entry that it frees stays in the chain. Its second loop compares
with `!=`: an entry after the second one takes all entries between the head and itself with it, and the
second entry is freed and still follows the head.
-/
def threadMapRemove (entry : Nat) : List Nat -> List Nat × Bool
  | [] => ([], false)
  | head :: rest =>
      if head = entry then (rest, false)
      else if rest.head? = some entry then ([head], true)
      else (head :: (rest.dropWhile fun other => other != entry).tail, false)

/--
A removal ends, except where `malloc` has put the second entry into the memory of the freed one behind it;
`ZSystem.Thread.Memory` has the addresses.
-/
def Data.remove (data : Data) (entry : Nat) : Data :=
  { data with
    threadMap := (threadMapRemove entry data.threadMap).1
    dangling := data.dangling || (threadMapRemove entry data.threadMap).2 }

/-- The part of `zs__thread_cleanup` that runs with the map locked. -/
def Data.unregister (data : Data) (own : Nat) : Option Data :=
  if data.find own then some (data.remove own)
  else if data.dangling then none
  else some data

def Data.update (data : Data) (thread : Nat) (change : Record -> Record) : Data :=
  { data with record := Function.update data.record thread ((data.record thread).map change) }

abbrev Code := Instr ThreadId Obj PC Data

/-- A step of the thread's own start or cleanup, which get the record as their argument. -/
def withRecord (thread : ThreadId) (body : Nat -> Code) : Code :=
  match thread with
  | .library own => body own
  | _ => .halt

def inExecute (thread : ThreadId) (instr : Code) : Code :=
  match thread with
  | .main => instr
  | _ => .halt

def afterCreate (thread : ThreadId) (args : Create) : PC :=
  match thread with
  | .main => .executeLockMap args.thread
  | _ => .caller

def afterExecute (thread : ThreadId) : PC :=
  match thread with
  | .main => .mainLock
  | _ => .caller

def goTo (pc : PC) (change : Data -> Data) : Code := .act fun _ data => some (change data, pc)

def branch (next : Data -> PC) : Code := .act fun _ data => some (data, next data)

/-- A call of `zs__thread_map_find` and what follows it. -/
def lookUp (handle : Nat) (next : Data -> PC) : Code := .look (fun data => data.defined handle) next

def code (thread : ThreadId) : PC -> Code
  | .caller => .halt
  -- zs__thread_create
  | .createLockRunning args => .lock .threadsRunningMutex (.createIncrement args)
  | .createIncrement args => goTo (.createUnlockRunning args) fun data =>
      { data with
        threadsRunning := data.threadsRunning + 1
        counted := insert args.thread data.counted }
  | .createUnlockRunning args => .unlock .threadsRunningMutex (.createInit args)
  | .createInit args => goTo (.createLockGate args) fun data =>
      { data with
        record := Function.update data.record args.thread
          (some { run := args.run, abort := args.abort, waitingThreads := 0, handleStored := false }) }
  | .createLockGate args => .lock (.waitingThreadsMutex args.thread) (.createLockMap args)
  | .createLockMap args => .lock .threadMapMutex (.createInsert args)
  | .createInsert args => goTo (.createUnlockMap args) fun data =>
      { data with threadMap := args.thread :: data.threadMap }
  | .createUnlockMap args => .unlock .threadMapMutex (.createHandle args)
  | .createHandle args => goTo (.createStart args) fun data =>
      data.update args.thread fun record => { record with handleStored := true }
  | .createStart args => .start (.library args.thread) .startLock (.createReturn args)
  | .createReturn args => branch fun _ => afterCreate thread args
  -- zs__thread_execute
  | .executeLockMap handle => .lock .threadMapMutex (.executeFind handle)
  | .executeFind handle => lookUp handle fun data =>
      if data.find handle then .executeUnlockGate handle else .executeUnlockMap handle false
  | .executeUnlockGate handle => .unlock (.waitingThreadsMutex handle) (.executeUnlockMap handle true)
  | .executeUnlockMap _ _ => .unlock .threadMapMutex (afterExecute thread)
  -- zs__thread_abort; the callback runs with the map locked
  | .abortLockMap handle => .lock .threadMapMutex (.abortFind handle)
  | .abortFind handle => lookUp handle fun data =>
      if data.find handle then
        if (data.record handle).map Record.abort = some true then .abortCallback handle
        else .abortCancel handle
      else .abortUnlockMap handle
  | .abortCallback handle => branch fun _ => .abortUnlockMap handle
  | .abortCancel handle => .cancel (.library handle) (.abortUnlockMap handle)
  | .abortUnlockMap _ => .unlock .threadMapMutex .caller
  -- zs__thread_wait
  | .waitLockMap handle => .lock .threadMapMutex (.waitFind handle)
  | .waitFind handle => lookUp handle fun data =>
      if data.find handle then .waitLockEntry handle else .waitMissing handle
  | .waitLockEntry handle => .lock (.waitingThreadsMutex handle) (.waitIncrement handle)
  | .waitIncrement handle => goTo (.waitUnlockMap handle) fun data =>
      data.update handle fun record => { record with waitingThreads := record.waitingThreads + 1 }
  | .waitUnlockMap handle => .unlock .threadMapMutex (.waitCond handle)
  | .waitCond handle =>
      .wait (.waitingThreadsCv handle) (.waitingThreadsMutex handle) (.waitUnlockEntry handle)
  | .waitUnlockEntry handle => .unlock (.waitingThreadsMutex handle) .caller
  | .waitMissing _ => .unlock .threadMapMutex .caller
  -- zs__thread_available
  | .availableLockMap handle => .lock .threadMapMutex (.availableFind handle)
  | .availableFind handle => lookUp handle fun data => .availableUnlockMap handle (data.find handle)
  | .availableUnlockMap _ _ => .unlock .threadMapMutex .caller
  -- zs__thread_start
  | .startLock => withRecord thread fun own => .lock (.waitingThreadsMutex own) .startUnlock
  | .startUnlock => withRecord thread fun own => .unlock (.waitingThreadsMutex own) .startRun
  | .startRun => withRecord thread fun own => branch fun data =>
      if (data.record own).map Record.run = some true then .caller else .cleanupLockMap
  -- zs__thread_cleanup
  | .cleanupLockMap => withRecord thread fun _ => .lock .threadMapMutex .cleanupRemove
  | .cleanupRemove => withRecord thread fun own => .act fun _ data =>
      (data.unregister own).map fun result => (result, .cleanupUnlockMap)
  | .cleanupUnlockMap => withRecord thread fun _ => .unlock .threadMapMutex .cleanupLockRunning
  | .cleanupLockRunning => withRecord thread fun _ => .lock .threadsRunningMutex .cleanupDecrement
  | .cleanupDecrement => withRecord thread fun own => .act fun _ data => some
      ({ data with
          threadsRunning := data.threadsRunning - 1
          counted := data.counted.erase own },
        if data.threadsRunning - 1 = 0 then .cleanupSignal else .cleanupUnlockRunning)
  | .cleanupSignal => withRecord thread fun _ => .signal .threadsRunningCv .cleanupUnlockRunning
  | .cleanupUnlockRunning => withRecord thread fun _ => .unlock .threadsRunningMutex .cleanupLockEntry
  | .cleanupLockEntry => withRecord thread fun own => .lock (.waitingThreadsMutex own) .cleanupTest
  | .cleanupTest => withRecord thread fun own => branch fun data =>
      if 0 < ((data.record own).map Record.waitingThreads).getD 0 then .cleanupBroadcast
      else .cleanupUnlockEntry
  | .cleanupBroadcast => withRecord thread fun own =>
      .broadcast (.waitingThreadsCv own) .cleanupUnlockEntry
  | .cleanupUnlockEntry => withRecord thread fun own =>
      .unlock (.waitingThreadsMutex own) .cleanupDestroy
  | .cleanupDestroy => withRecord thread fun own => goTo .finished fun data =>
      { data with record := Function.update data.record own none }
  | .finished => .halt
  -- zs__execute, after its call of zs__thread_execute
  | .mainStart => .halt
  | .mainLock => inExecute thread (.lock .threadsRunningMutex .mainCond)
  | .mainCond => inExecute thread (.wait .threadsRunningCv .threadsRunningMutex .mainUnlock)
  | .mainUnlock => inExecute thread (.unlock .threadsRunningMutex .mainDestroy)
  | .mainDestroy => inExecute thread (goTo .mainReturn id)
  | .mainReturn => .halt

/-- A call of `zs__thread_create` makes a thread that no call has been made for yet. -/
def issue (thread : ThreadId) (args : Create) (data : Data) : Option Data :=
  if data.creator args.thread = none then
    some { data with creator := Function.update data.creator args.thread (some thread) }
  else none

/--
The calls a thread may make from its own code, the return from a run function, and the first call of
`zs__execute`, which gives no abort callback.
-/
def calls (thread : ThreadId) : PC -> PC -> Data -> Option Data
  | .caller, .createLockRunning args, data => issue thread args data
  | .caller, .executeLockMap _, data | .caller, .abortLockMap _, data
  | .caller, .waitLockMap _, data | .caller, .availableLockMap _, data => some data
  | .caller, .cleanupLockMap, data => if thread.isLibrary then some data else none
  | .mainStart, .createLockRunning args, data => if args.abort then none else issue thread args data
  | _, _, _ => none

def note (_ : ThreadId) : PC -> Data -> Data
  | .createLockGate args, data => { data with gated := insert args.thread data.gated }
  | .createStart args, data => { data with started := insert args.thread data.started }
  | .executeUnlockGate handle, data =>
      { data with executed := Function.update data.executed handle (data.executed handle + 1) }
  | _, data => data

/-- `zs__thread_start` has pushed `zs__thread_cleanup` as the handler of a cancellation. -/
def program : Program ThreadId Obj PC Data where
  code := code
  calls := calls
  note := note
  handler thread := if thread.isLibrary then some .cleanupLockMap else none
  interruptible pc := decide (pc = .caller)

/-- A thread at this place comes to an entry that has been freed. It has no step from there. -/
def Data.reachesFreed (data : Data) (thread : ThreadId) : PC -> Bool
  | .executeFind handle | .abortFind handle | .waitFind handle | .availableFind handle => !data.defined handle
  | .cleanupRemove =>
      match thread with
      | .library own => (data.unregister own).isNone
      | _ => false
  | _ => false

abbrev State := Posix.State ThreadId Obj PC Data

abbrev Action := Posix.Act ThreadId PC

def initial : State where
  owner _ := none
  sleepers _ := []
  value _ := 0
  cancelled _ := false
  status
    | .main => .running .mainStart
    | .library _ => .absent
    | .outside _ => .running .caller
  data := {}

abbrev step : State -> Action -> Option State := program.step

/-- An instruction that is not blocked. -/
theorem goes_on {state : State} {thread : ThreadId} {pc : PC} {data : Data} {status : Status Obj PC}
    (here : state.status thread = .running pc)
    (ran : program.outcome thread 0 pc state.data = some (data, status))
    (enabled : (code thread pc).Enabled state) :
    ∃ next, step state (.run thread 0) = some next ∧ next.status thread = status ∧
      next.owner = (code thread pc).owners thread state.owner ∧
      ∀ other, other ≠ thread -> state.status other ≠ .absent -> next.status other = state.status other := by
  obtain ⟨next, taken, there⟩ := step_of_outcome here ran enabled (by simp [program])
  refine ⟨next, taken, there, (run_parts here taken).2.2.1, fun other differ present => ?_⟩
  obtain same | ⟨_, _, _, _, -, -, -, absent, -⟩ := status_other taken differ
  · exact same
  · exact absurd absent present

def runs (thread : ThreadId) (count : Nat) : List Action := List.replicate count (.run thread 0)

def create (thread : ThreadId) (args : Create) : List Action :=
  .call thread (.createLockRunning args) :: runs thread 11

def execute (thread : ThreadId) (handle : Nat) : List Action :=
  .call thread (.executeLockMap handle) :: runs thread 4

/-- A call of `zs__thread_wait` that finds its thread, up to its sleep. -/
def wait (thread : ThreadId) (handle : Nat) : List Action :=
  .call thread (.waitLockMap handle) :: runs thread 6

/-- `zs__execute` up to its wait, with thread 0 inside its run function. -/
def launch : List Action :=
  create .main { thread := 0, run := true, abort := false } ++ runs .main 4 ++ runs (.library 0) 3

end ZSystem.Thread
