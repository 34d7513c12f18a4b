import ZSystem.Shared.Races
import ZSystem.Thread.Destroy

set_option autoImplicit false

/-!
# Data races

What the code reads and writes, mutexes and condition variables included, and when two threads access the
same at one time.
-/

namespace ZSystem.Thread

open Posix Transition

inductive Location where
  | threadsRunning
  -- `zs__thread_map` and the entries of the chain.
  | threadMap
  | data (thread : Nat)
  | run (thread : Nat)
  | abort (thread : Nat)
  | waitingThreads (thread : Nat)
  | threadHandle (thread : Nat)
  -- A mutex or a condition variable.
  | sync (object : Obj)
  deriving DecidableEq, Repr

/-- The places that call `zs__thread_map_find`. -/
def PC.walks : PC -> Bool
  | .executeFind _ | .abortFind _ | .waitFind _ | .availableFind _ | .cleanupRemove => true
  | _ => false

/-- `zs__thread_map_find`, if it gets to the end of the chain. -/
def walk (data : Data) : List (Access × Location) :=
  (.read, .threadMap) :: data.threadMap.map fun thread => (.read, .threadHandle thread)

def ofOwn (thread : ThreadId) (body : Nat -> List (Access × Location)) : List (Access × Location) :=
  match thread with
  | .library own => body own
  | _ => []

/-- To initialise, to destroy and to free count as writes. -/
def places (data : Data) (thread : ThreadId) : PC -> List (Access × Location)
  | .createIncrement _ => [(.write, .threadsRunning)]
  | .createInit args =>
      [(.write, .data args.thread), (.write, .run args.thread), (.write, .abort args.thread),
        (.write, .waitingThreads args.thread), (.write, .sync (.waitingThreadsMutex args.thread))]
  -- `pthread_cond_init` follows the lock.
  | .createLockGate args => [(.write, .sync (.waitingThreadsCv args.thread))]
  | .createInsert _ => [(.write, .threadMap)]
  | .createHandle args => [(.write, .threadHandle args.thread)]
  | .createReturn args => [(.read, .threadHandle args.thread)]
  | .executeFind _ | .waitFind _ | .availableFind _ => walk data
  | .abortFind handle => walk data ++ if data.find handle then [(.read, .abort handle)] else []
  | .executeUnlockGate _ | .waitLockEntry _ => [(.read, .threadMap)]
  | .abortCallback handle => [(.read, .threadMap), (.read, .abort handle), (.read, .data handle)]
  | .waitIncrement handle => [(.read, .threadMap), (.write, .waitingThreads handle)]
  | .startRun => ofOwn thread fun own => [(.read, .run own), (.read, .data own)]
  | .cleanupRemove => ofOwn thread fun own => (.read, .threadHandle own) :: (.write, .threadMap) :: walk data
  | .cleanupDecrement => ofOwn thread fun _ => [(.write, .threadsRunning)]
  | .cleanupTest => ofOwn thread fun own => [(.read, .waitingThreads own)]
  | .cleanupDestroy => ofOwn thread fun own =>
      [(.write, .data own), (.write, .run own), (.write, .abort own), (.write, .waitingThreads own),
        (.write, .threadHandle own), (.write, .sync (.waitingThreadsMutex own)),
        (.write, .sync (.waitingThreadsCv own))]
  | .mainDestroy =>
      [(.write, .sync .threadsRunningMutex), (.write, .sync .threadsRunningCv), (.write, .sync .threadMapMutex)]
  | _ => []

/-- To work on a mutex or a condition variable is no race with others who do, but it needs the object. -/
def accesses : Accesses ThreadId Obj PC Data Location := fun data thread status =>
  (program.uses thread status).map (fun object => (.read, .sync object)) ++ atPlaces places data thread status

/-- Outside of `thread_map_mutex` the thread still needs a part of the record. -/
def Lingers (thread : Nat) (status : Status Obj PC) (location : Location) : Prop :=
  (location = .threadHandle thread ∧ ∃ args, args.thread = thread ∧ status = .running (.createReturn args)) ∨
    location = .sync (.waitingThreadsMutex thread) ∧ InWait thread status ∨
    location = .sync (.waitingThreadsCv thread) ∧ InWait thread status ∧ status ≠ .running (.waitUnlockEntry thread)

def Obj.record : Obj -> Option Nat
  | .waitingThreadsMutex thread | .waitingThreadsCv thread => some thread
  | _ => none

/-- A location in the record of a thread. -/
def Location.record : Location -> Option Nat
  | .threadsRunning | .threadMap => none
  | .data thread | .run thread | .abort thread | .waitingThreads thread | .threadHandle thread => some thread
  | .sync object => object.record

/-- A lookup has led here, and the map has been locked since. -/
def PC.found : PC -> Option Nat
  | .executeUnlockGate handle | .abortCallback handle => some handle
  | _ => none

/-! ## Whose access it is -/

section

variable {data : Data} {state next : State} {action : Action} {thread : ThreadId} {pc : PC}
  {status : Status Obj PC} {access : Access} {location : Location} {number : Nat}

/-- Whoever owns the map and neither inserts nor removes keeps the list as it is. -/
theorem threadMap_kept (valid : Valid state) (here : state.status thread = .running pc) (holds : pc.holdsMap = true)
    (inserts : ∀ args, pc ≠ .createInsert args) (removes : pc ≠ .cleanupRemove)
    (taken : step state action = some next) :
    next.data.threadMap = state.data.threadMap := by
  obtain same | ⟨_, _, args, -, changing, -⟩ | ⟨_, _, -, changing, -⟩ := threadMap_next taken
  · exact same.1
  · cases valid.map_alone here changing holds rfl
    cases here.symm.trans changing
    exact absurd rfl (inserts args)
  · cases valid.map_alone here changing holds rfl
    cases here.symm.trans changing
    exact absurd rfl removes

/-- A lookup that has found its thread still holds of the registry. -/
def Looked (state : State) : Prop :=
  ∀ thread pc handle, state.status thread = .running pc -> pc.found = some handle -> handle ∈ state.data.threadMap

theorem Looked.preserved (looked : Looked state) (valid : Valid state) (taken : step state action = some next) :
    Looked next := by
  intro thread pc handle there found
  cases pc <;> simp only [PC.found, Option.some.injEq, reduceCtorEq] at found <;> subst found
  all_goals
    obtain here | ⟨_, pc, rfl, here, -, -, rfl, known⟩ := valid.arrives taken rfl there
    · rw [threadMap_kept valid here rfl (fun _ => by simp) (by simp) taken]
      exact looked thread _ _ here rfl
    · rw [threadMap_kept valid here rfl (fun _ => by simp) (by simp) taken]
      exact (Data.find_iff.mp known).1

theorem walk_record (touches : (access, location) ∈ walk data) (record : location.record = some number) :
    access = .read ∧ location = .threadHandle number ∧ number ∈ data.threadMap := by
  simp only [walk, List.mem_cons, List.mem_map, Prod.mk.injEq] at touches
  obtain ⟨-, rfl⟩ | ⟨listed, member, rfl, rfl⟩ := touches
  · cases record
  · cases record
    exact ⟨rfl, rfl, member⟩

/-- A number that is the thread's own business, and what it may do where the registry shows it to others. -/
structure Mine (data : Data) (thread : ThreadId) (status : Status Obj PC) (access : Access) (location : Location)
    (number : Nat) : Prop where
  concerns : data.Concerns number thread
  counter : number ∈ data.threadMap -> location ≠ .waitingThreads number
  writes : access = .write -> number ∉ data.gated ∨
    (location = .threadHandle number ∧ number ∉ data.started ∧
      ∃ args, args.thread = number ∧ status = .running (.createHandle args)) ∨
    thread = .library number ∧ status = .running .cleanupDestroy ∧ number ∉ data.threadMap

structure ListedIn (data : Data) (status : Status Obj PC) (access : Access) (location : Location)
    (number : Nat) : Prop where
  place : ∃ pc, status = .running pc ∧ pc.holdsMap = true ∧ (location = .threadHandle number -> pc.walks = true)
  member : number ∈ data.threadMap
  writes : access = .write -> location = .waitingThreads number

theorem Mine.reads (concerns : data.Concerns number thread) (counter : location ≠ .waitingThreads number) :
    Mine data thread status .read location number :=
  ⟨concerns, fun _ => counter, Access.noConfusion⟩

theorem Mine.fresh (valid : DataValid data) (concerns : data.Concerns number thread) (new : number ∉ data.gated) :
    Mine data thread status access location number :=
  ⟨concerns, fun member => absurd (valid.registered _ member).1 new, fun _ => Or.inl new⟩

theorem ListedIn.walk (locked : pc.holdsMap = true) (walks : pc.walks = true)
    (touches : (access, location) ∈ Thread.walk data) (record : location.record = some number) :
    ListedIn data (.running pc) access location number := by
  obtain ⟨rfl, rfl, member⟩ := walk_record touches record
  exact ⟨⟨pc, rfl, locked, fun _ => walks⟩, member, Access.noConfusion⟩

theorem mem_accesses : (access, location) ∈ accesses data thread status ↔
    (∃ object ∈ program.uses thread status, access = .read ∧ location = .sync object) ∨
      ∃ pc, status = .running pc ∧ (access, location) ∈ places data thread pc := by
  have same (object : Obj) : (Access.read, Location.sync object) = (access, location) ↔
      access = .read ∧ location = .sync object := by
    rw [Prod.mk.injEq, eq_comm, @eq_comm _ (Location.sync object)]
  cases status <;> simp [accesses, atPlaces, same]

/-- What lingers on a record that has left the registry is accessed. -/
theorem Lingers.reads (lingers : Lingers number status location) (outline : HoldsAt data thread status)
    (gone : number ∉ data.threadMap) : (.read, location) ∈ accesses data thread status := by
  refine mem_accesses.mpr ?_
  obtain ⟨rfl, args, rfl, rfl⟩ | inside := lingers
  · exact Or.inr ⟨_, rfl, List.mem_singleton_self _⟩
  · refine Or.inl ?_
    cases status with
    | absent => simp [InWait] at inside
    | waiting cv mutex pc =>
        obtain ⟨-, rfl, -, -⟩ | ⟨handle, rfl, rfl, -⟩ := outline.2
        · simp [InWait] at inside
        · obtain ⟨rfl, same⟩ | ⟨rfl, same, -⟩ := inside <;> cases same
          · exact ⟨_, by simp [Program.uses], rfl, rfl⟩
          · exact ⟨_, by simp [Program.uses], rfl, rfl⟩
    | running pc =>
        have place := outline.place
        cases pc <;> simp only [InWait, and_false, false_and, or_self] at inside
        case waitIncrement | waitUnlockMap =>
          obtain ⟨-, rfl⟩ | ⟨-, rfl, -⟩ := inside <;> exact absurd place.1 gone
        case waitLockEntry =>
          obtain ⟨-, rfl⟩ | ⟨-, rfl, -⟩ := inside <;> exact absurd place gone
        case waitCond =>
          obtain ⟨rfl, rfl⟩ | ⟨rfl, rfl, -⟩ := inside <;>
            exact ⟨_, by simp [Program.uses, program, code, Instr.uses], rfl, rfl⟩
        case waitUnlockEntry =>
          obtain ⟨rfl, rfl⟩ | ⟨-, rfl, other⟩ := inside
          · exact ⟨_, by simp [Program.uses, program, code, Instr.uses], rfl, rfl⟩
          · exact absurd rfl other

/-- Nobody lingers on a record before it is made, nor wants to return the handle before the start. -/
theorem Lingers.gated (lingers : Lingers number status location) (outline : HoldsAt data thread status)
    (valid : DataValid data) :
    number ∈ data.gated ∧ (location = .threadHandle number -> number ∈ data.started) := by
  obtain ⟨rfl, args, rfl, rfl⟩ | inside := lingers
  · exact ⟨outline.place.2, fun _ => outline.place.1⟩
  · have apart : location ≠ .threadHandle number := by
      rintro rfl
      obtain ⟨wrong, -⟩ | ⟨wrong, -⟩ := inside <;> cases wrong
    have inside : InWait number status := inside.elim And.right fun cv => cv.2.1
    refine ⟨?_, fun same => absurd same apart⟩
    cases status with
    | absent => exact inside.elim
    | waiting cv mutex pc =>
        obtain ⟨-, rfl, -, -⟩ | ⟨handle, rfl, -, placed, -⟩ := outline.2
        · cases inside
        · cases inside
          exact placed.1
    | running pc =>
        have place := outline.place
        cases pc <;> simp only [InWait] at inside <;> subst inside
        case waitLockEntry => exact (valid.registered _ place).1
        case waitIncrement | waitUnlockMap => exact (valid.registered _ place.1).1
        all_goals exact place.1

end

end ZSystem.Thread
