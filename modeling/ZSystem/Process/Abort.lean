import ZSystem.Shared.Posix

set_option autoImplicit false

/-!
# Aborting a `ZSProcess`

The thread of a `ZSProcess` forks a child, stores its pid in `process_handle` and waits for it. The abort
callback sends SIGTERM to whatever it reads from `process_handle`.
-/

namespace ZSystem.Process.Abort

open Posix Transition

inductive ThreadId where
  | process
  | client (number : Nat)
  deriving DecidableEq, Repr

inductive Mutex where
  | threadMapMutex
  deriving DecidableEq, Repr

inductive PC where
  | caller
  | abortLockMap
  | abortFind
  /-- In `ZSProcess::InternAbort`, in front of the read of `process_handle`. -/
  | abortTerminate
  /-- In `zs__process_terminate`, in front of `kill`. -/
  | abortKill (handle : Int)
  | abortUnlockMap
  | runFork
  | runStore (pid : Int)
  /-- Closes the child's ends of the pipes and calls `a_on_started`. -/
  | runStarted (pid : Int)
  | runWaitpid (pid : Int)
  | runStoreNone
  | runStartedNone
  | runDelete
  | cleanupLockMap
  | cleanupRemove
  | cleanupUnlockMap
  | finished
  deriving DecidableEq, Repr

/-- The code of the thread itself. -/
def PC.own : PC -> Bool
  | .caller | .abortLockMap | .abortFind | .abortTerminate | .abortKill _ | .abortUnlockMap => false
  | _ => true

structure Data where
  processHandle : Int := 0
  -- The child that `fork` has made and `waitpid` has not reaped.
  child : Option Int := none
  -- The registry has the entry of the thread.
  registered : Bool := true
  deleted : Bool := false
  -- Each `kill`: its target, and the child at that moment.
  kills : List (Int × Option Int) := []
  deriving DecidableEq, Repr

/--
A number 0 from the environment lets `fork` fail, and lets a signal end `waitpid`. Lookups are taken to be
exact: they find the thread until its cleanup removes the entry.
-/
def code : PC -> Instr ThreadId Mutex PC Data
  | .caller => .halt
  -- zs__thread_abort
  | .abortLockMap => .lock .threadMapMutex .abortFind
  | .abortFind => .act fun _ data => some (data, if data.registered then .abortTerminate else .abortUnlockMap)
  -- The object is alive.
  | .abortTerminate => .act fun _ data => if data.deleted then none else some (data, .abortKill data.processHandle)
  | .abortKill handle => .act fun _ data => some
      ({ data with kills := data.kills ++ [(handle, data.child)] }, .abortUnlockMap)
  | .abortUnlockMap => .unlock .threadMapMutex .caller
  -- zs__process_execute
  | .runFork => .act fun pick data => some
      (if pick = 0 then (data, .runStoreNone) else ({ data with child := some pick }, .runStore pick))
  | .runStore pid => .act fun _ data => some ({ data with processHandle := pid }, .runStarted pid)
  | .runStarted pid => .act fun _ data => some (data, .runWaitpid pid)
  | .runWaitpid _ => .act fun pick data => some
      (if pick = 0 then data else { data with child := none }, .runDelete)
  | .runStoreNone => .act fun _ data => some ({ data with processHandle := 0 }, .runStartedNone)
  | .runStartedNone => .act fun _ data => some (data, .runDelete)
  -- ZSThread::InternRun
  | .runDelete => .act fun _ data => some ({ data with deleted := true }, .cleanupLockMap)
  -- zs__thread_cleanup, as far as it is about the registry
  | .cleanupLockMap => .lock .threadMapMutex .cleanupRemove
  | .cleanupRemove => .act fun _ data => some ({ data with registered := false }, .cleanupUnlockMap)
  | .cleanupUnlockMap => .unlock .threadMapMutex .finished
  | .finished => .halt

def calls : PC -> PC -> Data -> Option Data
  | .caller, .abortLockMap, data => some data
  | _, _, _ => none

def program : Program ThreadId Mutex PC Data where
  code _ := code
  calls _ := calls

abbrev State := Posix.State ThreadId Mutex PC Data

def initial : State where
  owner _ := none
  sleepers _ := []
  value _ := 0
  cancelled _ := false
  status
    | .process => .running .runFork
    | .client _ => .running .caller
  data := {}

abbrev step : State -> Act ThreadId PC -> Option State := program.step

/-- Every signal so far went to the child while it ran. -/
def OwnChild (state : State) : Prop :=
  ∀ target child, (target, child) ∈ state.data.kills -> child = some target ∧ 0 < target

def Killing (state : State) (handle : Int) : Prop :=
  ∃ thread, (state.status thread).place = some (.abortKill handle)

/--
`process_handle` is read while it is the pid of the running child, and `waitpid` reaps the child while no
caller is between its read and its `kill`.
-/
def InTime (state : State) : Act ThreadId PC -> Prop
  | .run thread pick =>
      (state.status thread = .running .abortTerminate -> state.data.child = some state.data.processHandle) ∧
      (∀ pid, state.status thread = .running (.runWaitpid pid) -> pick ≠ 0 -> ∀ handle, ¬ Killing state handle)
  | _ => True

/-- Somebody is about to signal what is not the running child, and no later child can have that pid. -/
def Doomed (state : State) : Prop :=
  ∃ handle, Killing state handle ∧ state.data.child ≠ some handle ∧
    ∀ thread, (state.status thread).place = some .runFork -> handle = 0

/-! ## What one step does -/

inductive Move (pick : Nat) (data : Data) : PC -> PC -> Data -> Prop where
  | abortLockMap : Move pick data .abortLockMap .abortFind data
  | found : Move pick data .abortFind .abortTerminate data
  | notFound : Move pick data .abortFind .abortUnlockMap data
  | terminate : Move pick data .abortTerminate (.abortKill data.processHandle) data
  | kill {handle : Int} : Move pick data (.abortKill handle) .abortUnlockMap
      { data with kills := data.kills ++ [(handle, data.child)] }
  | abortUnlockMap : Move pick data .abortUnlockMap .caller data
  | fork (made : pick ≠ 0) : Move pick data .runFork (.runStore pick) { data with child := some (pick : Int) }
  | forkFails : Move pick data .runFork .runStoreNone data
  | store {pid : Int} : Move pick data (.runStore pid) (.runStarted pid) { data with processHandle := pid }
  | started {pid : Int} : Move pick data (.runStarted pid) (.runWaitpid pid) data
  | reap {pid : Int} (reaps : pick ≠ 0) : Move pick data (.runWaitpid pid) .runDelete { data with child := none }
  | interrupted {pid : Int} (fails : pick = 0) : Move pick data (.runWaitpid pid) .runDelete data
  | storeNone : Move pick data .runStoreNone .runStartedNone { data with processHandle := 0 }
  | startedNone : Move pick data .runStartedNone .runDelete data
  | delete : Move pick data .runDelete .cleanupLockMap { data with deleted := true }
  | cleanupLockMap : Move pick data .cleanupLockMap .cleanupRemove data
  | remove : Move pick data .cleanupRemove .cleanupUnlockMap { data with registered := false }
  | cleanupUnlockMap : Move pick data .cleanupUnlockMap .finished data

section Moves

variable {thread : ThreadId} {pick : Nat} {pc place : PC} {data after : Data} {status : Status Mutex PC}

theorem outcome_move (ran : program.outcome thread pick pc data = some (after, status)) :
    ∃ place, status = .running place ∧ Move pick data pc place after := by
  cases pc with
  | caller | finished => simp [Program.outcome, program, code, Instr.result] at ran
  | abortTerminate =>
      simp only [Program.outcome, program, code, Instr.result] at ran
      split_ifs at ran
      · simp at ran
      · cases ran
        exact ⟨_, rfl, .terminate⟩
  | abortFind =>
      simp only [Program.outcome, program, code, Instr.result] at ran
      split_ifs at ran <;> cases ran
      · exact ⟨_, rfl, .found⟩
      · exact ⟨_, rfl, .notFound⟩
  | runFork =>
      simp only [Program.outcome, program, code, Instr.result] at ran
      split_ifs at ran with fails <;> cases ran
      · exact ⟨_, rfl, .forkFails⟩
      · exact ⟨_, rfl, .fork fails⟩
  | runWaitpid pid =>
      simp only [Program.outcome, program, code, Instr.result] at ran
      split_ifs at ran with fails <;> cases ran
      · exact ⟨_, rfl, .interrupted fails⟩
      · exact ⟨_, rfl, .reap fails⟩
  | _ =>
      cases ran
      exact ⟨_, rfl, by constructor⟩

theorem Move.kills (move : Move pick data pc place after) :
    after.kills = data.kills ∨
      ∃ handle, pc = .abortKill handle ∧ after.kills = data.kills ++ [(handle, data.child)] := by
  cases move with
  | kill => exact Or.inr ⟨_, rfl, rfl⟩
  | _ => exact Or.inl rfl

theorem Move.child (move : Move pick data pc place after) :
    after.child = data.child ∨ (pc = .runFork ∧ ∃ pid, 0 < pid ∧ after.child = some pid) ∨
      ((∃ pid, pc = .runWaitpid pid) ∧ pick ≠ 0 ∧ after.child = none) := by
  cases move with
  | fork made => exact Or.inr (Or.inl ⟨rfl, _, by omega, rfl⟩)
  | reap reaps => exact Or.inr (Or.inr ⟨⟨_, rfl⟩, reaps, rfl⟩)
  | _ => exact Or.inl rfl

theorem Move.arrives (move : Move pick data pc place after) :
    place ≠ .runFork ∧ ∀ handle, place = .abortKill handle ->
      pc = .abortTerminate ∧ handle = data.processHandle ∧ after = data := by
  cases move with
  | terminate => exact ⟨by simp, fun handle same => ⟨rfl, by simpa using same.symm, rfl⟩⟩
  | _ => simp

theorem Move.killed {handle : Int} (move : Move pick data (.abortKill handle) place after) :
    after.kills = data.kills ++ [(handle, data.child)] := by
  cases move
  rfl

theorem Move.own (move : Move pick data pc place after) : place.own = pc.own := by
  cases move <;> rfl

theorem Move.foreign (move : Move pick data pc place after) (foreign : pc.own = false) :
    after.child = data.child ∧ after.processHandle = data.processHandle := by
  cases move <;> first | exact ⟨rfl, rfl⟩ | cases foreign

end Moves

section Steps

variable {state next : State} {action : Act ThreadId PC} {thread : ThreadId} {handle : Int}

theorem step_move (taken : step state action = some next) :
    (∃ actor pick pc place, action = .run actor pick ∧ state.status actor = .running pc ∧
      (next.status actor).place = some place ∧ Move pick state.data pc place next.data) ∨
    next.data = state.data := by
  cases step_cases taken with
  | instr here performed =>
      obtain ⟨-, ran, -, -⟩ := outcome_parts performed
      obtain ⟨place, there, move⟩ := outcome_move ran
      exact Or.inl ⟨_, _, _, place, rfl, here, congrArg Status.place there, move⟩
  | @call _ pc place _ _ chosen =>
      right
      simp only [program] at chosen
      unfold calls at chosen
      split at chosen <;> cases chosen
      rfl
  | resume | wake | stop | abandon => exact Or.inr rfl

/-- Where a thread is, if it does not take one of the steps that matter. -/
theorem step_place (taken : step state action = some next) (thread : ThreadId) :
    (next.status thread).place = (state.status thread).place ∨
      (next.status thread).place = some .abortLockMap ∨
      ∃ pick pc place, action = .run thread pick ∧ state.status thread = .running pc ∧
        (next.status thread).place = some place ∧ Move pick state.data pc place next.data := by
  cases arrival taken thread with
  | stays same => exact Or.inl (by rw [same])
  | instr run here enabled ran =>
      obtain ⟨place, there, move⟩ := outcome_move ran
      exact Or.inr (Or.inr ⟨_, _, place, run, here, by rw [there]; rfl, move⟩)
  | @born _ pc _ _ _ _ _ instr =>
      cases pc <;> cases instr
  | resume _ here _ _ there => exact Or.inl (by rw [there, here]; rfl)
  | @call pc place _ _ _ chosen there =>
      simp only [program] at chosen
      unfold calls at chosen
      split at chosen <;> cases chosen
      exact Or.inr (Or.inl (by rw [there]; rfl))
  | stop _ _ handled | abandon _ _ handled => cases handled

end Steps

/-! ## The law -/

structure Inv (state : State) : Prop where
  own : OwnChild state
  positive : ∀ pid, state.data.child = some pid -> 0 < pid
  killing : ∀ handle, Killing state handle -> state.data.child = some handle
  alone : ∀ thread pc, (state.status thread).place = some pc -> pc.own = true -> thread = .process
  forking : ∀ thread, (state.status thread).place = some .runFork ->
    state.data.child = none ∧ state.data.processHandle = 0

section Law

variable {state next : State} {action : Act ThreadId PC}

theorem Inv.initial : Inv initial := by
  refine ⟨fun target child killed => ?_, fun pid born => ?_, fun handle killing => ?_,
    fun thread pc here own => ?_, fun thread here => ⟨rfl, rfl⟩⟩
  · cases killed
  · cases born
  · obtain ⟨thread, here⟩ := killing
    cases thread <;> cases here
  · cases thread with
    | process => rfl
    | client number =>
        cases here
        cases own

theorem child_cases (taken : step state action = some next) :
    next.data.child = state.data.child ∨
      (∃ thread pick pid, action = .run thread pick ∧ state.status thread = .running .runFork ∧
        (next.status thread).place ≠ some .runFork ∧ 0 < pid ∧ next.data.child = some pid) ∨
      ∃ thread pick pid, action = .run thread pick ∧ state.status thread = .running (.runWaitpid pid) ∧
        pick ≠ 0 ∧ next.data.child = none := by
  rcases step_move taken with ⟨actor, pick, pc, place, rfl, here, there, move⟩ | same
  · rcases move.child with same | ⟨rfl, pid, positive, born⟩ | ⟨⟨pid, rfl⟩, reaps, gone⟩
    · exact Or.inl same
    · refine Or.inr (Or.inl ⟨actor, pick, pid, rfl, here, ?_, positive, born⟩)
      rw [there]
      exact fun same => move.arrives.1 (Option.some.inj same)
    · exact Or.inr (Or.inr ⟨actor, pick, pid, rfl, here, reaps, gone⟩)
  · exact Or.inl (by rw [same])

/-- Whoever is about to signal was so before, or has just read `process_handle`. -/
theorem killing_from (taken : step state action = some next) {handle : Int} (killing : Killing next handle) :
    Killing state handle ∨ ∃ thread pick, action = .run thread pick ∧
      state.status thread = .running .abortTerminate ∧ handle = state.data.processHandle ∧
      next.data = state.data := by
  obtain ⟨thread, there⟩ := killing
  rcases step_place taken thread with same | called | ⟨pick, pc, place, run, here, at', move⟩
  · exact Or.inl ⟨thread, same ▸ there⟩
  · rw [called] at there
    cases there
  · obtain ⟨rfl, equal, kept⟩ := move.arrives.2 handle (Option.some.inj (at'.symm.trans there))
    exact Or.inr ⟨thread, pick, run, here, equal, kept⟩

theorem Inv.alone_step (inv : Inv state) (taken : step state action = some next) (thread : ThreadId) (pc : PC)
    (there : (next.status thread).place = some pc) (own : pc.own = true) : thread = .process := by
  rcases step_place taken thread with same | called | ⟨_, before, _, -, here, at', move⟩
  · exact inv.alone thread pc (same ▸ there) own
  · cases called.symm.trans there
    cases own
  · cases at'.symm.trans there
    exact inv.alone thread before (by rw [here]; rfl) (move.own ▸ own)

theorem forking_from (taken : step state action = some next) {thread : ThreadId}
    (there : (next.status thread).place = some .runFork) : (state.status thread).place = some .runFork := by
  rcases step_place taken thread with same | called | ⟨_, _, _, -, -, at', move⟩
  · exact same ▸ there
  · cases called.symm.trans there
  · exact absurd (Option.some.inj (at'.symm.trans there)) move.arrives.1

theorem killing_on (taken : step state action = some next) {thread : ThreadId} {handle : Int}
    (here : (state.status thread).place = some (.abortKill handle)) :
    (next.status thread).place = some (.abortKill handle) ∨
      next.data.kills = state.data.kills ++ [(handle, state.data.child)] := by
  cases arrival taken thread with
  | stays same => exact Or.inl (by rw [same, here])
  | @instr pick pc run there enabled ran =>
      obtain ⟨place, -, move⟩ := outcome_move ran
      rw [there] at here
      cases here
      exact Or.inr move.killed
  | @born _ pc _ _ _ _ _ instr => cases pc <;> cases instr
  | resume _ there _ _ arrives => exact Or.inl (by rw [arrives, ← here, there]; rfl)
  | call _ there chosen =>
      rw [there] at here
      cases here
      cases chosen
  | stop _ _ handled | abandon _ _ handled => cases handled

/-- While the thread has not forked nobody else changes what it will find. -/
theorem Inv.forking_step (inv : Inv state) (taken : step state action = some next) (thread : ThreadId)
    (there : (next.status thread).place = some .runFork) :
    (state.status thread).place = some .runFork ∧ next.data.child = state.data.child ∧
      next.data.processHandle = state.data.processHandle := by
  have before := forking_from taken there
  refine ⟨before, ?_⟩
  rcases step_move taken with ⟨actor, pick, pc, place, -, here, left, move⟩ | kept
  · cases own : pc.own with
    | false => exact move.foreign own
    | true =>
        have mine := inv.alone actor pc (by rw [here]; rfl) own
        have also := inv.alone thread .runFork before rfl
        rw [mine, ← also] at left
        exact absurd (Option.some.inj (left.symm.trans there)) move.arrives.1
  · exact ⟨by rw [kept], by rw [kept]⟩

theorem Inv.preserved (inv : Inv state) (inTime : InTime state action) (taken : step state action = some next) :
    Inv next := by
  refine ⟨fun target child killed => ?_, fun pid child => ?_, fun handle killing => ?_, inv.alone_step taken,
    fun thread there => ?_⟩
  · rcases step_move taken with ⟨actor, pick, pc, place, -, here, -, move⟩ | same
    · rcases move.kills with same | ⟨handle, rfl, more⟩
      · exact inv.own target child (same ▸ killed)
      · rw [more, List.mem_append, List.mem_singleton] at killed
        rcases killed with before | now
        · exact inv.own target child before
        · cases now
          have mine := inv.killing _ ⟨actor, by rw [here]; rfl⟩
          exact ⟨mine, inv.positive _ mine⟩
    · exact inv.own target child (same ▸ killed)
  · rcases child_cases taken with same | ⟨_, _, born, -, -, -, positive, now⟩ | ⟨_, _, _, -, -, -, now⟩
    · exact inv.positive pid (same ▸ child)
    · cases child.symm.trans now
      exact positive
    · cases child.symm.trans now
  · rcases killing_from taken killing with before | ⟨thread, pick, rfl, here, rfl, same⟩
    · have mine := inv.killing handle before
      rcases child_cases taken with
        same | ⟨thread, pick, pid, rfl, here, -⟩ | ⟨thread, pick, pid, rfl, here, reaps, -⟩
      · rw [same, mine]
      · have none := (inv.forking thread (by rw [here]; rfl)).1
        cases none.symm.trans mine
      · exact absurd before (inTime.2 pid here reaps handle)
    · rw [same]
      exact inTime.1 here
  · obtain ⟨before, child, handle⟩ := inv.forking_step taken thread there
    rw [child, handle]
    exact inv.forking thread before

/-- A read of anything but the running child's pid, and a child that is reaped too early, are fatal. -/
theorem Inv.dooms (inv : Inv state) (late : ¬ InTime state action) (taken : step state action = some next) :
    Doomed next := by
  cases action with
  | run actor pick =>
      rcases not_and_or.mp late with wrong | early
      · obtain ⟨here, wrong⟩ := Classical.not_imp.mp wrong
        obtain ⟨-, ran, -, -⟩ := run_parts here taken
        simp only [Program.outcome, program, code, Instr.result] at ran
        split_ifs at ran
        · simp at ran
        · simp only [Option.map_some, Option.some.injEq, Prod.mk.injEq] at ran
          obtain ⟨same, there⟩ := ran
          refine ⟨_, ⟨actor, congrArg Status.place there.symm⟩, same ▸ wrong, fun thread forking => ?_⟩
          exact (inv.forking thread (forking_from taken forking)).2
      · simp only [not_forall, not_not] at early
        obtain ⟨pid, here, reaps, handle, killer, killing⟩ := early
        obtain ⟨-, ran, -, -⟩ := run_parts here taken
        simp only [Program.outcome, program, code, Instr.result, if_neg reaps, Option.map_some, Option.some.injEq,
          Prod.mk.injEq] at ran
        obtain ⟨gone, -⟩ := ran
        refine ⟨handle, ⟨killer, ?_⟩, by simp [← gone], fun thread forking => ?_⟩
        · refine (killing_on taken killing).resolve_right fun killed => ?_
          rw [← gone] at killed
          simp at killed
        · have process := inv.alone actor (.runWaitpid pid) (by rw [here]; rfl) rfl
          have before := forking_from taken forking
          rw [inv.alone thread .runFork before rfl, ← process, here] at before
          cases before
  | _ => exact absurd trivial late

theorem Doomed.stays (doomed : Doomed state) (taken : step state action = some next) :
    Doomed next ∨ ¬ OwnChild next := by
  obtain ⟨handle, ⟨thread, here⟩, wrong, forking⟩ := doomed
  rcases killing_on taken here with still | killed
  · refine Or.inl ⟨handle, ⟨thread, still⟩, ?_, fun other there => forking other (forking_from taken there)⟩
    rcases child_cases taken with same | ⟨other, _, pid, -, at', -, positive, born⟩ | ⟨_, _, _, -, -, -, gone⟩
    · rwa [same]
    · have zero := forking other (by rw [at']; rfl)
      rw [born, zero]
      exact fun same => (Int.ne_of_gt positive) (Option.some.inj same)
    · simp [gone]
  · exact Or.inr fun own => wrong (own handle _ (by simp [killed])).1

end Law

/--
In a run whose steps are all in time every signal goes to the child while it runs; and a run in which every
signal does so is in time, unless it ends with a caller that is about to signal something else.
-/
theorem signals_own_child (actions : List (Act ThreadId PC)) (final : State)
    (run : exec step initial actions = some final) :
    (Along step InTime initial actions -> Throughout step OwnChild initial actions) ∧
    (Throughout step OwnChild initial actions -> Along step InTime initial actions ∨ Doomed final) :=
  ⟨throughout_of_along Inv (fun _ inv => inv.own) (fun _ _ _ inv inTime taken => inv.preserved inTime taken)
    Inv.initial,
  along_or_doomed Inv Doomed (fun _ _ _ inv inTime taken => inv.preserved inTime taken)
    (fun _ _ _ inv late taken => Or.inl (inv.dooms late taken))
    (fun _ _ _ doomed _ taken => doomed.stays taken) Inv.initial run⟩

/-- A call of `zs__thread_abort`, up to the `kill`. -/
def abort : List (Act ThreadId PC) := .call (.client 0) .abortLockMap :: List.replicate 4 (.run (.client 0) 0)

def abortWhileRunning : List (Act ThreadId PC) := List.replicate 3 (.run .process 7) ++ abort

theorem signals_own_child_abortWhileRunning : ∃ final, exec step initial abortWhileRunning = some final ∧
    final.data.kills = [(7, some 7)] ∧
    (Along step InTime initial abortWhileRunning -> Throughout step OwnChild initial abortWhileRunning) ∧
    (Throughout step OwnChild initial abortWhileRunning ->
      Along step InTime initial abortWhileRunning ∨ Doomed final) := by
  have ran : (exec step initial abortWhileRunning).map (fun final => final.data.kills) = some [(7, some 7)] := by
    decide
  obtain ⟨final, run, kills⟩ := Option.map_eq_some_iff.mp ran
  exact ⟨final, run, kills, signals_own_child abortWhileRunning final run⟩

/-- Before the fork the signal goes to the whole process group, after `waitpid` to a pid that is free again. -/
theorem signals_own_child_fails : ¬ (∀ state, Reachable step initial state -> OwnChild state) ∧
    (∃ state, Reachable step initial state ∧ state.data.kills = [(0, none)]) ∧
    ∃ state, Reachable step initial state ∧ state.data.kills = [(7, none)] := by
  have early : (exec step initial abort).map (fun final => final.data.kills) = some [(0, none)] := by decide
  have late : (exec step initial (List.replicate 4 (.run .process 7) ++ abort)).map
      (fun final => final.data.kills) = some [(7, none)] := by decide
  obtain ⟨first, run, group⟩ := Option.map_eq_some_iff.mp early
  obtain ⟨second, after, stale⟩ := Option.map_eq_some_iff.mp late
  refine ⟨fun own => ?_, ⟨first, reachable_of_exec _ run, group⟩, second, reachable_of_exec _ after, stale⟩
  have mine := own first (reachable_of_exec _ run) 0 none (by simp [group])
  cases mine.1

end ZSystem.Process.Abort
