import ZSystem.Thread.Waiters

set_option autoImplicit false

/-!
# The signal to `zs__execute`

`zs__execute` starts the first thread before it locks `threads_running_mutex`, so that the last
thread can signal before anybody waits.
-/

namespace ZSystem.Thread

open Posix Transition

/-- `zs__execute` and the threads that it starts, directly or through others. -/
def fromExecute (action : Action) : Bool :=
  match action.actor with
  | .outside _ => false
  | _ => true

abbrev familyStep : State -> Action -> Option State := restrict step fromExecute

/-- The places of `zs__execute` between `++threads_running` and the wait. -/
def PC.awaits : PC -> Bool
  | .createUnlockRunning _ | .createInit _ | .createLockGate _ | .createLockMap _ | .createInsert _
  | .createUnlockMap _ | .createHandle _ | .createStart _ | .createReturn _ | .executeLockMap _ | .executeFind _
  | .executeUnlockGate _ | .executeUnlockMap _ _ | .mainLock | .mainCond => true
  | _ => false

/-- No cleanup is between its `--threads_running` and its unlock. -/
def Settled (state : State) : Prop :=
  ∀ own, state.status (.library own) ≠ .running .cleanupSignal ∧
    state.status (.library own) ≠ .running .cleanupUnlockRunning

/-- The last thread is through, and `zs__execute` is asleep or on its way to its wait. -/
structure Lost (state : State) : Prop where
  zero : state.data.threadsRunning = 0
  settled : Settled state
  pending : (∃ pc, state.status .main = .running pc ∧ pc.awaits = true) ∨
    .main ∈ state.sleepers .threadsRunningCv

/-- The decrement to 0 finds `zs__execute` in its wait or behind it. -/
def WaitsFirst (state : State) : Action -> Prop
  | .run (.library own) _ => state.status (.library own) = .running .cleanupDecrement ->
      state.data.threadsRunning = 1 -> ∀ pc, state.status .main = .running pc -> pc.awaits = false
  | _ => True

structure Waiting (state : State) : Prop where
  valid : Valid state
  signal : .main ∈ state.sleepers .threadsRunningCv -> state.data.threadsRunning = 0 ->
    ∃ own, state.status (.library own) = .running .cleanupSignal
  await : ∀ pc, state.status .main = .running pc -> pc.awaits = true -> state.data.threadsRunning ≠ 0
  outside : ∀ number, state.status (.outside number) = .running .caller

/-- The counter is 0 with `zs__execute` on its way to its wait, and the last cleanup has the mutex. -/
structure Doomed (state : State) : Prop where
  valid : Valid state
  zero : state.data.threadsRunning = 0
  main : ∃ pc, state.status .main = .running pc ∧ pc.awaits = true
  last : ∃ own, state.status (.library own) = .running .cleanupSignal ∨
    state.status (.library own) = .running .cleanupUnlockRunning

section

variable {state next : State} {action : Action}

theorem Waiting.not_lost (waiting : Waiting state) : ¬ Lost state := by
  rintro ⟨zero, settled, ⟨pc, here, awaits⟩ | asleep⟩
  · exact waiting.await pc here awaits zero
  · obtain ⟨own, there⟩ := waiting.signal asleep zero
    exact (settled own).1 there

theorem awaits_on {pc : PC} {pick : Nat} {data after : Data} {status : Status Obj PC}
    (ran : program.outcome .main pick pc data = some (after, status)) (awaits : pc.awaits = true)
    (before : pc ≠ .mainCond) : ∃ place, status = .running place ∧ place.awaits = true := by
  cases pc <;> simp only [PC.awaits, Bool.false_eq_true] at awaits <;>
    simp only [Program.outcome, program, code, Instr.result, goTo, lookUp, inExecute, afterCreate,
      afterExecute, Option.map_some, Option.some.injEq, Prod.mk.injEq, ne_eq, not_true] at ran before
  all_goals
    obtain ⟨-, rfl⟩ := ran
    first
      | exact ⟨_, rfl, rfl⟩
      | (split_ifs <;> exact ⟨_, rfl, rfl⟩)

theorem awaits_from {pc place : PC} {pick : Nat} {data after : Data}
    (ran : program.outcome .main pick pc data = some (after, .running place))
    (awaits : place.awaits = true) : pc.awaits = true ∨ ∃ args, pc = .createIncrement args := by
  cases pc <;>
    simp only [Program.outcome, program, code, Instr.result, goTo, branch, lookUp, withRecord, inExecute,
      afterCreate, afterExecute, Option.map_some, Option.map_none, Option.some.injEq, Prod.mk.injEq,
      reduceCtorEq, and_false, Status.running.injEq] at ran
  all_goals
    first
      | exact Or.inl rfl
      | exact Or.inr ⟨_, rfl⟩
      | (obtain ⟨-, rfl⟩ := ran
         first | cases awaits | (split_ifs at awaits <;> cases awaits))

theorem Valid.sleepers_main (valid : Valid state) (asleep : .main ∈ state.sleepers .threadsRunningCv) :
    state.sleepers .threadsRunningCv = [.main] := by
  have only (thread : ThreadId) (member : thread ∈ state.sleepers .threadsRunningCv) : thread = .main := by
    obtain ⟨mutex, pc, waits⟩ := valid.asleep.waiting _ thread member
    obtain ⟨main, -⟩ | ⟨_, absurd, -⟩ := (valid.waits waits).2
    · exact main
    · cases absurd
  have once := valid.asleep.nodup .threadsRunningCv
  cases sleepers : state.sleepers .threadsRunningCv with
  | nil => simp [sleepers] at asleep
  | cons first rest =>
      rw [sleepers] at only once
      have head := only first (by simp)
      have tail : rest = [] := List.eq_nil_iff_forall_not_mem.mpr fun thread member => by
        have same := only thread (by simp [member])
        exact (List.nodup_cons.mp once).1 (by rwa [head, ← same])
      rw [head, tail]

theorem cleanup_stays {own : Nat} {pc : PC} (here : state.status (.library own) = .running pc)
    (removed : pc.removed = true) (taken : step state action = some next) :
    next.status (.library own) = .running pc ∨ ∃ pick, action = .run (.library own) pick := by
  cases arrival taken (.library own) with
  | stays same => exact Or.inl (same.trans here)
  | instr run => exact Or.inr ⟨_, run⟩
  | born _ _ _ _ absent => simp [here] at absent
  | resume _ there => simp [here] at there
  | call _ there chosen =>
      cases here.symm.trans there
      obtain ⟨_, -, -, -, rfl | ⟨rfl, -⟩⟩ | ⟨rfl, -⟩ := calls_cases chosen <;> simp [PC.removed] at removed
  | stop _ there _ point =>
      cases here.symm.trans there
      obtain rfl : pc = .caller := by simpa [program] using point
      simp [PC.removed] at removed
  | abandon _ there => simp [here] at there

theorem Waiting.signal_preserved (waiting : Waiting state) (taken : step state action = some next)
    (asleep : .main ∈ next.sleepers .threadsRunningCv) (zero : next.data.threadsRunning = 0) :
    ∃ own, next.status (.library own) = .running .cleanupSignal := by
  have valid := waiting.valid
  have before : .main ∈ state.sleepers .threadsRunningCv := by
    obtain old | ⟨pick, pc, _, _, rfl, here, instr⟩ := sleepers_grow taken asleep
    · exact old
    · obtain ⟨-, rfl, -⟩ | ⟨_, rfl, absurd, -⟩ := code_wait instr
      · have counted := waiting.await _ here rfl
        obtain ⟨-, ran, -, -⟩ := run_parts here taken
        simp only [Program.outcome, program, code, inExecute, Instr.result, Option.map_some,
          Option.some.injEq, Prod.mk.injEq] at ran
        exact absurd (by simpa [← ran.1, note] using zero) counted
      · cases absurd
  by_cases last : state.data.threadsRunning = 0
  · obtain ⟨own, here⟩ := waiting.signal before last
    obtain stays | ⟨pick, rfl⟩ := cleanup_stays here rfl taken
    · exact ⟨own, stays⟩
    · -- The signal finds the one sleeper that there is.
      obtain ⟨-, -, -, sleepers⟩ := run_parts here taken
      simp [sleepers, program, code, withRecord, Instr.asleep, valid.sleepers_main before,
        Nat.mod_one] at asleep
  · obtain same | ⟨_, _, _, -, -, more⟩ | ⟨own, pick, rfl, here, fewer⟩ := counts taken
    · exact absurd (same.symm.trans zero) last
    · omega
    · refine ⟨own, ?_⟩
      obtain ⟨-, ran, -, -⟩ := run_parts here taken
      have one : state.data.threadsRunning - 1 = 0 := fewer.symm.trans zero
      simp only [Program.outcome, program, code, withRecord, Instr.result, Option.map_some, one,
        if_true, Option.some.injEq, Prod.mk.injEq] at ran
      exact ran.2.symm

theorem Waiting.await_preserved (waiting : Waiting state) (first : WaitsFirst state action)
    (taken : step state action = some next) (pc : PC) (there : next.status .main = .running pc)
    (awaits : pc.awaits = true) : next.data.threadsRunning ≠ 0 := by
  -- Whoever decrements, the decrement to 0 finds `zs__execute` in its wait.
  have kept (place : PC) (here : state.status .main = .running place) (way : place.awaits = true) :
      next.data.threadsRunning ≠ 0 := by
    have counted := waiting.await place here way
    obtain same | ⟨_, _, _, -, -, more⟩ | ⟨own, pick, rfl, at_, fewer⟩ := counts taken
    · exact same ▸ counted
    · omega
    · intro zero
      have one : state.data.threadsRunning = 1 := by omega
      simp [first at_ one place here] at way
  cases arrival taken .main with
  | stays same => exact kept pc (same.symm.trans there) awaits
  | @instr pick before run here _ ran =>
      rw [there] at ran
      rcases awaits_from ran awaits with way | ⟨args, rfl⟩
      · exact kept before here way
      · simp only [Program.outcome, program, code, goTo, Instr.result, Option.map_some,
          Option.some.injEq, Prod.mk.injEq] at ran
        simp [← ran.1, note]
  | born _ _ _ instr =>
      obtain ⟨_, _, absurd, _⟩ := code_start instr
      cases absurd
  | resume _ here _ _ resumed =>
      cases there.symm.trans resumed
      obtain ⟨-, -, -, rfl⟩ | ⟨_, -, -, -, rfl | rfl⟩ := (waiting.valid.waits here).2 <;>
        simp [PC.awaits] at awaits
  | call _ here chosen called =>
      cases there.symm.trans called
      obtain ⟨_, rfl, -⟩ | ⟨rfl, -⟩ := calls_cases chosen
      · simp [PC.awaits] at awaits
      · exact absurd rfl (waiting.valid.at here).placed
  | stop _ _ handled | abandon _ _ handled => simp [program, ThreadId.isLibrary] at handled

theorem Waiting.preserved (waiting : Waiting state) (first : WaitsFirst state action)
    (taken : familyStep state action = some next) : Waiting next := by
  obtain ⟨family, taken⟩ := restrict_eq_some.mp taken
  refine ⟨waiting.valid.preserved taken, waiting.signal_preserved taken,
    waiting.await_preserved first taken, fun number => ?_⟩
  have different : ThreadId.outside number ≠ action.actor := fun same => by
    simp [fromExecute, ← same] at family
  obtain stays | ⟨_, _, _, _, _, _, instr, _⟩ := status_other taken different
  · exact stays.trans (waiting.outside number)
  · obtain ⟨_, _, absurd, _⟩ := code_start instr
    cases absurd

theorem main_stays {pc : PC} (here : state.status .main = .running pc)
    (taken : step state action = some next) (different : .main ≠ action.actor) :
    next.status .main = .running pc := by
  obtain same | ⟨_, _, _, _, _, _, instr, _⟩ := status_other taken different
  · exact same.trans here
  · obtain ⟨_, _, absurd, _⟩ := code_start instr
    cases absurd

theorem Waiting.dooms (waiting : Waiting state) (late : ¬ WaitsFirst state action)
    (taken : familyStep state action = some next) : Doomed next := by
  obtain ⟨-, taken⟩ := restrict_eq_some.mp taken
  cases action with
  | run thread pick =>
      cases thread with
      | library own =>
          simp only [WaitsFirst, not_forall, Bool.not_eq_false] at late
          obtain ⟨here, one, pc, main, awaits⟩ := late
          obtain ⟨-, ran, -, -⟩ := run_parts here taken
          simp only [Program.outcome, program, code, withRecord, Instr.result, Option.map_some, one,
            Nat.sub_self, if_true, Option.some.injEq, Prod.mk.injEq] at ran
          exact ⟨waiting.valid.preserved taken, by simp [← ran.1, note],
            ⟨pc, main_stays main taken (by simp [Act.actor]), awaits⟩, own, Or.inl ran.2.symm⟩
      | _ => exact absurd trivial late
  | _ => exact absurd trivial late

theorem Doomed.zero_preserved (doomed : Doomed state) (taken : step state action = some next) :
    next.data.threadsRunning = 0 := by
  obtain ⟨own, here⟩ := doomed.last
  obtain same | ⟨thread, _, args, -, there, -⟩ | ⟨_, _, -, -, fewer⟩ := counts taken
  · exact same.trans doomed.zero
  · -- Whoever increments owns the mutex that the last cleanup owns.
    rcases here with here | here
    · obtain rfl := doomed.valid.running_alone here there rfl rfl
      simp [here] at there
    · obtain rfl := doomed.valid.running_alone here there rfl rfl
      simp [here] at there
  · simp [fewer, doomed.zero]

theorem Doomed.main_preserved (doomed : Doomed state) (taken : step state action = some next) :
    ∃ pc, next.status .main = .running pc ∧ pc.awaits = true := by
  obtain ⟨pc, main, awaits⟩ := doomed.main
  cases arrival taken .main with
  | stays same => exact ⟨pc, same.trans main, awaits⟩
  | @instr pick before run here _ ran =>
      cases main.symm.trans here
      refine awaits_on ran awaits ?_
      -- The wait needs the mutex that the last cleanup owns.
      rintro rfl
      obtain ⟨own, last | last⟩ := doomed.last
      · cases doomed.valid.running_alone here last rfl rfl
      · cases doomed.valid.running_alone here last rfl rfl
  | born _ _ _ instr =>
      obtain ⟨_, _, absurd, _⟩ := code_start instr
      cases absurd
  | resume _ here => simp [main] at here
  | call _ here chosen =>
      cases main.symm.trans here
      obtain ⟨_, -, -, -, rfl | ⟨rfl, -⟩⟩ | ⟨rfl, -⟩ := calls_cases chosen <;> simp [PC.awaits] at awaits
  | stop _ _ handled | abandon _ _ handled => simp [program, ThreadId.isLibrary] at handled

theorem Doomed.loses (doomed : Doomed state) (taken : familyStep state action = some next) :
    Doomed next ∨ Lost next := by
  obtain ⟨-, taken⟩ := restrict_eq_some.mp taken
  have valid := doomed.valid.preserved taken
  have zero := doomed.zero_preserved taken
  have main := doomed.main_preserved taken
  obtain ⟨own, here | here⟩ := doomed.last
  · obtain stays | ⟨pick, rfl⟩ := cleanup_stays here rfl taken
    · exact Or.inl ⟨valid, zero, main, own, Or.inl stays⟩
    · obtain ⟨-, ran, -, -⟩ := run_parts here taken
      simp only [Program.outcome, program, code, withRecord, Instr.result, Option.map_some,
        Option.some.injEq, Prod.mk.injEq] at ran
      exact Or.inl ⟨valid, zero, main, own, Or.inr ran.2.symm⟩
  · obtain stays | ⟨pick, rfl⟩ := cleanup_stays here rfl taken
    · exact Or.inl ⟨valid, zero, main, own, Or.inr stays⟩
    · obtain ⟨-, ran, -, -⟩ := run_parts here taken
      simp only [Program.outcome, program, code, withRecord, Instr.result, Option.map_some,
        Option.some.injEq, Prod.mk.injEq] at ran
      have goes := ran.2.symm
      refine Or.inr ⟨zero, fun other => ?_, Or.inl main⟩
      by_cases same : other = own
      · simp [same, goes]
      · have different : ThreadId.library other ≠ .library own := fun equal => same (by simpa using equal)
        obtain stays | ⟨_, pc, _, _, _, there, instr, _⟩ := status_other taken different
        · constructor <;> intro there <;> rw [stays] at there
          · exact different (doomed.valid.running_alone there here rfl rfl)
          · exact different (doomed.valid.running_alone there here rfl rfl)
        · cases here.symm.trans there
          simp [Act.actor, program, code, withRecord] at instr

end

theorem initial_waiting : Waiting initial where
  valid := initial_valid
  signal asleep := by simp [initial] at asleep
  await pc here awaits := by
    simp only [initial, Status.running.injEq] at here
    subst here
    cases awaits
  outside number := rfl

/--
In the runs of `zs__execute` and its threads that do not stop inside the last cleanup's locked part,
the wake-up of `zs__execute` is never lost if and only if every decrement to 0 finds it in its wait.
-/
theorem never_lost_iff_waitsFirst (actions : List Action) {final : State}
    (run : exec familyStep initial actions = some final) (settled : Settled final) :
    Throughout familyStep (fun state => ¬ Lost state) initial actions ↔
      Along familyStep WaitsFirst initial actions :=
  throughout_iff_along_of_doomed Waiting Doomed (fun _ => Waiting.not_lost)
    (fun _ _ _ waiting first taken => waiting.preserved first taken)
    (fun _ _ _ waiting late taken => Or.inl (waiting.dooms late taken))
    (fun _ _ _ doomed _ taken => (doomed.loses taken).imp_right not_not.mpr)
    initial_waiting run fun doomed => by
      obtain ⟨own, here | here⟩ := doomed.last
      · exact (settled own).1 here
      · exact (settled own).2 here

def shortMain : List Action :=
  launch ++ .call (.library 0) .cleanupLockMap :: runs (.library 0) 7 ++ runs .main 2

theorem settled_of_free {actions : List Action} {final : State}
    (run : exec familyStep initial actions = some final)
    (free : final.owner .threadsRunningMutex = none) : Settled final := by
  have valid : Valid final := (reachable_of_exec _ run).invariant Valid initial_valid
    fun _ _ _ valid _ taken => valid.preserved (restrict_eq_some.mp taken).2
  intro own
  constructor <;> intro here <;> simpa [free] using (valid.running.owns here).mpr rfl

theorem never_lost_iff_waitsFirst_shortMain :
    Throughout familyStep (fun state => ¬ Lost state) initial shortMain ↔
      Along familyStep WaitsFirst initial shortMain := by
  have reached : (exec familyStep initial shortMain).map (fun final =>
      final.owner .threadsRunningMutex) = some none := by decide
  obtain ⟨final, run, free⟩ := Option.map_eq_some_iff.mp reached
  exact never_lost_iff_waitsFirst shortMain run (settled_of_free run free)

/-- `zs__execute` then sleeps for good: no thread is left that could signal. -/
theorem never_lost_fails_shortMain :
    ∃ final, exec familyStep initial shortMain = some final ∧ Lost final ∧
      .main ∈ final.sleepers .threadsRunningCv := by
  have reached : (exec familyStep initial shortMain).map (fun final =>
      (final.data.threadsRunning, final.sleepers .threadsRunningCv, final.owner .threadsRunningMutex)) =
      some (0, [.main], none) := by decide
  obtain ⟨final, run, parts⟩ := Option.map_eq_some_iff.mp reached
  simp only [Prod.mk.injEq] at parts
  obtain ⟨zero, sleepers, free⟩ := parts
  have asleep : .main ∈ final.sleepers .threadsRunningCv := by simp [sleepers]
  exact ⟨final, run, ⟨zero, settled_of_free run free, Or.inr asleep⟩, asleep⟩

end ZSystem.Thread
