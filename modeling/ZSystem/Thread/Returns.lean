import ZSystem.Thread.Waiters

set_option autoImplicit false

/-!
# What a wait has waited for

Neither `zs__thread_wait` nor `zs__execute` looks at anything after `pthread_cond_wait`, so a wake-up
without a signal makes them return.
-/

namespace ZSystem.Thread

open Posix Transition

/-- The thread has returned from its run function, or was cancelled in it. -/
def PC.ended : PC -> Bool
  | .cleanupLockMap | .cleanupRemove => true
  | pc => pc.removed

def ended (state : State) (handle : Nat) : Bool :=
  match state.status (.library handle) with
  | .running pc => pc.ended
  | _ => false

/-- `zs__thread_wait(handle)` is past its `pthread_cond_wait`. -/
def WaitReturns (state : State) (thread : ThreadId) (handle : Nat) : Prop :=
  state.status thread = .running (.waitUnlockEntry handle)

/-- `zs__execute` is past its `pthread_cond_wait` and has not returned yet. -/
def ExecuteReturns (state : State) : Prop :=
  state.status .main = .running .mainUnlock ∨ state.status .main = .running .mainDestroy

structure ReturnsRight (state : State) : Prop where
  wait : ∀ thread handle, WaitReturns state thread handle -> ended state handle = true
  execute : ExecuteReturns state -> state.data.threadsRunning = 0

def tooEarly (state : State) (thread : ThreadId) : Bool :=
  match state.status thread with
  | .waiting (.waitingThreadsCv handle) _ _ => !ended state handle
  | .waiting .threadsRunningCv _ _ => decide (state.data.threadsRunning ≠ 0)
  | _ => false

/-- `zs__execute` has been woken up and has not returned yet. -/
def executeAwake (state : State) : Bool :=
  match state.status .main with
  | .waiting .threadsRunningCv _ _ => decide (.main ∉ state.sleepers .threadsRunningCv)
  | .running .mainUnlock | .running .mainDestroy => true
  | _ => false

def counting (state : State) (thread : ThreadId) : Bool :=
  match state.status thread with
  | .running (.createIncrement _) => true
  | _ => false

/--
A wake-up without a signal comes only when the event has happened, and no thread is counted as the
first one while `zs__execute` is awake.
-/
def Signalled (state : State) : Action -> Prop
  | .wake thread => tooEarly state thread = false
  | .run thread _ => counting state thread = true -> state.data.threadsRunning = 0 ->
      executeAwake state = false
  | _ => True

instance (state : State) : (action : Action) -> Decidable (Signalled state action)
  | .wake thread => inferInstanceAs (Decidable (tooEarly state thread = false))
  | .run thread _ => inferInstanceAs (Decidable (counting state thread = true ->
      state.data.threadsRunning = 0 -> executeAwake state = false))
  | .call _ _ | .interrupt _ => instDecidableTrue

structure Woken (state : State) : Prop where
  valid : Valid state
  wait : ∀ thread handle, WaitReturns state thread handle -> ended state handle = true
  waiting : ∀ thread handle mutex,
    state.status thread = .waiting (.waitingThreadsCv handle) mutex (.waitUnlockEntry handle) ->
      thread ∈ state.sleepers (.waitingThreadsCv handle) ∨ ended state handle = true
  signal : ∀ own, state.status (.library own) = .running .cleanupSignal ->
    state.data.threadsRunning = 0
  main : ∀ mutex pc, state.status .main = .waiting .threadsRunningCv mutex pc ->
    .main ∈ state.sleepers .threadsRunningCv ∨ state.data.threadsRunning = 0
  execute : ExecuteReturns state -> state.data.threadsRunning = 0

section

variable {state next : State} {action : Action}

theorem ended_of_running {handle : Nat} {pc : PC}
    (here : state.status (.library handle) = .running pc) (past : pc.ended = true) :
    ended state handle = true := by
  simp only [ended, here, past]

theorem ended_kept {handle : Nat} (past : ended state handle = true)
    (taken : step state action = some next) : ended next handle = true := by
  have within (pick : Nat) (pc : PC) (data after : Data) (status : Status Obj PC)
      (past : pc.ended = true)
      (ran : program.outcome (.library handle) pick pc data = some (after, status)) :
      ∃ place, status = .running place ∧ place.ended = true := by
    cases pc <;> simp only [PC.ended, PC.removed, Bool.false_eq_true] at past <;>
      simp only [Program.outcome, program, code, Instr.result, goTo, branch, withRecord,
        Option.map_some, Option.map_none, Option.some.injEq, Prod.mk.injEq, reduceCtorEq] at ran
    case cleanupRemove =>
      simp only [Option.map_map, Option.map_eq_some_iff, Function.comp_apply, Prod.mk.injEq] at ran
      obtain ⟨_, -, -, rfl⟩ := ran
      exact ⟨_, rfl, rfl⟩
    all_goals
      refine ⟨_, ran.2.symm, ?_⟩
      first | rfl | (split_ifs <;> rfl)
  cases here : state.status (.library handle) with
  | running pc =>
      simp only [ended, here] at past
      obtain ⟨place, there, later⟩ := place_kept rfl rfl within here past taken
      exact ended_of_running there later
  | _ => simp [ended, here] at past

theorem zero_of_still (taken : step state action = some next) (zero : state.data.threadsRunning = 0)
    (still : ∀ thread pick args, action = .run thread pick ->
      state.status thread ≠ .running (.createIncrement args)) : next.data.threadsRunning = 0 := by
  obtain same | ⟨thread, pick, args, run, here, -⟩ | ⟨own, pick, -, -, fewer⟩ := counts taken
  · exact same.trans zero
  · exact absurd here (still thread pick args run)
  · simp [fewer, zero]

theorem zero_kept (signalled : Signalled state action) (taken : step state action = some next)
    (awake : executeAwake state = true) (zero : state.data.threadsRunning = 0) :
    next.data.threadsRunning = 0 := by
  refine zero_of_still taken zero fun thread pick args run here => ?_
  subst run
  have asleep := signalled (by simp only [counting, here]) zero
  exact absurd (asleep.symm.trans awake) Bool.false_ne_true

theorem Woken.wait_preserved (woken : Woken state) (taken : step state action = some next)
    (thread : ThreadId) (handle : Nat) (returns : WaitReturns next thread handle) :
    ended next handle = true := by
  unfold WaitReturns at returns
  suffices ended state handle = true from ended_kept this taken
  cases arrival taken thread with
  | stays same => exact woken.wait thread handle (same.symm.trans returns)
  | instr _ _ _ ran =>
      rw [returns] at ran
      exact (outcome_source ran).elim
  | born _ _ _ instr _ started =>
      obtain ⟨_, _, _, rfl⟩ := code_start instr
      simp [returns] at started
  | resume _ here awake _ resumed =>
      cases returns.symm.trans resumed
      obtain ⟨-, -, -, absurd⟩ | ⟨other, rfl, rfl, -, same | absurd⟩ := (woken.valid.waits here).2
      · cases absurd
      · cases same
        exact (woken.waiting thread handle _ here).resolve_left awake
      · cases absurd
  | call _ _ chosen called =>
      cases returns.symm.trans called
      obtain ⟨_, absurd, -⟩ | ⟨-, -, ⟨_, goes⟩ | ⟨goes, -⟩⟩ := calls_cases chosen
      · simp at absurd
      · simp at goes
      · simp at goes
  | stop _ _ handled _ stopped =>
      obtain ⟨rfl, -⟩ := handler_place handled
      simp [returns] at stopped
  | abandon _ _ _ abandoned => simp [returns] at abandoned

theorem awakened (taken : step state action = some next) {thread : ThreadId} {cv mutex : Obj} {pc : PC}
    (here : state.status thread = .waiting cv mutex pc)
    (stays : next.status thread = state.status thread) (inner : pc ≠ .cleanupLockMap) {other : Obj}
    (asleep : thread ∈ state.sleepers other) :
    thread ∈ next.sleepers other ∨ action = .wake thread ∨
      ∃ actor pick place after, action = .run actor pick ∧ state.status actor = .running place ∧
        (code actor place = .signal other after ∨ code actor place = .broadcast other after) := by
  obtain still | woken | rfl | awakes := sleepers_shrink taken asleep
  · exact Or.inl still
  · exact Or.inr (Or.inl woken)
  · cases step_cases taken with
    | stop there => simp [here] at there
    | abandon there handled =>
        obtain ⟨rfl, -⟩ := handler_place handled
        simp only [Function.update_self] at stays
        cases here.symm.trans there
        cases here.symm.trans stays.symm
        exact absurd rfl inner
  · exact Or.inr (Or.inr awakes)

theorem Woken.waiting_preserved (woken : Woken state) (signalled : Signalled state action)
    (taken : step state action = some next) (thread : ThreadId) (handle : Nat) (mutex : Obj)
    (there : next.status thread = .waiting (.waitingThreadsCv handle) mutex (.waitUnlockEntry handle)) :
    thread ∈ next.sleepers (.waitingThreadsCv handle) ∨ ended next handle = true := by
  cases arrival taken thread with
  | stays same =>
      have here := same.symm.trans there
      rcases woken.waiting thread handle mutex here with asleep | past
      · obtain still | rfl | ⟨actor, _, place, _, -, at_, instr⟩ :=
          awakened taken here same (by simp) asleep
        · exact Or.inl still
        · have past : ended state handle = true := by
            simpa only [Signalled, tooEarly, here, Bool.not_eq_false'] using signalled
          exact Or.inr (ended_kept past taken)
        · obtain ⟨own, rfl, ⟨-, goes⟩ | ⟨rfl, goes⟩⟩ := code_awakes instr
          · cases goes
          · cases goes
            exact Or.inr (ended_kept (ended_of_running at_ rfl) taken)
      · exact Or.inr (ended_kept past taken)
  | instr _ _ _ ran _ sleepers =>
      rw [there] at ran
      obtain ⟨-, goes⟩ | ⟨_, rfl, goes⟩ := outcome_source ran
      · cases goes
      · cases goes
        exact Or.inl (by simp [sleepers, program, code, Instr.asleep])
  | born _ _ _ _ _ started => simp [there] at started
  | resume _ _ _ _ resumed => simp [there] at resumed
  | call _ _ _ called => simp [there] at called
  | stop _ _ _ _ stopped => simp [there] at stopped
  | abandon _ _ handled abandoned =>
      obtain ⟨rfl, -⟩ := handler_place handled
      simp [there] at abandoned

theorem Woken.signal_preserved (woken : Woken state) (taken : step state action = some next)
    (own : Nat) (there : next.status (.library own) = .running .cleanupSignal) :
    next.data.threadsRunning = 0 := by
  obtain same | ⟨pick, pc, rfl, here, ran, -, rfl, last⟩ := woken.valid.arrives taken rfl there
  · have zero := woken.signal own same
    -- The counter does not change while another thread owns its mutex.
    obtain unchanged | ⟨thread, pick, args, rfl, here, -⟩ | ⟨_, _, -, -, fewer⟩ := counts taken
    · exact unchanged.trans zero
    · obtain rfl := woken.valid.running_alone same here rfl rfl
      simp [same] at here
    · simp [fewer, zero]
  · simp only [Program.outcome, program, code, Instr.result, withRecord, Option.map_some,
      Option.some.injEq, Prod.mk.injEq] at ran
    simpa [← ran.1, note] using last

theorem Woken.main_preserved (woken : Woken state) (signalled : Signalled state action)
    (taken : step state action = some next) (mutex : Obj) (pc : PC)
    (there : next.status .main = .waiting .threadsRunningCv mutex pc) :
    .main ∈ next.sleepers .threadsRunningCv ∨ next.data.threadsRunning = 0 := by
  cases arrival taken .main with
  | stays same =>
      have here := same.symm.trans there
      have goes : pc = .mainUnlock := by
        obtain ⟨-, -, -, goes⟩ | ⟨_, absurd, -⟩ := (woken.valid.waits here).2
        · exact goes
        · cases absurd
      by_cases asleep : .main ∈ state.sleepers .threadsRunningCv
      · obtain still | rfl | ⟨actor, pick, place, _, rfl, at_, instr⟩ :=
          awakened taken here same (by simp [goes]) asleep
        · exact Or.inl still
        · have zero : state.data.threadsRunning = 0 := by
            simpa only [Signalled, tooEarly, here, decide_eq_false_iff_not, not_not] using signalled
          exact Or.inr (zero_of_still taken zero (fun _ _ _ other => by cases other))
        · obtain ⟨own, rfl, ⟨rfl, -⟩ | ⟨-, absurd⟩⟩ := code_awakes instr
          · refine Or.inr (zero_of_still taken (woken.signal own at_) fun _ _ args other there => ?_)
            cases other
            simp [at_] at there
          · cases absurd
      · have awake : executeAwake state = true := by
          simp only [executeAwake, here, asleep, not_false_eq_true, decide_true]
        exact Or.inr (zero_kept signalled taken awake ((woken.main mutex pc here).resolve_left asleep))
  | instr _ _ _ ran _ sleepers =>
      rw [there] at ran
      obtain ⟨rfl, -⟩ | ⟨_, -, absurd⟩ := outcome_source ran
      · exact Or.inl (by simp [sleepers, program, code, inExecute, Instr.asleep])
      · cases absurd
  | born _ _ _ _ _ started => simp [there] at started
  | resume _ _ _ _ resumed => simp [there] at resumed
  | call _ _ _ called => simp [there] at called
  | stop _ _ _ _ stopped => simp [there] at stopped
  | abandon _ _ handled => simp [program, ThreadId.isLibrary] at handled

theorem Woken.execute_preserved (woken : Woken state) (signalled : Signalled state action)
    (taken : step state action = some next) (returns : ExecuteReturns next) :
    next.data.threadsRunning = 0 := by
  suffices executeAwake state = true ∧ state.data.threadsRunning = 0 from
    zero_kept signalled taken this.1 this.2
  have was (before : ExecuteReturns state) :
      executeAwake state = true ∧ state.data.threadsRunning = 0 := by
    refine ⟨?_, woken.execute before⟩
    rcases before with here | here <;> simp only [executeAwake, here]
  rcases returns with there | there
  · cases arrival taken .main with
    | stays same => exact was (Or.inl (same.symm.trans there))
    | instr _ _ _ ran =>
        rw [there] at ran
        exact (outcome_source ran).elim
    | born _ _ _ instr _ _ =>
        obtain ⟨_, _, absurd, _⟩ := code_start instr
        cases absurd
    | resume _ here awake =>
        obtain ⟨known, ⟨-, rfl, -⟩ | ⟨_, -, -, -, rfl | rfl⟩⟩ := woken.valid.waits here
        · refine ⟨?_, (woken.main _ _ here).resolve_left awake⟩
          simp only [executeAwake, here, awake, not_false_eq_true, decide_true]
        · exact absurd rfl known.placed
        · exact absurd known.placed Bool.false_ne_true
    | call _ _ chosen called =>
        cases there.symm.trans called
        obtain ⟨_, absurd, -⟩ | ⟨-, -, ⟨_, goes⟩ | ⟨goes, -⟩⟩ := calls_cases chosen
        · simp at absurd
        · simp at goes
        · simp at goes
    | stop _ _ handled | abandon _ _ handled => simp [program, ThreadId.isLibrary] at handled
  · obtain same | ⟨_, _, -, here, -, -, rfl⟩ := woken.valid.arrives taken rfl there
    · exact was (Or.inr same)
    · exact was (Or.inl here)

theorem Woken.preserved (woken : Woken state) (signalled : Signalled state action)
    (taken : step state action = some next) : Woken next :=
  ⟨woken.valid.preserved taken, woken.wait_preserved taken, woken.waiting_preserved signalled taken,
    woken.signal_preserved taken, woken.main_preserved signalled taken,
    woken.execute_preserved signalled taken⟩

theorem initial_woken : Woken initial where
  valid := initial_valid
  wait thread handle returns := by cases thread <;> simp [WaitReturns, initial] at returns
  waiting thread handle mutex waits := by cases thread <;> simp [initial] at waits
  signal own there := by simp [initial] at there
  main mutex pc waits := by simp [initial] at waits
  execute returns := by simp [ExecuteReturns, initial] at returns

end

/--
In a run in which every wake-up from nowhere comes after the event, and in which nobody starts a first
thread while `zs__execute` is awake, every wait returns when its event has happened.
-/
theorem returnsRight_of_signalled {state : State} (reached : Reach step Signalled initial state) :
    ReturnsRight state := by
  have woken : Woken state := reached.invariant Woken initial_woken
    fun _ _ _ woken signalled taken => woken.preserved signalled taken
  exact ⟨woken.wait, woken.execute⟩

def executeSignalled : List Action :=
  launch ++ runs .main 2 ++ .call (.library 0) .cleanupLockMap :: runs (.library 0) 7 ++ runs .main 1

theorem returnsRight_of_signalled_executeSignalled :
    ∃ final, exec step initial executeSignalled = some final ∧ ExecuteReturns final ∧
      ReturnsRight final := by
  have reached : (exec step initial executeSignalled).map (fun final => final.status .main) =
      some (.running .mainUnlock) := by decide
  obtain ⟨final, run, returns⟩ := Option.map_eq_some_iff.mp reached
  have meets : Along step Signalled initial executeSignalled := by decide
  exact ⟨final, run, Or.inl returns, returnsRight_of_signalled (reach_of_along run meets)⟩

/-- Thread 0 waits for thread 1 and `zs__execute` for both; both waits wake up from nowhere. -/
def spuriousWakeUps : List Action :=
  launch ++ create (.library 0) { thread := 1, run := true, abort := false } ++
    execute (.library 0) 1 ++ runs (.library 1) 3 ++ wait (.library 0) 1 ++
    .wake (.library 0) :: runs (.library 0) 1 ++ runs .main 2 ++ .wake .main :: runs .main 1

/-- Thread 1 is still in its run function, and two threads are running. -/
theorem returnsRight_fails_spuriousWakeUps :
    ∃ final, exec step initial spuriousWakeUps = some final ∧
      WaitReturns final (.library 0) 1 ∧ final.status (.library 1) = .running .caller ∧
      ExecuteReturns final ∧ final.data.threadsRunning = 2 ∧ ¬ ReturnsRight final := by
  have reached : (exec step initial spuriousWakeUps).map (fun final =>
      (final.status (.library 0), final.status (.library 1), final.status .main,
        final.data.threadsRunning)) =
      some (.running (.waitUnlockEntry 1), .running .caller, .running .mainUnlock, 2) := by decide
  obtain ⟨final, run, parts⟩ := Option.map_eq_some_iff.mp reached
  simp only [Prod.mk.injEq] at parts
  obtain ⟨waiter, runs, main, two⟩ := parts
  exact ⟨final, run, waiter, runs, Or.inl main, two, fun right => by
    simpa [two] using right.execute (Or.inl main)⟩

end ZSystem.Thread
