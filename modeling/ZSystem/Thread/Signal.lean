import ZSystem.Shared.Trace
import ZSystem.Thread.Enqueue
import ZSystem.Thread.Exact
import ZSystem.Thread.Execute
import ZSystem.Thread.Finish

set_option autoImplicit false

/-!
# What happens in which order

The events of a whole `zs__execute` with an exact registry: threads are counted, their gates are opened,
they enter their run functions, they are discounted, and `threads_running_cv` is signalled.
-/

namespace ZSystem.Thread

open Posix Transition Trace

inductive Event where
  -- `++threads_running` in the `zs__thread_create` of the thread.
  | created (thread : Nat)
  -- `zs__thread_execute` unlocks the gate.
  | opened (handle : Nat)
  -- `zs__thread_start` calls the run function.
  | entered (thread : Nat)
  -- `--threads_running` in the `zs__thread_cleanup` of the thread.
  | finished (thread : Nat)
  -- `pthread_cond_signal` on `threads_running_cv` in the `zs__thread_cleanup` of the thread.
  | signalled (thread : Nat)
  deriving DecidableEq, Repr

def ThreadId.own : ThreadId -> Option Nat
  | .library own => some own
  | _ => none

def eventAt (data : Data) (thread : ThreadId) : PC -> Option Event
  | .createIncrement args => some (.created args.thread)
  | .executeUnlockGate handle => some (.opened handle)
  | .startRun => thread.own.bind fun own =>
      if (data.record own).map Record.run = some true then some (.entered own) else none
  | .cleanupDecrement => thread.own.map .finished
  | .cleanupSignal => thread.own.map .signalled
  | _ => none

def event (state : State) : Action -> Option Event
  | .run thread _ =>
      match state.status thread with
      | .running pc => eventAt state.data thread pc
      | _ => none
  | _ => none

abbrev History := Traced State Event

abbrev observed : History -> Action -> Option History := observe exactProgram.step event

def begin : History := { state := initial, trace := [] }

def createsOutside : Action -> Bool
  | .call (.outside _) (.createLockRunning _) => true
  | _ => false

-- Threads are created by `zs__execute` and by the threads of the library only.
def CreatedInside (_ : History) (action : Action) : Prop := createsOutside action = false

instance (history : History) (action : Action) : Decidable (CreatedInside history action) :=
  inferInstanceAs (Decidable (createsOutside action = false))

def Event.finisher : Event -> Option Nat
  | .finished thread => some thread
  | _ => none

def lastFinished (trace : List Event) : Option Nat := (trace.filterMap Event.finisher).getLast?

/-- What has to be in front of an event. -/
def Allowed (front : List Event) : Event -> Prop
  | .created thread => .created thread ∉ front ∧ ∀ own, .signalled own ∉ front
  | .opened _ => True
  | .entered thread => .opened thread ∈ front ∧ .entered thread ∉ front
  | .finished thread => .created thread ∈ front ∧ .finished thread ∉ front
  | .signalled own =>
      (∀ thread, .created thread ∈ front -> .finished thread ∈ front) ∧ lastFinished front = some own ∧
        ∀ other, .signalled other ∉ front

def Event.signaller : Event -> Option Nat
  | .signalled thread => some thread
  | _ => none

def Event.creates : Event -> Option Nat
  | .created thread => some thread
  | _ => none

def unfinished (trace : List Event) : Finset Nat :=
  (trace.filterMap Event.creates).toFinset.filter fun thread => .finished thread ∉ trace

structure Orderly (history : History) : Prop where
  ordered : Ordered Allowed history.trace
  counter : history.state.data.threadsRunning = (unfinished history.trace).card
  -- Once every thread has ended there has been one signal, from the thread that has finished last.
  complete : (∃ thread, .created thread ∈ history.trace) ->
    (∀ thread, .created thread ∈ history.trace -> history.state.status (.library thread) = .running .finished) ->
      ∃ own, history.trace.filterMap Event.signaller = [own] ∧ lastFinished history.trace = some own

/-! ## Each event with its step -/

section

variable {state next : State} {action : Action} {thread : ThreadId} {pc place : PC}

inductive Observed (state next : State) (action : Action) : Option Event -> Prop where
  | created {thread : ThreadId} {pick : Nat} {args : Create} (run : action = .run thread pick)
      (here : state.status thread = .running (.createIncrement args))
      (there : next.status thread = .running (.createUnlockRunning args))
      (counted : next.data.counted = insert args.thread state.data.counted)
      (executed : next.data.executed = state.data.executed) :
      Observed state next action (some (.created args.thread))
  | opened {handle : Nat} (counted : next.data.counted = state.data.counted)
      (executed : next.data.executed =
        Function.update state.data.executed handle (state.data.executed handle + 1)) :
      Observed state next action (some (.opened handle))
  | entered {own pick : Nat} (run : action = .run (.library own) pick)
      (here : state.status (.library own) = .running .startRun)
      (there : next.status (.library own) = .running .caller)
      (counted : next.data.counted = state.data.counted)
      (executed : next.data.executed = state.data.executed) :
      Observed state next action (some (.entered own))
  | finished {own pick : Nat} (run : action = .run (.library own) pick)
      (here : state.status (.library own) = .running .cleanupDecrement)
      (there : next.status (.library own) =
        .running (if state.data.threadsRunning - 1 = 0 then .cleanupSignal else .cleanupUnlockRunning))
      (counted : next.data.counted = state.data.counted.erase own)
      (executed : next.data.executed = state.data.executed) :
      Observed state next action (some (.finished own))
  | signalled {own pick : Nat} (run : action = .run (.library own) pick)
      (here : state.status (.library own) = .running .cleanupSignal)
      (there : next.status (.library own) = .running .cleanupUnlockRunning)
      (counted : next.data.counted = state.data.counted)
      (executed : next.data.executed = state.data.executed) :
      Observed state next action (some (.signalled own))
  | silent (counted : next.data.counted = state.data.counted)
      (executed : next.data.executed = state.data.executed) : Observed state next action none

theorem quiet_outcome {data after : Data} {pick : Nat} {status : Status Obj PC}
    (ran : program.outcome thread pick pc data = some (after, status))
    (create : ∀ args, pc ≠ .createIncrement args) (opens : ∀ handle, pc ≠ .executeUnlockGate handle)
    (finish : pc ≠ .cleanupDecrement) : after.counted = data.counted ∧ after.executed = data.executed := by
  rcases outcome_writes ran with rfl | writes
  · exact ⟨rfl, rfl⟩
  · cases writes with
    | count thread args => exact absurd rfl (create args)
    | execute thread handle => exact absurd rfl (opens handle)
    | uncount own => exact absurd rfl finish
    | unregister own removed =>
        obtain ⟨threadMap, dangling, rfl, -, -⟩ := unregister_parts removed
        exact ⟨rfl, rfl⟩
    | _ => exact ⟨rfl, rfl⟩

theorem observed_instr {pick : Nat} (here : state.status thread = .running pc)
    (ran : program.outcome thread pick pc state.data = some (next.data, next.status thread)) :
    Observed state next (.run thread pick) (eventAt state.data thread pc) := by
  cases pc
  case createIncrement args =>
    simp only [Program.outcome, program, code, goTo, Instr.result, note, Option.map_some, Option.some.injEq,
      Prod.mk.injEq] at ran
    exact .created rfl here ran.2.symm (by rw [← ran.1]) (by rw [← ran.1])
  case executeUnlockGate handle =>
    simp only [Program.outcome, program, code, Instr.result, note, Option.map_some, Option.some.injEq,
      Prod.mk.injEq] at ran
    exact .opened (by rw [← ran.1]) (by rw [← ran.1])
  case startRun | cleanupDecrement | cleanupSignal =>
    cases thread <;>
      simp only [Program.outcome, program, code, withRecord, branch, Instr.result, note, Option.map_some,
        Option.map_none, Option.some.injEq, Prod.mk.injEq, reduceCtorEq] at ran
    obtain ⟨data, status⟩ := ran
    first
      | exact .finished rfl here status.symm (by rw [← data]) (by rw [← data])
      | exact .signalled rfl here status.symm (by rw [← data]) (by rw [← data])
      | simp only [eventAt, ThreadId.own, Option.bind_some]
        split_ifs at status ⊢
        · exact .entered rfl here status.symm (by rw [← data]) (by rw [← data])
        · exact .silent (by rw [← data]) (by rw [← data])
  all_goals
    obtain ⟨counted, executed⟩ := quiet_outcome ran (by simp) (by simp) (by simp)
    exact .silent counted executed

theorem observed_step (taken : step state action = some next) : Observed state next action (event state action) := by
  cases step_cases taken with
  | @instr thread pick pc after here performed =>
      simp only [event, here]
      exact observed_instr here (run_parts here taken).2.1
  | resume here => simpa only [event, here] using .silent rfl rfl
  | call here chosen =>
      obtain ⟨_, -, -, rfl, -⟩ | ⟨-, rfl, -⟩ := calls_cases chosen <;> exact .silent rfl rfl
  | wake | stop | abandon => exact .silent rfl rfl

/-! ## Places that are behind a thread for good -/

def PC.starting : PC -> Bool
  | .startLock | .startUnlock | .startRun => true
  | _ => false

/-- The places in front of `++threads_running`. -/
def PC.beforeCount : PC -> Bool
  | .mainStart | .createLockRunning _ | .createIncrement _ => true
  | _ => false

theorem place_source {data after : Data} {pick : Nat}
    (ran : program.outcome thread pick pc data = some (after, .running place)) :
    (place.starting = true -> pc.starting = true) ∧ (place.beforeCount = true -> pc.beforeCount = true) := by
  cases pc <;> cases thread <;>
    simp only [Program.outcome, program, code, Instr.result, goTo, branch, lookUp, withRecord, inExecute,
      afterCreate, afterExecute, Option.map_some, Option.map_none, Option.some.injEq, Prod.mk.injEq,
      reduceCtorEq, and_false, Status.running.injEq] at ran
  case cleanupRemove.library =>
    simp only [Option.map_map, Option.map_eq_some_iff, Function.comp_apply, Prod.mk.injEq,
      Status.running.injEq] at ran
    obtain ⟨_, -, -, rfl⟩ := ran
    exact ⟨Bool.noConfusion, Bool.noConfusion⟩
  all_goals
    obtain ⟨-, rfl⟩ := ran
    first
      | exact ⟨id, id⟩
      | exact ⟨fun _ => rfl, Bool.noConfusion⟩
      | exact ⟨Bool.noConfusion, fun _ => rfl⟩
      | exact ⟨Bool.noConfusion, Bool.noConfusion⟩
      | (split_ifs <;> exact ⟨Bool.noConfusion, Bool.noConfusion⟩)

theorem Valid.resumes (valid : Valid state) {cv mutex : Obj} (here : state.status thread = .waiting cv mutex pc) :
    pc.starting = false ∧ pc.beforeCount = false := by
  obtain ⟨-, -, -, rfl⟩ | ⟨handle, -, -, -, rfl | rfl⟩ := (valid.waits here).2 <;> exact ⟨rfl, rfl⟩

theorem Valid.arrives_starting (valid : Valid state) (taken : step state action = some next)
    (there : next.status thread = .running place) (starting : place.starting = true) :
    (∃ pc, state.status thread = .running pc ∧ pc.starting = true) ∨ state.status thread = .absent := by
  cases arrival taken thread with
  | stays same => exact Or.inl ⟨place, same ▸ there, starting⟩
  | instr _ here _ ran =>
      rw [there] at ran
      exact Or.inl ⟨_, here, (place_source ran).1 starting⟩
  | born _ _ _ _ absent => exact Or.inr absent
  | resume _ here _ _ resumed =>
      cases there.symm.trans resumed
      simp [(valid.resumes here).1] at starting
  | call _ _ chosen called =>
      cases there.symm.trans called
      obtain ⟨_, rfl, -⟩ | ⟨-, -, ⟨_, rfl | rfl | rfl | rfl⟩ | ⟨rfl, -⟩⟩ := calls_cases chosen <;>
        simp [PC.starting] at starting
  | stop _ _ handled _ stopped =>
      cases there.symm.trans stopped
      obtain ⟨rfl, -⟩ := handler_place handled
      simp [PC.starting] at starting
  | abandon _ _ _ abandoned => simp [there] at abandoned

theorem Valid.arrives_beforeCount (valid : Valid state) (taken : step state action = some next)
    (there : next.status thread = .running place) (before : place.beforeCount = true) :
    (∃ pc, state.status thread = .running pc ∧ pc.beforeCount = true) ∨
      (thread ≠ .main ∧ ∃ args, action = .call thread (.createLockRunning args)) := by
  cases arrival taken thread with
  | stays same => exact Or.inl ⟨place, same ▸ there, before⟩
  | instr _ here _ ran =>
      rw [there] at ran
      exact Or.inl ⟨_, here, (place_source ran).2 before⟩
  | born _ _ _ instr _ started =>
      obtain ⟨_, _, _, rfl⟩ := code_start instr
      cases there.symm.trans started
      simp [PC.beforeCount] at before
  | resume _ here _ _ resumed =>
      cases there.symm.trans resumed
      simp [(valid.resumes here).2] at before
  | call run here chosen called =>
      cases there.symm.trans called
      obtain ⟨args, rfl, -, -, rfl | ⟨rfl, -⟩⟩ | ⟨-, -, ⟨_, rfl | rfl | rfl | rfl⟩ | ⟨rfl, -⟩⟩ :=
        calls_cases chosen
      · exact Or.inr ⟨(valid.at here).placed, args, run⟩
      · exact Or.inl ⟨.mainStart, here, rfl⟩
      all_goals simp [PC.beforeCount] at before
  | stop _ _ handled _ stopped =>
      cases there.symm.trans stopped
      obtain ⟨rfl, -⟩ := handler_place handled
      simp [PC.beforeCount] at before
  | abandon _ _ _ abandoned => simp [there] at abandoned

end

/-! ## What the events say about the state -/

structure Logged (history : History) : Prop where
  valid : Valid history.state
  counted : ∀ thread, thread ∈ history.state.data.counted ↔
    .created thread ∈ history.trace ∧ .finished thread ∉ history.trace
  begun : ∀ thread, .finished thread ∈ history.trace ->
    .created thread ∈ history.trace ∧ thread ∈ history.state.data.started
  opened : ∀ handle, history.state.data.executed handle ≠ 0 -> .opened handle ∈ history.trace
  entered : ∀ thread, .entered thread ∈ history.trace -> thread ∈ history.state.data.started ∧
    ∀ pc, history.state.status (.library thread) = .running pc -> pc.starting = false
  first : ∀ pc, history.state.status .main = .running pc -> pc.beforeCount = true ->
    ∀ thread, .created thread ∉ history.trace
  outside : ∀ number pc, history.state.status (.outside number) = .running pc -> pc.beforeCount = false
  -- After the signal nobody is left who could create a thread.
  quiet : ∀ own, .signalled own ∈ history.trace -> history.state.data.counted = ∅
  ready : ∀ own, history.state.status (.library own) = .running .cleanupSignal ->
    history.state.data.counted = ∅ ∧ lastFinished history.trace = some own ∧
      ∀ other, .signalled other ∉ history.trace
  done : history.state.data.counted = ∅ -> (∃ thread, .created thread ∈ history.trace) ->
    (∃ own, .signalled own ∈ history.trace) ∨
      ∃ own, history.state.status (.library own) = .running .cleanupSignal
  ordered : Ordered Allowed history.trace

theorem mem_of_lastFinished {trace : List Event} {own : Nat} (last : lastFinished trace = some own) :
    .finished own ∈ trace := by
  obtain ⟨event, member, same⟩ := List.mem_filterMap.mp (List.mem_of_getLast? last)
  cases event <;> simp only [Event.finisher, Option.some.injEq, reduceCtorEq] at same
  exact same ▸ member

theorem signalled_once {trace : List Event} {own : Nat} (ordered : Ordered Allowed trace)
    (signalled : .signalled own ∈ trace) :
    trace.filterMap Event.signaller = [own] ∧ lastFinished trace = some own := by
  obtain ⟨front, back, rfl⟩ := List.append_of_mem signalled
  obtain ⟨ended, last, unsignalled⟩ := ordered front _ back rfl
  have noneBefore : front.filterMap Event.signaller = [] := List.filterMap_eq_nil_iff.mpr fun event member => by
    cases event with
    | signalled other => exact absurd member (unsignalled other)
    | _ => rfl
  -- Behind the signal no thread is created, and those created before it have finished.
  have noneBehind (event : Event) (member : event ∈ back) : event.signaller = none ∧ event.finisher = none := by
    obtain ⟨first, rest, rfl⟩ := List.append_of_mem member
    have allowed := ordered (front ++ .signalled own :: first) event rest (by simp)
    cases event with
    | signalled other => exact absurd (by simp) (allowed.2.2 own)
    | finished thread =>
        obtain ⟨created, unfinished⟩ := allowed
        simp only [List.mem_append, List.mem_cons, reduceCtorEq, false_or, not_or] at created unfinished
        rcases created with before | after
        · exact absurd (ended thread before) unfinished.1
        · obtain ⟨start, remaining, rfl⟩ := List.append_of_mem after
          exact absurd (by simp) ((ordered (front ++ .signalled own :: start) (.created thread)
            (remaining ++ .finished thread :: rest) (by simp)).2 own)
    | _ => exact ⟨rfl, rfl⟩
  have signallers : back.filterMap Event.signaller = [] :=
    List.filterMap_eq_nil_iff.mpr fun event member => (noneBehind event member).1
  have finishers : back.filterMap Event.finisher = [] :=
    List.filterMap_eq_nil_iff.mpr fun event member => (noneBehind event member).2
  have same : (front ++ .signalled own :: back).filterMap Event.finisher = front.filterMap Event.finisher := by
    rw [List.filterMap_append, List.filterMap_cons_none rfl, finishers, List.append_nil]
  constructor
  · simp [noneBefore, signallers, Event.signaller]
  · rw [lastFinished, same]
    exact last

theorem lastFinished_append (trace : List Event) (event : Option Event) :
    lastFinished (trace ++ event.toList) = ((event.bind Event.finisher).or (lastFinished trace)) := by
  cases event with
  | none => simp [lastFinished]
  | some event => cases event <;> simp [lastFinished, Event.finisher]

section

variable {history : History} {next : State} {action : Action} {seen : Option Event} {thread : ThreadId}

theorem Logged.alive (logged : Logged history) {own : Nat} {pc : PC}
    (here : history.state.status (.library own) = .running pc) (counts : pc.uncounted = false) :
    own ∈ history.state.data.counted :=
  ((logged.valid.at here).own own rfl).counted.mpr counts

theorem Logged.open_end (logged : Logged history) {thread : Nat}
    (member : thread ∈ history.state.data.counted) : (∀ own, .signalled own ∉ history.trace) ∧
      ∀ own, history.state.status (.library own) ≠ .running .cleanupSignal := by
  refine ⟨fun own signalled => ?_, fun own here => ?_⟩
  · simp [logged.quiet own signalled] at member
  · simp [(logged.ready own here).1] at member

/-- Whoever counts a new thread is counted itself, or it is `zs__execute` before its first thread. -/
theorem Logged.creates (logged : Logged history) {args : Create}
    (here : history.state.status thread = .running (.createIncrement args)) :
    .created args.thread ∉ history.trace ∧ .finished args.thread ∉ history.trace ∧
      (∀ own, .signalled own ∉ history.trace) ∧
        ∀ own, history.state.status (.library own) ≠ .running .cleanupSignal := by
  have place : Creating history.state.data thread args.thread False False := (logged.valid.at here).place
  have unfinished : .finished args.thread ∉ history.trace := fun finished =>
    place.notStarted (logged.begun _ finished).2
  refine ⟨fun created => place.counted.mp ((logged.counted _).mpr ⟨created, unfinished⟩), unfinished, ?_⟩
  cases thread with
  | library own => exact logged.open_end (logged.alive here rfl)
  | outside number => exact absurd (logged.outside number _ here) Bool.noConfusion
  | main =>
      have none_created := logged.first _ here rfl
      refine ⟨fun own signalled => ?_, fun own last => ?_⟩
      · obtain ⟨front, back, same⟩ := List.append_of_mem signalled
        have finished := mem_of_lastFinished (logged.ordered front _ back same).2.1
        exact none_created own (logged.begun own (by simp [same, finished])).1
      · exact none_created own (logged.begun own (mem_of_lastFinished (logged.ready own last).2.1)).1

theorem Logged.counted_next (logged : Logged history) (observed : Observed history.state next action seen)
    (thread : Nat) : thread ∈ next.data.counted ↔
      .created thread ∈ history.trace ++ seen.toList ∧ .finished thread ∉ history.trace ++ seen.toList := by
  have before := logged.counted thread
  cases observed with
  | @created _ _ args _ here _ counted =>
      obtain ⟨-, unfinished, -⟩ := logged.creates here
      by_cases same : thread = args.thread
      · simp [counted, same, unfinished]
      · simp [counted, same, before]
  | @finished own _ _ _ _ counted =>
      by_cases same : thread = own
      · simp [counted, same]
      · simp [counted, same, before]
  | opened counted | entered _ _ _ counted | signalled _ _ _ counted | silent counted =>
      simpa [counted] using before

theorem Logged.begun_next (logged : Logged history) (grows : Grows history.state.data next.data)
    (observed : Observed history.state next action seen) (thread : Nat)
    (finished : .finished thread ∈ history.trace ++ seen.toList) :
    .created thread ∈ history.trace ++ seen.toList ∧ thread ∈ next.data.started := by
  rcases List.mem_append.mp finished with before | now
  · obtain ⟨created, started⟩ := logged.begun thread before
    exact ⟨List.mem_append_left _ created, grows.started started⟩
  · cases observed with
    | @finished own _ _ here =>
        obtain rfl : thread = own := by simpa using now
        have counted := logged.alive here rfl
        exact ⟨List.mem_append_left _ ((logged.counted thread).mp counted).1,
          grows.started ((logged.valid.at here).own thread rfl).started⟩
    | _ => simp at now

theorem Logged.opened_next (logged : Logged history) (observed : Observed history.state next action seen)
    (handle : Nat) (executed : next.data.executed handle ≠ 0) : .opened handle ∈ history.trace ++ seen.toList := by
  have before := logged.opened handle
  cases observed with
  | @opened other counted now =>
      by_cases same : handle = other
      · simp [same]
      · rw [now, Function.update_of_ne same] at executed
        exact List.mem_append_left _ (before executed)
  | created _ _ _ _ same | entered _ _ _ _ same | finished _ _ _ _ same | signalled _ _ _ _ same
  | silent _ same => exact List.mem_append_left _ (before (same ▸ executed))

theorem Logged.entered_next (logged : Logged history) (taken : step history.state action = some next)
    (observed : Observed history.state next action seen) (thread : Nat)
    (entered : .entered thread ∈ history.trace ++ seen.toList) :
    thread ∈ next.data.started ∧ ∀ pc, next.status (.library thread) = .running pc -> pc.starting = false := by
  have grows := logged.valid.grows taken
  rcases List.mem_append.mp entered with before | now
  · obtain ⟨started, through⟩ := logged.entered thread before
    refine ⟨grows.started started, fun pc there => ?_⟩
    by_contra starting
    obtain ⟨place, here, also⟩ | absent := logged.valid.arrives_starting taken there (by simpa using starting)
    · simp [through place here] at also
    · have outline := logged.valid.outline (.library thread)
      rw [absent] at outline
      obtain ⟨own, same, unborn⟩ := outline
      cases same
      exact unborn started
  · cases observed with
    | @entered own _ _ here there =>
        obtain rfl : thread = own := by simpa using now
        refine ⟨grows.started ((logged.valid.at here).own thread rfl).started, fun pc also => ?_⟩
        cases there.symm.trans also
        rfl
    | _ => simp at now

theorem Logged.first_next (logged : Logged history) (taken : step history.state action = some next)
    (observed : Observed history.state next action seen) {pc : PC} (there : next.status .main = .running pc)
    (before : pc.beforeCount = true) (thread : Nat) : .created thread ∉ history.trace ++ seen.toList := by
  obtain ⟨place, here, also⟩ | ⟨differ, -⟩ := logged.valid.arrives_beforeCount taken there before
  · have none_created := logged.first place here also
    cases observed with
    | @created creator _ args _ increments moved =>
        cases creator with
        | main =>
            cases there.symm.trans moved
            exact absurd before Bool.noConfusion
        | library own =>
            have counted := logged.alive increments rfl
            exact absurd ((logged.counted own).mp counted).1 (none_created own)
        | outside number => exact absurd (logged.outside number _ increments) Bool.noConfusion
    | _ => simpa using none_created thread
  · exact absurd rfl differ

theorem Logged.outside_next (logged : Logged history) (inside : CreatedInside history action)
    (taken : step history.state action = some next) (number : Nat) (pc : PC)
    (there : next.status (.outside number) = .running pc) : pc.beforeCount = false := by
  by_contra before
  obtain ⟨place, here, also⟩ | ⟨-, args, rfl⟩ :=
    logged.valid.arrives_beforeCount taken there (by simpa using before)
  · simp [logged.outside number place here] at also
  · exact absurd inside Bool.noConfusion

theorem Logged.quiet_next (logged : Logged history) (observed : Observed history.state next action seen) (own : Nat)
    (signalled : .signalled own ∈ history.trace ++ seen.toList) : next.data.counted = ∅ := by
  have before := logged.quiet own
  cases observed with
  | created _ here => exact absurd (by simpa using signalled) ((logged.creates here).2.2.1 own)
  | finished _ here => exact absurd (by simpa using signalled) ((logged.open_end (logged.alive here rfl)).1 own)
  | signalled _ here _ counted => exact counted ▸ (logged.ready _ here).1
  | opened counted | entered _ _ _ counted | silent counted => exact counted ▸ before (by simpa using signalled)

/-- The decrement to 0 finds the own thread as the only one that is counted. -/
theorem Logged.last (logged : Logged history) {own : Nat}
    (here : history.state.status (.library own) = .running .cleanupDecrement) :
    history.state.data.threadsRunning - 1 = 0 ↔ history.state.data.counted.erase own = ∅ := by
  rw [← logged.valid.data.card, ← Finset.card_erase_of_mem (logged.alive here rfl), Finset.card_eq_zero]

theorem Logged.ready_next (logged : Logged history) (taken : step history.state action = some next)
    (shows : ZSystem.Thread.event history.state action = seen)
    (observed : Observed history.state next action seen) (own : Nat)
    (there : next.status (.library own) = .running .cleanupSignal) :
    next.data.counted = ∅ ∧ lastFinished (history.trace ++ seen.toList) = some own ∧
      ∀ other, .signalled other ∉ history.trace ++ seen.toList := by
  obtain stays | ⟨pick, pc, rfl, here, -, -, rfl, zero⟩ := logged.valid.arrives taken rfl there
  · obtain ⟨none_counted, last, unsignalled⟩ := logged.ready own stays
    cases observed with
    | created _ increments => exact absurd stays ((logged.creates increments).2.2.2 own)
    | finished _ here =>
        exact absurd stays ((logged.open_end (logged.alive here rfl)).2 own)
    | signalled _ here moved =>
        cases logged.valid.running_alone here stays rfl rfl
        cases there.symm.trans moved
    | opened counted | entered _ _ _ counted | silent counted =>
        refine ⟨counted ▸ none_counted, ?_, by simpa using unsignalled⟩
        rw [lastFinished_append]
        simpa [Event.finisher] using last
  · simp only [ZSystem.Thread.event, here, eventAt, ThreadId.own, Option.map_some] at shows
    subst shows
    cases observed with
    | finished _ _ _ counted =>
        have unsignalled := (logged.open_end (logged.alive here rfl)).1
        refine ⟨counted.trans ((logged.last here).mp zero), ?_, by simpa using unsignalled⟩
        rw [lastFinished_append]
        simp [Event.finisher]

theorem Logged.done_next (logged : Logged history) (taken : step history.state action = some next)
    (shows : ZSystem.Thread.event history.state action = seen)
    (observed : Observed history.state next action seen) (none_counted : next.data.counted = ∅)
    (made : ∃ thread, .created thread ∈ history.trace ++ seen.toList) :
    (∃ own, .signalled own ∈ history.trace ++ seen.toList) ∨
      ∃ own, next.status (.library own) = .running .cleanupSignal := by
  -- A signal that is due is still due, unless its thread has taken this step.
  have due (same : next.data.counted = history.state.data.counted)
      (old : ∃ thread, .created thread ∈ history.trace)
      (other : ∀ own, seen ≠ some (.signalled own)) : (∃ own, .signalled own ∈ history.trace ++ seen.toList) ∨
        ∃ own, next.status (.library own) = .running .cleanupSignal := by
    obtain ⟨own, signalled⟩ | ⟨own, here⟩ := logged.done (same ▸ none_counted) old
    · exact Or.inl ⟨own, List.mem_append_left _ signalled⟩
    · obtain stays | ⟨pick, rfl⟩ := cleanup_stays here rfl taken
      · exact Or.inr ⟨own, stays⟩
      · exact absurd (by simp [← shows, ZSystem.Thread.event, here, eventAt, ThreadId.own]) (other own)
  cases observed with
  | created _ _ _ counted => simp [counted] at none_counted
  | @finished own _ _ here there counted =>
      exact Or.inr ⟨own, by rw [there, if_pos ((logged.last here).mpr (counted.symm.trans none_counted))]⟩
  | @signalled own => exact Or.inl ⟨own, by simp⟩
  | opened counted | entered _ _ _ counted | silent counted =>
      exact due counted (by simpa using made) (by simp)

theorem Logged.allowed_next (logged : Logged history) (observed : Observed history.state next action seen)
    (latest : Event) (new : seen = some latest) : Allowed history.trace latest := by
  subst new
  cases observed with
  | created _ here =>
      obtain ⟨fresh, -, unsignalled, -⟩ := logged.creates here
      exact ⟨fresh, unsignalled⟩
  | opened => trivial
  | @entered own _ _ here =>
      refine ⟨logged.opened own (((logged.valid.at here).own own rfl).executed PC.noConfusion), fun before => ?_⟩
      exact absurd ((logged.entered own before).2 _ here) Bool.noConfusion
  | finished _ here => exact (logged.counted _).mp (logged.alive here rfl)
  | signalled _ here =>
      obtain ⟨none_counted, last, unsignalled⟩ := logged.ready _ here
      refine ⟨fun thread created => ?_, last, unsignalled⟩
      by_contra unfinished
      have counted := (logged.counted thread).mpr ⟨created, unfinished⟩
      simp [none_counted] at counted

theorem Logged.preserved (logged : Logged history) (inside : CreatedInside history action)
    (taken : step history.state action = some next) :
    Logged { state := next, trace := history.trace ++ (ZSystem.Thread.event history.state action).toList } := by
  have observed := observed_step taken
  exact
    { valid := logged.valid.preserved taken
      counted := logged.counted_next observed
      begun := logged.begun_next (logged.valid.grows taken) observed
      opened := logged.opened_next observed
      entered := logged.entered_next taken observed
      first := fun pc there before => logged.first_next taken observed there before
      outside := logged.outside_next inside taken
      quiet := logged.quiet_next observed
      ready := logged.ready_next taken rfl observed
      done := logged.done_next taken rfl observed
      ordered := logged.ordered.toList _ (logged.allowed_next observed) }

/-- With an exact registry as well: only the order of the entries is another one. -/
theorem Logged.observed (logged : Logged history) (intact : history.state.data.dangling = false)
    (inside : CreatedInside history action) {after : History} (taken : observed history action = some after) :
    Logged after ∧ after.state.data.dangling = false := by
  obtain ⟨stepped, trace⟩ := observe_eq_some taken
  obtain ⟨threadMap, same, ordinary⟩ := step_of_exact intact stepped
  have arranged : Logged { history with state := history.state.rearrange threadMap } :=
    { logged with valid := logged.valid.rearrange same }
  have shows : ZSystem.Thread.event (history.state.rearrange threadMap) action =
      ZSystem.Thread.event history.state action := by
    cases action <;> rfl
  have later := arranged.preserved inside ordinary
  rw [shows, ← trace] at later
  exact ⟨later, exact_intact intact stepped⟩

theorem begin_logged : Logged begin where
  valid := initial_valid
  counted thread := by simp [begin, initial]
  begun thread := by simp [begin]
  opened handle := by simp [begin, initial]
  entered thread := by simp [begin]
  first pc _ _ thread := by simp [begin]
  outside number pc there := by
    cases there
    rfl
  quiet own := by simp [begin]
  ready own := by simp [begin, initial]
  done _ := by simp [begin]
  ordered := ordered_nil

theorem Logged.unfinished_eq (logged : Logged history) :
    unfinished history.trace = history.state.data.counted := by
  ext thread
  have creates : (∃ event ∈ history.trace, event.creates = some thread) ↔ .created thread ∈ history.trace := by
    constructor
    · rintro ⟨event, member, same⟩
      cases event <;> simp only [Event.creates, Option.some.injEq, reduceCtorEq] at same
      exact same ▸ member
    · exact fun member => ⟨_, member, rfl⟩
  simp [unfinished, List.mem_filterMap, creates, logged.counted]

theorem Logged.orderly (logged : Logged history) : Orderly history := by
  refine ⟨logged.ordered, ?_, fun made ended => ?_⟩
  · rw [logged.unfinished_eq, logged.valid.data.card]
  · have none_counted : history.state.data.counted = ∅ := Finset.eq_empty_of_forall_notMem fun thread counted => by
      have here := ended thread ((logged.counted thread).mp counted).1
      have uncounted := ((logged.valid.at here).own thread rfl).counted.mp counted
      exact absurd uncounted (Bool.noConfusion)
    obtain ⟨own, signalled⟩ | ⟨own, here⟩ := logged.done none_counted made
    · exact ⟨own, signalled_once logged.ordered signalled⟩
    · have finished := mem_of_lastFinished (logged.ready own here).2.1
      cases here.symm.trans (ended own (logged.begun own finished).1)

end

/--
In every order of the steps: a thread enters its run function once at most, and behind the
`zs__thread_execute` that has opened its gate; `threads_running` is the number of the threads created
and not finished; and `threads_running_cv` is signalled once all of them have finished, by the last one.
-/
theorem gate_and_signal {history : History} (reached : Reach observed CreatedInside begin history) :
    Orderly history :=
  (reached.invariant (fun history => Logged history ∧ history.state.data.dangling = false) ⟨begin_logged, rfl⟩
    fun _ _ _ kept inside taken => kept.1.observed kept.2 inside taken).1.orderly

/-- Thread 0 makes thread 1 and ends before it. -/
def firstEndsFirst : List Action :=
  launch ++ create (.library 0) { thread := 1, run := true, abort := false } ++ execute (.library 0) 1 ++
    runs (.library 1) 3 ++ .call (.library 0) .cleanupLockMap :: runs (.library 0) 10 ++
    .call (.library 1) .cleanupLockMap :: runs (.library 1) 11

set_option maxRecDepth 1000 in
theorem gate_and_signal_firstEndsFirst :
    ∃ final, exec observed begin firstEndsFirst = some final ∧ Orderly final ∧
      final.trace = [.created 0, .opened 0, .entered 0, .created 1, .opened 1, .entered 1, .finished 0,
        .finished 1, .signalled 1] ∧
      ∀ thread, .created thread ∈ final.trace -> final.state.status (.library thread) = .running .finished := by
  have reached : (exec observed begin firstEndsFirst).map (fun final =>
      (final.trace, final.state.status (.library 0), final.state.status (.library 1))) =
      some ([.created 0, .opened 0, .entered 0, .created 1, .opened 1, .entered 1, .finished 0, .finished 1,
        .signalled 1], .running .finished, .running .finished) := by decide
  obtain ⟨final, run, parts⟩ := Option.map_eq_some_iff.mp reached
  simp only [Prod.mk.injEq] at parts
  obtain ⟨trace, zero, one⟩ := parts
  have inside : Along observed CreatedInside begin firstEndsFirst := by decide
  refine ⟨final, run, gate_and_signal (reach_of_along run inside), trace, fun thread created => ?_⟩
  obtain rfl | rfl : thread = 0 ∨ thread = 1 := by simpa [trace] using created
  · exact zero
  · exact one

end ZSystem.Thread
