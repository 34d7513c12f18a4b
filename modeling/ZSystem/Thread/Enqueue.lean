import ZSystem.Thread.Exact

set_option autoImplicit false

/-!
# No lost wake-up of a waiter

A waiter takes `waiting_threads_mutex` before it gives up the map, and the cleanup gives up the map
before it takes `waiting_threads_mutex`.
-/

namespace ZSystem.Thread

open Posix Transition

/-- `zs__thread_execute` finds the thread only once, and no thread is cancelled. -/
def ExecutedOnce (handle : Nat) (state : State) : Action -> Prop
  | .run thread _ => state.status thread = .running (.executeFind handle) ->
      state.data.find handle = true -> state.data.executed handle = 0
  | .interrupt _ => False
  | _ => True

instance (handle : Nat) (state : State) :
    (action : Action) -> Decidable (ExecutedOnce handle state action)
  | .run thread _ => inferInstanceAs (Decidable (state.status thread = .running (.executeFind handle) ->
      state.data.find handle = true -> state.data.executed handle = 0))
  | .interrupt _ => instDecidableFalse
  | .call _ _ | .wake _ => instDecidableTrue

/-- A caller has found the thread and is still on its way to `pthread_cond_wait`. -/
def AboutToWait (handle : Nat) : Status Obj PC -> Prop
  | .running (.waitLockEntry other) | .running (.waitIncrement other) | .running (.waitUnlockMap other)
  | .running (.waitCond other) => other = handle
  | _ => False

/-- The cleanup has made its test, and its broadcast where there was one to make. -/
def PC.notified : PC -> Bool
  | .cleanupUnlockEntry | .cleanupDestroy | .finished => true
  | _ => false

/-- The places that own the `waiting_threads_mutex` of an executed thread. -/
def HoldsEntry (handle : Nat) (thread : ThreadId) : PC -> Prop
  | .waitIncrement other | .waitUnlockMap other | .waitCond other | .waitUnlockEntry other =>
      other = handle
  | .startUnlock | .cleanupTest | .cleanupBroadcast | .cleanupUnlockEntry => thread = .library handle
  | _ => False

/-- The instructions that break the rule that whoever locks also unlocks. -/
def OpensGate (handle : Nat) (_ : ThreadId) (pc : PC) : Prop :=
  pc = .executeUnlockGate handle ∨ ∃ args, pc = .createLockGate args ∧ args.thread = handle

def uncancelled : Program ThreadId Obj PC Data := { program with handler := fun _ => none }

theorem entry_guards (handle : Nat) :
    Guards uncancelled (.waitingThreadsMutex handle) (HoldsEntry handle) (OpensGate handle) := by
  refine guards_of_instr (by simp) (fun thread pc regular => ?_) (fun thread pc => ?_) (by simp)
  · simp only [OpensGate, not_or, not_exists, not_and] at regular
    cases pc <;> simp [code, HoldsEntry] at regular ⊢
    case cleanupRemove => exact fun _ _ => respects_attempt (by simp [HoldsEntry])
    case createLockGate | executeUnlockGate => exact regular
    case createReturn => cases thread <;> simp [afterCreate]
    case executeUnlockMap => cases thread <;> simp [afterExecute]
    case executeFind | abortFind | waitFind =>
      intro data
      split_ifs <;> simp
    case startRun | cleanupDecrement | cleanupTest =>
      rintro own rfl data
      split_ifs <;> simp
    all_goals
      rintro own rfl
      split_ifs with same <;> simp [same]
  · cases pc <;> simp [HoldsEntry, PC.entrance]

/-- Nobody has unlocked the mutex of a thread that `zs__thread_execute` is about to unlock it for. -/
def GateShut (handle : Nat) (state : State) : Prop :=
  ∀ thread, state.status thread = .running (.executeUnlockGate handle) -> state.data.executed handle = 0

section

variable {state next : State} {action : Action} {handle : Nat}

theorem At.executed {data : Data} {thread : ThreadId} {pc : PC} (here : At data thread pc)
    (holds : HoldsEntry handle thread pc) : data.executed handle ≠ 0 := by
  obtain ⟨-, place, own⟩ := here
  cases pc <;> simp only [HoldsEntry] at holds
  case waitIncrement => exact holds ▸ place.2
  case waitUnlockMap | waitCond | waitUnlockEntry => exact holds ▸ place.2.1
  all_goals exact (own handle holds).executed PC.noConfusion

theorem executes (handle : Nat) (taken : step state action = some next) :
    next.data.executed handle = state.data.executed handle ∨
      ∃ thread pick, action = .run thread pick ∧
        state.status thread = .running (.executeUnlockGate handle) := by
  cases step_cases taken with
  | @instr thread pick pc after here performed =>
      obtain ⟨-, ran, -, -⟩ := outcome_parts performed
      change (program.note thread pc after.data).executed handle = _ ∨ _
      rcases outcome_writes ran with same | writes
      · exact Or.inl (by rw [same])
      · generalize program.note thread pc after.data = result at writes
        cases writes with
        | execute thread other =>
            by_cases same : handle = other
            · exact Or.inr ⟨thread, pick, rfl, same ▸ here⟩
            · exact Or.inl (by simp [same])
        | unregister own removed =>
            obtain ⟨threadMap, dangling, rfl, -, -⟩ := unregister_parts removed
            exact Or.inl rfl
        | _ => exact Or.inl rfl
  | @call thread pc place data here chosen =>
      change data.executed handle = _ ∨ _
      obtain ⟨_, -, -, rfl, -⟩ | ⟨-, rfl, -⟩ := calls_cases chosen <;> exact Or.inl rfl
  | _ => exact Or.inl rfl

theorem uncancelled_step (once : ExecutedOnce handle state action)
    (taken : step state action = some next) : uncancelled.step state action = some next := by
  cases action with
  | interrupt thread => exact absurd once id
  | _ => exact taken

structure Enqueues (handle : Nat) (state : State) : Prop where
  valid : Valid state
  gate : GateShut handle state
  entry : state.data.executed handle ≠ 0 -> Held uncancelled (.waitingThreadsMutex handle)
    (HoldsEntry handle) (state.owner (.waitingThreadsMutex handle)) state.status
  notified : ∀ pc, state.status (.library handle) = .running pc -> pc.notified = true ->
    (∀ thread, state.status thread ≠ .running (.waitCond handle)) ∧
      state.sleepers (.waitingThreadsCv handle) = []

theorem Valid.gate_preserved (valid : Valid state) (gate : GateShut handle state)
    (once : ∀ thread pick, action = .run thread pick -> state.status thread = .running (.executeFind handle) ->
      state.data.find handle = true -> state.data.executed handle = 0)
    (taken : step state action = some next) : GateShut handle next := by
  intro thread there
  have unlocks : state.data.executed handle = 0 ∧
      ∀ actor pick, action = .run actor pick ->
        state.status actor ≠ .running (.executeUnlockGate handle) := by
    obtain same | ⟨pick, pc, rfl, here, -, -, rfl, found⟩ := valid.arrives taken rfl there
    · refine ⟨gate thread same, fun actor pick run here => ?_⟩
      -- The map has one owner, and a thread that opens the gate goes on.
      obtain rfl := valid.map_alone same here rfl rfl
      subst run
      obtain ⟨-, ran, -, -⟩ := run_parts here taken
      rw [there] at ran
      cases (outcome_source ran).1
    · refine ⟨once thread pick rfl here found, fun actor pick run there => ?_⟩
      cases run
      simp [here] at there
  obtain same | ⟨actor, pick, run, here⟩ := executes handle taken
  · rw [same]
    exact unlocks.1
  · exact absurd here (unlocks.2 actor pick run)

theorem Enqueues.entry_preserved (enqueues : Enqueues handle state)
    (once : ExecutedOnce handle state action) (taken : step state action = some next)
    (executed : next.data.executed handle ≠ 0) :
    Held uncancelled (.waitingThreadsMutex handle) (HoldsEntry handle)
      (next.owner (.waitingThreadsMutex handle)) next.status := by
  by_cases before : state.data.executed handle = 0
  · obtain same | ⟨actor, pick, rfl, here⟩ := executes handle taken
    · exact absurd (same.trans before) executed
    · -- The gate opens, and nobody is at a place that owns the mutex.
      have closed (thread : ThreadId) (pc : PC) (known : At state.data thread pc) :
          ¬ HoldsEntry handle thread pc := fun holds => known.executed holds before
      simp only [step, Program.step, here, program, Program.perform, code, Option.map_some,
        Option.some.injEq] at taken
      subst taken
      have none : Held uncancelled (.waitingThreadsMutex handle) (HoldsEntry handle) none state.status := by
        refine ⟨fun thread => ?_, fun thread cv mutex pc waits => ?_⟩
        · simp only [reduceCtorEq, false_iff, not_exists, not_and]
          exact fun pc there => closed thread pc (enqueues.valid.at there)
        · obtain ⟨known, why⟩ := enqueues.valid.waits waits
          have differ : mutex ≠ .waitingThreadsMutex handle := by
            obtain ⟨-, -, rfl, -⟩ | ⟨other, -, rfl, place, -⟩ := why
            · simp
            · rintro ⟨⟩
              exact place.2.1 before
          simpa [differ] using closed thread pc known
      simpa [State.goto] using none.move here (by simp [HoldsEntry])
  · have regular (thread : ThreadId) (pick : Nat) (pc : PC) (run : action = .run thread pick)
        (here : state.status thread = .running pc) : ¬ OpensGate handle thread pc := by
      rintro (rfl | ⟨args, rfl, rfl⟩)
      · exact before (enqueues.gate thread here)
      · exact (enqueues.valid.at here).place.1.gated.mp (enqueues.valid.data.executed _ before)
    exact (entry_guards handle).step (enqueues.entry before) regular (uncancelled_step once taken)

theorem Enqueues.alone (enqueues : Enqueues handle state) {one two : ThreadId} {pc place : PC}
    (here : state.status one = .running pc) (there : state.status two = .running place)
    (holds : HoldsEntry handle one pc) (also : HoldsEntry handle two place) : one = two := by
  have held := enqueues.entry ((enqueues.valid.at here).executed holds)
  exact Option.some.inj (((held.owns here).mpr holds).symm.trans ((held.owns there).mpr also))

theorem waitCond_stays (valid : Valid state) (unknown : handle ∉ state.data.threadMap)
    (taken : step state action = some next) (thread : ThreadId)
    (there : next.status thread = .running (.waitCond handle)) :
    state.status thread = .running (.waitCond handle) := by
  obtain same | ⟨_, _, -, here, -, -, rfl⟩ := valid.arrives taken rfl there
  · exact same
  · exact absurd (valid.at here).place.1 unknown

theorem sleepers_nil (nobody : ∀ thread, state.status thread ≠ .running (.waitCond handle))
    (empty : state.sleepers (.waitingThreadsCv handle) = [])
    (taken : step state action = some next) : next.sleepers (.waitingThreadsCv handle) = [] := by
  refine List.eq_nil_iff_forall_not_mem.mpr fun thread asleep => ?_
  obtain old | ⟨_, pc, _, _, -, here, instr⟩ := sleepers_grow taken asleep
  · simp [empty] at old
  · obtain ⟨-, -, goes, -⟩ | ⟨_, rfl, goes, -⟩ := code_wait instr
    · cases goes
    · cases goes
      exact nobody thread here

theorem no_sleeper (valid : Valid state)
    (here : state.status (.library handle) = .running .cleanupTest)
    (nobody : ∀ record, state.data.record handle = some record -> record.waitingThreads = 0) :
    state.sleepers (.waitingThreadsCv handle) = [] := by
  refine List.eq_nil_iff_forall_not_mem.mpr fun thread asleep => ?_
  obtain ⟨mutex, pc, waits⟩ := valid.asleep.waiting _ thread asleep
  obtain ⟨record, read, -⟩ := ((valid.at here).own handle rfl).stored PC.noConfusion
  have counted := valid.awaited (valid.removed here rfl) (by rw [waits]; exact rfl) record read
  exact absurd (nobody record read) (Nat.ne_of_gt counted)

theorem Enqueues.notified_preserved (enqueues : Enqueues handle state)
    (taken : step state action = some next) (pc : PC)
    (there : next.status (.library handle) = .running pc) (notified : pc.notified = true) :
    (∀ thread, next.status thread ≠ .running (.waitCond handle)) ∧
      next.sleepers (.waitingThreadsCv handle) = [] := by
  have valid := enqueues.valid
  have inner : pc.inner = true := by cases pc <;> simp [PC.notified] at notified <;> rfl
  have later {before : PC} (here : state.status (.library handle) = .running before)
      (removed : before.removed = true)
      (nobody : ∀ thread, state.status thread ≠ .running (.waitCond handle)) (thread : ThreadId) :
      next.status thread ≠ .running (.waitCond handle) := fun arrived =>
    nobody thread (waitCond_stays valid (valid.removed here removed) taken thread arrived)
  have goes (before : PC) (here : state.status (.library handle) = .running before)
      (already : before.notified = true) :
      (∀ thread, next.status thread ≠ .running (.waitCond handle)) ∧
        next.sleepers (.waitingThreadsCv handle) = [] := by
    obtain ⟨nobody, empty⟩ := enqueues.notified before here already
    have removed : before.removed = true := by cases before <;> simp [PC.notified] at already <;> rfl
    exact ⟨later here removed nobody, sleepers_nil nobody empty taken⟩
  -- The cleanup owns the mutex when it makes its test, so nobody is about to wait.
  have owns {before : PC} (here : state.status (.library handle) = .running before)
      (removed : before.removed = true) (holds : HoldsEntry handle (.library handle) before)
      (thread : ThreadId) : state.status thread ≠ .running (.waitCond handle) := fun waits => by
    obtain rfl := enqueues.alone here waits holds rfl
    cases here.symm.trans waits
    simp [PC.removed] at removed
  obtain same | ⟨pick, before, rfl, here, ran, sleepers, source⟩ := valid.arrives taken inner there
  · exact goes pc same notified
  · cases pc <;> simp [PC.notified] at notified
    case cleanupUnlockEntry =>
      obtain rfl | ⟨rfl, nobody⟩ := source
      · refine ⟨later here rfl (owns here rfl rfl), ?_⟩
        simp [sleepers, code, withRecord, Instr.asleep]
      · have empty := no_sleeper valid here fun record read => nobody handle record rfl read
        exact ⟨later here rfl (owns here rfl rfl), sleepers_nil (owns here rfl rfl) empty taken⟩
    case cleanupDestroy =>
      obtain rfl : before = .cleanupUnlockEntry := source
      exact goes _ here rfl
    case finished =>
      obtain rfl : before = .cleanupDestroy := source
      exact goes _ here rfl

theorem Enqueues.preserved (enqueues : Enqueues handle state)
    (once : ExecutedOnce handle state action) (taken : step state action = some next) :
    Enqueues handle next :=
  ⟨enqueues.valid.preserved taken, enqueues.valid.gate_preserved enqueues.gate
      (fun _ _ run => by subst run; exact once) taken,
    enqueues.entry_preserved once taken, enqueues.notified_preserved taken⟩

/-- With an exact registry as well: only the order of the entries is another one. -/
theorem Enqueues.exact_preserved (enqueues : Enqueues handle state) (intact : state.data.dangling = false)
    (once : ExecutedOnce handle state action) (taken : exactProgram.step state action = some next) :
    Enqueues handle next ∧ next.data.dangling = false := by
  obtain ⟨threadMap, same, stepped⟩ := step_of_exact intact taken
  have arranged : Enqueues handle (state.rearrange threadMap) :=
    ⟨enqueues.valid.rearrange same, enqueues.gate, enqueues.entry, enqueues.notified⟩
  have still : ExecutedOnce handle (state.rearrange threadMap) action := by
    cases action with
    | run thread pick => exact fun here found => once here ((Data.find_rearrange same handle).symm.trans found)
    | interrupt => exact once
    | call | wake => trivial
  exact ⟨arranged.preserved still stepped, exact_intact intact taken⟩

theorem initial_enqueues (handle : Nat) : Enqueues handle initial :=
  ⟨initial_valid, fun thread there => by cases thread <;> simp [initial] at there,
    fun executed => absurd rfl executed, fun pc there => by simp [initial] at there⟩

end

/--
With an exact registry: when the cleanup of a thread makes its test, every caller that found the thread is
enqueued; the cleanup then broadcasts if there is one; and behind that nobody is about to wait or left asleep.
-/
theorem waiters_enqueued (handle : Nat) {state : State}
    (reached : Reach exactProgram.step (ExecutedOnce handle) initial state) :
    (state.status (.library handle) = .running .cleanupTest ->
      (∀ thread, InWait handle (state.status thread) ->
        ∃ mutex pc, state.status thread = .waiting (.waitingThreadsCv handle) mutex pc) ∧
      ((∃ thread, InWait handle (state.status thread)) ->
        ∀ pick next, exactProgram.step state (.run (.library handle) pick) = some next ->
          next.status (.library handle) = .running .cleanupBroadcast)) ∧
    ∀ pc, state.status (.library handle) = .running pc -> pc.notified = true ->
      (∀ thread, ¬ AboutToWait handle (state.status thread)) ∧
        state.sleepers (.waitingThreadsCv handle) = [] := by
  have enqueues : Enqueues handle state :=
    (reached.invariant (fun state => Enqueues handle state ∧ state.data.dangling = false)
      ⟨initial_enqueues handle, rfl⟩ fun _ _ _ kept once taken => kept.1.exact_preserved kept.2 once taken).1
  have valid := enqueues.valid
  refine ⟨fun here => ?_, fun pc here notified => ?_⟩
  · have unknown := valid.removed here rfl
    refine ⟨fun thread inside => ?_, fun ⟨thread, inside⟩ pick next taken => ?_⟩
    · have outline := valid.outline thread
      cases there : state.status thread with
      | absent => simp [there, InWait] at inside
      | running pc =>
          rw [there] at inside outline
          cases pc <;> simp only [InWait] at inside
          case waitLockEntry => exact absurd (inside ▸ outline.place) unknown
          case waitIncrement | waitUnlockMap => exact absurd (inside ▸ outline.place.1) unknown
          -- The others own the mutex that the cleanup owns.
          all_goals
            obtain rfl := enqueues.alone here there rfl inside
            simp [here] at there
      | waiting cv mutex pc =>
          rw [there] at inside
          exact ⟨mutex, pc, congrArg (Status.waiting · mutex pc) inside⟩
    · obtain ⟨record, read, -⟩ := ((valid.at here).own handle rfl).stored PC.noConfusion
      have counted := valid.awaited unknown inside record read
      simp [Program.step, here, exactProgram, exactCode, program, Program.perform, code, withRecord, branch, read,
        counted] at taken
      simp [← taken, State.goto]
  · obtain ⟨nobody, empty⟩ := enqueues.notified pc here notified
    refine ⟨fun thread about => ?_, empty⟩
    have removed : pc.removed = true := by cases pc <;> simp [PC.notified] at notified <;> rfl
    have unknown := valid.removed here removed
    have outline := valid.outline thread
    cases there : state.status thread with
    | running place =>
        rw [there] at about outline
        cases place <;> simp only [AboutToWait] at about
        case waitLockEntry => exact unknown (about ▸ outline.place)
        case waitIncrement | waitUnlockMap => exact unknown (about ▸ outline.place.1)
        case waitCond => exact nobody thread (about ▸ there)
    | _ => simp [there, AboutToWait] at about

/-- Thread 0 waits for thread 1, whose entry stands between those of the threads 2 and 0. -/
def waitForTest : List Action :=
  launch ++ create (.library 0) { thread := 1, run := true, abort := false } ++
    execute (.library 0) 1 ++ runs (.library 1) 3 ++
    create (.library 0) { thread := 2, run := true, abort := false } ++ wait (.library 0) 1 ++
    .call (.library 1) .cleanupLockMap :: runs (.library 1) 7

theorem waiters_enqueued_waitForTest :
    ∃ final, exec exactProgram.step initial waitForTest = some final ∧
      final.status (.library 1) = .running .cleanupTest ∧ InWait 1 (final.status (.library 0)) ∧
      ∀ thread, InWait 1 (final.status thread) ->
        ∃ mutex pc, final.status thread = .waiting (.waitingThreadsCv 1) mutex pc := by
  have reached : (exec exactProgram.step initial waitForTest).map (fun final =>
      (final.status (.library 1), final.status (.library 0))) = some (.running .cleanupTest,
        .waiting (.waitingThreadsCv 1) (.waitingThreadsMutex 1) (.waitUnlockEntry 1)) := by decide +kernel
  obtain ⟨final, run, parts⟩ := Option.map_eq_some_iff.mp reached
  obtain ⟨here, inside⟩ := Prod.mk.inj parts
  have meets : Along exactProgram.step (ExecutedOnce 1) initial waitForTest := by decide +kernel
  exact ⟨final, run, here, by simp [inside, InWait], ((waiters_enqueued 1 (reach_of_along run meets)).1 here).1⟩

end ZSystem.Thread
