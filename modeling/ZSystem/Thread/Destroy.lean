import ZSystem.Thread.Waiters

set_option autoImplicit false

/-!
# The end of a record

`zs__thread_cleanup` destroys the mutex and the condition variable as soon as it has unlocked the
mutex, without waiting for the threads that it has woken up.
-/

namespace ZSystem.Thread

open Posix Transition

def Alone (state : State) (handle : Nat) : Prop :=
  ∀ thread, ¬ InWait handle (state.status thread)

/-- A cleanup locks `waiting_threads_mutex` only when no caller that found its record is inside. -/
def LocksAlone (state : State) : Action -> Prop
  | .run thread _ => ∀ handle, thread = .library handle ->
      state.status thread = .running .cleanupLockEntry -> Alone state handle
  | _ => True

def PC.releasing : PC -> Bool
  | .cleanupTest | .cleanupBroadcast | .cleanupUnlockEntry | .cleanupDestroy => true
  | _ => false

section

variable {state next : State} {action : Action} {handle : Nat}

theorem Alone.preserved (valid : Valid state) (alone : Alone state handle)
    (unknown : handle ∉ state.data.threadMap) (taken : step state action = some next) :
    Alone next handle := by
  intro thread inside
  have before := alone thread
  cases arrival taken thread with
  | stays same => exact before (same ▸ inside)
  | @instr pick pc run here _ ran =>
      have source := outcome_source ran
      rw [here] at before
      cases there : next.status thread with
      | absent => simp [there, InWait] at inside
      | running place =>
          rw [there] at inside source
          cases place <;> simp only [InWait] at inside
          case waitLockEntry =>
            subst inside
            exact unknown (Data.find_iff.mp source.2).1
          all_goals
            subst inside
            simp only [Source] at source
          all_goals
            subst source
            exact before rfl
      | waiting cv mutex place =>
          rw [there] at inside source
          obtain ⟨-, goes⟩ | ⟨other, rfl, goes⟩ := source
          · cases inside.symm.trans goes
          · cases inside.symm.trans goes
            exact before rfl
  | born _ _ _ instr _ started =>
      obtain ⟨_, _, _, rfl⟩ := code_start instr
      simp [started, InWait] at inside
  | resume _ here _ _ resumed =>
      rw [here] at before
      rw [resumed] at inside
      obtain ⟨-, -, -, rfl⟩ | ⟨other, rfl, -, -, rfl | rfl⟩ := (valid.waits here).2 <;>
        simp only [InWait] at inside
      exact before (congrArg Obj.waitingThreadsCv inside)
  | call _ _ chosen called =>
      rw [called] at inside
      obtain ⟨_, rfl, -⟩ | ⟨-, -, ⟨_, rfl | rfl | rfl | rfl⟩ | ⟨rfl, -⟩⟩ := calls_cases chosen <;>
        simp [InWait] at inside
  | stop _ _ handled _ stopped =>
      obtain ⟨rfl, -⟩ := handler_place handled
      simp [stopped, InWait] at inside
  | abandon _ here _ abandoned =>
      rw [here] at before
      rw [abandoned] at inside
      exact before inside

structure Released (state : State) : Prop where
  valid : Valid state
  alone : ∀ handle pc, state.status (.library handle) = .running pc -> pc.releasing = true ->
    Alone state handle

theorem releasing_removed {pc : PC} (releasing : pc.releasing = true) : pc.removed = true := by
  cases pc <;> simp [PC.releasing] at releasing <;> rfl

theorem Released.preserved (released : Released state) (locks : LocksAlone state action)
    (taken : step state action = some next) : Released next := by
  refine ⟨released.valid.preserved taken, fun handle pc there releasing => ?_⟩
  have inner : pc.inner = true := by cases pc <;> simp [PC.releasing] at releasing <;> rfl
  obtain same | ⟨pick, before, rfl, here, -, -, source⟩ := released.valid.arrives taken inner there
  · exact (released.alone handle pc same releasing).preserved released.valid
      (released.valid.removed same (releasing_removed releasing)) taken
  · have entered : Alone state handle ∧ before.removed = true := by
      by_cases already : before.releasing = true
      · exact ⟨released.alone handle before here already, releasing_removed already⟩
      · cases pc <;> simp [PC.releasing] at releasing
        case cleanupTest =>
          obtain rfl : before = .cleanupLockEntry := source
          exact ⟨locks handle rfl here, rfl⟩
        case cleanupBroadcast =>
          obtain rfl : before = .cleanupTest := source
          exact absurd rfl already
        case cleanupUnlockEntry =>
          obtain rfl | ⟨rfl, -⟩ := source <;> exact absurd rfl already
        case cleanupDestroy =>
          obtain rfl : before = .cleanupUnlockEntry := source
          exact absurd rfl already
    exact entered.1.preserved released.valid (released.valid.removed here entered.2) taken

theorem destroys_early (valid : Valid state) (here : state.status (.library handle) = .running .cleanupTest)
    {thread : ThreadId} (inside : InWait handle (state.status thread)) :
    ∃ final, Reachable step state final ∧ final.status (.library handle) = .running .cleanupDestroy ∧
      InWait handle (final.status thread) := by
  have unknown := valid.removed here rfl
  have other : thread ≠ .library handle := by
    rintro rfl
    simp [here, InWait] at inside
  have awaited := valid.awaited unknown inside
  obtain ⟨record, read, -⟩ := ((valid.at here).own handle rfl).stored PC.noConfusion
  have waiting := awaited record read
  have present {status : Status Obj PC} (inside : InWait handle status) : status ≠ .absent := by
    rintro rfl
    exact inside
  obtain ⟨first, tests, broadcasting, -, stays⟩ := goes_on here rfl trivial
  have inside := stays thread other (present inside) ▸ inside
  simp only [read, Option.map_some, Option.getD_some, waiting, if_true] at broadcasting
  obtain ⟨second, broadcasts, unlocking, -, stays⟩ := goes_on broadcasting rfl trivial
  have inside := stays thread other (present inside) ▸ inside
  obtain ⟨final, unlocks, destroying, -, stays⟩ := goes_on unlocking rfl trivial
  have inside := stays thread other (present inside) ▸ inside
  exact ⟨final, .tail (.tail (.tail .refl trivial tests) trivial broadcasts) trivial unlocks, destroying, inside⟩

end

/--
If every cleanup locks `waiting_threads_mutex` with no caller inside that found its record, a record is
only destroyed with no caller inside. Where a caller is inside when the cleanup makes its test, some
continuation destroys the record with a caller inside, and there is none otherwise.
-/
theorem destroys_alone (state : State) (handle : Nat) :
    (Reach step LocksAlone initial state ->
      state.status (.library handle) = .running .cleanupDestroy -> Alone state handle) ∧
    (Reachable step initial state -> state.status (.library handle) = .running .cleanupTest ->
      ((∀ final, Reachable step state final ->
          final.status (.library handle) = .running .cleanupDestroy -> Alone final handle) ↔
        Alone state handle)) := by
  constructor
  · intro reached here
    have released : Released state :=
      reached.invariant Released ⟨initial_valid, fun handle pc there => by simp [initial] at there⟩
        fun _ _ _ released locks taken => released.preserved locks taken
    exact released.alone handle _ here rfl
  · intro reached here
    have valid := valid_of_reach reached
    constructor
    · intro later thread inside
      obtain ⟨final, continued, there, still⟩ := destroys_early valid here inside
      exact later final continued there thread still
    · intro alone final continued _
      have kept : Valid final ∧ Alone final handle ∧
          ∃ pc, final.status (.library handle) = .running pc ∧ pc.removed = true :=
        continued.invariant (fun state => Valid state ∧ Alone state handle ∧
            ∃ pc, state.status (.library handle) = .running pc ∧ pc.removed = true)
          ⟨valid, alone, _, here, rfl⟩ fun state action next kept _ taken => by
            obtain ⟨valid, alone, _, there, removed⟩ := kept
            exact ⟨valid.preserved taken, alone.preserved valid (valid.removed there removed) taken,
              removed_kept there removed taken⟩
      exact kept.2.1

/-- Nobody outside the library calls it, and a cleanup locks the mutex when all the others have returned. -/
def LocksLast (state : State) (action : Action) : Prop :=
  (action.actor = .main ∨ action.actor.isLibrary = true) ∧
    (state.status action.actor = .running .cleanupLockEntry -> ∀ number ∈ state.data.started,
      state.status (.library number) = .running .caller ∨ .library number = action.actor)

instance (state : State) (action : Action) : Decidable (LocksLast state action) :=
  inferInstanceAs (Decidable (_ ∧ _))

theorem locksAlone_of_last {final : State} (reached : Reach step LocksLast initial final) :
    Reach step LocksAlone initial final := by
  refine reached.mono_of_invariant
    (fun state => Valid state ∧ ∀ number, state.status (.outside number) = .running .caller)
    ⟨initial_valid, fun _ => rfl⟩ (fun state action next ⟨valid, idle⟩ last taken =>
      ⟨valid.preserved taken, fun number => ?_⟩) fun state action ⟨valid, idle⟩ last => ?_
  · have other : ThreadId.outside number ≠ action.actor := fun same => by
      have inner := last.1
      simp [← same, ThreadId.isLibrary] at inner
    obtain same | ⟨_, _, _, _, -, -, -, absent, -⟩ := status_other taken other
    · exact same.trans (idle number)
    · cases (idle number).symm.trans absent
  · cases action with
    | run thread pick =>
        rintro handle rfl here other inside
        cases other with
        | library number =>
            have outline := valid.outline (.library number)
            have started : number ∈ state.data.started := by
              cases there : state.status (.library number) with
              | absent => simp [there, InWait] at inside
              | running pc =>
                  rw [there] at outline
                  exact (outline.own number rfl).started
              | waiting cv mutex pc =>
                  rw [there] at outline
                  exact (outline.1.own number rfl).started
            obtain returned | same := last.2 here number started
            · simp [returned, InWait] at inside
            · have mine : state.status (.library number) = .running .cleanupLockEntry := same ▸ here
              simp [mine, InWait] at inside
        | outside number => simp [idle number, InWait] at inside
        | main =>
            have outline := valid.outline .main
            cases there : state.status .main with
            | absent => simp [there, InWait] at inside
            | running pc =>
                rw [there] at inside outline
                have placed := outline.placed
                cases pc <;> simp only [InWait] at inside <;> simp [Placed] at placed
            | waiting cv mutex pc =>
                rw [there] at inside
                obtain ⟨-, rfl, -⟩ | ⟨_, -, -, -, goes⟩ := (valid.waits there).2
                · cases inside
                · have placed := (valid.waits there).1.placed
                  obtain rfl | rfl := goes <;> simp [Placed, ThreadId.isLibrary] at placed
    | call | wake | interrupt => trivial

/-- Thread 0 waits for thread 1, wakes up by itself and returns; thread 1 ends behind that. -/
def waitReturned : List Action :=
  launch ++ create (.library 0) { thread := 1, run := true, abort := false } ++
    execute (.library 0) 1 ++ runs (.library 1) 3 ++ wait (.library 0) 1 ++
    (.wake (.library 0) :: runs (.library 0) 2) ++ .call (.library 1) .cleanupLockMap :: runs (.library 1) 10

theorem destroys_alone_waitReturned :
    ∃ final, exec step initial waitReturned = some final ∧
      final.status (.library 1) = .running .cleanupDestroy ∧ Alone final 1 := by
  have reached : (exec step initial waitReturned).map (fun final => final.status (.library 1)) =
      some (.running .cleanupDestroy) := by decide +kernel
  obtain ⟨final, run, here⟩ := Option.map_eq_some_iff.mp reached
  have last : Along step LocksLast initial waitReturned := by decide +kernel
  exact ⟨final, run, here, (destroys_alone final 1).1 (locksAlone_of_last (reach_of_along run last)) here⟩

/-- Thread 0 waits for thread 1, which returns and goes on to the end of its cleanup. -/
def waitForReturn : List Action :=
  launch ++ create (.library 0) { thread := 1, run := true, abort := false } ++
    execute (.library 0) 1 ++ runs (.library 1) 3 ++ wait (.library 0) 1 ++
    .call (.library 1) .cleanupLockMap :: runs (.library 1) 10

/-- Thread 0 has been woken up, but it still has to lock and unlock the mutex of thread 1. -/
theorem destroys_alone_fails_waitForReturn :
    ∃ final, exec step initial waitForReturn = some final ∧
      final.status (.library 1) = .running .cleanupDestroy ∧
      InWait 1 (final.status (.library 0)) := by
  have reached : (exec step initial waitForReturn).map (fun final =>
      (final.status (.library 1), final.status (.library 0), final.sleepers (.waitingThreadsCv 1))) =
      some (.running .cleanupDestroy,
        .waiting (.waitingThreadsCv 1) (.waitingThreadsMutex 1) (.waitUnlockEntry 1), []) := by decide
  obtain ⟨final, run, parts⟩ := Option.map_eq_some_iff.mp reached
  simp only [Prod.mk.injEq] at parts
  exact ⟨final, run, parts.1, by simp [parts.2.1, InWait]⟩

end ZSystem.Thread
