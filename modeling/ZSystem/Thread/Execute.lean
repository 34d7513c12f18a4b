import ZSystem.Thread.Enqueue

set_option autoImplicit false

/-!
# Executing a thread once

`zs__thread_execute` unlocks the `waiting_threads_mutex` of every thread that it finds; that the thread has
been started already is not written down anywhere.
-/

namespace ZSystem.Thread

open Posix Transition

structure Reports (handle : Nat) (state : State) : Prop where
  /-- A call finds a thread that has been created and not executed. -/
  finds : handle ∈ state.data.started -> state.data.executed handle = 0 -> state.data.find handle = true
  /-- The lock that a call gives back is that of `zs__thread_create`. -/
  unlocks : ∀ thread, state.status thread = .running (.executeUnlockGate handle) ->
    (state.owner (.waitingThreadsMutex handle) = state.data.creator handle ∧ state.data.creator handle ≠ none) ∧
      ∀ other pc, state.status other = .running pc -> ¬ HoldsEntry handle other pc
  once : state.data.executed handle ≤ 1
  back : ∀ thread, state.status thread = .running (.executeUnlockMap handle true) ->
    state.data.executed handle = 1

/-- `zs__thread_map_remove` does not lose the entry of a thread that has not been executed. -/
def KeepsEntry (handle : Nat) (data : Data) : ThreadId -> Prop
  | .library own => handle ∈ data.threadMap -> data.executed handle = 0 ->
      ∀ after ∈ data.unregister own, handle ∈ after.threadMap
  | _ => True

instance (handle : Nat) (data : Data) : (thread : ThreadId) -> Decidable (KeepsEntry handle data thread)
  | .library own => inferInstanceAs (Decidable (handle ∈ data.threadMap -> data.executed handle = 0 ->
      ∀ after ∈ data.unregister own, handle ∈ after.threadMap))
  | .main | .outside _ => instDecidableTrue

/-- `zs__thread_execute` finds the thread only once, and its entry is not lost before. -/
def FoundOnce (handle : Nat) (state : State) : Action -> Prop
  | .run thread _ =>
      (state.status thread = .running (.executeFind handle) -> state.data.find handle = true ->
        state.data.executed handle = 0) ∧
      (state.status thread = .running .cleanupRemove -> KeepsEntry handle state.data thread)
  | _ => True

instance (handle : Nat) (state : State) : (action : Action) -> Decidable (FoundOnce handle state action)
  | .run thread _ => inferInstanceAs (Decidable (
      (state.status thread = .running (.executeFind handle) -> state.data.find handle = true ->
        state.data.executed handle = 0) ∧
      (state.status thread = .running .cleanupRemove -> KeepsEntry handle state.data thread)))
  | .call _ _ | .wake _ | .interrupt _ => instDecidableTrue

/-- `zs__thread_create` has locked the mutex of the thread and has not inserted its entry yet. -/
def Entering (handle : Nat) (state : State) : Prop :=
  ∃ thread args, args.thread = handle ∧
    (state.status thread = .running (.createLockMap args) ∨ state.status thread = .running (.createInsert args))

structure Executing (handle : Nat) (state : State) : Prop where
  valid : Valid state
  gate : GateShut handle state
  entered : handle ∈ state.data.gated -> state.data.executed handle = 0 ->
    handle ∈ state.data.threadMap ∨ Entering handle state
  once : state.data.executed handle ≤ 1
  back : ∀ thread, state.status thread = .running (.executeUnlockMap handle true) ->
    state.data.executed handle ≠ 0

section

variable {state next : State} {action : Action} {handle : Nat} {thread : ThreadId} {pc place : PC}

theorem executed_next {pick : Nat} (here : state.status thread = .running (.executeUnlockGate handle))
    (taken : step state (.run thread pick) = some next) :
    next.data.executed handle = state.data.executed handle + 1 := by
  obtain ⟨-, ran, -, -⟩ := run_parts here taken
  simp only [Program.outcome, program, code, Instr.result, note, Option.map_some, Option.some.injEq,
    Prod.mk.injEq] at ran
  simp [← ran.1]

theorem outcome_back {data after : Data} {pick : Nat}
    (ran : program.outcome thread pick pc data = some (after, .running (.executeUnlockMap handle true))) :
    pc = .executeUnlockGate handle := by
  cases pc <;> cases thread <;>
    simp only [Program.outcome, program, code, Instr.result, goTo, branch, lookUp, withRecord, inExecute, afterCreate,
      afterExecute, Option.map_some, Option.map_none, Option.some.injEq, Prod.mk.injEq, reduceCtorEq,
      Status.running.injEq, PC.executeUnlockMap.injEq, and_true, and_false] at ran
  case cleanupRemove.library => simp at ran
  all_goals first | exact ran.2 ▸ rfl | (split_ifs at ran <;> simp_all)

theorem Entering.goes (entering : Entering handle state) (taken : step state action = some next) :
    handle ∈ next.data.threadMap ∨ Entering handle next := by
  obtain ⟨thread, args, same, here⟩ := entering
  cases arrival taken thread with
  | stays still => exact Or.inr ⟨thread, args, same, still ▸ here⟩
  | instr _ there _ ran =>
      rcases here with here | here
      · cases here.symm.trans there
        refine Or.inr ⟨thread, args, same, Or.inr ?_⟩
        simp only [Program.outcome, program, code, Instr.result, Option.map_some, Option.some.injEq,
          Prod.mk.injEq] at ran
        exact ran.2.symm
      · cases here.symm.trans there
        simp only [Program.outcome, program, code, goTo, Instr.result, note, Option.map_some, Option.some.injEq,
          Prod.mk.injEq] at ran
        exact Or.inl (by simp [← ran.1, same])
  | born _ _ _ _ absent => simp [absent] at here
  | resume _ there | abandon _ there => simp [there] at here
  | call _ there chosen =>
      obtain ⟨_, -, -, -, rfl | ⟨rfl, -⟩⟩ | ⟨rfl, -⟩ := calls_cases chosen <;> simp [there] at here
  | stop _ there _ point =>
      obtain rfl : _ = PC.caller := by simpa [program] using point
      simp [there] at here

theorem gated_next (taken : step state action = some next) (member : handle ∈ next.data.gated) :
    handle ∈ state.data.gated ∨ Entering handle next := by
  cases step_cases taken with
  | @instr thread pick pc after here performed =>
      obtain ⟨-, ran, -, -⟩ := outcome_parts performed
      change handle ∈ (program.note thread pc after.data).gated at member
      rcases outcome_writes ran with same | writes
      · exact Or.inl (same ▸ member)
      · obtain old | ⟨args, rfl, same⟩ := writes.gated member
        · exact Or.inl old
        · simp only [Program.outcome, program, code, Instr.result, Option.map_some, Option.some.injEq,
            Prod.mk.injEq] at ran
          exact Or.inr ⟨thread, args, same, Or.inl ran.2.symm⟩
  | @call thread pc place data here chosen =>
      change handle ∈ data.gated at member
      obtain ⟨_, -, -, rfl, -⟩ | ⟨-, rfl, -⟩ := calls_cases chosen <;> exact Or.inl member
  | _ => exact Or.inl member

theorem Executing.entered_preserved (executing : Executing handle state) (found : FoundOnce handle state action)
    (taken : step state action = some next) (member : handle ∈ next.data.gated)
    (closed : next.data.executed handle = 0) : handle ∈ next.data.threadMap ∨ Entering handle next := by
  have before : state.data.executed handle = 0 := by
    by_contra opened
    exact (executing.valid.grows taken).executed handle opened closed
  obtain old | entering := gated_next taken member
  · obtain entered | entering := executing.entered old before
    · refine Or.inl ?_
      obtain ⟨same, -⟩ | ⟨_, _, _, -, -, same, -⟩ | ⟨own, pick, rfl, here, removed⟩ := threadMap_next taken
      · exact same ▸ entered
      · exact same ▸ List.mem_cons_of_mem _ entered
      · exact found.2 here entered before _ removed
    · exact entering.goes taken
  · exact Or.inr entering

theorem Executing.preserved (executing : Executing handle state) (found : FoundOnce handle state action)
    (taken : step state action = some next) : Executing handle next := by
  have valid := executing.valid
  refine ⟨valid.preserved taken, valid.gate_preserved executing.gate (fun _ _ run => ?_) taken,
    executing.entered_preserved found taken, ?_, fun thread there => ?_⟩
  · subst run
    exact found.1
  · obtain same | ⟨thread, pick, rfl, here⟩ := executes handle taken
    · exact same ▸ executing.once
    · rw [executed_next here taken, executing.gate thread here]
  · obtain same | ⟨pick, pc, rfl, here, ran, -⟩ := valid.arrives taken rfl there
    · exact (valid.grows taken).executed handle (executing.back thread same)
    · obtain rfl := outcome_back ran
      rw [executed_next here taken]
      exact Nat.succ_ne_zero _

theorem initial_executing (handle : Nat) : Executing handle initial :=
  ⟨initial_valid, fun thread there => by cases thread <;> simp [initial] at there, by simp [initial],
    Nat.zero_le _, fun thread there => by cases thread <;> simp [initial] at there⟩

theorem Executing.reports (executing : Executing handle state) : Reports handle state := by
  have valid := executing.valid
  refine ⟨fun started closed => ?_, fun thread here => ?_, executing.once, fun thread here => ?_⟩
  · -- The thread is still at its gate, so its creator has stored the handle and inserted the entry.
    have waits : state.status (.library handle) = .running .startLock := by
      have outline := valid.outline (.library handle)
      cases here : state.status (.library handle) with
      | absent =>
          rw [here] at outline
          obtain ⟨own, same, new⟩ := outline
          cases same
          exact absurd started new
      | running pc =>
          rw [here] at outline
          by_contra away
          exact (outline.own handle rfl).executed (fun same => away (congrArg _ same)) closed
      | waiting cv mutex pc =>
          rw [here] at outline
          refine absurd closed ((outline.1.own handle rfl).executed fun same => ?_)
          subst same
          obtain ⟨-, -, -, wrong⟩ | ⟨_, -, -, -, wrong | wrong⟩ := outline.2 <;> cases wrong
    have own := (valid.at waits).own handle rfl
    refine Data.find_iff.mpr ⟨?_, own.stored PC.noConfusion⟩
    obtain member | ⟨thread, args, rfl, here | here⟩ := executing.entered own.gated closed
    · exact member
    · exact absurd started (valid.at here).place.1.notStarted
    · exact absurd started (valid.at here).place.1.notStarted
  · have closed := executing.gate thread here
    refine ⟨valid.gated handle (valid.at here).place closed, fun other pc there holds => ?_⟩
    exact (valid.at there).executed holds closed
  · exact Nat.le_antisymm executing.once (Nat.pos_of_ne_zero (executing.back thread here))

end

/--
In a run in which `zs__thread_execute(handle)` never finds the thread a second time and no removal loses its
entry, the first call opens the gate and reports it, and no other call does.
-/
theorem execute_reports (handle : Nat) {state : State} (reached : Reach step (FoundOnce handle) initial state) :
    Reports handle state :=
  (reached.invariant (Executing handle) (initial_executing handle) fun _ _ _ executing found taken =>
    executing.preserved found taken).reports

/-- The second call comes after the cleanup has removed the entry. -/
def executeEnded : List Action :=
  launch ++ create (.library 0) { thread := 1, run := true, abort := false } ++ execute (.library 0) 1 ++
    runs (.library 1) 3 ++ [.call (.library 1) .cleanupLockMap] ++ runs (.library 1) 3 ++
    [.call (.library 0) (.executeLockMap 1)] ++ runs (.library 0) 2

theorem execute_reports_executeEnded :
    ∃ final, exec step initial executeEnded = some final ∧
      final.status (.library 0) = .running (.executeUnlockMap 1 false) ∧ Reports 1 final := by
  have reached : (exec step initial executeEnded).map (fun final => final.status (.library 0)) =
      some (.running (.executeUnlockMap 1 false)) := by decide
  obtain ⟨final, run, back⟩ := Option.map_eq_some_iff.mp reached
  have meets : Along step (FoundOnce 1) initial executeEnded := by decide
  exact ⟨final, run, back, execute_reports 1 (reach_of_along run meets)⟩

/-- The second call comes while the new thread owns its mutex. -/
def executeTwice : List Action :=
  launch ++ create (.library 0) { thread := 1, run := true, abort := false } ++ execute (.library 0) 1 ++
    runs (.library 1) 1 ++ [.call (.library 0) (.executeLockMap 1)] ++ runs (.library 0) 2

theorem execute_reports_fails_executeTwice :
    ∃ final, exec step initial executeTwice = some final ∧ ¬ Reports 1 final := by
  have reached : (exec step initial executeTwice).map (fun final =>
      (final.status (.library 0), final.status (.library 1), final.owner (.waitingThreadsMutex 1))) =
      some (.running (.executeUnlockGate 1), .running .startUnlock, some (.library 1)) := by decide
  obtain ⟨final, run, parts⟩ := Option.map_eq_some_iff.mp reached
  simp only [Prod.mk.injEq] at parts
  obtain ⟨unlocks, holds, owner⟩ := parts
  exact ⟨final, run, fun reports => (reports.unlocks _ unlocks).2 _ _ holds rfl⟩

end ZSystem.Thread
