import Mathlib.Data.UInt
import ZSystem.Thread.Registry

set_option autoImplicit false

/-!
# Threads that cannot be created

`zs__thread_create` does not look at what `pthread_create` returns: by then it has counted the thread
and has put its entry into `zs__thread_map`.
-/

namespace ZSystem.Registry.Failure

open Transition

structure Process where
  registry : State
  threadsRunning : UInt32
  -- The calls of `zs__thread_create`, the failed ones included.
  calls : Nat

/-- Where `zs__execute` stands before its own `zs__thread_create`. -/
def start : Process := { registry := initial, threadsRunning := 0, calls := 0 }

inductive Operation where
  | create (thread list content threadHandle : Nat)
  -- `pthread_create` fails and leaves `left` in the handle field.
  | createFails (thread list left : Nat)
  | cleanup (thread tests : Nat)
  deriving DecidableEq, Repr

/-- The part of `zs__thread_create` before `pthread_create`, which is all that a failed call does. -/
def threadCreateFails (process : Process) (thread list left : Nat) : Process :=
  { registry := threadCreateInsert process.registry thread list left
    threadsRunning := process.threadsRunning + 1
    calls := process.calls + 1 }

def step (process : Process) : Operation -> Option Process
  | .create thread list content threadHandle =>
      (Registry.step process.registry (.create thread list content threadHandle)).map fun registry =>
        { registry := registry
          threadsRunning := process.threadsRunning + 1
          calls := process.calls + 1 }
  | .createFails thread list left =>
      if thread ≠ 0 ∧ process.registry.threads thread = none ∧ list ≠ 0 ∧
          process.registry.lists list = none then
        some (threadCreateFails process thread list left)
      else none
  | .cleanup thread tests =>
      (Registry.step process.registry (.cleanup thread tests)).map fun registry =>
        { process with registry := registry, threadsRunning := process.threadsRunning - 1 }

/-! ## What a failed call is meant to leave as it was -/

def CounterKept (before after : Process) : Prop := after.threadsRunning = before.threadsRunning

def ListKept (before after : Process) : Prop :=
  after.registry.threadMap = before.registry.threadMap ∧ after.registry.lists = before.registry.lists

/-- `zs__execute` can still be signalled. The bound says that the 32 bits of the counter are enough. -/
def CanEnd (process : Process) : Prop :=
  ∃ operations final, exec step process operations = some final ∧
    final.calls < 2 ^ 32 ∧ final.threadsRunning = 0

def Resolved (process : Process) : Prop :=
  ∀ tests threadHandle list, threadMapFind process.registry tests threadHandle = .done list -> list ≠ 0 ->
    ∃ node, process.registry.lists list = some node ∧ node.thread ∈ process.registry.live

/-! ## The counter -/

/-- The threads that exist are counted, and at least `failed` calls that have created none. -/
def Counted (failed : Nat) (process : Process) : Prop :=
  ∃ phantoms, failed ≤ phantoms ∧ process.registry.live.length + phantoms ≤ process.calls ∧
    process.threadsRunning = UInt32.ofNat (process.registry.live.length + phantoms)

theorem threadMapRemoveFrom_frame {state removed : State} {entry tests list : Nat}
    (unlinked : threadMapRemoveFrom state entry tests list = .done removed) :
    removed.live = state.live ∧ removed.threads = state.threads := by
  induction tests generalizing list with
  | zero => simp [threadMapRemoveFrom] at unlinked
  | succ tests ih =>
      unfold threadMapRemoveFrom at unlinked
      split_ifs at unlinked with null
      · cases unlinked
        exact ⟨rfl, rfl⟩
      · cases read : state.lists list with
        | none => simp [read] at unlinked
        | some node =>
            simp only [read] at unlinked
            split_ifs at unlinked with behind
            · cases last : state.lists entry with
              | none => simp [last] at unlinked
              | some node =>
                  simp only [last] at unlinked
                  cases unlinked
                  exact ⟨rfl, rfl⟩
            · exact ih unlinked

theorem threadMapRemove_frame {state removed : State} {entry tests : Nat}
    (unlinked : threadMapRemove state tests entry = .done removed) :
    removed.live = state.live ∧ removed.threads = state.threads := by
  unfold threadMapRemove at unlinked
  split_ifs at unlinked with first
  · cases read : state.lists state.threadMap with
    | none => simp [read] at unlinked
    | some head =>
        simp only [read] at unlinked
        cases unlinked
        exact ⟨rfl, rfl⟩
  · exact threadMapRemoveFrom_frame unlinked

theorem cleanup_frame {state next : State} {thread tests : Nat}
    (taken : Registry.step state (.cleanup thread tests) = some next) :
    thread ∈ state.live ∧ next.live = state.live.erase thread ∧
      next.threads = Function.update state.threads thread none := by
  obtain ⟨member, ended⟩ := step_cleanup taken
  obtain ⟨record, iter, removed, -, -, unlinked, rfl⟩ := threadCleanup_done ended
  have frame : removed.live = state.live ∧ removed.threads = state.threads := by
    split_ifs at unlinked with missing
    · cases unlinked
      exact ⟨rfl, rfl⟩
    · exact threadMapRemove_frame unlinked
  exact ⟨member, by rw [frame.1], by rw [frame.2]⟩

theorem step_createFails {before after : Process} {thread list left : Nat}
    (taken : step before (.createFails thread list left) = some after) :
    (thread ≠ 0 ∧ before.registry.threads thread = none ∧ list ≠ 0 ∧ before.registry.lists list = none) ∧
      after = threadCreateFails before thread list left := by
  simp only [step] at taken
  split_ifs at taken with fresh
  exact ⟨fresh, (Option.some.inj taken).symm⟩

theorem step_create {before after : Process} {thread list content threadHandle : Nat}
    (taken : step before (.create thread list content threadHandle) = some after) :
    before.registry.threads thread = none ∧
      after = { registry := threadCreate before.registry thread list content threadHandle
                threadsRunning := before.threadsRunning + 1
                calls := before.calls + 1 } := by
  simp only [step, Registry.step, Option.map_eq_some_iff] at taken
  obtain ⟨registry, created, rfl⟩ := taken
  split_ifs at created with fresh
  cases created
  exact ⟨fresh.2.1, rfl⟩

theorem ofNat_succ (number : Nat) : UInt32.ofNat (number + 1) = UInt32.ofNat number + 1 :=
  UInt32.ofNat_add number 1

theorem createFails_counted {failed : Nat} {process : Process} (counted : Counted failed process)
    (thread list left : Nat) : Counted (failed + 1) (threadCreateFails process thread list left) := by
  obtain ⟨phantoms, enough, bounded, value⟩ := counted
  refine ⟨phantoms + 1, by omega, ?_, ?_⟩
  · simp only [threadCreateFails, threadCreateInsert]
    omega
  · simp only [threadCreateFails, threadCreateInsert, value, ← Nat.add_assoc, ofNat_succ]

theorem step_counted {failed : Nat} {before after : Process} {operation : Operation}
    (counted : Counted failed before) (taken : step before operation = some after) : Counted failed after := by
  cases operation with
  | create thread list content threadHandle =>
      obtain ⟨-, rfl⟩ := step_create taken
      obtain ⟨phantoms, enough, bounded, value⟩ := counted
      refine ⟨phantoms, enough, ?_, ?_⟩
      · simp only [threadCreate, threadCreateStart, threadCreateInsert, List.length_cons]
        omega
      · simp only [threadCreate, threadCreateStart, threadCreateInsert, List.length_cons, value,
          Nat.add_right_comm, ofNat_succ]
  | createFails thread list left =>
      obtain ⟨-, rfl⟩ := step_createFails taken
      obtain ⟨phantoms, more, rest⟩ := createFails_counted counted thread list left
      exact ⟨phantoms, by omega, rest⟩
  | cleanup thread tests =>
      simp only [step, Option.map_eq_some_iff] at taken
      obtain ⟨registry, cleaned, rfl⟩ := taken
      obtain ⟨phantoms, enough, bounded, value⟩ := counted
      obtain ⟨member, live, -⟩ := cleanup_frame cleaned
      have one_less : registry.live.length + 1 = before.registry.live.length := by
        have some_live := List.length_pos_of_mem member
        rw [live, List.length_erase_of_mem member]
        omega
      refine ⟨phantoms, enough, by simp only; omega, ?_⟩
      rw [← one_less, Nat.add_right_comm, ofNat_succ] at value
      simp only [value, UInt32.add_sub_cancel]

theorem run_counted {failed : Nat} {before after : Process} (counted : Counted failed before)
    (reached : Reachable step before after) : Counted failed after :=
  reached.invariant (Counted failed) counted fun _ _ _ holds _ taken => step_counted holds taken

theorem start_counted : Counted 0 start := ⟨0, Nat.le_refl 0, Nat.le_refl 0, rfl⟩

theorem counted_not_canEnd {process : Process} (counted : Counted 1 process) : ¬ CanEnd process := by
  rintro ⟨operations, final, run, small, zero⟩
  obtain ⟨phantoms, enough, bounded, value⟩ := run_counted counted (reachable_of_exec operations run)
  have number : (UInt32.ofNat (final.registry.live.length + phantoms)).toNat =
      final.registry.live.length + phantoms := UInt32.toNat_ofNat_of_lt' (by simp only [UInt32.size]; omega)
  rw [← value, zero, UInt32.toNat_zero] at number
  omega

/-! ## The entry -/

structure Recorded (process : Process) : Prop where
  once : process.registry.live.Nodup
  records : ∀ thread ∈ process.registry.live, process.registry.threads thread ≠ none

theorem Recorded.fresh {process : Process} (recorded : Recorded process) {thread : Nat}
    (unused : process.registry.threads thread = none) : thread ∉ process.registry.live :=
  fun member => recorded.records thread member unused

theorem step_recorded {before after : Process} {operation : Operation} (recorded : Recorded before)
    (taken : step before operation = some after) : Recorded after := by
  cases operation with
  | create thread list content threadHandle =>
      obtain ⟨unused, rfl⟩ := step_create taken
      have fresh := recorded.fresh unused
      refine ⟨List.nodup_cons.mpr ⟨fresh, recorded.once⟩, fun other member => ?_⟩
      by_cases same : other = thread
      · simp [threadCreate, threadCreateStart, threadCreateInsert, same]
      · have old : other ∈ before.registry.live := (List.mem_cons.mp member).resolve_left same
        simpa [threadCreate, threadCreateStart, threadCreateInsert, same] using recorded.records other old
  | createFails thread list left =>
      obtain ⟨⟨-, unused, -⟩, rfl⟩ := step_createFails taken
      refine ⟨recorded.once, fun other member => ?_⟩
      have differ : other ≠ thread := fun same => recorded.fresh unused (same ▸ member)
      simpa [threadCreateFails, threadCreateInsert, differ] using recorded.records other member
  | cleanup thread tests =>
      simp only [step, Option.map_eq_some_iff] at taken
      obtain ⟨registry, cleaned, rfl⟩ := taken
      obtain ⟨member, live, threads⟩ := cleanup_frame cleaned
      refine ⟨by simpa only [live] using recorded.once.erase thread, fun other still => ?_⟩
      simp only [live, recorded.once.mem_erase_iff] at still
      simpa [threads, still.1] using recorded.records other still.2

theorem reachable_recorded {process : Process} (reached : Reachable step start process) :
    Recorded process :=
  reached.invariant Recorded ⟨List.nodup_nil, by simp [start, initial]⟩
    fun _ _ _ holds _ taken => step_recorded holds taken

/-- The entry of the failed call comes first in the list, so the loop returns it at once. -/
theorem phantom_found (process : Process) {thread list left : Nat} (valid : list ≠ 0) (notNull : thread ≠ 0) :
    threadMapFind (threadCreateFails process thread list left).registry 1 left = .done list := by
  simp [threadMapFind, threadMapFindFrom, threadCreateFails, threadCreateInsert, valid, notNull]

/-- Every call in which `pthread_create` fails changes the counter and the list for good. -/
theorem createFails_changes {before after : Process} {thread list left : Nat}
    (reached : Reachable step start before)
    (taken : step before (.createFails thread list left) = some after) :
    ¬ CounterKept before after ∧ ¬ ListKept before after ∧ ¬ CanEnd after ∧ ¬ Resolved after := by
  obtain ⟨⟨notNull, unused, valid, free⟩, rfl⟩ := step_createFails taken
  have counted := createFails_counted (run_counted start_counted reached) thread list left
  refine ⟨?_, ?_, counted_not_canEnd counted, ?_⟩
  · simp [CounterKept, threadCreateFails]
  · rintro ⟨-, same⟩
    have stored := congrFun same list
    simp [threadCreateFails, threadCreateInsert, free] at stored
  · intro resolved
    obtain ⟨node, read, alive⟩ := resolved 1 left list (phantom_found before valid notNull) valid
    have phantom : node.thread = thread := by
      simp [threadCreateFails, threadCreateInsert] at read
      simp [← read]
    rw [phantom] at alive
    exact (reachable_recorded reached).fresh unused alive

/-- The call that `zs__execute` makes for the main thread. -/
def mainFails : Operation := .createFails 1 2 7

theorem createFails_changes_main :
    step start mainFails = some (threadCreateFails start 1 2 7) ∧
      ¬ CounterKept start (threadCreateFails start 1 2 7) ∧ ¬ ListKept start (threadCreateFails start 1 2 7) ∧
      ¬ CanEnd (threadCreateFails start 1 2 7) ∧ ¬ Resolved (threadCreateFails start 1 2 7) :=
  ⟨rfl, createFails_changes .refl (show step start mainFails = some (threadCreateFails start 1 2 7) from rfl)⟩

/-- One thread is counted that will never come to its cleanup, and its entry is in the list. -/
theorem createFails_kept_fails :
    ¬ ∀ (before after : Process) (thread list left : Nat), Reachable step start before ->
      step before (.createFails thread list left) = some after ->
        CounterKept before after ∧ ListKept before after ∧ CanEnd after ∧ Resolved after := by
  intro always
  obtain ⟨counter, -⟩ := always start (threadCreateFails start 1 2 7) 1 2 7 .refl rfl
  have counted : (threadCreateFails start 1 2 7).threadsRunning = 1 := rfl
  rw [CounterKept, counted] at counter
  exact absurd counter (by decide)

end ZSystem.Registry.Failure
