import ZSystem.Shared.Chain
import ZSystem.Shared.Transition

set_option autoImplicit false

/-!
# The thread registry

`zs__thread_map` and the functions that walk it. A loop over the list is given a number of tests of
its condition, since nothing in the code bounds it.
-/

namespace ZSystem.Registry

open Chain Transition

/-- `struct zs__thread`; the registry only reads the handle. -/
structure Thread where
  threadHandle : Nat
  deriving DecidableEq, Repr

/-- `struct zs__thread_list`. -/
structure ThreadList where
  thread : Nat
  next : Nat
  deriving DecidableEq, Repr

structure State where
  threadMap : Nat
  lists : Nat -> Option ThreadList
  threads : Nat -> Option Thread
  -- The records of the threads created and not yet cleaned up, the latest one first.
  live : List Nat
  -- Every handle that `pthread_create` has given.
  issued : List Nat

def initial : State :=
  { threadMap := 0, lists := fun _ => none, threads := fun _ => none, live := [], issued := [] }

inductive Outcome (α : Type) where
  | done (value : α)
  /-- The code reads through a pointer to memory that is not allocated. -/
  | invalid
  /-- The loop has not ended within the given number of tests. -/
  | running
  deriving DecidableEq, Repr

def Outcome.bind {α β : Type} : Outcome α -> (α -> Outcome β) -> Outcome β
  | .done value, rest => rest value
  | .invalid, _ => .invalid
  | .running, _ => .running

/-- The loop of `zs__thread_map_find` from `list` on; the null pointer stands for no entry. -/
def threadMapFindFrom (state : State) (threadHandle : Nat) : Nat -> Nat -> Outcome Nat
  | 0, _ => .running
  | tests + 1, list =>
      if list = 0 then .done 0 else
        match state.lists list with
        | none => .invalid
        | some node =>
            if node.thread = 0 then threadMapFindFrom state threadHandle tests node.next else
              match state.threads node.thread with
              | none => .invalid
              | some thread =>
                  if thread.threadHandle = threadHandle then .done list
                  else threadMapFindFrom state threadHandle tests node.next

def threadMapFind (state : State) (tests threadHandle : Nat) : Outcome Nat :=
  threadMapFindFrom state threadHandle tests state.threadMap

def State.freeList (state : State) (list : Nat) : State :=
  { state with lists := Function.update state.lists list none }

/-- The second loop of `zs__thread_map_remove`, from `list` on. -/
def threadMapRemoveFrom (state : State) (entry : Nat) : Nat -> Nat -> Outcome State
  | 0, _ => .running
  | tests + 1, list =>
      if list = 0 then .done state else
        match state.lists list with
        | none => .invalid
        | some node =>
            -- The source compares with `!=` here.
            if node.next ≠ entry then
              match state.lists entry with
              | none => .invalid
              | some removed =>
                  let unlinked := { state with
                    lists := Function.update state.lists list (some { node with next := removed.next }) }
                  .done (unlinked.freeList entry)
            else threadMapRemoveFrom state entry tests node.next

def threadMapRemove (state : State) (tests entry : Nat) : Outcome State :=
  if state.threadMap = entry then
    match state.lists state.threadMap with
    | none => .invalid
    | some head => .done (State.freeList { state with threadMap := head.next } entry)
  else threadMapRemoveFrom state entry tests state.threadMap

/-- `zs__thread_create` up to the list insertion; the handle field still has what `malloc` left in it. -/
def threadCreateInsert (state : State) (thread list content : Nat) : State :=
  { state with
    threads := Function.update state.threads thread (some { threadHandle := content })
    lists := Function.update state.lists list (some { thread := thread, next := state.threadMap })
    threadMap := list }

/-- The rest of `zs__thread_create`: `pthread_create` stores the handle and the thread exists. -/
def threadCreateStart (state : State) (thread threadHandle : Nat) : State :=
  { state with
    threads := Function.update state.threads thread (some { threadHandle := threadHandle })
    live := thread :: state.live
    issued := threadHandle :: state.issued }

def threadCreate (state : State) (thread list content threadHandle : Nat) : State :=
  threadCreateStart (threadCreateInsert state thread list content) thread threadHandle

/-- `zs__thread_cleanup`, as far as it touches the registry and the record. -/
def threadCleanup (state : State) (tests thread : Nat) : Outcome State :=
  match state.threads thread with
  | none => .invalid
  | some record =>
      (threadMapFind state tests record.threadHandle).bind fun iter =>
        (if iter = 0 then .done state else threadMapRemove state tests iter).bind fun removed =>
          .done { removed with
            threads := Function.update removed.threads thread none
            live := removed.live.erase thread }

inductive Action where
  | create (thread list content threadHandle : Nat)
  | cleanup (thread tests : Nat)
  deriving DecidableEq, Repr

/--
One call. `malloc` gives addresses that are not in use, `pthread_create` gives a handle that it has
not given before, and a cleanup belongs to a thread that has been created and not cleaned up.
-/
def step (state : State) : Action -> Option State
  | .create thread list content threadHandle =>
      if thread ≠ 0 ∧ state.threads thread = none ∧ list ≠ 0 ∧ state.lists list = none ∧
          threadHandle ∉ state.issued then
        some (threadCreate state thread list content threadHandle)
      else none
  | .cleanup thread tests =>
      if thread ∈ state.live then
        match threadCleanup state tests thread with
        | .done next => some next
        | _ => none
      else none

/-! ## What the registry is for -/

def Alive (state : State) (threadHandle : Nat) : Prop :=
  ∃ thread ∈ state.live, state.threads thread = some { threadHandle := threadHandle }

def EntryOf (state : State) (list threadHandle : Nat) : Prop :=
  ∃ node, state.lists list = some node ∧ state.threads node.thread = some { threadHandle := threadHandle }

structure Sound (state : State) : Prop where
  /-- The chain is finite, visits no freed node, and has one entry for each live thread and no other. -/
  entries : ∃ lists, Linked state.lists ThreadList.next state.threadMap lists ∧
    (lists.map fun list => (state.lists list).map ThreadList.thread).Perm (state.live.map some)
  /-- No thread is counted twice in `live`, so one entry for each element is one for each thread. -/
  distinct : state.live.Nodup
  /-- A lookup ends, and finds the entry of the thread with that handle exactly if it is alive. -/
  lookup : ∀ threadHandle, ∃ list,
    (∃ tests, threadMapFind state tests threadHandle = .done list) ∧
      (list ≠ 0 ↔ Alive state threadHandle) ∧ (list ≠ 0 → EntryOf state list threadHandle)

/-- A cleanup belongs to the thread that was created last among those not yet cleaned up. -/
def LatestFirst (state : State) : Action -> Prop
  | .create .. => True
  | .cleanup thread _ => state.live.head? = some thread

instance (state : State) (action : Action) : Decidable (LatestFirst state action) :=
  match action with
  | .create .. => isTrue trivial
  | .cleanup thread _ => inferInstanceAs (Decidable (state.live.head? = some thread))

/-! ## Lookups -/

theorem threadMapFindFrom_mono (state : State) (threadHandle : Nat) {tests more list found : Nat}
    (enough : tests ≤ more)
    (ended : threadMapFindFrom state threadHandle tests list = .done found) :
    threadMapFindFrom state threadHandle more list = .done found := by
  induction tests generalizing more list with
  | zero => simp [threadMapFindFrom] at ended
  | succ tests ih =>
      obtain ⟨more, rfl⟩ : ∃ rest, more = rest + 1 := ⟨more - 1, by omega⟩
      have fewer : tests ≤ more := by omega
      unfold threadMapFindFrom at ended ⊢
      split_ifs at ended ⊢ with null
      · exact ended
      · cases lists : state.lists list with
        | none => simp [lists] at ended
        | some node =>
            simp only [lists] at ended ⊢
            split_ifs at ended ⊢ with empty
            · exact ih fewer ended
            · cases threads : state.threads node.thread with
              | none => simp [threads] at ended
              | some thread =>
                  simp only [threads] at ended ⊢
                  split_ifs at ended ⊢ with same
                  · exact ended
                  · exact ih fewer ended

theorem threadMapFind_unique {state : State} {threadHandle tests more found other : Nat}
    (one : threadMapFind state tests threadHandle = .done found)
    (two : threadMapFind state more threadHandle = .done other) : found = other := by
  have left := threadMapFindFrom_mono state threadHandle (Nat.le_max_left tests more) one
  have right := threadMapFindFrom_mono state threadHandle (Nat.le_max_right tests more) two
  exact Outcome.done.inj (left.symm.trans right)

/-- The loop ends at an entry with the handle, or it comes to where the entries end. -/
theorem threadMapFindFrom_segment (state : State) (threadHandle : Nat) {first stop : Nat}
    {lists live : List Nat} (segment : Segment state.lists ThreadList.next first lists stop)
    (owners : (lists.map fun list => (state.lists list).map ThreadList.thread) = live.map some)
    (records : ∀ thread ∈ live, thread ≠ 0 ∧ ∃ record, state.threads thread = some record) :
    (∃ list ∈ lists, (∀ tests, lists.length < tests →
        threadMapFindFrom state threadHandle tests first = .done list) ∧
      ∃ node, state.lists list = some node ∧ node.thread ∈ live ∧
        state.threads node.thread = some { threadHandle := threadHandle }) ∨
    (∀ thread ∈ live, state.threads thread ≠ some { threadHandle := threadHandle }) ∧
      ∀ tests, threadMapFindFrom state threadHandle (tests + lists.length) first =
        threadMapFindFrom state threadHandle tests stop := by
  induction lists generalizing first live with
  | nil =>
      obtain rfl : first = stop := segment
      have empty : live = [] := by simpa using owners.symm
      exact Or.inr ⟨by simp [empty], fun tests => rfl⟩
  | cons list rest ih =>
      obtain ⟨rfl, valid, node, read, remaining⟩ := segment
      cases live with
      | nil => simp at owners
      | cons thread others =>
          simp only [List.map_cons, read, Option.map_some, List.cons.injEq, Option.some.injEq] at owners
          obtain ⟨rfl, owners⟩ := owners
          obtain ⟨notNull, record, stored⟩ := records node.thread (by simp)
          by_cases same : record.threadHandle = threadHandle
          · refine Or.inl ⟨first, by simp, fun tests enough => ?_, node, read, by simp, ?_⟩
            · obtain ⟨tests, rfl⟩ : ∃ rest, tests = rest + 1 := ⟨tests - 1, by omega⟩
              simp [threadMapFindFrom, valid, read, notNull, stored, same]
            · rw [stored, ← same]
          · have further (tests : Nat) : threadMapFindFrom state threadHandle (tests + 1) first =
                threadMapFindFrom state threadHandle tests node.next := by
              simp [threadMapFindFrom, valid, read, notNull, stored, same]
            obtain ⟨list, member, loop, entry, content, alive, owner⟩ | ⟨missing, loop⟩ := ih remaining owners
              (fun thread member => records thread (List.mem_cons_of_mem _ member))
            · refine Or.inl ⟨list, List.mem_cons_of_mem _ member, fun tests enough => ?_, entry, content,
                List.mem_cons_of_mem _ alive, owner⟩
              obtain ⟨tests, rfl⟩ : ∃ rest, tests = rest + 1 := ⟨tests - 1, by omega⟩
              simp only [List.length_cons] at enough
              rw [further, loop tests (by omega)]
            · refine Or.inr ⟨fun thread member => ?_, fun tests => ?_⟩
              · rcases List.mem_cons.mp member with rfl | later
                · rw [stored]
                  intro equal
                  exact same (congrArg Thread.threadHandle (Option.some.inj equal))
                · exact missing thread later
              · rw [List.length_cons, ← Nat.add_assoc, further, loop]

theorem threadMapFindFrom_linked (state : State) (threadHandle : Nat) {first : Nat}
    {lists live : List Nat} (linked : Linked state.lists ThreadList.next first lists)
    (owners : (lists.map fun list => (state.lists list).map ThreadList.thread) = live.map some)
    (records : ∀ thread ∈ live, thread ≠ 0 ∧ ∃ record, state.threads thread = some record) :
    ∃ list, (∀ tests, lists.length < tests →
        threadMapFindFrom state threadHandle tests first = .done list) ∧
      ((list = 0 ∧ ∀ thread ∈ live, state.threads thread ≠ some { threadHandle := threadHandle }) ∨
        list ∈ lists ∧ ∃ node, state.lists list = some node ∧ node.thread ∈ live ∧
          state.threads node.thread = some { threadHandle := threadHandle }) := by
  obtain ⟨list, member, loop, found⟩ | ⟨missing, loop⟩ :=
    threadMapFindFrom_segment state threadHandle linked owners records
  · exact ⟨list, loop, Or.inr ⟨member, found⟩⟩
  · refine ⟨0, fun tests enough => ?_, Or.inl ⟨rfl, missing⟩⟩
    obtain ⟨tests, rfl⟩ : ∃ rest, tests = rest + 1 + lists.length := ⟨tests - lists.length - 1, by omega⟩
    rw [loop]
    simp [threadMapFindFrom]

/-! ## The invariant of runs that clean up the latest thread first -/

structure Ordered (state : State) : Prop where
  entries : ∃ lists, Linked state.lists ThreadList.next state.threadMap lists ∧
    (lists.map fun list => (state.lists list).map ThreadList.thread) = state.live.map some
  distinct : state.live.Nodup
  records : ∀ thread ∈ state.live, thread ≠ 0 ∧
    ∃ record, state.threads thread = some record ∧ record.threadHandle ∈ state.issued
  handles : ∀ thread ∈ state.live, ∀ other ∈ state.live,
    state.threads thread = state.threads other → thread = other

theorem initial_ordered : Ordered initial :=
  { entries := ⟨[], rfl, rfl⟩
    distinct := List.nodup_nil
    records := by simp [initial]
    handles := by simp [initial] }

theorem Ordered.find {state : State} (ordered : Ordered state) (threadHandle : Nat) :
    ∃ list, (∃ tests, threadMapFind state tests threadHandle = .done list) ∧
      ((list = 0 ∧ ¬ Alive state threadHandle) ∨
        (list ≠ 0 ∧ Alive state threadHandle ∧ EntryOf state list threadHandle)) := by
  obtain ⟨lists, linked, owners⟩ := ordered.entries
  obtain ⟨list, loop, outcome⟩ := threadMapFindFrom_linked state threadHandle linked owners
    (fun thread member => (ordered.records thread member).imp_right
      fun ⟨record, stored, _⟩ => ⟨record, stored⟩)
  refine ⟨list, ⟨_, loop (lists.length + 1) (by omega)⟩, ?_⟩
  rcases outcome with ⟨null, missing⟩ | ⟨member, node, content, alive, owner⟩
  · exact Or.inl ⟨null, fun ⟨thread, member, same⟩ => missing thread member same⟩
  · exact Or.inr ⟨(segment_allocated linked member).1, ⟨node.thread, alive, owner⟩,
      node, content, owner⟩

theorem Ordered.sound {state : State} (ordered : Ordered state) : Sound state := by
  obtain ⟨lists, linked, owners⟩ := ordered.entries
  refine ⟨⟨lists, linked, owners ▸ List.Perm.refl _⟩, ordered.distinct, fun threadHandle => ?_⟩
  obtain ⟨list, terminates, outcome⟩ := ordered.find threadHandle
  refine ⟨list, terminates, ?_⟩
  rcases outcome with ⟨null, missing⟩ | ⟨valid, alive, entry⟩
  · simp [null, missing]
  · simp [valid, alive, entry]

theorem Outcome.bind_eq_done {α β : Type} {outcome : Outcome α} {rest : α -> Outcome β} {value : β} :
    outcome.bind rest = .done value ↔ ∃ first, outcome = .done first ∧ rest first = .done value := by
  cases outcome <;> simp [Outcome.bind]

theorem threadCleanup_done {state next : State} {tests thread : Nat}
    (ended : threadCleanup state tests thread = .done next) :
    ∃ record iter removed, state.threads thread = some record ∧
      threadMapFind state tests record.threadHandle = .done iter ∧
      (if iter = 0 then .done state else threadMapRemove state tests iter) = .done removed ∧
      next = { removed with
        threads := Function.update removed.threads thread none
        live := removed.live.erase thread } := by
  unfold threadCleanup at ended
  cases stored : state.threads thread with
  | none => simp [stored] at ended
  | some record =>
      simp only [stored, Outcome.bind_eq_done] at ended
      obtain ⟨iter, found, removed, unlinked, result⟩ := ended
      exact ⟨record, iter, removed, rfl, found, unlinked, (Outcome.done.inj result).symm⟩

theorem step_cleanup {state next : State} {thread tests : Nat}
    (taken : step state (.cleanup thread tests) = some next) :
    thread ∈ state.live ∧ threadCleanup state tests thread = .done next := by
  simp only [step] at taken
  split_ifs at taken with member
  cases ended : threadCleanup state tests thread <;> simp_all

theorem create_ordered {state next : State} {thread list content threadHandle : Nat}
    (ordered : Ordered state)
    (taken : step state (.create thread list content threadHandle) = some next) : Ordered next := by
  simp only [step] at taken
  split_ifs at taken with given
  obtain ⟨valid, freshThread, validList, freshList, unused⟩ := given
  cases taken
  obtain ⟨lists, linked, owners⟩ := ordered.entries
  have newThread : thread ∉ state.live := fun member => by
    obtain ⟨-, record, stored, -⟩ := ordered.records thread member
    simp [freshThread] at stored
  have newList : list ∉ lists := fun member => by
    obtain ⟨-, node, read⟩ := segment_allocated linked member
    simp [freshList] at read
  have kept (other : Nat) (member : other ∈ state.live) :
      (threadCreate state thread list content threadHandle).threads other = state.threads other := by
    have differ : other ≠ thread := fun same => newThread (same ▸ member)
    simp [threadCreate, threadCreateStart, threadCreateInsert, differ]
  have stored : (threadCreate state thread list content threadHandle).threads thread =
      some { threadHandle := threadHandle } := by
    simp [threadCreate, threadCreateStart, threadCreateInsert]
  -- The new handle is not among the issued ones, so no live record has it.
  have other_handle (other : Nat) (member : other ∈ state.live) :
      state.threads other ≠ some { threadHandle := threadHandle } := fun same => by
    obtain ⟨-, record, read, issued⟩ := ordered.records other member
    cases read.symm.trans same
    exact unused issued
  refine ⟨⟨list :: lists, ?_, ?_⟩, List.nodup_cons.mpr ⟨newThread, ordered.distinct⟩, ?_, ?_⟩
  · exact segment_push validList freshList rfl linked
  · have same : ∀ other ∈ lists,
        (Function.update state.lists list (some { thread := thread, next := state.threadMap }) other).map
          ThreadList.thread = (state.lists other).map ThreadList.thread := fun other member => by
      have differ : other ≠ list := fun equal => newList (equal ▸ member)
      simp [differ]
    simpa [threadCreate, threadCreateStart, threadCreateInsert, List.map_congr_left same] using owners
  · intro other member
    rcases List.mem_cons.mp member with rfl | old
    · exact ⟨valid, _, stored, by simp [threadCreate, threadCreateStart]⟩
    · obtain ⟨notNull, record, read, issued⟩ := ordered.records other old
      exact ⟨notNull, record, (kept other old).trans read, List.mem_cons_of_mem _ issued⟩
  · intro one memberOne two memberTwo same
    rcases List.mem_cons.mp memberOne with rfl | oldOne <;>
      rcases List.mem_cons.mp memberTwo with rfl | oldTwo
    · rfl
    · exact absurd ((kept two oldTwo).symm.trans (same.symm.trans stored)) (other_handle two oldTwo)
    · exact absurd ((kept one oldOne).symm.trans (same.trans stored)) (other_handle one oldOne)
    · rw [kept one oldOne, kept two oldTwo] at same
      exact ordered.handles one oldOne two oldTwo same

/-! ## Unlinking -/

theorem threadMapRemoveFrom_again {state : State} {entry : Nat} {last : ThreadList} (valid : entry ≠ 0)
    (read : state.lists entry = some last) (again : last.next = entry) (tests : Nat) :
    threadMapRemoveFrom state entry tests entry = .running := by
  induction tests with
  | zero => rfl
  | succ tests ih =>
      rw [threadMapRemoveFrom, if_neg valid, read]
      simpa [again] using ih

/--
What `zs__thread_map_remove` does to an entry that is not the head: it frees the entry, and it writes
the entry's `next` into the head, or into the entry itself when that comes right after the head.
-/
theorem threadMapRemove_behind {state removed : State} {head entry stop tests : Nat} {middle after : List Nat}
    (segment : Segment state.lists ThreadList.next state.threadMap (head :: middle ++ entry :: after) stop)
    (once : (head :: middle ++ entry :: after).Nodup)
    (unlinked : threadMapRemove state tests entry = .done removed) :
    ∃ node last, state.lists head = some node ∧ state.lists entry = some last ∧
      removed = State.freeList
        { state with
          lists := if middle = [] then Function.update state.lists entry (some { last with next := last.next })
            else Function.update state.lists head (some { node with next := last.next }) } entry := by
  obtain ⟨start, valid, node, read, remaining⟩ := segment
  have behind : head ≠ entry := fun same => by simp [same] at once
  obtain ⟨-, last, readLast⟩ := segment_allocated remaining (show entry ∈ middle ++ entry :: after by simp)
  refine ⟨node, last, read, readLast, ?_⟩
  rw [threadMapRemove, start, if_neg behind] at unlinked
  obtain ⟨tests, rfl⟩ : ∃ rest, tests = rest + 1 := by
    cases tests with
    | zero => simp [threadMapRemoveFrom] at unlinked
    | succ rest => exact ⟨rest, rfl⟩
  rw [threadMapRemoveFrom, if_neg valid, read] at unlinked
  cases middle with
  | nil =>
      -- The head already points at the entry, so the loop goes on to the entry itself.
      obtain ⟨second, validLast, content, same, suffix⟩ := remaining
      cases readLast.symm.trans same
      simp only [ne_eq, second, not_true_eq_false, if_false] at unlinked
      -- The loop has ended, so the entry does not point to itself.
      have away : last.next ≠ entry := fun again => by
        rw [threadMapRemoveFrom_again validLast readLast again] at unlinked
        cases unlinked
      obtain ⟨tests, rfl⟩ : ∃ rest, tests = rest + 1 := by
        cases tests with
        | zero => simp [threadMapRemoveFrom] at unlinked
        | succ rest => exact ⟨rest, rfl⟩
      rw [threadMapRemoveFrom, if_neg validLast, readLast] at unlinked
      simp only [ne_eq, away, not_false_eq_true, if_true] at unlinked
      simpa using (Outcome.done.inj unlinked).symm
  | cons second others =>
      obtain ⟨follows, -⟩ := remaining
      have away : node.next ≠ entry := fun equal => by simp [← follows, equal] at once
      simp only [ne_eq, away, not_false_eq_true, if_true, readLast] at unlinked
      simpa using (Outcome.done.inj unlinked).symm

/-- The chain is left with the entries `rest`, each of the thread it was of. -/
structure Unlinked (state removed : State) (rest : List Nat) (stop : Nat) : Prop where
  chain : Segment removed.lists ThreadList.next removed.threadMap rest stop
  owners : rest.map (fun list => (removed.lists list).map ThreadList.thread) =
    rest.map fun list => (state.lists list).map ThreadList.thread
  frame : removed = { state with threadMap := removed.threadMap, lists := removed.lists }

section Removals

variable {state removed : State} {head second entry stop tests : Nat} {others after : List Nat}

theorem remove_head (segment : Segment state.lists ThreadList.next state.threadMap (entry :: after) stop)
    (once : (entry :: after).Nodup) (unlinked : threadMapRemove state tests entry = .done removed) :
    Unlinked state removed after stop := by
  have outside : entry ∉ after := (List.nodup_cons.mp once).1
  obtain ⟨head, valid, node, read, remaining⟩ := segment
  rw [threadMapRemove, if_pos head, head, read] at unlinked
  cases unlinked
  refine ⟨segment_update outside remaining, List.map_congr_left fun other member => ?_, rfl⟩
  have differ : other ≠ entry := fun same => outside (same ▸ member)
  simp [State.freeList, differ]

/-- The head still points to the second entry, which has been freed. -/
theorem remove_second (segment : Segment state.lists ThreadList.next state.threadMap (head :: entry :: after) stop)
    (once : (head :: entry :: after).Nodup)
    (unlinked : threadMapRemove state tests entry = .done removed) :
    Unlinked state removed [head] entry ∧ removed.lists entry = none := by
  obtain ⟨node, last, read, readLast, rfl⟩ :=
    threadMapRemove_behind (show Segment _ _ _ (head :: [] ++ entry :: after) _ from segment) once unlinked
  have behind : head ≠ entry := fun same => by simp [same] at once
  obtain ⟨start, valid, content, same, points, -⟩ := segment
  cases read.symm.trans same
  refine ⟨⟨⟨start, valid, node, ?_, points⟩, ?_, rfl⟩, ?_⟩ <;> simp [State.freeList, behind, read]

/-- The head points past a later entry, so the entries between the two are lost with it. -/
theorem remove_later
    (segment : Segment state.lists ThreadList.next state.threadMap (head :: (second :: others) ++ entry :: after) stop)
    (once : (head :: (second :: others) ++ entry :: after).Nodup)
    (unlinked : threadMapRemove state tests entry = .done removed) :
    Unlinked state removed (head :: after) stop := by
  obtain ⟨node, last, read, readLast, rfl⟩ := threadMapRemove_behind segment once unlinked
  obtain ⟨start, valid, _, _, remaining⟩ := segment
  obtain ⟨_, -, -, -, content, same, suffix⟩ := segment_append.mp remaining
  cases readLast.symm.trans same
  have behind : head ≠ entry := fun equal => by simp [equal] at once
  have headOutside : head ∉ after := fun inside => by simp [inside] at once
  have entryOutside : entry ∉ after := fun inside => by
    simp only [List.cons_append, List.nodup_cons, List.nodup_append] at once
    exact once.2.2.2.1.1 inside
  refine ⟨⟨start, valid, { node with next := last.next }, by simp [State.freeList, behind],
    segment_update entryOutside (segment_update headOutside suffix)⟩, ?_, rfl⟩
  refine List.map_congr_left fun other member => ?_
  rcases List.mem_cons.mp member with rfl | later
  · simp [State.freeList, behind, read]
  · have apart : other ≠ entry := fun equal => entryOutside (equal ▸ later)
    have away : other ≠ head := fun equal => headOutside (equal ▸ later)
    simp [State.freeList, apart, away]

/-- A chain that comes to a freed entry is not one of entries. -/
theorem not_linked {lists rest : List Nat} (segment : Segment state.lists ThreadList.next state.threadMap lists stop)
    (valid : stop ≠ 0) (freed : state.lists stop = none) :
    ¬ Linked state.lists ThreadList.next state.threadMap rest := by
  intro linked
  have comes : stop ∈ rest := segment_reaches segment linked valid
  obtain ⟨-, _, read⟩ := segment_allocated linked comes
  simp [freed] at read

end Removals

/-! ## Cleanups -/

theorem Ordered.find_live {state : State} (ordered : Ordered state) {front back : List Nat}
    {thread : Nat} (position : state.live = front ++ thread :: back) {record : Thread}
    (stored : state.threads thread = some record) {tests iter : Nat}
    (found : threadMapFind state tests record.threadHandle = .done iter) :
    ∃ before after, before.length = front.length ∧ after.length = back.length ∧
      Linked state.lists ThreadList.next state.threadMap (before ++ iter :: after) ∧
      (before.map fun list => (state.lists list).map ThreadList.thread) = front.map some ∧
      (state.lists iter).map ThreadList.thread = some thread ∧
      (after.map fun list => (state.lists list).map ThreadList.thread) = back.map some := by
  obtain ⟨lists, linked, owners⟩ := ordered.entries
  have member : thread ∈ state.live := by simp [position]
  obtain ⟨list, loop, outcome⟩ := threadMapFindFrom_linked state record.threadHandle linked owners
    (fun thread member => (ordered.records thread member).imp_right
      fun ⟨record, stored, _⟩ => ⟨record, stored⟩)
  rw [threadMapFind_unique (loop _ (Nat.lt_succ_self _)) found] at outcome
  obtain ⟨-, missing⟩ | ⟨entry, node, read, alive, owner⟩ := outcome
  · exact absurd stored (missing thread member)
  have same : node.thread = thread := ordered.handles _ alive _ member (owner.trans stored.symm)
  -- Entries stand in the order of `live`, which lists each thread once.
  obtain ⟨before, after, rfl⟩ := List.append_of_mem entry
  have sides := owners
  rw [position, List.map_append, List.map_cons, List.map_append, List.map_cons, read] at sides
  have once := ordered.distinct
  rw [position, List.nodup_middle, List.nodup_cons, List.mem_append, not_or] at once
  have inFront : some thread ∉ front.map some := by simpa using once.1.1
  have inBack : some thread ∉ back.map some := by simpa using once.1.2
  rw [Option.map_some, same] at sides
  obtain ⟨beforeOwners, -, afterOwners⟩ := (List.append_cons_inj_of_notMem inFront inBack).mp sides.symm
  refine ⟨before, after, ?_, ?_, linked, beforeOwners.symm, by simp [read, same], afterOwners.symm⟩
  · simpa using (congrArg List.length beforeOwners).symm
  · simpa using (congrArg List.length afterOwners).symm

theorem linked_ne_zero {state : State} {list : Nat} {before after : List Nat}
    (linked : Linked state.lists ThreadList.next state.threadMap (before ++ list :: after)) : list ≠ 0 :=
  (segment_allocated linked (by simp)).1

theorem cleanup_ordered {state next : State} {thread tests : Nat} (ordered : Ordered state)
    (latest : state.live.head? = some thread)
    (taken : step state (.cleanup thread tests) = some next) : Ordered next := by
  obtain ⟨-, ended⟩ := step_cleanup taken
  obtain ⟨record, iter, removed, stored, found, unlinked, rfl⟩ := threadCleanup_done ended
  obtain ⟨rest, position⟩ := List.head?_eq_some_iff.mp latest
  obtain ⟨before, after, noneBefore, -, linked, -, -, owners⟩ :=
    ordered.find_live (show state.live = [] ++ thread :: rest from position) stored found
  obtain rfl : before = [] := List.length_eq_zero_iff.mp noneBefore
  rw [if_neg (linked_ne_zero linked)] at unlinked
  obtain ⟨chain, same, frame⟩ := remove_head linked (linked_nodup linked) unlinked
  rw [frame]
  have once := ordered.distinct
  rw [position, List.nodup_cons] at once
  have live : state.live.erase thread = rest := by simp [position]
  have differ (other : Nat) (member : other ∈ rest) : other ≠ thread := fun same => once.1 (same ▸ member)
  have old (other : Nat) (member : other ∈ rest) : other ∈ state.live := by
    rw [position]; exact List.mem_cons_of_mem _ member
  refine ⟨⟨after, chain, ?_⟩, ?_, ?_, ?_⟩
  · simpa only [live] using same.trans owners
  · simpa only [live] using once.2
  · intro other member
    replace member : other ∈ rest := by simpa only [live] using member
    simpa [differ other member] using ordered.records other (old other member)
  · intro one memberOne two memberTwo
    replace memberOne : one ∈ rest := by simpa only [live] using memberOne
    replace memberTwo : two ∈ rest := by simpa only [live] using memberTwo
    simpa [differ one memberOne, differ two memberTwo] using
      ordered.handles one (old one memberOne) two (old two memberTwo)

/-- Removing any other entry leaves the freed entry in the chain or loses the entries before it. -/
theorem cleanup_not_sound {state next : State} {thread tests : Nat} (ordered : Ordered state)
    (notLatest : state.live.head? ≠ some thread)
    (taken : step state (.cleanup thread tests) = some next) : ¬ Sound next := by
  obtain ⟨member, ended⟩ := step_cleanup taken
  obtain ⟨record, iter, removed, stored, found, unlinked, rfl⟩ := threadCleanup_done ended
  obtain ⟨front, back, position⟩ := List.append_of_mem member
  obtain ⟨before, after, lengthBefore, lengthAfter, linked, -⟩ := ordered.find_live position stored found
  rw [if_neg (linked_ne_zero linked)] at unlinked
  obtain ⟨head, middle, rfl⟩ : ∃ head middle, before = head :: middle := by
    cases before with
    | nil =>
        obtain rfl : front = [] := List.length_eq_zero_iff.mp lengthBefore.symm
        simp [position] at notLatest
    | cons head middle => exact ⟨head, middle, rfl⟩
  rintro ⟨⟨lists, chain, owners⟩, -, -⟩
  cases middle with
  | nil =>
      have valid := linked_ne_zero linked
      obtain ⟨short, freed⟩ := remove_second linked (linked_nodup linked) unlinked
      exact not_linked short.chain valid freed chain
  | cons second others =>
      obtain ⟨short, -, frame⟩ := remove_later linked (linked_nodup linked) unlinked
      have exactly : lists = head :: after := linked_unique chain short
      have lengths := owners.length_eq
      rw [frame] at lengths
      simp only [exactly, List.length_map, List.length_cons, position,
        List.length_erase_of_mem (position ▸ member), List.length_append] at lengths
      simp only [List.length_cons] at lengthBefore
      omega

/-! ## Runs -/

/--
A run keeps the registry sound throughout if and only if each of its cleanups belongs to the thread
that was created last among those not yet cleaned up.
-/
theorem sound_iff_latestFirst (actions : List Action) (run : (exec step initial actions).isSome) :
    Throughout step Sound initial actions ↔ Along step LatestFirst initial actions := by
  refine throughout_iff_along Ordered (fun _ => Ordered.sound) ?_ ?_ initial_ordered run
  · intro state action next ordered latest taken
    cases action with
    | create thread list content threadHandle => exact create_ordered ordered taken
    | cleanup thread tests => exact cleanup_ordered ordered latest taken
  · intro state action next ordered notLatest taken
    cases action with
    | create thread list content threadHandle => exact absurd trivial notLatest
    | cleanup thread tests => exact cleanup_not_sound ordered notLatest taken

/-- Three threads; the addresses of the first one are given out again after its cleanup. -/
def threeThreads : List Action :=
  [.create 1 1 0 7, .create 2 2 0 8, .cleanup 2 9, .create 2 2 8 9, .cleanup 2 9, .cleanup 1 9]

theorem sound_iff_latestFirst_threeThreads :
    Throughout step Sound initial threeThreads ↔ Along step LatestFirst initial threeThreads :=
  sound_iff_latestFirst threeThreads (by decide)

/-- The second of three threads disappears from the registry when the first one ends before it. -/
theorem sound_fails_first_ends_first :
    ¬ ∀ (actions : List Action) (state : State), exec step initial actions = some state -> Sound state := by
  intro always
  let ended : List Action := [.create 1 1 0 7, .create 2 2 0 8, .create 3 3 0 9, .cleanup 1 9]
  obtain ⟨state, run⟩ : ∃ state, exec step initial ended = some state :=
    Option.isSome_iff_exists.mp (by decide)
  have lost : (exec step initial ended).map (fun state => threadMapFind state 9 8) = some (.done 0) := by
    decide
  have alive : (exec step initial ended).map (fun state =>
      decide (2 ∈ state.live) && decide (state.threads 2 = some { threadHandle := 8 })) = some true := by
    decide
  simp only [run, Option.map_some, Option.some.injEq, Bool.and_eq_true, decide_eq_true_eq] at lost alive
  obtain ⟨list, ⟨tests, found⟩, exact_lookup, -⟩ := (always ended state run).lookup 8
  have null : list = 0 := threadMapFind_unique found lost
  exact exact_lookup.mpr ⟨2, alive.1, alive.2⟩ null

end ZSystem.Registry
