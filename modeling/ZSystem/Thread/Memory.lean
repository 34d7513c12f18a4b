import ZSystem.Shared.Embed
import ZSystem.Thread.Execute
import ZSystem.Thread.Registry

set_option autoImplicit false

/-!
# The threads with their registry in memory

The program of `ZSystem.Thread` with `zs__thread_map` as the chain of entries that its functions walk. An
address that `malloc` gives and the number of tests that a loop makes are picked by the step.
-/

namespace ZSystem.Thread.Memory

open Chain Posix Transition

structure Data where
  -- No code here reads its `threadMap`, `dangling` and `handleStored`.
  base : Thread.Data := {}
  registry : Registry.State := Registry.initial
  -- `a_thread` in the code of the thread and of its creator.
  place : Nat -> Nat := fun _ => 0
  -- The thread whose record lies at an address.
  owner : Nat -> Nat := fun _ => 0

def Data.withBase (base : Thread.Data) (data : Data) : Data := { data with base := base }

/--
The handle of a thread in memory. What `malloc` leaves in a record is taken to be the handle of no thread;
`ZSystem.Thread.Publish` is about records where it is one.
-/
def handle (number : Nat) : Nat := number + 1

/-- `zs__thread_map_find`, with the thread of the entry; `none` where it reads freed memory or has not ended. -/
def Data.find (data : Data) (tests number : Nat) : Option (Option Nat) :=
  match Registry.threadMapFind data.registry tests (handle number) with
  | .done list =>
      if list = 0 then some none
      else (data.registry.lists list).map fun entry => some (data.owner entry.thread)
  | .invalid | .running => none

/-- The part of `zs__thread_cleanup` that runs with the map locked. -/
def Data.unregister (data : Data) (tests own : Nat) : Option Data :=
  match data.registry.threads (data.place own) with
  | none => none
  | some record =>
      match (Registry.threadMapFind data.registry tests record.threadHandle).bind fun iter =>
          if iter = 0 then .done data.registry else Registry.threadMapRemove data.registry tests iter with
      | .done registry => some
          { data with
            base := (data.base.unregister own).getD data.base
            registry := registry }
      | .invalid | .running => none

def Data.setRecord (data : Data) (number : Nat) (content : Option Registry.Thread) : Data :=
  { data with registry := { data.registry with
      threads := Function.update data.registry.threads (data.place number) content } }

abbrev Code := Instr ThreadId Obj PC Data

def lookUp (number : Nat) (next : Data -> Option Nat -> PC) : Code := .act fun tests data =>
  (data.find tests number).map fun found => (data, next data found)

/-- The code of `ZSystem.Thread`, with the chain in the place of its list. -/
def code (thread : ThreadId) : PC -> Code
  | .createInit args => .act fun address data =>
      if address = 0 ∨ (data.registry.threads address).isSome then none else some
        (({ data with
            base := { data.base with
              record := Function.update data.base.record args.thread
                (some { run := args.run, abort := args.abort, waitingThreads := 0, handleStored := false }) }
            place := Function.update data.place args.thread address
            owner := Function.update data.owner address args.thread } : Data).setRecord args.thread
              (some { threadHandle := 0 }),
          .createLockGate args)
  -- `malloc` gives the entry before the map is locked, but nobody else has its address until now.
  | .createInsert args => .act fun address data =>
      if address = 0 ∨ (data.registry.lists address).isSome then none else some
        ({ data with
            base := { data.base with threadMap := args.thread :: data.base.threadMap }
            registry := { data.registry with
              lists := Function.update data.registry.lists address
                (some { thread := data.place args.thread, next := data.registry.threadMap })
              threadMap := address } },
          .createUnlockMap args)
  | .createHandle args => .act fun _ data => some
      ((data.withBase (data.base.update args.thread fun record => { record with handleStored := true })).setRecord
        args.thread (some { threadHandle := handle args.thread }), .createStart args)
  | .executeFind number => lookUp number fun _ found =>
      match found with
      | some entry => .executeUnlockGate entry
      | none => .executeUnlockMap number false
  | .abortFind number => lookUp number fun data found =>
      match found with
      | some entry =>
          if (data.base.record entry).map Record.abort = some true then .abortCallback entry
          else .abortCancel number
      | none => .abortUnlockMap number
  | .waitFind number => lookUp number fun _ found =>
      match found with
      | some entry => .waitLockEntry entry
      | none => .waitMissing number
  | .availableFind number => lookUp number fun _ found => .availableUnlockMap number found.isSome
  | .cleanupRemove =>
      match thread with
      | .library own => .act fun tests data =>
          (data.unregister tests own).map fun result => (result, .cleanupUnlockMap)
      | _ => .halt
  | .cleanupDestroy =>
      match thread with
      | .library own => .act fun _ data => some
          ((data.withBase { data.base with
            record := Function.update data.base.record own none }).setRecord own none, .finished)
      | _ => .halt
  | pc => (Thread.code thread pc).embed id id Data.base Data.withBase

def program : Program ThreadId Obj PC Data where
  code := code
  calls thread pc place data := (Thread.calls thread pc place data.base).map fun base => data.withBase base
  note thread pc data := data.withBase (Thread.note thread pc data.base)
  handler := Thread.program.handler
  interruptible := Thread.program.interruptible

abbrev State := Posix.State ThreadId Obj PC Data

def initial : State where
  owner := Thread.initial.owner
  sleepers := Thread.initial.sleepers
  value := Thread.initial.value
  cancelled := Thread.initial.cancelled
  status := Thread.initial.status
  data := {}

abbrev step : State -> Action -> Option State := program.step

/-- As `ZSystem.Thread` sees the state. -/
abbrev base (state : State) : Thread.State := state.part Data.base

/-- The entries at `lists` are those of the threads `numbers`. -/
def Data.Entries (data : Data) (lists numbers : List Nat) : Prop :=
  (lists.map fun list => (data.registry.lists list).map Registry.ThreadList.thread) =
    numbers.map fun number => some (data.place number)

/-- The chain is the list of `ZSystem.Thread`, and a lookup ends and finds what it finds in the list. -/
structure Intact (state : State) : Prop where
  chain : ∃ lists, Linked state.data.registry.lists Registry.ThreadList.next state.data.registry.threadMap lists ∧
    state.data.Entries lists state.data.base.threadMap
  lookups : ∀ number, ∃ tests, state.data.find tests number =
    some (if state.data.base.find number = true then some number else none)

def cleaning : ThreadId -> Status Obj PC -> Option Nat
  | .library own, .running .cleanupRemove => some own
  | _, _ => none

/-- No cleanup removes the entry right after the head. -/
def NotSecond (state : State) : Action -> Prop
  | .run thread _ => ∀ own ∈ cleaning thread (state.status thread), state.data.base.threadMap[1]? ≠ some own
  | _ => True

instance (state : State) : (action : Action) -> Decidable (NotSecond state action)
  | .run thread _ => inferInstanceAs (Decidable
      (∀ own ∈ cleaning thread (state.status thread), state.data.base.threadMap[1]? ≠ some own))
  | .call _ _ | .wake _ | .interrupt _ => instDecidableTrue

/-- No walk comes to an entry that has been freed and is still linked. -/
def Defined (state : State) : Action -> Prop
  | .run thread _ => ∀ pc ∈ (state.status thread).place, state.data.base.reachesFreed thread pc = false
  | _ => True

/-! ## What the memory has -/

/-- Two tests are enough: the first entry that does not point to the removed one is the first or the second. -/
theorem threadMapRemove_ends {memory : Registry.State} {entry stop : Nat} {before after : List Nat}
    (segment : Segment memory.lists Registry.ThreadList.next memory.threadMap (before ++ entry :: after) stop)
    (once : (before ++ entry :: after).Nodup) (apart : stop ≠ entry)
    (tests : Nat) (enough : 2 ≤ tests) : ∃ removed, Registry.threadMapRemove memory tests entry = .done removed := by
  obtain ⟨-, last, readLast⟩ := segment_allocated segment (show entry ∈ before ++ entry :: after by simp)
  obtain ⟨tests, rfl⟩ : ∃ rest, tests = rest + 2 := ⟨tests - 2, by omega⟩
  cases before with
  | nil =>
      obtain ⟨head, -⟩ := segment
      simp [Registry.threadMapRemove, head, readLast]
  | cons head middle =>
      obtain ⟨start, valid, node, read, remaining⟩ := segment
      have behind : head ≠ entry := fun same => by simp [same] at once
      cases middle with
      | nil =>
          obtain ⟨points, valid', content, same, rest⟩ := remaining
          cases readLast.symm.trans same
          have further : last.next ≠ entry := fun again => by
            cases after with
            | nil => exact apart (rest.symm.trans again)
            | cons later others =>
                obtain ⟨follows, -⟩ := rest
                simp [← follows, again] at once
          simp [Registry.threadMapRemove, Registry.threadMapRemoveFrom, start, behind, valid, read, points, valid',
            readLast, further]
      | cons second others =>
          obtain ⟨points, -⟩ := remaining
          have away : node.next ≠ entry := fun same => by simp [← points, same] at once
          simp [Registry.threadMapRemove, Registry.threadMapRemoveFrom, start, behind, valid, read, away, readLast]

theorem threadMapRemoveFrom_frees {memory removed : Registry.State} {entry tests list other : Nat}
    (unlinked : Registry.threadMapRemoveFrom memory entry tests list = .done removed)
    (free : memory.lists other = none) : removed.lists other = none ∧ removed.threads = memory.threads := by
  induction tests generalizing list with
  | zero => simp [Registry.threadMapRemoveFrom] at unlinked
  | succ tests ih =>
      unfold Registry.threadMapRemoveFrom at unlinked
      split_ifs at unlinked with null
      · cases unlinked
        exact ⟨free, rfl⟩
      · cases read : memory.lists list with
        | none => simp [read] at unlinked
        | some node =>
            simp only [read] at unlinked
            split_ifs at unlinked with away
            · cases last : memory.lists entry with
              | none => simp [last] at unlinked
              | some freed =>
                  simp only [last] at unlinked
                  cases unlinked
                  have apart : other ≠ list := fun same => by simp [← same, free] at read
                  have gone : other ≠ entry := fun same => by simp [← same, free] at last
                  exact ⟨by simp [Registry.State.freeList, apart, gone, free], rfl⟩
            · exact ih unlinked

theorem threadMapRemove_frees {memory removed : Registry.State} {entry tests other : Nat}
    (unlinked : Registry.threadMapRemove memory tests entry = .done removed) (free : memory.lists other = none) :
    removed.lists other = none ∧ removed.threads = memory.threads := by
  unfold Registry.threadMapRemove at unlinked
  split_ifs at unlinked with head
  · cases read : memory.lists memory.threadMap with
    | none => simp [read] at unlinked
    | some node =>
        simp only [read] at unlinked
        cases unlinked
        by_cases same : other = entry
        · simp [Registry.State.freeList, same]
        · simp [Registry.State.freeList, same, free]
  · exact threadMapRemoveFrom_frees unlinked free

/-- The entries up to the first freed one, at `stop`, are those of the list. -/
structure Chained (data : Data) (stop : Nat) : Prop where
  chain : ∃ lists,
    Segment data.registry.lists Registry.ThreadList.next data.registry.threadMap lists stop ∧
      data.Entries lists data.base.threadMap
  -- Without a freed one they are all there are.
  ends : data.base.dangling = false -> stop = 0
  records : ∀ number record, data.base.record number = some record ->
    data.place number ≠ 0 ∧ data.owner (data.place number) = number ∧
      data.registry.threads (data.place number) =
        some { threadHandle := if record.handleStored then handle number else 0 }

structure Kept (state : State) (stop : Nat) : Prop where
  valid : Valid (base state)
  chained : Chained state.data stop

section Lookups

variable {data : Data} {tests number stop : Nat}

theorem Chained.threads (chained : Chained data stop) (valid : DataValid data.base)
    (member : number ∈ data.base.threadMap) :
    data.place number ≠ 0 ∧ data.owner (data.place number) = number ∧
      ∃ record, data.registry.threads (data.place number) = some record := by
  obtain ⟨record, known⟩ := Option.isSome_iff_exists.mp (valid.registered number member).2
  obtain ⟨notNull, mine, content⟩ := chained.records number record known
  exact ⟨notNull, mine, _, content⟩

/-- No entry comes twice before the freed one. -/
theorem Chained.once (chained : Chained data stop) (valid : DataValid data.base) {lists : List Nat}
    (entries : data.Entries lists data.base.threadMap) : lists.Nodup := by
  refine List.Nodup.of_map _ (entries.symm ▸ valid.nodup.map_on fun one first two second same => ?_)
  obtain ⟨-, mine, -⟩ := chained.threads valid first
  obtain ⟨-, other, -⟩ := chained.threads valid second
  exact mine.symm.trans ((congrArg data.owner (Option.some.inj same)).trans other)

/-- Where an entry of the list lies. -/
structure Position (data : Data) (number list stop : Nat) (before after front back : List Nat) : Prop where
  segment : Segment data.registry.lists Registry.ThreadList.next data.registry.threadMap (before ++ list :: after) stop
  listed : data.base.threadMap = front ++ number :: back
  ahead : data.Entries before front
  entry : (data.registry.lists list).map Registry.ThreadList.thread = some (data.place number)
  behind : data.Entries after back

/-- The entry that a walk finds is the one of the thread with this handle. -/
theorem Chained.walk (chained : Chained data stop) (valid : DataValid data.base) (number : Nat)
    (defined : data.base.defined number = true) :
    ∃ list, (∃ tests, Registry.threadMapFind data.registry tests (handle number) = .done list) ∧
      (list = 0 ∧ data.base.find number = false ∨
        data.base.find number = true ∧ ∃ before after front back,
          Position data number list stop before after front back) := by
  obtain ⟨lists, segment, entries⟩ := chained.chain
  have owners : (lists.map fun list => (data.registry.lists list).map Registry.ThreadList.thread) =
      (data.base.threadMap.map data.place).map some := by
    rw [List.map_map]
    exact entries
  obtain ⟨list, entry, loop, node, read, -, stored⟩ | ⟨missing, loop⟩ :=
    Registry.threadMapFindFrom_segment data.registry (handle number) segment owners fun thread member => by
      obtain ⟨other, listed, rfl⟩ := List.mem_map.mp member
      obtain ⟨notNull, -, known⟩ := chained.threads valid listed
      exact ⟨notNull, known⟩
  · refine ⟨list, ⟨_, loop _ (Nat.lt_succ_self _)⟩, Or.inr ?_⟩
    obtain ⟨before, after, rfl⟩ := List.append_of_mem entry
    rw [Data.Entries, List.map_append, List.map_cons] at entries
    obtain ⟨front, rest, listed, first, second⟩ := List.map_eq_append_iff.mp entries.symm
    obtain ⟨other, back, rfl, own, last⟩ := List.map_eq_cons_iff.mp second
    rw [read, Option.map_some, Option.some.injEq] at own
    have member : other ∈ data.base.threadMap := by simp [listed]
    obtain ⟨record, known⟩ := Option.isSome_iff_exists.mp (valid.registered other member).2
    obtain ⟨-, -, content⟩ := chained.records other record known
    rw [own, stored, Option.some.injEq, Registry.Thread.mk.injEq] at content
    -- Only a handle that is stored is the handle of a thread, and then it is the thread's own.
    have flag : record.handleStored = true := by
      by_contra unset
      simp [unset, handle] at content
    obtain rfl : number = other := by simpa [flag, handle] using content
    refine ⟨Data.find_iff.mpr ⟨member, record, known, flag⟩, before, after, front, back, segment, listed, first.symm,
      ?_, last.symm⟩
    rw [read, Option.map_some, own]
  · have unknown : data.base.find number = false := Bool.eq_false_iff.mpr fun found => by
      obtain ⟨listed, record, known, flag⟩ := Data.find_iff.mp found
      obtain ⟨-, -, content⟩ := chained.records number record known
      exact missing (data.place number) (List.mem_map_of_mem listed) (by rw [content, flag]; rfl)
    have intact : data.base.dangling = false := by simpa [Thread.Data.defined, unknown] using defined
    refine ⟨0, ⟨1 + lists.length, ?_⟩, Or.inl ⟨rfl, unknown⟩⟩
    rw [Registry.threadMapFind, loop, chained.ends intact]
    rfl

theorem Chained.find (chained : Chained data stop) (valid : DataValid data.base) (number : Nat)
    (defined : data.base.defined number = true) :
    ∃ tests, data.find tests number = some (if data.base.find number = true then some number else none) := by
  obtain ⟨list, ⟨tests, found⟩, outcome⟩ := chained.walk valid number defined
  refine ⟨tests, ?_⟩
  obtain ⟨rfl, missing⟩ | ⟨known, before, after, front, back, position⟩ := outcome
  · simp [Data.find, found, missing]
  · have member : number ∈ data.base.threadMap := by simp [position.listed]
    obtain ⟨-, own, -⟩ := chained.threads valid member
    obtain ⟨node, content, same⟩ := Option.map_eq_some_iff.mp position.entry
    have notNull := (segment_allocated position.segment (show list ∈ before ++ list :: after by simp)).1
    simp [Data.find, found, notNull, content, same, own, known]

theorem Data.find_unique {more : Nat} {one two : Option Nat} (first : data.find tests number = some one)
    (second : data.find more number = some two) : one = two := by
  unfold Data.find at first second
  split at first
  · rename_i list found
    split at second
    · rename_i other again
      obtain rfl := Registry.threadMapFind_unique found again
      exact Option.some.inj (first.symm.trans second)
    all_goals cases second
  all_goals cases first

/-- A lookup that ends has found what it finds in the list. -/
theorem Chained.found (chained : Chained data stop) (valid : DataValid data.base) {found : Option Nat}
    (defined : data.base.defined number = true) (ended : data.find tests number = some found) :
    found = if data.base.find number = true then some number else none := by
  obtain ⟨_, finds⟩ := chained.find valid number defined
  exact Data.find_unique ended finds

theorem unregister_cases {data after : Thread.Data} {own : Nat} (removed : data.unregister own = some after) :
    data.defined own = true ∧
      (data.find own = true ∧ after = data.remove own ∨ data.find own = false ∧ after = data) := by
  unfold Thread.Data.unregister at removed
  split_ifs at removed with found freed
  · cases removed
    exact ⟨by simp [Thread.Data.defined, found], Or.inl ⟨found, rfl⟩⟩
  · cases removed
    exact ⟨by simpa [Thread.Data.defined] using Or.inr freed, Or.inr ⟨by simpa using found, rfl⟩⟩

theorem Position.entries {list : Nat} {before after front back : List Nat}
    (position : Position data number list stop before after front back) :
    data.Entries (before ++ list :: after) data.base.threadMap := by
  rw [Data.Entries, position.listed, List.map_append, List.map_append, List.map_cons, List.map_cons, position.ahead,
    position.entry, position.behind]

/-- The loops of a cleanup end, if no entry lies where the freed one was. -/
theorem Chained.removes (chained : Chained data stop) (valid : DataValid data.base)
    (unused : data.registry.lists stop = none) {own : Nat} {base : Thread.Data}
    (removable : data.base.unregister own = some base) :
    ∃ tests registry, ((Registry.threadMapFind data.registry tests (handle own)).bind fun iter =>
      if iter = 0 then .done data.registry else Registry.threadMapRemove data.registry tests iter) =
        .done registry := by
  obtain ⟨defined, removal⟩ := unregister_cases removable
  obtain ⟨list, ⟨tests, found⟩, outcome⟩ := chained.walk valid own defined
  have enough (more : Nat) (above : tests ≤ more) :
      Registry.threadMapFind data.registry more (handle own) = .done list :=
    Registry.threadMapFindFrom_mono data.registry (handle own) above found
  obtain ⟨null, -⟩ | ⟨present, before, after, front, back, position⟩ := outcome
  · exact ⟨tests, data.registry, by simp [found, Registry.Outcome.bind, null]⟩
  · obtain ⟨notNull, node, read⟩ :=
      segment_allocated position.segment (show list ∈ before ++ list :: after by simp)
    have apart : stop ≠ list := fun same => by simp [← same, unused] at read
    obtain ⟨registry, removed⟩ := threadMapRemove_ends position.segment (chained.once valid position.entries)
      apart (tests + 2) (by omega)
    refine ⟨tests + 2, registry, ?_⟩
    rw [enough _ (by omega), Registry.Outcome.bind, if_neg notNull]
    exact removed

end Lookups

/-! ## What the writes do to it -/

section Writes

variable {data after : Data} {own tests address stop : Nat} {args : Create}

theorem Chained.of_base (chained : Chained data stop) {base : Thread.Data}
    (threadMap : base.threadMap = data.base.threadMap) (dangling : base.dangling = data.base.dangling)
    (records : ∀ number record, base.record number = some record ->
      ∃ before, data.base.record number = some before ∧ before.handleStored = record.handleStored) :
    Chained (data.withBase base) stop := by
  obtain ⟨lists, segment, entries⟩ := chained.chain
  refine ⟨⟨lists, segment, ?_⟩, fun intact => chained.ends (dangling.symm.trans intact), fun number record read => ?_⟩
  · simpa only [Data.Entries, Data.withBase, threadMap] using entries
  · obtain ⟨before, known, flag⟩ := records number record read
    exact flag ▸ chained.records number before known

/-- Entries do not move as long as nobody else's record is given a new address. -/
theorem Data.Entries.of_place {lists numbers : List Nat} (entries : data.Entries lists numbers)
    (lists_same : ∀ list ∈ lists, after.registry.lists list = data.registry.lists list)
    (place : ∀ number ∈ numbers, after.place number = data.place number) : after.Entries lists numbers := by
  have before := List.map_congr_left fun list member => congrArg (Option.map Registry.ThreadList.thread)
    (lists_same list member)
  refine before.trans (entries.trans (List.map_congr_left fun number member => ?_))
  rw [place number member]

theorem Chained.init (chained : Chained data stop) (fresh : address ≠ 0 ∧ data.registry.threads address = none)
    (unlisted : args.thread ∉ data.base.threadMap) {record : Record} (unset : record.handleStored = false) :
    Chained (({ data with
      base := { data.base with record := Function.update data.base.record args.thread (some record) }
      place := Function.update data.place args.thread address
      owner := Function.update data.owner address args.thread } : Data).setRecord args.thread
        (some { threadHandle := 0 })) stop := by
  obtain ⟨lists, segment, entries⟩ := chained.chain
  refine ⟨⟨lists, segment, entries.of_place (fun _ _ => rfl) fun number member => ?_⟩, chained.ends,
    fun number known read => ?_⟩
  · have differ : number ≠ args.thread := fun same => unlisted (same ▸ member)
    simp [Data.setRecord, differ]
  · by_cases same : number = args.thread
    · subst same
      obtain rfl : record = known := by simpa [Data.setRecord] using read
      simp [Data.setRecord, fresh.1, unset]
    · obtain ⟨notNull, mine, content⟩ := chained.records number known (by simpa [Data.setRecord, same] using read)
      have apart : data.place number ≠ address := fun equal => by simp [equal, fresh.2] at content
      simp [Data.setRecord, same, apart, notNull, mine, content]

theorem Chained.insert (chained : Chained data stop) (fresh : address ≠ 0 ∧ data.registry.lists address = none) :
    Chained { data with
      base := { data.base with threadMap := args.thread :: data.base.threadMap }
      registry := { data.registry with
        lists := Function.update data.registry.lists address
          (some { thread := data.place args.thread, next := data.registry.threadMap })
        threadMap := address } } stop := by
  obtain ⟨lists, segment, entries⟩ := chained.chain
  have outside : address ∉ lists := fun member => by
    obtain ⟨-, node, read⟩ := segment_allocated segment member
    simp [fresh.2] at read
  refine ⟨⟨address :: lists, segment_push fresh.1 fresh.2 rfl segment, ?_⟩, chained.ends, chained.records⟩
  have kept : ∀ list ∈ lists, (Function.update data.registry.lists address
      (some { thread := data.place args.thread, next := data.registry.threadMap }) list) = data.registry.lists list :=
    fun list member => by
      have differ : list ≠ address := fun same => outside (same ▸ member)
      simp [differ]
  have behind := List.map_congr_left fun list member =>
    congrArg (Option.map Registry.ThreadList.thread) (kept list member)
  simpa [Data.Entries] using behind.trans entries

/-- A record is freed or written in its place, where no other record lies. -/
theorem Chained.record_apart (chained : Chained data stop) {number : Nat} {mine other : Record}
    (read : data.base.record own = some mine) (known : data.base.record number = some other)
    (differ : number ≠ own) : data.place number ≠ data.place own := by
  intro same
  obtain ⟨-, here, -⟩ := chained.records own mine read
  obtain ⟨-, there, -⟩ := chained.records number other known
  exact differ (there.symm.trans ((congrArg data.owner same).trans here))

theorem Chained.store (chained : Chained data stop) (present : (data.base.record args.thread).isSome) :
    Chained ((data.withBase (data.base.update args.thread fun record => { record with handleStored := true })).setRecord
      args.thread (some { threadHandle := handle args.thread })) stop := by
  obtain ⟨lists, segment, entries⟩ := chained.chain
  obtain ⟨mine, read⟩ := Option.isSome_iff_exists.mp present
  refine ⟨⟨lists, segment, entries.of_place (fun _ _ => rfl) fun _ _ => rfl⟩, chained.ends,
    fun number record known => ?_⟩
  by_cases same : number = args.thread
  · subst same
    obtain ⟨notNull, here, -⟩ := chained.records args.thread mine read
    obtain rfl : { mine with handleStored := true } = record := by
      simpa [Data.setRecord, Data.withBase, read] using known
    exact ⟨notNull, here, by simp [Data.setRecord, Data.withBase]⟩
  · have before : data.base.record number = some record := by
      simpa [Data.setRecord, Data.withBase, same] using known
    have apart := chained.record_apart read before same
    simpa [Data.setRecord, Data.withBase, apart] using chained.records number record before

theorem Chained.destroy (chained : Chained data stop) (present : (data.base.record own).isSome) :
    Chained ((data.withBase { data.base with
      record := Function.update data.base.record own none }).setRecord own none) stop := by
  obtain ⟨lists, segment, entries⟩ := chained.chain
  obtain ⟨mine, read⟩ := Option.isSome_iff_exists.mp present
  refine ⟨⟨lists, segment, entries.of_place (fun _ _ => rfl) fun _ _ => rfl⟩, chained.ends,
    fun number record known => ?_⟩
  by_cases same : number = own
  · subst same
    simp [Data.setRecord, Data.withBase] at known
  · have before : data.base.record number = some record := by
      simpa [Data.setRecord, Data.withBase, same] using known
    have apart := chained.record_apart read before same
    simpa [Data.setRecord, Data.withBase, apart] using chained.records number record before

theorem unregister_done (stored : data.registry.threads (data.place own) = some { threadHandle := handle own })
    (removed : data.unregister tests own = some after) :
    ∃ iter registry, Registry.threadMapFind data.registry tests (handle own) = .done iter ∧
      (if iter = 0 then .done data.registry else Registry.threadMapRemove data.registry tests iter) = .done registry ∧
      after = { data with base := (data.base.unregister own).getD data.base, registry := registry } := by
  simp only [Data.unregister, stored] at removed
  split at removed
  · rename_i registry done
    obtain ⟨iter, found, rest⟩ := Registry.Outcome.bind_eq_done.mp done
    exact ⟨iter, registry, found, rest, (Option.some.inj removed).symm⟩
  all_goals cases removed

theorem Chained.of_unlinked (chained : Chained data stop) {registry : Registry.State} {lists rest : List Nat}
    {behind : Nat} {dangling : Bool} (unlinked : Registry.Unlinked data.registry registry lists behind)
    (entries : data.Entries lists rest) (ends : dangling = false -> behind = 0) :
    Chained { data with
      base := { data.base with threadMap := rest, dangling := dangling }
      registry := registry } behind := by
  refine ⟨⟨lists, unlinked.chain, unlinked.owners.trans entries⟩, ends, fun number record read => ?_⟩
  have threads : registry.threads = data.registry.threads := by rw [unlinked.frame]
  simpa only [threads] using chained.records number record read

theorem threadMapRemove_position {front back : List Nat} {entry : Nat}
    (distinct : (front ++ entry :: back).Nodup) :
    threadMapRemove entry (front ++ entry :: back) =
      match front with
      | [] => (back, false)
      | [head] => ([head], true)
      | head :: _ :: _ => (head :: back, false) := by
  match front with
  | [] => simp [threadMapRemove]
  | [head] =>
      have apart : head ≠ entry := fun same => by simp [same] at distinct
      simp [threadMapRemove, apart]
  | head :: second :: others =>
      simp only [List.cons_append, List.nodup_cons, List.mem_cons, List.mem_append, not_or] at distinct
      obtain ⟨⟨-, -, apart, -⟩, ⟨-, behind, -⟩, once⟩ := distinct
      have outside : ∀ other ∈ others, (other != entry) = true := fun other member => by
        have differ : other ≠ entry := fun same =>
          (List.nodup_append.mp once).2.2 other member entry (by simp) same
        simp [differ]
      simp [threadMapRemove, apart, behind, List.dropWhile_append_of_pos outside]

/-- A removal in memory of the entry at a position. It does not make the chain go on with an entry in use. -/
theorem Chained.remove (chained : Chained data stop) (valid : DataValid data.base) {list : Nat}
    {before behind front back : List Nat} (position : Position data own list stop before behind front back)
    {registry : Registry.State} (unlinked : Registry.threadMapRemove data.registry tests list = .done registry) :
    ∃ last, Chained { data with base := data.base.remove own, registry := registry } last ∧
      (data.registry.lists stop = none -> registry.lists last = none) := by
  have once := chained.once valid position.entries
  have distinct := valid.nodup
  have unused (free : data.registry.lists stop = none) : registry.lists stop = none :=
    (threadMapRemove_frees unlinked free).1
  obtain ⟨segment, listed, ahead, -, last⟩ := position
  have lengths : before.length = front.length := by simpa using congrArg List.length ahead
  have removal := threadMapRemove_position (listed ▸ distinct)
  rw [Thread.Data.remove, listed, removal]
  cases before with
  | nil =>
      obtain rfl : front = [] := List.length_eq_zero_iff.mp lengths.symm
      exact ⟨stop, chained.of_unlinked (Registry.remove_head segment once unlinked) last (by simpa using chained.ends),
        unused⟩
  | cons head before =>
      obtain ⟨number, front, rfl⟩ := List.exists_cons_of_length_eq_add_one lengths.symm
      have kept := (List.cons.inj ahead).1
      cases before with
      | nil =>
          obtain rfl : front = [] := by simpa using lengths
          obtain ⟨short, freed⟩ := Registry.remove_second segment once unlinked
          exact ⟨list, chained.of_unlinked short (by simpa [Data.Entries] using kept) (by simp), fun _ => freed⟩
      | cons second before =>
          obtain ⟨next, lost, rfl⟩ := List.exists_cons_of_length_eq_add_one (Nat.succ.inj lengths).symm
          have rest : data.Entries (head :: behind) (number :: back) := by
            rw [Data.Entries, List.map_cons, List.map_cons, last]
            exact congrArg (· :: _) kept
          have later := Registry.remove_later segment once unlinked
          exact ⟨stop, chained.of_unlinked later rest (by simpa using chained.ends), unused⟩

/-- A removal in memory is one in the list. -/
theorem Chained.unregister (chained : Chained data stop) (valid : DataValid data.base)
    (stored : data.base.Stored own) {base : Thread.Data} (removable : data.base.unregister own = some base)
    (removed : data.unregister tests own = some after) :
    after.base = base ∧ ∃ last, Chained after last ∧
      (data.registry.lists stop = none -> after.registry.lists last = none) := by
  obtain ⟨record, read, flag⟩ := stored
  obtain ⟨-, -, content⟩ := chained.records own record read
  rw [flag, if_pos rfl] at content
  obtain ⟨iter, registry, found, unlinked, rfl⟩ := unregister_done content removed
  obtain ⟨defined, removal⟩ := unregister_cases removable
  obtain ⟨list, ⟨_, ends⟩, outcome⟩ := chained.walk valid own defined
  obtain rfl := Registry.threadMapFind_unique ends found
  rw [removable, Option.getD_some]
  refine ⟨rfl, ?_⟩
  obtain ⟨null, missing⟩ | ⟨present, before, behind, front, back, position⟩ := outcome
  · obtain ⟨known, -⟩ | ⟨-, rfl⟩ := removal
    · simp [missing] at known
    · rw [if_pos null] at unlinked
      cases unlinked
      exact ⟨stop, chained, id⟩
  · obtain ⟨-, rfl⟩ | ⟨unknown, -⟩ := removal
    · have notNull := (segment_allocated position.segment (show list ∈ before ++ list :: behind by simp)).1
      rw [if_neg notNull] at unlinked
      exact chained.remove valid position unlinked
    · simp [unknown] at present

/-- After the removal of the second entry the chain leads to freed memory. -/
theorem Chained.unregister_second (chained : Chained data stop) (valid : DataValid data.base)
    (stored : data.base.Stored own) (second : data.base.threadMap[1]? = some own)
    (removed : data.unregister tests own = some after) (lists : List Nat) :
    ¬ Linked after.registry.lists Registry.ThreadList.next after.registry.threadMap lists := by
  have member : own ∈ data.base.threadMap := List.mem_of_getElem? second
  have found := Data.find_iff.mpr ⟨member, stored⟩
  obtain ⟨record, read, flag⟩ := stored
  obtain ⟨-, -, content⟩ := chained.records own record read
  rw [flag, if_pos rfl] at content
  obtain ⟨iter, registry, walked, unlinked, rfl⟩ := unregister_done content removed
  obtain ⟨list, ⟨_, ends⟩, outcome⟩ := chained.walk valid own (by simp [Thread.Data.defined, found])
  obtain rfl := Registry.threadMapFind_unique ends walked
  obtain ⟨-, missing⟩ | ⟨-, before, behind, front, back, position⟩ := outcome
  · simp [found] at missing
  · have once := chained.once valid position.entries
    have notNull := (segment_allocated position.segment (show list ∈ before ++ list :: behind by simp)).1
    have lengths : before.length = front.length := by simpa using congrArg List.length position.ahead
    rw [if_neg notNull] at unlinked
    have there : data.base.threadMap[front.length]? = some own := by simp [position.listed]
    have place : front.length = 1 :=
      (List.getElem?_inj (List.getElem?_eq_some_iff.mp there).1 valid.nodup).mp (there.trans second.symm)
    obtain ⟨head, rfl⟩ := List.length_eq_one_iff.mp (lengths.trans place)
    obtain ⟨short, freed⟩ := Registry.remove_second position.segment once unlinked
    exact Registry.not_linked short.chain notNull freed

end Writes

/-! ## Every step is one of `ZSystem.Thread` -/

section Step

variable {state next : State} {action : Action} {thread : ThreadId} {pick stop : Nat} {pc : PC}

theorem widens : Widens Thread.program program Data.base where
  calls thread pc place data after called := by
    obtain ⟨result, chosen, rfl⟩ := Option.map_eq_some_iff.mp called
    exact chosen
  note _ _ _ := rfl
  handler := rfl
  interruptible := rfl

theorem perform_plain {after : State}
    (plain : code thread pc = (Thread.code thread pc).embed id id Data.base Data.withBase)
    (performed : program.perform thread pick state (code thread pc) = some after) :
    Thread.program.perform thread pick (base state) (Thread.code thread pc) = some (base after) := by
  have limit : program.limit = Thread.program.limit := rfl
  have reads (part : Thread.Data) (data : Data) : Data.base (Data.withBase part data) = part := rfl
  have embeds := perform_embed limit reads thread pick state (Thread.code thread pc)
  rw [← plain, performed] at embeds
  exact embeds.symm

theorem perform_lookUp {after : State} {number : Nat} {goes : Data -> Option Nat -> PC}
    (performed : program.perform thread pick state (lookUp number goes) = some after) :
    ∃ found, state.data.find pick number = some found ∧ after = state.goto thread (goes state.data found) := by
  simp only [lookUp, Program.perform, Option.map_map, Option.map_eq_some_iff] at performed
  obtain ⟨found, ended, rfl⟩ := performed
  exact ⟨found, ended, rfl⟩

theorem Kept.stored (kept : Kept state stop) {own : Nat} (here : state.status (.library own) = .running pc)
    (present : pc ≠ .finished) : state.data.base.Stored own :=
  ((kept.valid.at here).own own rfl).stored present

theorem Kept.performs (kept : Kept state stop) {after : State} (here : state.status thread = .running pc)
    (defined : state.data.base.reachesFreed thread pc = false)
    (performed : program.perform thread pick state (code thread pc) = some after) :
    Thread.program.perform thread pick (base state) (Thread.code thread pc) = some (base after) := by
  have finds {number : Nat} {found : Option Nat} := @Chained.found _ pick number stop kept.chained kept.valid.data found
  cases pc with
  | createInit args | createInsert args =>
      simp only [code, Program.perform] at performed
      split_ifs at performed with used
      · cases performed
      · cases performed
        rfl
  | createHandle args =>
      cases performed
      rfl
  | abortFind number =>
      have ends : state.data.base.defined number = true := by simpa [Thread.Data.reachesFreed] using defined
      obtain ⟨found, ended, rfl⟩ := perform_lookUp performed
      obtain rfl := finds ends ended
      by_cases known : state.data.base.find number = true
      · simp only [base, State.part, Thread.code, Thread.lookUp, Program.perform, State.goto, known, ends, if_true]
        rfl
      · simp [base, State.part, Thread.code, Thread.lookUp, Program.perform, State.goto, known, ends]
  | executeFind number | waitFind number | availableFind number =>
      have ends : state.data.base.defined number = true := by simpa [Thread.Data.reachesFreed] using defined
      obtain ⟨found, ended, rfl⟩ := perform_lookUp performed
      obtain rfl := finds ends ended
      by_cases known : state.data.base.find number = true <;>
        simp [base, State.part, Thread.code, Thread.lookUp, Program.perform, State.goto, known, ends]
  | cleanupRemove =>
      cases thread with
      | library own =>
          simp only [code, Program.perform, Option.map_map, Option.map_eq_some_iff] at performed
          obtain ⟨removed, unlinked, rfl⟩ := performed
          obtain ⟨result, listed⟩ := removable defined
          obtain ⟨same, -⟩ := kept.chained.unregister kept.valid.data (kept.stored here (by simp)) listed unlinked
          simp [base, State.part, Thread.code, withRecord, Program.perform, State.goto, listed, same]
      | main | outside number => simp [code, Program.perform] at performed
  | cleanupDestroy =>
      cases thread with
      | library own =>
          cases performed
          rfl
      | main | outside number => simp [code, Program.perform] at performed
  | _ => exact perform_plain rfl performed

theorem Kept.base_step (kept : Kept state stop) (defined : Defined state action)
    (taken : step state action = some next) :
    Thread.step (base state) action = some (base next) := by
  refine widens.step taken fun thread pick pc after run here performed => ?_
  subst run
  exact kept.performs here (defined pc (by rw [here]; rfl)) performed

theorem outcome_plain {data after : Data} {status : Status Obj PC}
    (plain : code thread pc = (Thread.code thread pc).embed id id Data.base Data.withBase)
    (ran : program.outcome thread pick pc data = some (after, status)) :
    Thread.program.outcome thread pick pc data.base = some (after.base, status) ∧
      after = data.withBase after.base := by
  change ((code thread pc).result pick data).map _ = _ at ran
  rw [plain, result_embed rfl, Option.map_map, Option.map_eq_some_iff] at ran
  obtain ⟨⟨part, moved⟩, result, same⟩ := ran
  cases same
  have kept : moved.embed id id = moved := by cases moved <;> rfl
  refine ⟨?_, rfl⟩
  change ((Thread.code thread pc).result pick data.base).map _ = _
  rw [result, kept]
  rfl

/-- The places that write to the registry or to a handle in memory. -/
def writesMemory : PC -> Bool
  | .createInit _ | .createInsert _ | .createHandle _ | .cleanupRemove | .cleanupDestroy => true
  | _ => false

theorem Chained.plain {data : Data} (chained : Chained data stop) {base : Thread.Data} (apart : writesMemory pc = false)
    (writes : base = data.base ∨ Thread.Writes data.base thread pc base) : Chained (data.withBase base) stop := by
  obtain rfl | writes := writes
  · exact chained
  · cases writes with
    | init | register | store | unregister | destroy => cases apart
    | await thread number =>
        refine chained.of_base rfl rfl fun other record read => ?_
        rw [update_record] at read
        split_ifs at read with same
        · obtain ⟨before, known, rfl⟩ := Option.map_eq_some_iff.mp read
          exact ⟨before, same ▸ known, rfl⟩
        · exact ⟨record, read, rfl⟩
    | _ => exact chained.of_base rfl rfl fun number record read => ⟨record, read, rfl⟩

theorem Chained.outcome {data after : Data} {status : Status Obj PC} (chained : Chained data stop)
    (here : At data.base thread pc) (valid : DataValid data.base) (removes : pc ≠ .cleanupRemove)
    (ran : program.outcome thread pick pc data = some (after, status)) : Chained after stop := by
  cases pc with
  | createInit args =>
      simp only [Program.outcome, program, code, Instr.result, Option.map_map, Option.map_eq_some_iff] at ran
      obtain ⟨result, made, same⟩ := ran
      split_ifs at made with used
      cases made
      cases same
      rw [not_or, Bool.not_eq_true, Option.isSome_eq_false_iff, Option.isNone_iff_eq_none] at used
      have unlisted : args.thread ∉ data.base.threadMap := fun member =>
        here.place.gated.mp (valid.registered _ member).1
      exact chained.init used unlisted rfl
  | createInsert args =>
      simp only [Program.outcome, program, code, Instr.result, Option.map_map, Option.map_eq_some_iff] at ran
      obtain ⟨result, made, same⟩ := ran
      split_ifs at made with used
      cases made
      cases same
      rw [not_or, Bool.not_eq_true, Option.isSome_eq_false_iff, Option.isNone_iff_eq_none] at used
      exact chained.insert used
  | createHandle args =>
      cases ran
      exact chained.store here.place.2
  | executeFind number | abortFind number | waitFind number | availableFind number =>
      simp only [Program.outcome, program, code, lookUp, Instr.result, Option.map_map, Option.map_eq_some_iff] at ran
      obtain ⟨found, -, same⟩ := ran
      cases same
      exact chained
  | cleanupRemove => exact absurd rfl removes
  | cleanupDestroy =>
      cases thread with
      | library own =>
          obtain ⟨record, read, -⟩ := (here.own own rfl).stored (by simp)
          cases ran
          exact chained.destroy (by simp [read])
      | main | outside number => simp [Program.outcome, program, code, Instr.result] at ran
  | _ =>
      obtain ⟨moved, same⟩ := outcome_plain rfl ran
      exact same ▸ chained.plain rfl (Thread.outcome_writes moved)

theorem outcome_remove {data after : Data} {status : Status Obj PC}
    (ran : program.outcome thread pick .cleanupRemove data = some (after, status)) :
    ∃ own, thread = .library own ∧ data.unregister pick own = some after := by
  cases thread with
  | library own =>
      simp only [Program.outcome, program, code, Instr.result, Option.map_map, Option.map_eq_some_iff] at ran
      obtain ⟨removed, unlinked, same⟩ := ran
      cases same
      exact ⟨own, rfl, unlinked⟩
  | main | outside number => simp [Program.outcome, program, code, Instr.result] at ran

/-- What an instruction that removes no entry does to free memory. -/
theorem outcome_frees {data after : Data} {status : Status Obj PC} (removes : pc ≠ .cleanupRemove)
    (ran : program.outcome thread pick pc data = some (after, status)) :
    (∃ address, ∀ other, other ≠ address -> data.registry.threads other = none ->
        after.registry.threads other = none) ∧
      ∀ other, (∀ args, pc = .createInsert args -> pick ≠ other) -> data.registry.lists other = none ->
        after.registry.lists other = none := by
  cases pc with
  | createInit args =>
      simp only [Program.outcome, program, code, Instr.result, Option.map_map, Option.map_eq_some_iff] at ran
      obtain ⟨result, made, same⟩ := ran
      split_ifs at made
      cases made
      cases same
      exact ⟨⟨pick, fun other apart free => by simpa [Data.setRecord, Data.withBase, apart] using free⟩,
        fun _ _ free => free⟩
  | createInsert args =>
      simp only [Program.outcome, program, code, Instr.result, Option.map_map, Option.map_eq_some_iff] at ran
      obtain ⟨result, made, same⟩ := ran
      split_ifs at made
      cases made
      cases same
      refine ⟨⟨0, fun _ _ free => free⟩, fun other apart free => ?_⟩
      have differ : other ≠ pick := (apart args rfl).symm
      simpa [Data.withBase, differ] using free
  | createHandle args =>
      cases ran
      exact ⟨⟨data.place args.thread, fun other apart free => by simpa [Data.setRecord, program, Data.withBase, apart]
        using free⟩, fun _ _ free => free⟩
  | executeFind number | abortFind number | waitFind number | availableFind number =>
      simp only [Program.outcome, program, code, lookUp, Instr.result, Option.map_map, Option.map_eq_some_iff] at ran
      obtain ⟨found, -, same⟩ := ran
      cases same
      exact ⟨⟨0, fun _ _ free => free⟩, fun _ _ free => free⟩
  | cleanupRemove => exact absurd rfl removes
  | cleanupDestroy =>
      cases thread with
      | library own =>
          cases ran
          exact ⟨⟨data.place own, fun other apart free => by simpa [Data.setRecord, program, Data.withBase, apart]
            using free⟩, fun _ _ free => free⟩
      | main | outside number => simp [Program.outcome, program, code, Instr.result] at ran
  | _ =>
      rw [(outcome_plain rfl ran).2]
      exact ⟨⟨0, fun _ _ free => free⟩, fun _ _ free => free⟩

/-- A new entry does not come to lie where the chain goes on behind its entries. -/
def Fresh (state : State) (stop : Nat) : Action -> Prop
  | .run thread pick => ∀ args, state.status thread = .running (.createInsert args) -> pick ≠ stop
  | _ => True

theorem Kept.preserved (kept : Kept state stop) (defined : Defined state action)
    (taken : step state action = some next) :
    ∃ last, Kept next last ∧ (Fresh state stop action -> state.data.registry.lists stop = none ->
      next.data.registry.lists last = none) := by
  have valid := kept.valid.preserved (kept.base_step defined taken)
  cases step_cases taken with
  | @instr thread pick pc after here performed =>
      obtain ⟨-, ran, -, -⟩ := outcome_parts performed
      by_cases removes : pc = .cleanupRemove
      · subst removes
        obtain ⟨own, rfl, unlinked⟩ := outcome_remove ran
        obtain ⟨result, listed⟩ := removable (defined .cleanupRemove (by rw [here]; rfl))
        obtain ⟨-, last, chained, unused⟩ :=
          kept.chained.unregister kept.valid.data (kept.stored here (by simp)) listed unlinked
        exact ⟨last, ⟨valid, chained⟩, fun _ => unused⟩
      · refine ⟨stop, ⟨valid, kept.chained.outcome (kept.valid.at here) kept.valid.data removes ran⟩,
          fun fresh unused => ?_⟩
        exact (outcome_frees removes ran).2 stop (fun args same => fresh args (same ▸ here)) unused
  | @call thread pc place data here chosen =>
      obtain ⟨result, moved, rfl⟩ := Option.map_eq_some_iff.mp chosen
      obtain ⟨_, -, -, rfl, -⟩ | ⟨-, rfl, -⟩ := calls_cases moved
      · exact ⟨stop, ⟨valid, kept.chained.of_base rfl rfl fun number record read => ⟨record, read, rfl⟩⟩, fun _ => id⟩
      · exact ⟨stop, ⟨valid, kept.chained⟩, fun _ => id⟩
  | _ => exact ⟨stop, ⟨valid, kept.chained⟩, fun _ => id⟩

/-- As long as no second entry has been removed. -/
structure Whole (state : State) : Prop where
  kept : Kept state 0
  linked : state.data.base.dangling = false

theorem Whole.defined (whole : Whole state) (action : Action) : Defined state action := by
  cases action with
  | run thread pick => exact fun pc _ => not_freed whole.linked thread pc
  | call | wake | interrupt => trivial

theorem Whole.preserved (whole : Whole state) (apart : NotSecond state action) (taken : step state action = some next) :
    Whole next := by
  have defined := whole.defined action
  have linked : next.data.base.dangling = false := by
    obtain ⟨-, same⟩ | ⟨_, _, _, -, -, -, same⟩ | ⟨own, pick, rfl, here, removed⟩ :=
      threadMap_next (whole.kept.base_step defined taken)
    · exact same.trans whole.linked
    · exact same.trans whole.linked
    · have cleans : cleaning (.library own) (state.status (.library own)) = some own := by
        rw [show state.status (.library own) = _ from here]
        rfl
      exact unregister_intact removed whole.linked (apart own cleans)
  obtain ⟨last, kept, -⟩ := whole.kept.preserved defined taken
  obtain rfl := kept.chained.ends linked
  exact ⟨kept, linked⟩

theorem Whole.intact (whole : Whole state) : Intact state := by
  obtain ⟨lists, segment, entries⟩ := whole.kept.chained.chain
  refine ⟨⟨lists, segment, entries⟩, fun number => ?_⟩
  exact whole.kept.chained.find whole.kept.valid.data number (by simp [Thread.Data.defined, whole.linked])

theorem not_intact (whole : Whole state) (second : ¬ NotSecond state action) (taken : step state action = some next) :
    ¬ Intact next := by
  cases action with
  | run thread pick =>
      simp only [NotSecond, not_forall, not_not] at second
      obtain ⟨own, cleans, place⟩ := second
      obtain ⟨rfl, here⟩ : thread = .library own ∧ state.status thread = .running .cleanupRemove := by
        unfold cleaning at cleans
        split at cleans
        · cases cleans
          exact ⟨rfl, by assumption⟩
        · cases cleans
      obtain ⟨-, ran, -, -⟩ := run_parts here taken
      obtain ⟨_, same, unlinked⟩ := outcome_remove ran
      cases same
      have stored := whole.kept.stored here (by simp)
      rintro ⟨⟨lists, linked, -⟩, -⟩
      exact whole.kept.chained.unregister_second whole.kept.valid.data stored place unlinked lists linked
  | call | wake | interrupt => exact absurd trivial second

end Step

/-! ## Every step of `ZSystem.Thread` is one here -/

/-- The memory has addresses that are not in use. -/
def Data.Bounded (data : Data) : Prop :=
  ∃ bound, ∀ address, bound ≤ address ->
    data.registry.threads address = none ∧ data.registry.lists address = none

section Bounded

variable {data after : Data} {own tests address : Nat}

theorem Data.Bounded.fresh (bounded : data.Bounded) (stop : Nat) :
    ∃ address, address ≠ 0 ∧ address ≠ stop ∧ data.registry.threads address = none ∧
      data.registry.lists address = none := by
  obtain ⟨bound, free⟩ := bounded
  exact ⟨bound + stop + 1, Nat.succ_ne_zero _, by omega, free _ (by omega)⟩

theorem Data.Bounded.unregister (bounded : data.Bounded)
    (stored : data.registry.threads (data.place own) = some { threadHandle := handle own })
    (removed : data.unregister tests own = some after) : after.Bounded := by
  obtain ⟨iter, registry, -, unlinked, rfl⟩ := unregister_done stored removed
  obtain ⟨bound, free⟩ := bounded
  refine ⟨bound, fun other above => ?_⟩
  obtain ⟨threads, lists⟩ := free other above
  split_ifs at unlinked with null
  · cases unlinked
    exact ⟨threads, lists⟩
  · obtain ⟨freed, same⟩ := threadMapRemove_frees unlinked lists
    exact ⟨by rw [same, threads], freed⟩

end Bounded

section Follows

variable {state next : State} {action : Action} {thread : ThreadId} {pick stop : Nat} {pc : PC}

theorem Data.Bounded.outcome {data after : Data} {status : Status Obj PC} (bounded : data.Bounded)
    (removes : pc ≠ .cleanupRemove) (ran : program.outcome thread pick pc data = some (after, status)) :
    after.Bounded := by
  obtain ⟨bound, free⟩ := bounded
  obtain ⟨⟨address, threads⟩, lists⟩ := outcome_frees removes ran
  refine ⟨bound + address + pick + 1, fun other above => ?_⟩
  obtain ⟨noThread, noList⟩ := free other (by omega)
  exact ⟨threads other (by omega) noThread, lists other (fun _ _ => by omega) noList⟩

theorem bounded_next (kept : Kept state stop) (bounded : state.data.Bounded) (taken : step state action = some next) :
    next.data.Bounded := by
  cases step_cases taken with
  | @instr thread pick pc after here performed =>
      obtain ⟨-, ran, -, -⟩ := outcome_parts performed
      change (program.note thread pc after.data).Bounded
      by_cases removes : pc = .cleanupRemove
      · subst removes
        obtain ⟨own, rfl, unlinked⟩ := outcome_remove ran
        obtain ⟨record, read, flag⟩ := kept.stored here (by simp)
        obtain ⟨-, -, content⟩ := kept.chained.records own record read
        exact bounded.unregister (by simpa [flag] using content) unlinked
      · exact bounded.outcome removes ran
  | @call thread pc place data here chosen =>
      obtain ⟨result, -, rfl⟩ := Option.map_eq_some_iff.mp chosen
      exact bounded
  | _ => exact bounded

theorem can_plain {after : Thread.State}
    (plain : code thread pc = (Thread.code thread pc).embed id id Data.base Data.withBase)
    (performed : Thread.program.perform thread pick (base state) (Thread.code thread pc) = some after) :
    (program.perform thread pick state (code thread pc)).isSome := by
  have limit : program.limit = Thread.program.limit := rfl
  have reads (part : Thread.Data) (data : Data) : Data.base (Data.withBase part data) = part := rfl
  have embeds := perform_embed limit reads thread pick state (Thread.code thread pc)
  rw [← plain, performed] at embeds
  obtain ⟨result, done, -⟩ := Option.map_eq_some_iff.mp embeds
  simp [done]

/-- There are addresses that are not in use, and no entry lies where the chain goes on behind its entries. -/
structure Roomy (state : State) (stop : Nat) : Prop where
  kept : Kept state stop
  bounded : state.data.Bounded
  unused : state.data.registry.lists stop = none

/-- With enough tests and free addresses an instruction is possible where it is in `ZSystem.Thread`. -/
theorem Roomy.can (roomy : Roomy state stop) {after : Thread.State}
    (here : state.status thread = .running pc) (defined : state.data.base.reachesFreed thread pc = false)
    (performed : Thread.program.perform thread pick (base state) (Thread.code thread pc) = some after) :
    ∃ pick', (program.perform thread pick' state (code thread pc)).isSome ∧
      (∀ args, pc = .createInsert args -> pick' ≠ stop) ∧
      Thread.program.perform thread pick' (base state) (Thread.code thread pc) = some after := by
  have finds := roomy.kept.chained.find roomy.kept.valid.data
  obtain ⟨address, valid, apart, thread_free, list_free⟩ := roomy.bounded.fresh stop
  cases pc with
  | createInit args =>
      exact ⟨address, by simp [code, Program.perform, valid, thread_free], fun _ => PC.noConfusion, performed⟩
  | createInsert args =>
      exact ⟨address, by simp [code, Program.perform, valid, list_free], fun _ _ => apart, performed⟩
  | createHandle args => exact ⟨0, rfl, fun _ => PC.noConfusion, performed⟩
  | executeFind number | abortFind number | waitFind number | availableFind number =>
      obtain ⟨tests, found⟩ := finds number (by simpa [Thread.Data.reachesFreed] using defined)
      exact ⟨tests, by simp [code, lookUp, Program.perform, found], fun _ => PC.noConfusion, performed⟩
  | cleanupRemove =>
      cases thread with
      | library own =>
          have stored := roomy.kept.stored here (by simp)
          obtain ⟨record, read, flag⟩ := stored
          obtain ⟨-, -, content⟩ := roomy.kept.chained.records own record read
          rw [flag, if_pos rfl] at content
          obtain ⟨result, listed⟩ := removable defined
          obtain ⟨tests, registry, removed⟩ :=
            roomy.kept.chained.removes roomy.kept.valid.data roomy.unused listed
          exact ⟨tests, by simp [code, Program.perform, Data.unregister, content, removed], fun _ => PC.noConfusion,
            performed⟩
      | main | outside number => simp [Thread.code, withRecord, Program.perform] at performed
  | cleanupDestroy =>
      cases thread with
      | library own => exact ⟨0, rfl, fun _ => PC.noConfusion, performed⟩
      | main | outside number => simp [Thread.code, withRecord, Program.perform] at performed
  | _ => exact ⟨pick, can_plain rfl performed, fun _ => PC.noConfusion, performed⟩

/-- `ZSystem.Thread` has no step where a walk comes to a freed entry. -/
theorem defined_of_perform {after : Thread.State}
    (performed : Thread.program.perform thread pick (base state) (Thread.code thread pc) = some after) :
    state.data.base.reachesFreed thread pc = false := by
  cases pc with
  | executeFind handle | abortFind handle | waitFind handle | availableFind handle =>
      simp only [Thread.code, Thread.lookUp, Program.perform, Option.ite_none_right_eq_some] at performed
      have ends : state.data.base.defined handle = true := performed.1
      simpa [Thread.Data.reachesFreed] using ends
  | cleanupRemove =>
      cases thread with
      | library own =>
          simp only [Thread.code, withRecord, Program.perform, Option.map_map, Option.map_eq_some_iff] at performed
          obtain ⟨result, removed, -⟩ := performed
          simp [Thread.Data.reachesFreed, show state.data.base.unregister own = _ from removed]
      | main | outside number => rfl
  | _ => rfl

theorem Roomy.follows (roomy : Roomy state stop) {after : Thread.State}
    (taken : Thread.step (base state) action = some after) :
    ∃ action next, (Defined state action ∧ Fresh state stop action) ∧ step state action = some next ∧
      base next = after := by
  refine widens.follow ?_ taken (fun thread pick pc middle _ here performed => ?_) fun apart => ?_
  · intro thread pc place data part chosen
    exact ⟨data.withBase part, Option.map_eq_some_iff.mpr ⟨part, chosen, rfl⟩, rfl⟩
  · have defined := defined_of_perform performed
    obtain ⟨pick, can, fresh, again⟩ := roomy.can here defined performed
    obtain ⟨next, done⟩ := Option.isSome_iff_exists.mp can
    have same := (roomy.kept.performs here defined done).symm.trans again
    refine ⟨pick, next, ⟨fun place there => ?_, fun args inserts => ?_⟩, done, Option.some.inj same⟩
    · rw [here] at there
      cases there
      exact defined
    · cases here.symm.trans inserts
      exact fresh args rfl
  · cases action with
    | run thread pick =>
        refine ⟨fun pc there => ?_, fun args inserts => absurd inserts (apart _ _ _ rfl)⟩
        cases here : state.status thread with
        | absent => simp [here, Status.place] at there
        | running place => exact absurd here (apart _ _ _ rfl)
        | waiting cv mutex place =>
            rw [here] at there
            cases there
            obtain ⟨-, -, -, rfl⟩ | ⟨_, -, -, -, rfl | rfl⟩ := (roomy.kept.valid.waits here).2 <;> rfl
    | call | wake | interrupt => exact ⟨trivial, trivial⟩

theorem Roomy.preserved (roomy : Roomy state stop) (defined : Defined state action) (fresh : Fresh state stop action)
    (taken : step state action = some next) : ∃ last, Roomy next last := by
  obtain ⟨last, kept, unused⟩ := roomy.kept.preserved defined taken
  exact ⟨last, kept, bounded_next roomy.kept roomy.bounded taken, unused fresh roomy.unused⟩

end Follows

/-! ## Every run -/

theorem initial_kept : Kept initial 0 where
  valid := initial_valid
  chained := ⟨⟨[], rfl, rfl⟩, fun _ => rfl, fun _ _ read => by cases read⟩

/-- The chain in memory is the list throughout a run if and only if no cleanup removes the second entry. -/
theorem intact_iff_notSecond (actions : List Action) (runs : (exec step initial actions).isSome) :
    Throughout step Intact initial actions ↔ Along step NotSecond initial actions :=
  throughout_iff_along Whole (fun _ whole => whole.intact) (fun _ _ _ whole apart taken => whole.preserved apart taken)
    (fun _ _ _ whole second taken => not_intact whole second taken) ⟨initial_kept, rfl⟩ runs

/-- A call of `zs__thread_create` with the addresses of the new record and of the new entry. -/
def create (thread : ThreadId) (args : Create) (record list : Nat) : List Action :=
  .call thread (.createLockRunning args) :: runs thread 3 ++ .run thread record :: runs thread 2 ++
    .run thread list :: runs thread 4

/-- A call of `zs__thread_execute`, and the end of the thread up to its removal; walks make at most 9 tests. -/
def executeAndEnd (caller : ThreadId) (number : Nat) : List Action :=
  .call caller (.executeLockMap number) :: runs caller 1 ++ .run caller 9 :: runs caller 2 ++
    runs (.library number) 4 ++ .run (.library number) 9 :: runs (.library number) 1

/-- The latest of three threads ends, and then the first one, whose entry is the last one again. -/
def threeThreads : List Action :=
  create (.outside 0) { thread := 0, run := false, abort := true } 1 1 ++
    create (.outside 0) { thread := 1, run := false, abort := true } 2 2 ++
    executeAndEnd (.outside 0) 1 ++
    create (.outside 0) { thread := 2, run := false, abort := true } 3 2 ++
    executeAndEnd (.outside 0) 2 ++ executeAndEnd (.outside 0) 0

theorem intact_iff_notSecond_threeThreads : Throughout step Intact initial threeThreads :=
  (intact_iff_notSecond threeThreads (by decide +kernel)).mpr (by decide +kernel)

/--
As long as no walk comes to an entry that has been freed and is still linked, the states that the program in
memory comes to are, as lists, exactly those that the program of `ZSystem.Thread` comes to.
-/
theorem reachable_iff_list (list : Thread.State) :
    (∃ state, Reach step Defined initial state ∧ base state = list) ↔ Reachable Thread.step Thread.initial list := by
  constructor
  · rintro ⟨state, reached, rfl⟩
    have both : (∃ stop, Kept state stop) ∧ Reachable Thread.step Thread.initial (base state) :=
      reached.invariant (fun state => (∃ stop, Kept state stop) ∧ Reachable Thread.step Thread.initial (base state))
        ⟨⟨0, initial_kept⟩, .refl⟩ fun _ _ _ ⟨⟨_, kept⟩, before⟩ defined taken =>
          ⟨(kept.preserved defined taken).imp fun _ => And.left, .tail before trivial (kept.base_step defined taken)⟩
    exact both.2
  · intro reached
    have followed : ∃ state stop, Roomy state stop ∧ Reach step Defined initial state ∧ base state = list := by
      induction reached with
      | refl => exact ⟨initial, 0, ⟨initial_kept, ⟨0, fun _ _ => ⟨rfl, rfl⟩⟩, rfl⟩, .refl, rfl⟩
      | tail _ _ taken ih =>
          obtain ⟨state, stop, roomy, before, rfl⟩ := ih
          obtain ⟨action, next, ⟨defined, fresh⟩, moved, same⟩ := roomy.follows taken
          obtain ⟨last, further⟩ := roomy.preserved defined fresh moved
          exact ⟨next, last, further, .tail before defined moved, same⟩
    obtain ⟨state, -, -, reached, same⟩ := followed
    exact ⟨state, reached, same⟩

end ZSystem.Thread.Memory
