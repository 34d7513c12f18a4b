import ZSystem.Thread.Outline

set_option autoImplicit false

/-!
# The writes

The places that change the data, and what a thread knows after its own step.
-/

namespace ZSystem.Thread

open Posix

/-- The places that change the data, each with its change. -/
inductive Writes (data : Data) : ThreadId -> PC -> Data -> Prop where
  | count (thread : ThreadId) (args : Create) : Writes data thread (.createIncrement args)
      { data with
        threadsRunning := data.threadsRunning + 1
        counted := insert args.thread data.counted }
  | init (thread : ThreadId) (args : Create) : Writes data thread (.createInit args)
      { data with
        record := Function.update data.record args.thread
          (some { run := args.run, abort := args.abort, waitingThreads := 0, handleStored := false }) }
  | gate (thread : ThreadId) (args : Create) : Writes data thread (.createLockGate args)
      { data with gated := insert args.thread data.gated }
  | register (thread : ThreadId) (args : Create) : Writes data thread (.createInsert args)
      { data with threadMap := args.thread :: data.threadMap }
  | store (thread : ThreadId) (args : Create) : Writes data thread (.createHandle args)
      (data.update args.thread fun record => { record with handleStored := true })
  | start (thread : ThreadId) (args : Create) : Writes data thread (.createStart args)
      { data with started := insert args.thread data.started }
  | execute (thread : ThreadId) (handle : Nat) : Writes data thread (.executeUnlockGate handle)
      { data with executed := Function.update data.executed handle (data.executed handle + 1) }
  | await (thread : ThreadId) (handle : Nat) : Writes data thread (.waitIncrement handle)
      (data.update handle fun record => { record with waitingThreads := record.waitingThreads + 1 })
  | unregister (own : Nat) {after : Data} (removed : data.unregister own = some after) :
      Writes data (.library own) .cleanupRemove after
  | uncount (own : Nat) : Writes data (.library own) .cleanupDecrement
      { data with
        threadsRunning := data.threadsRunning - 1
        counted := data.counted.erase own }
  | destroy (own : Nat) : Writes data (.library own) .cleanupDestroy
      { data with record := Function.update data.record own none }

section Step

variable {data after : Data} {thread : ThreadId} {pc next : PC} {pick : Nat} {status : Status Obj PC}

theorem outcome_writes (ran : program.outcome thread pick pc data = some (after, status)) :
    after = data ∨ Writes data thread pc after := by
  cases pc <;> cases thread <;>
    simp only [Program.outcome, program, code, Instr.result, goTo, branch, lookUp, withRecord, inExecute,
      Option.map_some, Option.map_none, Option.some.injEq, Prod.mk.injEq, reduceCtorEq] at ran
  case cleanupRemove.library =>
    simp only [Option.map_map, Option.map_eq_some_iff, Function.comp_apply, Prod.mk.injEq] at ran
    obtain ⟨_, removed, rfl, -⟩ := ran
    exact Or.inr (.unregister _ removed)
  all_goals
    obtain ⟨rfl, -⟩ := ran
    first | exact Or.inl rfl | exact Or.inr (by constructor)

def PC.subject (thread : ThreadId) : PC -> Option Nat
  | .createIncrement args | .createInit args | .createLockGate args | .createInsert args
  | .createHandle args | .createStart args => some args.thread
  | .cleanupRemove | .cleanupDecrement | .cleanupDestroy =>
      match thread with
      | .library own => some own
      | _ => none
  | _ => none

theorem At.concerns (here : At data thread pc) {number : Nat}
    (subject : pc.subject thread = some number) : data.Concerns number thread := by
  obtain ⟨-, place, own⟩ := here
  cases pc <;> simp only [PC.subject, reduceCtorEq, Option.some.injEq, Place] at subject place
  case createIncrement | createInit => exact subject ▸ place.concerns
  case createLockGate | createInsert | createHandle | createStart => exact subject ▸ place.1.concerns
  all_goals
    cases thread <;> simp only [reduceCtorEq, Option.some.injEq] at subject
    exact subject ▸ (own _ rfl).concerns

theorem threadMapRemove_sublist (entry : Nat) (entries : List Nat) :
    (threadMapRemove entry entries).1.Sublist entries := by
  cases entries with
  | nil => exact List.Sublist.refl _
  | cons head tail =>
      rw [threadMapRemove]
      split_ifs
      · exact List.sublist_cons_self _ _
      · exact (List.nil_sublist _).cons_cons head
      · exact ((List.tail_sublist _).trans (List.dropWhile_sublist _)).cons_cons head

theorem threadMapRemove_not_mem {entry : Nat} {entries : List Nat} (nodup : entries.Nodup) :
    entry ∉ (threadMapRemove entry entries).1 := by
  cases entries with
  | nil => simp [threadMapRemove]
  | cons head tail =>
      obtain ⟨first, others⟩ := List.nodup_cons.mp nodup
      rw [threadMapRemove]
      split_ifs with same second
      · exact same ▸ first
      · simpa using Ne.symm same
      · have stops : entry ∉ (tail.dropWhile fun other => other != entry).tail := by
          have distinct := others.sublist (List.dropWhile_sublist fun other => other != entry)
          cases rest : tail.dropWhile fun other => other != entry with
          | nil => simp
          | cons found more =>
              have hit := List.head_dropWhile_not (fun other => other != entry)
                (l := tail) (by simp [rest])
              rw [rest] at distinct
              simp only [rest, List.head_cons, bne_eq_false_iff_eq] at hit
              subst hit
              exact (List.nodup_cons.mp distinct).1
        simpa [Ne.symm same] using stops

theorem threadMapRemove_second {entry : Nat} {entries : List Nat} (stays : (threadMapRemove entry entries).2 = true) :
    entries[1]? = some entry := by
  cases entries with
  | nil => simp [threadMapRemove] at stays
  | cons head rest =>
      rw [threadMapRemove] at stays
      split_ifs at stays with first second
      simpa [List.head?_eq_getElem?] using second

theorem unregister_intact {own : Nat} (removed : data.unregister own = some after) (intact : data.dangling = false)
    (apart : data.threadMap[1]? ≠ some own) : after.dangling = false := by
  unfold Data.unregister at removed
  split_ifs at removed
  · cases removed
    have freed : (threadMapRemove own data.threadMap).2 = false := by
      by_contra stays
      exact apart (threadMapRemove_second (by simpa using stays))
    simp [Data.remove, intact, freed]
  · cases removed
    exact intact

theorem removable {data : Data} {own : Nat} (defined : data.reachesFreed (.library own) .cleanupRemove = false) :
    ∃ base, data.unregister own = some base := by
  refine Option.ne_none_iff_exists'.mp fun undefined => ?_
  simp [Data.reachesFreed, undefined] at defined

/-- As long as no entry has been freed and left in the chain, nobody comes to one. -/
theorem not_freed {data : Data} (intact : data.dangling = false) (thread : ThreadId) (pc : PC) :
    data.reachesFreed thread pc = false := by
  cases pc with
  | cleanupRemove =>
      cases thread with
      | library own =>
          simp only [Data.reachesFreed, Data.unregister, intact]
          split_ifs <;> simp_all
      | main | outside number => rfl
  | executeFind handle | abortFind handle | waitFind handle | availableFind handle =>
      simp [Data.reachesFreed, Data.defined, intact]
  | _ => rfl

theorem unregister_parts {own : Nat} (removed : data.unregister own = some after) :
    ∃ threadMap dangling, after = { data with threadMap := threadMap, dangling := dangling } ∧
      threadMap.Sublist data.threadMap ∧ (data.threadMap.Nodup -> data.Stored own -> own ∉ threadMap) := by
  unfold Data.unregister at removed
  split_ifs at removed with found
  · cases removed
    exact ⟨_, _, rfl, threadMapRemove_sublist own _, fun nodup _ => threadMapRemove_not_mem nodup⟩
  · cases removed
    exact ⟨data.threadMap, data.dangling, rfl, List.Sublist.refl _,
      fun _ stored member => found (Data.find_iff.mpr ⟨member, stored⟩)⟩

@[simp] theorem update_record (handle number : Nat) (change : Record -> Record) :
    (data.update handle change).record number =
      if number = handle then (data.record handle).map change else data.record number := by
  simp [Data.update, Function.update_apply]

theorem Writes.frame (writes : Writes data thread pc after) {number : Nat}
    (other : pc.subject thread ≠ some number) : Frame number data after := by
  cases writes with
  | unregister own removed =>
      obtain ⟨threadMap, dangling, rfl, sublist, -⟩ := unregister_parts removed
      exact ⟨fun _ => rfl, .rfl, .rfl, .rfl, id, id, fun member => sublist.subset member⟩
  | execute thread handle => exact ⟨fun _ => rfl, .rfl, .rfl, .rfl, id, id, id⟩
  | await thread handle =>
      refine ⟨fun _ => rfl, .rfl, .rfl, .rfl, ?_, ?_, id⟩
      · simp only [update_record]
        split_ifs with same
        · subst same
          simp
        · exact id
      · rintro ⟨record, read, stored⟩
        by_cases same : number = handle
        · subst same
          exact ⟨{ record with waitingThreads := record.waitingThreads + 1 }, by simp [read], stored⟩
        · exact ⟨record, by simp [same, read], stored⟩
  | _ =>
      have differ : number ≠ _ := fun same => other (congrArg some same.symm)
      exact ⟨fun _ => rfl, by simp [Data.update, differ], by simp [Data.update, differ],
        by simp [Data.update, differ], by simp [differ], by simp [Data.Stored, differ],
        by simp [Data.update, differ]⟩

theorem Writes.grows (writes : Writes data thread pc after) (place : Place data thread pc) :
    Grows data after := by
  have widened {handle : Nat} {change : Record -> Record}
      (keeps : ∀ record, record.waitingThreads ≤ (change record).waitingThreads) (number : Nat)
      (awaited : data.Awaited number) : (data.update handle change).Awaited number := by
    intro record read
    simp only [update_record] at read
    split_ifs at read with same
    · subst same
      obtain ⟨before, stored, rfl⟩ := Option.map_eq_some_iff.mp read
      exact Nat.lt_of_lt_of_le (awaited before stored) (keeps before)
    · exact awaited record read
  cases writes with
  | init thread args =>
      refine ⟨fun _ => id, fun _ => id, fun _ => id, fun handle gated awaited record read => ?_⟩
      have differ : handle ≠ args.thread := fun same => by
        simpa using place.gated.mp (same ▸ gated)
      exact awaited record (by simpa [differ] using read)
  | destroy own =>
      refine ⟨fun _ => id, fun _ => id, fun _ => id, fun handle _ awaited record read => ?_⟩
      by_cases same : handle = own
      · simp [same] at read
      · exact awaited record (by simpa [same] using read)
  | execute thread handle =>
      refine ⟨fun _ => id, fun _ => id, fun other opened => ?_, fun _ _ => id⟩
      by_cases same : other = handle
      · simp [same]
      · simpa [same] using opened
  | gate thread args => exact ⟨Finset.subset_insert _ _, fun _ => id, fun _ => id, fun _ _ => id⟩
  | start thread args => exact ⟨fun _ => id, Finset.subset_insert _ _, fun _ => id, fun _ _ => id⟩
  | store thread args =>
      exact ⟨fun _ => id, fun _ => id, fun _ => id, fun number _ => widened (by simp) number⟩
  | await thread handle =>
      exact ⟨fun _ => id, fun _ => id, fun _ => id, fun number _ => widened (by simp) number⟩
  | unregister own removed =>
      obtain ⟨threadMap, dangling, rfl, -, -⟩ := unregister_parts removed
      exact ⟨fun _ => id, fun _ => id, fun _ => id, fun _ _ => id⟩
  | _ => exact ⟨fun _ => id, fun _ => id, fun _ => id, fun _ _ => id⟩

theorem Writes.threadMap (writes : Writes data thread pc after) (unlocked : pc.holdsMap = false) :
    after.threadMap = data.threadMap := by
  cases writes <;> first | rfl | simp [PC.holdsMap] at unlocked

theorem Writes.valid (writes : Writes data thread pc after) (here : At data thread pc)
    (valid : DataValid data) : DataValid after := by
  have place := here.place
  cases writes with
  | count thread args =>
      have new : args.thread ∉ data.counted := fun member => by simpa using place.counted.mp member
      refine ⟨by simp [new, valid.card], valid.nodup, valid.registered, valid.executed, fun number free => ?_⟩
      have differ : number ≠ args.thread := fun same => by simp [same, place.mine] at free
      simpa [differ] using valid.unused number free
  | init thread args =>
      refine ⟨valid.card, valid.nodup, fun handle member => ?_, valid.executed,
        valid.unused⟩
      have registered := valid.registered handle member
      refine ⟨registered.1, ?_⟩
      by_cases same : handle = args.thread
      · simp [same]
      · simpa [same] using registered.2
  | gate thread args =>
      refine ⟨valid.card, valid.nodup, fun handle member => ?_,
        fun handle opened => Finset.mem_insert_of_mem (valid.executed handle opened), fun number free => ?_⟩
      · have registered := valid.registered handle member
        exact ⟨Finset.mem_insert_of_mem registered.1, registered.2⟩
      · have differ : number ≠ args.thread := fun same => by simp [same, place.1.mine] at free
        simpa [differ] using valid.unused number free
  | register thread args =>
      refine ⟨valid.card, List.nodup_cons.mpr ⟨place.2.2, valid.nodup⟩, fun handle member => ?_,
        valid.executed, valid.unused⟩
      rcases List.mem_cons.mp member with rfl | old
      · exact ⟨place.1.gated.mpr trivial, place.2.1⟩
      · exact valid.registered handle old
  | start thread args =>
      refine ⟨valid.card, valid.nodup, valid.registered, valid.executed, fun number free => ?_⟩
      have differ : number ≠ args.thread := fun same => by simp [same, place.1.mine] at free
      simpa [differ] using valid.unused number free
  | store thread args | await thread handle =>
      refine ⟨valid.card, valid.nodup, fun handle member => ?_, valid.executed,
        valid.unused⟩
      have registered := valid.registered handle member
      refine ⟨registered.1, ?_⟩
      simp only [update_record]
      split_ifs with same
      · subst same
        simpa using registered.2
      · exact registered.2
  | execute thread handle =>
      refine ⟨valid.card, valid.nodup, valid.registered, fun other opened => ?_, valid.unused⟩
      by_cases same : other = handle
      · exact same ▸ place
      · exact valid.executed other (by simpa [same] using opened)
  | unregister own removed =>
      obtain ⟨threadMap, dangling, rfl, sublist, -⟩ := unregister_parts removed
      exact ⟨valid.card, valid.nodup.sublist sublist,
        fun handle member => valid.registered handle (sublist.subset member), valid.executed, valid.unused⟩
  | uncount own =>
      have counted : own ∈ data.counted := (here.own own rfl).counted.mpr rfl
      refine ⟨by simp [counted, valid.card], valid.nodup, valid.registered, valid.executed, fun number free => ?_⟩
      have unused := valid.unused number free
      exact ⟨unused.1, fun member => unused.2.1 (Finset.mem_of_mem_erase member), unused.2.2⟩
  | destroy own =>
      refine ⟨valid.card, valid.nodup, fun handle member => ?_, valid.executed,
        valid.unused⟩
      have differ : handle ≠ own := fun same => (here.own own rfl).removed rfl (same ▸ member)
      simpa [differ] using valid.registered handle member

theorem Place.step (valid : DataValid data) (place : Place data thread pc)
    (opened : ∀ handle next, code thread pc = .lock (.waitingThreadsMutex handle) next ->
      handle ∈ data.gated -> data.executed handle ≠ 0)
    (ran : program.outcome thread pick pc data = some (after, status))
    (goes : status.place = some next) : Place after thread next := by
  cases pc <;>
    simp only [Program.outcome, program, code, Instr.result, goTo, branch, lookUp, withRecord, inExecute,
      Option.map_some, Option.map_none, Option.some.injEq, Prod.mk.injEq, reduceCtorEq] at ran
  case createIncrement =>
    obtain ⟨rfl, rfl⟩ := ran
    cases goes
    exact ⟨place.mine, place.notStarted, by simp [note], place.gated⟩
  case createInit =>
    obtain ⟨rfl, rfl⟩ := ran
    cases goes
    exact ⟨⟨place.mine, place.notStarted, place.counted, place.gated⟩, by simp [note]⟩
  case createLockGate args =>
    obtain ⟨rfl, rfl⟩ := ran
    cases goes
    have new : args.thread ∉ data.gated := fun member => place.1.gated.mp member
    exact ⟨⟨place.1.mine, place.1.notStarted, place.1.counted, by simp [note]⟩, place.2,
      fun member => new (valid.registered _ member).1⟩
  case createInsert =>
    obtain ⟨rfl, rfl⟩ := ran
    cases goes
    exact ⟨⟨place.1.mine, place.1.notStarted, place.1.counted, place.1.gated⟩, place.2.1⟩
  case createHandle =>
    obtain ⟨rfl, rfl⟩ := ran
    cases goes
    obtain ⟨record, read⟩ := Option.isSome_iff_exists.mp place.2
    exact ⟨⟨place.1.mine, place.1.notStarted, place.1.counted, place.1.gated⟩,
      { record with handleStored := true }, by simp [note, read], rfl⟩
  case createStart args =>
    obtain ⟨rfl, rfl⟩ := ran
    cases goes
    exact ⟨Finset.mem_insert_self args.thread data.started, place.1.gated.mpr trivial⟩
  case executeFind handle =>
    obtain ⟨rfl, rfl⟩ := ran
    cases goes
    split_ifs with found
    · exact (valid.registered handle (Data.find_iff.mp found).1).1
    · trivial
  case waitFind =>
    obtain ⟨rfl, rfl⟩ := ran
    cases goes
    split_ifs with found
    · exact (Data.find_iff.mp found).1
    · trivial
  case waitLockEntry handle =>
    obtain ⟨rfl, rfl⟩ := ran
    cases goes
    exact ⟨place, opened handle _ rfl (valid.registered handle place).1⟩
  case waitIncrement handle =>
    obtain ⟨rfl, rfl⟩ := ran
    cases goes
    refine ⟨place.1, place.2, fun record read => ?_⟩
    obtain ⟨before, -, rfl⟩ := Option.map_eq_some_iff.mp (by simpa [note] using read)
    simp
  case waitUnlockMap handle =>
    obtain ⟨rfl, rfl⟩ := ran
    cases goes
    exact ⟨(valid.registered handle place.1).1, place.2⟩
  case createLockRunning | createUnlockRunning | createLockMap | createUnlockMap | waitCond =>
    obtain ⟨rfl, rfl⟩ := ran
    cases goes
    exact place
  case cleanupRemove =>
    cases thread <;> simp only [Option.map_none, reduceCtorEq] at ran
    simp only [Option.map_map, Option.map_eq_some_iff, Function.comp_apply, Prod.mk.injEq] at ran
    obtain ⟨_, -, -, rfl⟩ := ran
    cases goes
    trivial
  -- The other instructions go to places about which nothing is said.
  all_goals
    cases thread <;> try simp only [afterCreate, afterExecute, Option.map_some, Option.map_none,
      Option.some.injEq, Prod.mk.injEq, reduceCtorEq] at ran
  all_goals
    obtain ⟨-, rfl⟩ := ran
    cases goes
    first | trivial | (split_ifs <;> trivial)

theorem Placed.step (placed : Placed thread pc)
    (ran : program.outcome thread pick pc data = some (after, status))
    (goes : status.place = some next) : Placed thread next := by
  cases pc <;> cases thread <;>
    simp only [Program.outcome, program, code, Instr.result, goTo, branch, lookUp, withRecord, inExecute,
      afterCreate, afterExecute, Option.map_some, Option.map_none, Option.some.injEq, Prod.mk.injEq,
      reduceCtorEq] at ran
  case cleanupRemove.library =>
    simp only [Option.map_map, Option.map_eq_some_iff, Function.comp_apply, Prod.mk.injEq] at ran
    obtain ⟨_, -, -, rfl⟩ := ran
    cases goes
    rfl
  all_goals
    obtain ⟨-, rfl⟩ := ran
    cases goes
    first
      | exact placed
      | trivial
      | exact ThreadId.noConfusion
      | (split_ifs <;> first | exact placed | trivial | exact ThreadId.noConfusion)

theorem phase_kept {own : Nat} (ran : program.outcome (.library own) pick pc data = some (after, status))
    (goes : status.place = some next)
    (quiet : pc ≠ .cleanupRemove ∧ pc ≠ .cleanupDecrement ∧ pc ≠ .cleanupDestroy) :
    next.removed = pc.removed ∧ next.uncounted = pc.uncounted ∧ next ≠ .finished ∧ next ≠ .startLock := by
  cases pc <;>
    simp only [Program.outcome, program, code, Instr.result, goTo, branch, lookUp, withRecord, inExecute,
      afterCreate, afterExecute, Option.map_some, Option.map_none, Option.some.injEq, Prod.mk.injEq,
      reduceCtorEq, ne_eq, not_true, false_and, and_false] at ran quiet
  all_goals
    obtain ⟨-, rfl⟩ := ran
    cases goes
    first
      | exact ⟨rfl, rfl, PC.noConfusion, PC.noConfusion⟩
      | (split_ifs <;> exact ⟨rfl, rfl, PC.noConfusion, PC.noConfusion⟩)

theorem Own.step {own : Nat} (here : At data (.library own) pc) (valid : DataValid data)
    (opened : ∀ handle next, code (.library own) pc = .lock (.waitingThreadsMutex handle) next ->
      handle ∈ data.gated -> data.executed handle ≠ 0)
    (ran : program.outcome (.library own) pick pc data = some (after, status))
    (goes : status.place = some next) : Own after own next := by
  have mine := here.own own rfl
  have changes := outcome_writes ran
  have running : pc ≠ .finished := by
    rintro rfl
    simp [Program.outcome, program, code, Instr.result] at ran
  by_cases quiet : pc ≠ .cleanupRemove ∧ pc ≠ .cleanupDecrement ∧ pc ≠ .cleanupDestroy
  · have subject : pc.subject (.library own) ≠ some own := fun same => by
      -- The number of a thread that is being created is not started yet.
      have place := here.place
      cases pc <;> simp only [PC.subject, reduceCtorEq, Option.some.injEq] at same <;>
        simp only [ne_eq, not_true, false_and, and_false] at quiet
      case createIncrement | createInit => exact place.notStarted (same ▸ mine.started)
      all_goals exact place.1.notStarted (same ▸ mine.started)
    have later : Own after own pc := by
      rcases changes with rfl | writes
      · exact mine
      · exact mine.stable (writes.frame subject) (writes.grows here.place)
    have executed : after.executed own ≠ 0 := by
      by_cases start : pc = .startLock
      · subst start
        have same : after = data := by
          rcases changes with same | writes
          · exact same
          · cases writes
        exact same ▸ opened own _ rfl mine.gated
      · exact later.executed start
    obtain ⟨removed, uncounted, -, -⟩ := phase_kept ran goes quiet
    exact ⟨later.started, later.gated, removed ▸ later.removed, uncounted ▸ later.counted,
      fun _ => later.stored running, fun _ => executed⟩
  · have executed := mine.executed (by rintro rfl; simp at quiet)
    simp only [not_and_or, not_not] at quiet
    rcases quiet with rfl | rfl | rfl
    · simp only [Program.outcome, program, code, Instr.result, withRecord, Option.map_map,
        Option.map_eq_some_iff, Function.comp_apply, Prod.mk.injEq] at ran
      obtain ⟨_, removed, rfl, rfl⟩ := ran
      cases goes
      obtain ⟨threadMap, dangling, rfl, -, gone⟩ := unregister_parts removed
      have stored := mine.stored PC.noConfusion
      exact ⟨mine.started, mine.gated, fun _ => gone valid.nodup stored, mine.counted,
        fun _ => stored, fun _ => executed⟩
    · simp only [Program.outcome, program, code, Instr.result, withRecord, Option.map_some,
        Option.some.injEq, Prod.mk.injEq] at ran
      obtain ⟨rfl, rfl⟩ := ran
      cases goes
      have stored := mine.stored PC.noConfusion
      have removed := mine.removed rfl
      split_ifs <;> exact ⟨mine.started, mine.gated, fun _ => removed, by simp [note, PC.uncounted],
        fun _ => stored, fun _ => executed⟩
    · simp only [Program.outcome, program, code, Instr.result, withRecord, goTo, Option.map_some,
        Option.some.injEq, Prod.mk.injEq] at ran
      obtain ⟨rfl, rfl⟩ := ran
      cases goes
      exact ⟨mine.started, mine.gated, fun _ => mine.removed rfl, mine.counted,
        fun absurd => (absurd rfl).elim, fun _ => executed⟩

end Step

/-- The instruction that leads to a status, for the places that the results are about. -/
def Source (data : Data) (thread : ThreadId) (pc : PC) : Status Obj PC -> Prop
  | .running (.createIncrement args) => pc = .createLockRunning args
  | .running (.executeUnlockGate handle) => pc = .executeFind handle ∧ data.find handle = true
  | .running (.abortCallback handle) => pc = .abortFind handle ∧ data.find handle = true
  | .running (.waitFind handle) => pc = .waitLockMap handle
  | .running (.waitLockEntry handle) => pc = .waitFind handle ∧ data.find handle = true
  | .running (.waitIncrement handle) => pc = .waitLockEntry handle
  | .running (.waitUnlockMap handle) => pc = .waitIncrement handle
  | .running (.waitCond handle) => pc = .waitUnlockMap handle
  | .running (.waitUnlockEntry _) => False
  | .running .cleanupLockMap => pc = .startRun
  | .running .cleanupRemove => pc = .cleanupLockMap
  | .running .cleanupSignal => pc = .cleanupDecrement ∧ data.threadsRunning - 1 = 0
  | .running .cleanupTest => pc = .cleanupLockEntry
  | .running .cleanupBroadcast => pc = .cleanupTest
  | .running .cleanupUnlockEntry => pc = .cleanupBroadcast ∨
      pc = .cleanupTest ∧ ∀ own record, thread = .library own -> data.record own = some record ->
        record.waitingThreads = 0
  | .running .cleanupDestroy => pc = .cleanupUnlockEntry
  | .running .finished => pc = .cleanupDestroy
  | .running .mainCond => pc = .mainLock
  | .running .mainUnlock => False
  | .running .mainDestroy => pc = .mainUnlock
  | .running .mainReturn => pc = .mainDestroy
  | .waiting cv _ _ => (pc = .mainCond ∧ cv = .threadsRunningCv) ∨
      ∃ handle, pc = .waitCond handle ∧ cv = .waitingThreadsCv handle
  | _ => True

theorem outcome_source {data after : Data} {thread : ThreadId} {pc : PC} {pick : Nat}
    {status : Status Obj PC} (ran : program.outcome thread pick pc data = some (after, status)) :
    Source data thread pc status := by
  cases pc <;> cases thread <;>
    simp only [Program.outcome, program, code, Instr.result, goTo, branch, lookUp, withRecord, inExecute,
      afterCreate, afterExecute, Option.map_some, Option.map_none, Option.some.injEq, Prod.mk.injEq,
      reduceCtorEq] at ran
  case cleanupRemove.library =>
    simp only [Option.map_map, Option.map_eq_some_iff, Function.comp_apply, Prod.mk.injEq] at ran
    obtain ⟨_, -, -, rfl⟩ := ran
    trivial
  case cleanupTest.library own =>
    obtain ⟨-, rfl⟩ := ran
    split_ifs with waiting
    · rfl
    · refine Or.inr ⟨rfl, fun _ record same read => ?_⟩
      cases same
      simpa [read] using waiting
  all_goals
    obtain ⟨-, rfl⟩ := ran
    first
      | trivial
      | exact Or.inl ⟨rfl, rfl⟩
      | exact Or.inr ⟨_, rfl, rfl⟩
      | exact Or.inl rfl
      | (split_ifs <;> trivial)

end ZSystem.Thread
