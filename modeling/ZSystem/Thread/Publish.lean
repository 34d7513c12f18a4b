import ZSystem.Shared.Embed
import ZSystem.Thread.Valid

set_option autoImplicit false

/-!
# Handles that are not set yet

`zs__thread_create` inserts its entry, gives up `thread_map_mutex`, and only then lets `pthread_create` store
the handle. Until then the lookups read what `malloc` has left in the record.
-/

namespace ZSystem.Thread.Publish

open Posix Transition

structure Data where
  -- `handleStored`, which no code here reads, says that the record has the thread's own handle in it.
  base : Thread.Data := {}
  -- The field `thread_handle` of each record.
  threadHandle : Nat -> Nat := fun _ => 0

/-- `zs__thread_map_find`. -/
def Data.find (data : Data) (handle : Nat) : Option Nat :=
  data.base.threadMap.find? fun entry => decide (data.threadHandle entry = handle)

def Data.withBase (base : Thread.Data) (data : Data) : Data := { data with base := base }

/-- The part of `zs__thread_cleanup` that runs with the map locked. -/
def Data.unregister (data : Data) (own : Nat) : Option Data :=
  match data.find (data.threadHandle own) with
  | some entry => some (data.withBase (data.base.remove entry))
  | none => if data.base.dangling then none else some data

abbrev Code := Instr ThreadId Obj PC Data

/-- A walk that does not end before it comes to a freed entry has no defined outcome. -/
def lookUp (handle : Nat) (next : Data -> Option Nat -> PC) : Code :=
  .look (fun data => (data.find handle).isSome || !data.base.dangling) fun data => next data (data.find handle)

/-- The code of `ZSystem.Thread`, with lookups that compare the handles in the records. -/
def code (thread : ThreadId) : PC -> Code
  -- The pick is what `malloc` leaves in `thread_handle`.
  | .createInit args => .act fun pick data => some
      ({ base := { data.base with
           record := Function.update data.base.record args.thread
             (some {
               run := args.run
               abort := args.abort
               waitingThreads := 0
               handleStored := decide (pick = args.thread) }) }
         threadHandle := Function.update data.threadHandle args.thread pick },
        .createLockGate args)
  | .createHandle args => .act fun _ data => some
      ({ base := data.base.update args.thread fun record => { record with handleStored := true }
         threadHandle := Function.update data.threadHandle args.thread args.thread },
        .createStart args)
  | .executeFind handle => lookUp handle fun _ found =>
      match found with
      | some entry => .executeUnlockGate entry
      | none => .executeUnlockMap handle false
  -- The callback is the one of the entry, but `pthread_cancel` gets the handle.
  | .abortFind handle => lookUp handle fun data found =>
      match found with
      | some entry =>
          if (data.base.record entry).map Record.abort = some true then .abortCallback entry
          else .abortCancel handle
      | none => .abortUnlockMap handle
  | .waitFind handle => lookUp handle fun _ found =>
      match found with
      | some entry => .waitLockEntry entry
      | none => .waitMissing handle
  | .availableFind handle => lookUp handle fun _ found => .availableUnlockMap handle found.isSome
  | .cleanupRemove =>
      match thread with
      | .library own => .act fun _ data =>
          (data.unregister own).map fun result => (result, .cleanupUnlockMap)
      | _ => .halt
  | pc => (Thread.code thread pc).embed id id Data.base Data.withBase

def program : Program ThreadId Obj PC Data where
  code := code
  calls thread pc place data := (Thread.calls thread pc place data.base).map fun base => data.withBase base
  note thread pc data := data.withBase (Thread.note thread pc data.base)
  handler := Thread.program.handler
  interruptible := Thread.program.interruptible

abbrev State := Posix.State ThreadId Obj PC Data

def initial : State where
  owner := Thread.initial.owner
  sleepers := Thread.initial.sleepers
  value := Thread.initial.value
  cancelled := Thread.initial.cancelled
  status := Thread.initial.status
  data := {}

abbrev step : State -> Action -> Option State := program.step

/-- The handle that a thread at this place is about to look up. -/
def Data.sought (data : Data) (thread : ThreadId) : PC -> Option Nat
  | .executeFind handle | .abortFind handle | .waitFind handle | .availableFind handle => some handle
  | .cleanupRemove =>
      match thread with
      | .library own => some (data.threadHandle own)
      | _ => none
  | _ => none

/--
Who can lock the map finds the handle of each thread in its entry, with no freed entry among them, and no lookup
finds the entry of another thread.
-/
structure Published (state : State) : Prop where
  entries : state.owner .threadMapMutex = none -> state.data.base.dangling = false ∧
    ∀ entry ∈ state.data.base.threadMap, state.data.threadHandle entry = entry
  lookups : ∀ thread pc handle, state.status thread = .running pc ->
    state.data.sought thread pc = some handle -> ∀ entry, state.data.find handle = some entry -> entry = handle

def publishing : Status Obj PC -> Option Create
  | .running (.createUnlockMap args) => some args
  | _ => none

/-- Whoever publishes an entry finds that `malloc` has left the right handle in its record. -/
def AlreadySet (state : State) : Action -> Prop
  | .run thread _ =>
      ∀ args ∈ publishing (state.status thread), state.data.threadHandle args.thread = args.thread
  | _ => True

instance (state : State) : (action : Action) -> Decidable (AlreadySet state action)
  | .run thread _ => inferInstanceAs (Decidable
      (∀ args ∈ publishing (state.status thread), state.data.threadHandle args.thread = args.thread))
  | .call _ _ | .wake _ | .interrupt _ => instDecidableTrue

/-- A cleanup that gives up the map has not left the entry that it has freed in the chain. -/
def TakenOut (state : State) : Action -> Prop
  | .run thread _ => state.status thread = .running .cleanupUnlockMap -> state.data.base.dangling = false
  | _ => True

instance (state : State) : (action : Action) -> Decidable (TakenOut state action)
  | .run thread _ => inferInstanceAs (Decidable
      (state.status thread = .running .cleanupUnlockMap -> state.data.base.dangling = false))
  | .call _ _ | .wake _ | .interrupt _ => instDecidableTrue

/-- Who gives up the map leaves only entries of which the handle is set and none that has been freed. -/
abbrev LeavesRight (state : State) (action : Action) : Prop := AlreadySet state action ∧ TakenOut state action

/-! ## What holds as long as it does -/

/-- As `ZSystem.Thread` sees the state. -/
abbrev base (state : State) : Thread.State := state.part Data.base

def Flagged (data : Data) : Prop :=
  ∀ entry record, data.base.record entry = some record ->
    (record.handleStored = true ↔ data.threadHandle entry = entry)

structure Settled (state : State) : Prop where
  valid : Valid (base state)
  flagged : Flagged state.data
  inserted : ∀ thread args, state.status thread = .running (.createUnlockMap args) ->
    args.thread ∈ state.data.base.threadMap
  entries : ∀ entry ∈ state.data.base.threadMap, state.data.threadHandle entry = entry ∨
    ∃ thread args, state.status thread = .running (.createUnlockMap args) ∧ args.thread = entry
  linked : state.data.base.dangling = true -> ∃ thread, state.status thread = .running .cleanupUnlockMap

section Lookups

variable {state next : State} {data : Data} {thread : ThreadId} {pc : PC}

theorem find_own (own : ∀ entry ∈ data.base.threadMap, data.threadHandle entry = entry) (handle : Nat) :
    data.find handle = if handle ∈ data.base.threadMap then some handle else none := by
  cases found : data.find handle with
  | none =>
      have missing : handle ∉ data.base.threadMap := fun member => by
        simpa [own handle member] using List.find?_eq_none.mp found handle member
      simp [missing]
  | some entry =>
      have member := List.mem_of_find?_eq_some found
      have same : data.threadHandle entry = handle := by simpa using List.find?_some found
      obtain rfl : entry = handle := (own entry member).symm.trans same
      simp [member]

/-- Whoever holds the map is alone with it, so there is no entry of another call that is not set. -/
theorem Settled.own (settled : Settled state) (here : state.status thread = .running pc)
    (holds : pc.holdsMap = true) (inside : ∀ args, pc ≠ .createUnlockMap args) :
    ∀ entry ∈ state.data.base.threadMap, state.data.threadHandle entry = entry := fun entry member => by
  refine (settled.entries entry member).resolve_right ?_
  rintro ⟨other, args, there, -⟩
  obtain rfl : thread = other := settled.valid.map_alone here there holds rfl
  cases here.symm.trans there
  exact inside args rfl

theorem Settled.intact (settled : Settled state) (here : state.status thread = .running pc)
    (holds : pc.holdsMap = true) (inside : pc ≠ .cleanupUnlockMap) : state.data.base.dangling = false := by
  by_contra freed
  obtain ⟨other, there⟩ := settled.linked (by simpa using freed)
  obtain rfl : thread = other := settled.valid.map_alone here there holds rfl
  cases here.symm.trans there
  exact inside rfl

theorem Settled.published (settled : Settled state) : Published state := by
  refine ⟨fun free => ⟨?_, fun entry member => ?_⟩, fun thread pc handle here sought entry found => ?_⟩
  · by_contra freed
    obtain ⟨thread, there⟩ := settled.linked (by simpa using freed)
    have owner := (settled.valid.map.owns there).mpr rfl
    exact absurd (free.symm.trans owner) (by simp)
  · refine (settled.entries entry member).resolve_right ?_
    rintro ⟨thread, args, there, -⟩
    have owner := (settled.valid.map.owns there).mpr rfl
    exact absurd (free.symm.trans owner) (by simp)
  · have holds : pc.holdsMap = true ∧ ∀ args, pc ≠ .createUnlockMap args := by
      cases pc <;> simp [Data.sought, PC.holdsMap] at sought ⊢
    rw [find_own (settled.own here holds.1 holds.2)] at found
    split_ifs at found
    exact (Option.some.inj found).symm

/-- Then a lookup says the same as in `ZSystem.Thread`. -/
theorem Settled.base_find (settled : Settled state) (here : state.status thread = .running pc)
    (holds : pc.holdsMap = true) (inside : ∀ args, pc ≠ .createUnlockMap args) (handle : Nat) :
    state.data.find handle = if state.data.base.find handle = true then some handle else none := by
  have own := settled.own here holds inside
  rw [find_own own]
  refine if_congr ?_ rfl rfl
  rw [Data.find_iff]
  refine (and_iff_left_of_imp fun member => ?_).symm
  obtain ⟨record, read⟩ := Option.isSome_iff_exists.mp (settled.valid.data.registered handle member).2
  exact ⟨record, read, (settled.flagged handle record read).mpr (own handle member)⟩

end Lookups

/-! ## Every step is one of `ZSystem.Thread` -/

section Step

variable {state next : State} {action : Action} {thread : ThreadId} {pick : Nat} {pc : PC}

theorem widens : Widens Thread.program program Data.base where
  calls thread pc place data after called := by
    obtain ⟨result, chosen, rfl⟩ := Option.map_eq_some_iff.mp called
    exact chosen
  note _ _ _ := rfl
  handler := rfl
  interruptible := rfl

/-- Only a record that happens to have the right handle from the start is not there in `ZSystem.Thread`. -/
theorem Settled.performs (settled : Settled state) {after : State} (here : state.status thread = .running pc)
    (unlike : ∀ args, pc = .createInit args -> pick ≠ args.thread)
    (performed : program.perform thread pick state (code thread pc) = some after) :
    Thread.program.perform thread pick (base state) (Thread.code thread pc) = some (base after) := by
  have plain (same : code thread pc = (Thread.code thread pc).embed id id Data.base Data.withBase) :
      Thread.program.perform thread pick (base state) (Thread.code thread pc) = some (base after) := by
    have limit : program.limit = Thread.program.limit := rfl
    have reads (part : Thread.Data) (data : Data) : Data.base (Data.withBase part data) = part := rfl
    have embeds := perform_embed limit reads thread pick state (Thread.code thread pc)
    rw [← same, performed] at embeds
    exact embeds.symm
  have finds := settled.base_find here
  cases pc with
  | createInit args =>
      cases performed
      simp [base, State.part, Thread.code, goTo, Program.perform, State.goto, unlike args rfl]
  | createHandle args =>
      cases performed
      rfl
  | abortFind handle =>
      have found := finds rfl (by simp) handle
      have intact := settled.intact here rfl (by simp)
      simp only [code, lookUp, Program.perform, found, intact, Bool.not_false, Bool.or_true, if_true,
        Option.some.injEq] at performed
      subst performed
      by_cases known : state.data.base.find handle = true
      · simp only [base, State.part, Thread.code, Thread.lookUp, Data.defined, Program.perform, State.goto, known,
          Bool.true_or, if_true]
        rfl
      · simp [base, State.part, Thread.code, Thread.lookUp, Data.defined, Program.perform, State.goto, known, intact]
  | executeFind handle | waitFind handle | availableFind handle =>
      have found := finds rfl (by simp) handle
      have intact := settled.intact here rfl (by simp)
      simp only [code, lookUp, Program.perform, found, intact, Bool.not_false, Bool.or_true, if_true,
        Option.some.injEq] at performed
      subst performed
      by_cases known : state.data.base.find handle = true <;>
        simp [base, State.part, Thread.code, Thread.lookUp, Data.defined, Program.perform, State.goto, known, intact]
  | cleanupRemove =>
      cases thread with
      | library own =>
          obtain ⟨record, read, stored⟩ := ((settled.valid.at here).own own rfl).stored (by simp)
          have handle : state.data.threadHandle own = own := (settled.flagged own record read).mp stored
          have found := finds rfl (by simp) own
          have intact := settled.intact here rfl (by simp)
          simp only [code, Program.perform, Data.unregister, handle, found] at performed
          by_cases known : state.data.base.find own = true
          · simp only [known, if_true, Option.map_some, Option.some.injEq] at performed
            subst performed
            simp [base, State.part, Thread.code, withRecord, Program.perform, Thread.Data.unregister, State.goto,
              Data.withBase, known]
          · simp only [known, intact, Bool.false_eq_true, if_false, Option.map_some, Option.some.injEq] at performed
            subst performed
            simp [base, State.part, Thread.code, withRecord, Program.perform, Thread.Data.unregister, State.goto,
              known, intact]
      | main | outside number => simp [code, Program.perform] at performed
  | _ => exact plain rfl

theorem Settled.valid_next (settled : Settled state) (taken : step state action = some next) :
    Valid (base next) := by
  by_cases lucky : ∃ thread args, action = .run thread args.thread ∧
      state.status thread = .running (.createInit args)
  · obtain ⟨thread, args, rfl, here⟩ := lucky
    -- The record of `ZSystem.Thread` gets its handle at once.
    have there : (base state).status thread = .running (.createInit args) := here
    obtain ⟨after, moved⟩ : ∃ after, Thread.step (base state) (.run thread args.thread) = some after := by
      simp [Thread.step, Program.step, there, Thread.program, Thread.code, goTo, Program.perform]
    have stored := (settled.valid.preserved moved).stored args.thread
    simp only [Thread.step, Program.step, there, Thread.program, Thread.code, goTo, Program.perform,
      Option.map_some, Option.some.injEq] at moved
    simp only [step, Program.step, here, program, code, Program.perform, Option.map_some,
      Option.some.injEq] at taken
    subst moved taken
    simpa [base, State.part, State.goto, Thread.note, Thread.Data.update, Data.withBase] using stored
  · refine settled.valid.preserved (widens.step taken fun thread pick pc after run here performed =>
      settled.performs here (fun args same given => ?_) performed)
    subst same given
    exact lucky ⟨thread, args, run, here⟩

inductive Writes (data : Data) : ThreadId -> PC -> Data -> Prop where
  | init (thread : ThreadId) (args : Create) (pick : Nat) : Writes data thread (.createInit args)
      { base := { data.base with
          record := Function.update data.base.record args.thread
            (some {
              run := args.run
              abort := args.abort
              waitingThreads := 0
              handleStored := decide (pick = args.thread) }) }
        threadHandle := Function.update data.threadHandle args.thread pick }
  | store (thread : ThreadId) (args : Create) : Writes data thread (.createHandle args)
      { base := data.base.update args.thread fun record => { record with handleStored := true }
        threadHandle := Function.update data.threadHandle args.thread args.thread }
  | unregister (own : Nat) {after : Data} (removed : data.unregister own = some after) :
      Writes data (.library own) .cleanupRemove after
  | plain {thread : ThreadId} {pc : PC} {base : Thread.Data}
      (apart : ∀ args, pc ≠ .createInit args ∧ pc ≠ .createHandle args)
      (writes : Thread.Writes data.base thread pc base) : Writes data thread pc (data.withBase base)

theorem outcome_plain {data after : Data} {status : Status Obj PC}
    (plain : code thread pc = (Thread.code thread pc).embed id id Data.base Data.withBase)
    (ran : program.outcome thread pick pc data = some (after, status)) :
    Thread.program.outcome thread pick pc data.base = some (after.base, status) ∧
      after = data.withBase after.base := by
  change ((code thread pc).result pick data).map _ = _ at ran
  rw [plain, result_embed rfl, Option.map_map, Option.map_eq_some_iff] at ran
  obtain ⟨⟨part, moved⟩, result, same⟩ := ran
  cases same
  have kept : moved.embed id id = moved := by cases moved <;> rfl
  refine ⟨?_, rfl⟩
  change ((Thread.code thread pc).result pick data.base).map _ = _
  rw [result, kept]
  rfl

theorem outcome_writes {data after : Data} {status : Status Obj PC}
    (ran : program.outcome thread pick pc data = some (after, status)) :
    after = data ∨ Writes data thread pc after := by
  cases pc with
  | createInit args =>
      cases ran
      exact Or.inr (.init thread args pick)
  | createHandle args =>
      cases ran
      exact Or.inr (.store thread args)
  | executeFind handle | abortFind handle | waitFind handle | availableFind handle =>
      cases ran
      exact Or.inl rfl
  | cleanupRemove =>
      cases thread with
      | library own =>
          simp only [Program.outcome, program, code, Instr.result, Option.map_map, Option.map_eq_some_iff,
            Function.comp_apply, Prod.mk.injEq] at ran
          obtain ⟨_, removed, rfl, -⟩ := ran
          exact Or.inr (.unregister own removed)
      | main | outside number => simp [Program.outcome, program, code, Instr.result] at ran
  | _ =>
      obtain ⟨base, same⟩ := outcome_plain rfl ran
      rcases Thread.outcome_writes base with unchanged | writes
      · exact Or.inl (by rw [same, unchanged]; rfl)
      · exact Or.inr (same ▸ .plain (by simp) writes)

theorem unregister_parts {data after : Data} {own : Nat} (removed : data.unregister own = some after) :
    ∃ threadMap dangling,
      after = data.withBase { data.base with threadMap := threadMap, dangling := dangling } ∧
        threadMap.Sublist data.base.threadMap := by
  unfold Data.unregister at removed
  split at removed
  · cases removed
    exact ⟨_, _, rfl, threadMapRemove_sublist _ _⟩
  · split_ifs at removed
    cases removed
    exact ⟨data.base.threadMap, data.base.dangling, rfl, List.Sublist.refl _⟩

theorem Flagged.writes {data after : Data} (flagged : Flagged data) (writes : Writes data thread pc after) :
    Flagged after := by
  intro entry record read
  cases writes with
  | init thread args pick =>
      by_cases same : entry = args.thread
      · subst same
        simp only [Function.update_self, Option.some.injEq] at read ⊢
        subst read
        simp
      · simp only [Function.update_of_ne same] at read ⊢
        exact flagged entry record read
  | store thread args =>
      simp only [update_record] at read
      split_ifs at read with same
      · obtain ⟨before, -, rfl⟩ := Option.map_eq_some_iff.mp read
        simp [same]
      · simpa [same] using flagged entry record read
  | unregister own removed =>
      obtain ⟨threadMap, dangling, rfl, -⟩ := unregister_parts removed
      exact flagged entry record read
  | plain apart writes =>
      cases writes with
      | init thread args | store thread args => simp at apart
      | await thread handle =>
          simp only [Data.withBase, update_record] at read
          split_ifs at read with same
          · obtain ⟨before, known, rfl⟩ := Option.map_eq_some_iff.mp read
            exact flagged entry before (same ▸ known)
          · exact flagged entry record read
      | destroy own =>
          by_cases same : entry = own
          · simp [Data.withBase, same] at read
          · exact flagged entry record (by simpa [Data.withBase, same] using read)
      | unregister own removed =>
          obtain ⟨threadMap, dangling, rfl, -, -⟩ := Thread.unregister_parts removed
          exact flagged entry record read
      | _ => exact flagged entry record read

/-- Who changes the map holds it; the change adds an entry or takes some away. -/
theorem Writes.threadMap {data after : Data} (writes : Writes data thread pc after) :
    after.base.threadMap = data.base.threadMap ∨
      (∃ args, pc = .createInsert args ∧ after.base.threadMap = args.thread :: data.base.threadMap) ∨
      (pc = .cleanupRemove ∧ after.base.threadMap.Sublist data.base.threadMap) := by
  cases writes with
  | init | store => exact Or.inl rfl
  | unregister own removed =>
      obtain ⟨threadMap, dangling, rfl, sublist⟩ := unregister_parts removed
      exact Or.inr (Or.inr ⟨rfl, sublist⟩)
  | plain apart writes =>
      cases writes with
      | register thread args => exact Or.inr (Or.inl ⟨args, rfl, rfl⟩)
      | unregister own removed =>
          obtain ⟨threadMap, dangling, rfl, sublist, -⟩ := Thread.unregister_parts removed
          exact Or.inr (Or.inr ⟨rfl, sublist⟩)
      | _ => exact Or.inl rfl

theorem Writes.dangling {data after : Data} (writes : Writes data thread pc after) (stays : pc ≠ .cleanupRemove) :
    after.base.dangling = data.base.dangling := by
  cases writes with
  | init | store => rfl
  | unregister => exact absurd rfl stays
  | plain apart writes =>
      cases writes with
      | unregister => exact absurd rfl stays
      | _ => rfl

theorem Writes.keeps {data after : Data} (writes : Writes data thread pc after)
    (here : At data.base thread pc) (valid : DataValid data.base) {entry : Nat}
    (member : entry ∈ data.base.threadMap) (right : data.threadHandle entry = entry) :
    after.threadHandle entry = entry := by
  cases writes with
  | init thread args pick =>
      have differ : entry ≠ args.thread := fun same =>
        here.place.gated.mp (same ▸ (valid.registered entry member).1)
      simpa [differ] using right
  | store thread args =>
      by_cases same : entry = args.thread
      · simp [same]
      · simpa [same] using right
  | unregister own removed =>
      obtain ⟨threadMap, dangling, rfl, -⟩ := unregister_parts removed
      exact right
  | plain => exact right

theorem outcome_publishing {data after : Data} {args : Create}
    (ran : program.outcome thread pick pc data = some (after, .running (.createUnlockMap args))) :
    pc = .createInsert args ∧ after.base.threadMap = args.thread :: data.base.threadMap := by
  cases pc <;> cases thread <;>
    simp only [Program.outcome, program, code, Thread.code, Instr.embed, Instr.result, goTo, lookUp,
      Thread.branch, withRecord, inExecute, afterCreate, afterExecute, Option.map_some, Option.map_none,
      Option.some.injEq, Prod.mk.injEq, Status.running.injEq, reduceCtorEq, and_false, id_eq] at ran
  case createInsert.main | createInsert.library | createInsert.outside =>
    obtain ⟨rfl, same⟩ := ran
    cases same
    exact ⟨rfl, rfl⟩
  case cleanupRemove.library => simp at ran
  all_goals
    obtain ⟨-, leads⟩ := ran
    split at leads
    · first | cases leads | (split at leads <;> cases leads)
    · cases leads

theorem code_start {child : ThreadId} {first place : PC} (instr : code thread pc = .start child first place) :
    first = .startLock := by
  cases pc <;> cases thread <;>
    simp [code, Thread.code, Instr.embed, goTo, lookUp, Thread.branch, withRecord, inExecute] at instr
  all_goals exact instr.2.1.symm

theorem Settled.arrives (settled : Settled state) (taken : step state action = some next) {args : Create}
    (there : next.status thread = .running (.createUnlockMap args)) :
    state.status thread = .running (.createUnlockMap args) ∨
      ∃ pick, action = .run thread pick ∧ state.status thread = .running (.createInsert args) ∧
        next.data.base.threadMap = args.thread :: state.data.base.threadMap := by
  cases arrival taken thread with
  | stays same => exact Or.inl (same ▸ there)
  | @instr pick pc run here _ ran =>
      rw [there] at ran
      obtain ⟨rfl, inserted⟩ := outcome_publishing ran
      exact Or.inr ⟨pick, run, here, inserted⟩
  | born _ _ _ instr _ started =>
      obtain rfl := code_start instr
      cases there.symm.trans started
  | resume _ here _ _ resumed =>
      cases there.symm.trans resumed
      obtain ⟨-, -, -, wrong⟩ | ⟨handle, -, -, -, wrong | wrong⟩ :=
        (settled.valid.waits here).2 <;> cases wrong
  | call _ _ chosen called =>
      cases there.symm.trans called
      have moved := calls_cases (widens.calls _ _ _ _ _ chosen)
      obtain ⟨_, wrong, -⟩ | ⟨-, -, ⟨_, wrong | wrong | wrong | wrong⟩ | ⟨wrong, -⟩⟩ := moved <;> cases wrong
  | stop _ _ handled _ stopped =>
      cases there.symm.trans stopped
      obtain ⟨wrong, -⟩ := handler_place handled
      cases wrong
  | abandon _ _ _ abandoned => simp [there] at abandoned

theorem changes (taken : step state action = some next) :
    (next.data.base.threadMap = state.data.base.threadMap ∧ next.data.base.dangling = state.data.base.dangling ∧
      next.data.base.record = state.data.base.record ∧ next.data.threadHandle = state.data.threadHandle) ∨
    ∃ thread pick pc, action = .run thread pick ∧ state.status thread = .running pc ∧
      Writes state.data thread pc next.data := by
  cases step_cases taken with
  | @instr thread pick pc after here performed =>
      obtain ⟨-, ran, -, -⟩ := outcome_parts performed
      rcases outcome_writes ran with same | writes
      · exact Or.inl (by simp [same])
      · exact Or.inr ⟨thread, pick, pc, rfl, here, writes⟩
  | @call thread pc place data here chosen =>
      obtain ⟨result, moved, rfl⟩ := Option.map_eq_some_iff.mp chosen
      obtain ⟨_, -, -, rfl, -⟩ | ⟨-, rfl, -⟩ := calls_cases moved <;> exact Or.inl ⟨rfl, rfl, rfl, rfl⟩
  | _ => exact Or.inl ⟨rfl, rfl, rfl, rfl⟩

/-- Inside a function of the library a thread stays where it is until its own step. -/
theorem stays_until_run (taken : step state action = some next) {place : PC}
    (here : state.status thread = .running place) (inside : place ≠ .caller ∧ place ≠ .mainStart) :
    next.status thread = .running place ∨ ∃ pick, action = .run thread pick := by
  by_cases actor : thread = action.actor
  · cases step_cases taken with
    | @instr other pick =>
        obtain rfl : other = thread := actor.symm
        exact Or.inr ⟨pick, rfl⟩
    | wake => exact Or.inl here
    | @call other pc place data there chosen =>
        obtain rfl : other = thread := actor.symm
        cases here.symm.trans there
        have moved := calls_cases (widens.calls _ _ _ _ _ chosen)
        obtain ⟨_, -, -, -, wrong | ⟨wrong, -⟩⟩ | ⟨wrong, -⟩ := moved
        · exact absurd wrong inside.1
        · exact absurd wrong inside.2
        · exact absurd wrong inside.1
    | @stop other pc place there handled point =>
        obtain rfl : other = thread := actor.symm
        cases here.symm.trans there
        exact absurd (by simpa [program, Thread.program] using point) inside.1
    | @resume other pick => exact Or.inr ⟨pick, by rw [actor]; rfl⟩
    | @abandon other cv mutex pc place there =>
        obtain rfl : other = thread := actor.symm
        cases here.symm.trans there
  · obtain same | ⟨_, _, _, _, -, -, -, absent, -⟩ := status_other taken actor
    · exact Or.inl (same ▸ here)
    · cases here.symm.trans absent

/-- Who is about to publish an entry stays there until its step, for which the handle has to be set. -/
theorem publisher_kept (set : AlreadySet state action) (taken : step state action = some next) {args : Create}
    (here : state.status thread = .running (.createUnlockMap args)) :
    next.status thread = .running (.createUnlockMap args) ∨
      state.data.threadHandle args.thread = args.thread := by
  obtain there | ⟨pick, rfl⟩ := stays_until_run taken here (by simp)
  · exact Or.inl there
  · exact Or.inr (set args (by rw [here]; rfl))

theorem unlinks (taken : step state action = some next) {pick : Nat} (run : action = .run thread pick)
    (here : state.status thread = .running .cleanupRemove) : next.status thread = .running .cleanupUnlockMap := by
  subst run
  obtain ⟨-, ran, -, -⟩ := run_parts here taken
  cases thread with
  | library own =>
      simp only [Program.outcome, program, code, Instr.result, Option.map_map, Option.map_eq_some_iff,
        Function.comp_apply, Prod.mk.injEq] at ran
      obtain ⟨_, -, -, there⟩ := ran
      exact there.symm
  | main | outside number => simp [Program.outcome, program, code, Instr.result] at ran

theorem gives_up {pick : Nat} (taken : step state (.run thread pick) = some next)
    (here : state.status thread = .running .cleanupUnlockMap) :
    next.owner .threadMapMutex = none ∧ next.data.base.dangling = state.data.base.dangling := by
  cases thread <;> simp [step, Program.step, here, program, code, Thread.code, withRecord, Instr.embed,
    Program.perform] at taken
  subst taken
  exact ⟨by simp [State.goto], rfl⟩

theorem Settled.linked_preserved (settled : Settled state) (out : TakenOut state action)
    (taken : step state action = some next) (freed : next.data.base.dangling = true) :
    ∃ thread, next.status thread = .running .cleanupUnlockMap := by
  have old (before : next.data.base.dangling = state.data.base.dangling) :
      ∃ thread, next.status thread = .running .cleanupUnlockMap := by
    obtain ⟨thread, here⟩ := settled.linked (before ▸ freed)
    obtain there | ⟨pick, rfl⟩ := stays_until_run taken here (by simp)
    · exact ⟨thread, there⟩
    · rw [out here] at before
      cases before.symm.trans freed
  obtain ⟨-, same, -⟩ | ⟨thread, pick, pc, run, here, writes⟩ := changes taken
  · exact old same
  · by_cases removes : pc = .cleanupRemove
    · exact ⟨thread, unlinks taken run (removes ▸ here)⟩
    · exact old (writes.dangling removes)

theorem Settled.preserved (settled : Settled state) (right : LeavesRight state action)
    (taken : step state action = some next) : Settled next := by
  obtain ⟨set, out⟩ := right
  have moved := changes taken
  refine ⟨settled.valid_next taken, ?_, fun thread args there => ?_, fun entry member => ?_,
    settled.linked_preserved out taken⟩
  · obtain ⟨-, -, record, handle⟩ | ⟨thread, pick, pc, -, -, writes⟩ := moved
    · intro entry before read
      rw [handle]
      exact settled.flagged entry before (record ▸ read)
    · exact settled.flagged.writes writes
  · obtain here | ⟨pick, -, -, inserted⟩ := settled.arrives taken there
    · have member := settled.inserted thread args here
      obtain ⟨threadMap, -⟩ | ⟨actor, pick, pc, -, acts, writes⟩ := moved
      · exact threadMap ▸ member
      · obtain threadMap | ⟨_, rfl, -⟩ | ⟨rfl, -⟩ := writes.threadMap
        · exact threadMap ▸ member
        all_goals
          obtain rfl := settled.valid.map_alone here acts rfl rfl
          cases here.symm.trans acts
    · simp [inserted]
  · have old (before : entry ∈ state.data.base.threadMap)
        (keeps : state.data.threadHandle entry = entry -> next.data.threadHandle entry = entry) :
        next.data.threadHandle entry = entry ∨
          ∃ thread args, next.status thread = .running (.createUnlockMap args) ∧ args.thread = entry := by
      obtain right | ⟨thread, args, here, rfl⟩ := settled.entries entry before
      · exact Or.inl (keeps right)
      · obtain there | right := publisher_kept set taken here
        · exact Or.inr ⟨thread, args, there, rfl⟩
        · exact Or.inl (keeps right)
    obtain ⟨threadMap, -, -, handle⟩ | ⟨thread, pick, pc, rfl, here, writes⟩ := moved
    · exact old (threadMap ▸ member) fun right => handle ▸ right
    · have known := settled.valid.at here
      have keeps (before : entry ∈ state.data.base.threadMap) := writes.keeps known settled.valid.data before
      obtain threadMap | ⟨args, rfl, threadMap⟩ | ⟨rfl, sublist⟩ := writes.threadMap
      · rw [threadMap] at member
        exact old member (keeps member)
      · rw [threadMap, List.mem_cons] at member
        rcases member with rfl | before
        · refine Or.inr ⟨thread, args, ?_, rfl⟩
          obtain ⟨-, ran, -, -⟩ := run_parts here taken
          exact (Prod.mk.inj (Option.some.inj ran)).2.symm
        · exact old before (keeps before)
      · have before := sublist.subset member
        exact old before (keeps before)

theorem not_published (settled : Settled state) (wrong : ¬ LeavesRight state action)
    (taken : step state action = some next) : ¬ Published next := by
  cases action with
  | run thread pick =>
      rcases not_and_or.mp wrong with unset | freed
      · simp only [AlreadySet, not_forall] at unset
        obtain ⟨args, publishes, other⟩ := unset
        have here : state.status thread = .running (.createUnlockMap args) := by
          unfold publishing at publishes
          split at publishes
          · cases publishes
            assumption
          · cases publishes
        have member := settled.inserted thread args here
        simp only [step, Program.step, here] at taken
        cases taken
        intro published
        exact other ((published.entries (by simp [State.goto])).2 args.thread member)
      · simp only [TakenOut, Classical.not_imp] at freed
        obtain ⟨here, linked⟩ := freed
        obtain ⟨free, same⟩ := gives_up taken here
        intro published
        exact linked (same ▸ (published.entries free).1)
  | call | wake | interrupt => exact absurd ⟨trivial, trivial⟩ wrong

end Step

/-! ## Every run -/

theorem initial_settled : Settled initial where
  valid := initial_valid
  flagged _ _ read := by cases read
  inserted thread args there := by
    cases thread <;> cases there
  entries _ member := by cases member
  linked freed := by cases freed

theorem handles_published_iff (actions : List Action) (runs : (exec step initial actions).isSome) :
    Throughout step Published initial actions ↔ Along step LeavesRight initial actions :=
  throughout_iff_along Settled (fun _ settled => settled.published)
    (fun _ _ _ settled right taken => settled.preserved right taken)
    (fun _ _ _ settled wrong taken => not_published settled wrong taken) initial_settled runs

/-- A call of `zs__thread_create` up to its return, with what `malloc` leaves in the record. -/
def create (thread : ThreadId) (args : Create) (garbage : Nat) : List Action :=
  .call thread (.createLockRunning args) :: runs thread 3 ++ .run thread garbage :: runs thread 7

/-- `malloc` gives the record of thread 7 with its handle in it, and thread 7 is executed. -/
theorem handles_published_iff_seven :
    Throughout step Published initial
      (create (.outside 0) { thread := 7, run := true, abort := true } 7 ++
        .call (.outside 0) (.executeLockMap 7) :: runs (.outside 0) 4) :=
  (handles_published_iff _ rfl).mpr (by decide)

/-- The record of thread 5 still has the handle 7 in it, and thread 7 is going to be aborted. -/
theorem handles_published_fails : ¬ ∀ state, Reachable step initial state -> Published state := by
  intro published
  have found := published _ (reachable_of_exec
    (create (.outside 0) { thread := 7, run := true, abort := true } 0 ++
      (create (.outside 1) { thread := 5, run := true, abort := true } 7).take 9 ++
      .call (.outside 0) (.abortLockMap 7) :: runs (.outside 0) 1) rfl)
  exact absurd (found.lookups (.outside 0) (.abortFind 7) 7 rfl rfl 5 rfl) (by decide)

end ZSystem.Thread.Publish
