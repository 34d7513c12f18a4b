import ZSystem.Thread.Waiters

set_option autoImplicit false

/-!
# An exact registry

The same program with a `zs__thread_map_remove` that takes out the entry it is given and no other. Its
steps are steps of the program on a registry whose entries stand in another order.
-/

namespace ZSystem.Thread

open Posix Transition

/-- `Data.unregister` with an exact removal. -/
def Data.unregisterExactly (data : Data) (own : Nat) : Data :=
  if data.find own then { data with threadMap := data.threadMap.erase own } else data

def exactCode (thread : ThreadId) (pc : PC) : Code :=
  if pc = .cleanupRemove then
    withRecord thread fun own => goTo .cleanupUnlockMap fun data => data.unregisterExactly own
  else code thread pc

def exactProgram : Program ThreadId Obj PC Data := { program with code := exactCode }

def State.rearrange (state : State) (threadMap : List Nat) : State :=
  { state with data := { state.data with threadMap := threadMap } }

section

variable {state next : State} {action : Action}

theorem Data.find_rearrange {data : Data} {threadMap : List Nat} (same : threadMap.Perm data.threadMap)
    (handle : Nat) : Data.find { data with threadMap := threadMap } handle = data.find handle := by
  simp only [Data.find, same.contains_eq]

/-- With the own entry at the head the removal of the source is exact. -/
theorem unregister_rearrange {data : Data} (intact : data.dangling = false) (own : Nat) :
    ∃ threadMap, threadMap.Perm data.threadMap ∧
      Data.unregister { data with threadMap := threadMap } own = some (data.unregisterExactly own) := by
  by_cases found : data.find own
  · have member : own ∈ data.threadMap := by
      simpa using (Bool.and_eq_true_iff.mp found).1
    have same := (List.perm_cons_erase member).symm
    refine ⟨own :: data.threadMap.erase own, same, ?_⟩
    rw [Data.unregister, if_pos ((Data.find_rearrange same own).trans found), Data.unregisterExactly, if_pos found]
    simp [Data.remove, intact, threadMapRemove]
  · refine ⟨data.threadMap, .refl _, ?_⟩
    change data.unregister own = _
    rw [Data.unregister, if_neg found, if_neg (by simp [intact]), Data.unregisterExactly, if_neg found]

theorem exactCode_of_ne {thread : ThreadId} {pc : PC} (differ : pc ≠ .cleanupRemove) :
    exactCode thread pc = code thread pc := if_neg differ

theorem exact_step_eq
    (elsewhere : ∀ thread pick, action = .run thread pick -> state.status thread ≠ .running .cleanupRemove) :
    exactProgram.step state action = step state action := by
  cases action with
  | run thread pick =>
      cases here : state.status thread with
      | absent => simp only [step, Program.step, here]
      | running pc =>
          have differ : pc ≠ .cleanupRemove := fun same => elsewhere thread pick rfl (same ▸ here)
          have same : exactProgram.code thread pc = program.code thread pc := exactCode_of_ne differ
          simp only [step, Program.step, here, same]
          rfl
      | waiting cv mutex pc => simp only [step, Program.step, here]
  | call thread place | wake thread | interrupt thread => rfl

/-- The one step that is not a step of the program. -/
theorem exact_removes {thread : ThreadId} {pick : Nat} (here : state.status thread = .running .cleanupRemove)
    (taken : exactProgram.step state (.run thread pick) = some next) :
    ∃ own, thread = .library own ∧
      next = State.goto { state with data := state.data.unregisterExactly own } thread .cleanupUnlockMap := by
  cases thread with
  | library own =>
      simp only [Program.step, here, exactProgram, exactCode, if_true, withRecord, goTo, Program.perform,
        Option.map_some, Option.some.injEq] at taken
      exact ⟨own, rfl, taken.symm⟩
  | main | outside number =>
      simp [Program.step, here, exactProgram, exactCode, withRecord, Program.perform] at taken

theorem step_of_exact (intact : state.data.dangling = false) (taken : exactProgram.step state action = some next) :
    ∃ threadMap, threadMap.Perm state.data.threadMap ∧ step (state.rearrange threadMap) action = some next := by
  by_cases removes : ∃ thread pick, action = .run thread pick ∧ state.status thread = .running .cleanupRemove
  · obtain ⟨thread, pick, rfl, here⟩ := removes
    obtain ⟨own, rfl, rfl⟩ := exact_removes here taken
    obtain ⟨threadMap, same, removed⟩ := unregister_rearrange intact own
    have performed : program.perform (.library own) pick (state.rearrange threadMap)
        (program.code (.library own) .cleanupRemove) =
          some (State.goto { state with data := state.data.unregisterExactly own } (.library own)
            .cleanupUnlockMap) := by
      simp [program, code, withRecord, Program.perform, State.rearrange, removed, State.goto]
    have still : (state.rearrange threadMap).status (.library own) = .running .cleanupRemove := here
    exact ⟨threadMap, same, by rw [step, step_of_perform still performed]; rfl⟩
  · refine ⟨state.data.threadMap, .refl _, ?_⟩
    rw [exact_step_eq fun thread pick run here => removes ⟨thread, pick, run, here⟩] at taken
    exact taken

/-- No entry is freed and left in the chain. -/
theorem exact_intact (intact : state.data.dangling = false) (taken : exactProgram.step state action = some next) :
    next.data.dangling = false := by
  by_cases removes : ∃ thread pick, action = .run thread pick ∧ state.status thread = .running .cleanupRemove
  · obtain ⟨thread, pick, rfl, here⟩ := removes
    obtain ⟨own, rfl, rfl⟩ := exact_removes here taken
    change (state.data.unregisterExactly own).dangling = false
    unfold Data.unregisterExactly
    split_ifs <;> exact intact
  · rw [exact_step_eq fun thread pick run here => removes ⟨thread, pick, run, here⟩] at taken
    obtain ⟨-, same⟩ | ⟨_, _, args, -, -, -, same⟩ | ⟨own, pick, run, here, -⟩ := threadMap_next taken
    · exact same.trans intact
    · exact same.trans intact
    · exact absurd ⟨_, pick, run, here⟩ removes

/-! ## Invariants -/

theorem Own.rearrange {data : Data} {own : Nat} {pc : PC} {threadMap : List Nat}
    (same : threadMap.Perm data.threadMap) (mine : Own data own pc) :
    Own { data with threadMap := threadMap } own pc :=
  ⟨mine.started, mine.gated, fun removed member => mine.removed removed (same.mem_iff.mp member), mine.counted,
    mine.stored, mine.executed⟩

theorem Place.rearrange {data : Data} {thread : ThreadId} {pc : PC} {threadMap : List Nat}
    (same : threadMap.Perm data.threadMap) (place : Place data thread pc) :
    Place { data with threadMap := threadMap } thread pc := by
  cases pc <;> simp only [Place] at place ⊢
  case createLockRunning | createIncrement | createUnlockRunning | createInit =>
    exact ⟨place.mine, place.notStarted, place.counted, place.gated⟩
  case createLockGate | createUnlockMap | createHandle | createStart =>
    exact ⟨⟨place.1.mine, place.1.notStarted, place.1.counted, place.1.gated⟩, place.2⟩
  case createLockMap | createInsert =>
    exact ⟨⟨place.1.mine, place.1.notStarted, place.1.counted, place.1.gated⟩, place.2.1,
      fun member => place.2.2 (same.mem_iff.mp member)⟩
  case createReturn | executeUnlockGate => exact place
  case waitLockEntry => exact same.mem_iff.mpr place
  case waitIncrement => exact ⟨same.mem_iff.mpr place.1, place.2⟩
  case waitUnlockMap => exact ⟨same.mem_iff.mpr place.1, place.2⟩
  case waitCond | waitUnlockEntry => exact place

theorem Valid.rearrange (valid : Valid state) {threadMap : List Nat} (same : threadMap.Perm state.data.threadMap) :
    Valid (state.rearrange threadMap) := by
  have at_ {thread : ThreadId} {pc : PC} (here : At state.data thread pc) :
      At (state.rearrange threadMap).data thread pc :=
    ⟨here.placed, here.place.rearrange same, fun own library => (here.own own library).rearrange same⟩
  refine ⟨valid.map, valid.running, valid.asleep, ⟨valid.data.card, same.nodup_iff.mpr valid.data.nodup,
    fun handle member => valid.data.registered handle (same.mem_iff.mp member), valid.data.executed,
    valid.data.unused⟩, valid.gated, fun thread => ?_⟩
  have holds := valid.outline thread
  change HoldsAt _ thread (state.status thread)
  cases there : state.status thread with
  | absent => rwa [there] at holds
  | running pc => exact at_ (valid.at there)
  | waiting cv mutex pc =>
      rw [there] at holds
      exact ⟨at_ holds.1, holds.2⟩

theorem Valid.exact_preserved (valid : Valid state) (intact : state.data.dangling = false)
    (taken : exactProgram.step state action = some next) : Valid next := by
  obtain ⟨threadMap, same, stepped⟩ := step_of_exact intact taken
  exact (valid.rearrange same).preserved stepped

/-! ## Lookups -/

/-- The thread that a call of `zs__thread_create` has inserted and not started. -/
def PC.inserted : PC -> Option Nat
  | .createUnlockMap args | .createHandle args | .createStart args => some args.thread
  | _ => none

structure Listed (state : State) : Prop where
  valid : Valid state
  intact : state.data.dangling = false
  creating : ∀ thread pc new, state.status thread = .running pc -> pc.inserted = some new ->
    new ∈ state.data.threadMap
  started : ∀ own pc, (state.status (.library own)).place = some pc -> pc.removed = false ->
    own ∈ state.data.threadMap

theorem Valid.at_place (valid : Valid state) {thread : ThreadId} {pc : PC}
    (here : (state.status thread).place = some pc) : At state.data thread pc := by
  cases status : state.status thread with
  | absent => simp [status, Status.place] at here
  | running place =>
      simp only [status, Status.place, Option.some.injEq] at here
      exact here ▸ valid.at status
  | waiting cv mutex place =>
      simp only [status, Status.place, Option.some.injEq] at here
      exact here ▸ (valid.waits status).1

/-- An entry stays until its own thread takes it out. -/
theorem exact_keeps (taken : exactProgram.step state action = some next) {number : Nat}
    (member : number ∈ state.data.threadMap) : number ∈ next.data.threadMap ∨
      ∃ pick, action = .run (.library number) pick ∧ state.status (.library number) = .running .cleanupRemove := by
  by_cases removes : ∃ thread pick, action = .run thread pick ∧ state.status thread = .running .cleanupRemove
  · obtain ⟨thread, pick, rfl, here⟩ := removes
    obtain ⟨own, rfl, rfl⟩ := exact_removes here taken
    by_cases mine : number = own
    · exact Or.inr ⟨pick, by rw [mine], by rw [mine, here]⟩
    · refine Or.inl ?_
      change number ∈ (state.data.unregisterExactly own).threadMap
      unfold Data.unregisterExactly
      split_ifs
      · exact (List.mem_erase_of_ne mine).mpr member
      · exact member
  · rw [exact_step_eq fun thread pick run here => removes ⟨thread, pick, run, here⟩] at taken
    obtain ⟨same, -⟩ | ⟨_, _, args, -, -, more, -⟩ | ⟨own, pick, run, here, -⟩ := threadMap_next taken
    · exact Or.inl (same ▸ member)
    · exact Or.inl (by simp [more, member])
    · exact absurd ⟨_, pick, run, here⟩ removes

theorem inserted_from {data after : Data} {thread : ThreadId} {pc place : PC} {pick new : Nat}
    (ran : program.outcome thread pick pc data = some (after, .running place))
    (inserted : place.inserted = some new) : pc.inserted = some new ∨ new ∈ after.threadMap := by
  cases pc <;> cases thread <;>
    simp only [Program.outcome, program, code, Instr.result, goTo, branch, lookUp, withRecord, inExecute,
      afterCreate, afterExecute, Option.map_some, Option.map_none, Option.some.injEq, Prod.mk.injEq,
      reduceCtorEq, and_false, Status.running.injEq] at ran
  case cleanupRemove.library =>
    simp only [Option.map_map, Option.map_eq_some_iff, Function.comp_apply, Prod.mk.injEq,
      Status.running.injEq] at ran
    obtain ⟨_, -, -, rfl⟩ := ran
    cases inserted
  all_goals
    obtain ⟨rfl, rfl⟩ := ran
    first
      | exact Or.inl inserted
      | (cases inserted; exact Or.inr (List.mem_cons_self ..))
      | cases inserted
      | (split_ifs at inserted <;> cases inserted)

theorem Listed.creating_preserved (listed : Listed state) (taken : exactProgram.step state action = some next)
    {thread : ThreadId} {pc : PC} {new : Nat} (there : next.status thread = .running pc)
    (inserted : pc.inserted = some new) : new ∈ next.data.threadMap := by
  obtain ⟨threadMap, same, stepped⟩ := step_of_exact listed.intact taken
  have valid := listed.valid.rearrange same
  have keeps {place : PC} (here : state.status thread = .running place) (also : place.inserted = some new) :
      new ∈ next.data.threadMap := by
    obtain kept | ⟨pick, rfl, removes⟩ := exact_keeps taken (listed.creating thread place new here also)
    · exact kept
    · -- A thread that is not started has no cleanup.
      have started := ((listed.valid.at removes).own new rfl).started
      have creating := (listed.valid.at here).place
      cases place <;> simp only [PC.inserted, Option.some.injEq, reduceCtorEq] at also
      all_goals exact absurd (also ▸ started) creating.1.notStarted
  have inner : pc.inner = true := by
    cases pc <;> simp only [PC.inserted, reduceCtorEq] at inserted <;> rfl
  obtain stays | ⟨pick, place, rfl, here, ran, -⟩ := valid.arrives stepped inner there
  · exact keeps stays inserted
  · obtain also | now := inserted_from ran inserted
    · exact keeps here also
    · exact now

theorem Listed.started_preserved (listed : Listed state) (taken : exactProgram.step state action = some next)
    {own : Nat} {pc : PC} (there : (next.status (.library own)).place = some pc) (registered : pc.removed = false) :
    own ∈ next.data.threadMap := by
  obtain ⟨threadMap, same, stepped⟩ := step_of_exact listed.intact taken
  have valid := listed.valid.rearrange same
  have keeps (member : own ∈ state.data.threadMap) : own ∈ next.data.threadMap := by
    obtain kept | ⟨pick, rfl, removes⟩ := exact_keeps taken member
    · exact kept
    · obtain ⟨_, -, rfl⟩ := exact_removes removes taken
      simp only [State.goto, Function.update_self, Status.place, Option.some.injEq] at there
      subst there
      exact absurd registered Bool.noConfusion
  have before := listed.started own
  cases arrival stepped (.library own) with
  | stays unchanged =>
      rw [unchanged] at there
      exact keeps (before pc there registered)
  | @instr pick place run here _ ran =>
      refine keeps (before place (by rw [show state.status _ = _ from here]; rfl) ?_)
      by_contra removed
      obtain ⟨after, further, also⟩ := removed_kept here (by simpa using removed) stepped
      rw [further] at there
      cases there
      simp [registered] at also
  | born _ _ here instr =>
      obtain ⟨args, rfl, child, -⟩ := code_start instr
      cases child
      exact keeps (listed.creating _ _ args.thread here rfl)
  | resume _ here _ _ resumed =>
      rw [resumed] at there
      exact keeps (before pc (by rw [show state.status _ = _ from here]; exact there) registered)
  | call _ here chosen =>
      obtain ⟨_, -, -, -, rfl | ⟨rfl, -⟩⟩ | ⟨rfl, -⟩ := calls_cases chosen <;>
        exact keeps (before _ (by rw [show state.status _ = _ from here]; rfl) rfl)
  | stop _ here _ point =>
      obtain rfl : _ = PC.caller := by simpa [program] using point
      exact keeps (before _ (by rw [show state.status _ = _ from here]; rfl) rfl)
  | abandon _ here =>
      obtain ⟨-, -, -, rfl⟩ | ⟨_, -, -, -, rfl | rfl⟩ := (valid.waits here).2 <;>
        exact keeps (before _ (by rw [show state.status _ = _ from here]; rfl) rfl)

theorem Listed.preserved (listed : Listed state) (taken : exactProgram.step state action = some next) : Listed next :=
  ⟨listed.valid.exact_preserved listed.intact taken, exact_intact listed.intact taken,
    fun _ _ _ there inserted => listed.creating_preserved taken there inserted,
    fun _ _ there registered => listed.started_preserved taken there registered⟩

theorem initial_listed : Listed initial where
  valid := initial_valid
  intact := rfl
  creating thread pc new there inserted := by
    cases thread <;> cases there <;> cases inserted
  started own pc there := by cases there

/-- A lookup finds a thread from its start to its own removal, and no further. -/
theorem lookup_exact (reached : Reachable exactProgram.step initial state) {own : Nat} {pc : PC}
    (here : (state.status (.library own)).place = some pc) : state.data.find own = true ↔ pc.removed = false := by
  have listed := reached.invariant Listed initial_listed fun _ _ _ listed _ taken => listed.preserved taken
  have mine := (listed.valid.at_place here).own own rfl
  rw [Data.find_iff]
  constructor
  · rintro ⟨member, -⟩
    by_contra removed
    exact mine.removed (by simpa using removed) member
  · intro registered
    have present : pc ≠ .finished := fun ended => by simp [ended, PC.removed] at registered
    exact ⟨listed.started own pc here registered, mine.stored present⟩

end

end ZSystem.Thread
