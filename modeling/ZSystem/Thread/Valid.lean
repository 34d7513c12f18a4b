import ZSystem.Thread.Writes

set_option autoImplicit false

/-!
# The outline is an invariant

Every step of every thread keeps what all threads know.
-/

namespace ZSystem.Thread

open Posix Transition

/-! ## What a step does to the other threads -/

/-- What a thread may rely on when `actor` takes a step. -/
structure Interference (actor : ThreadId) (data after : Data) : Prop where
  frame : ∀ other number, other ≠ actor -> data.Concerns number other -> Frame number data after
  grows : Grows data after

section Interference

variable {data after : Data} {actor other thread : ThreadId} {pc next : PC} {pick : Nat}
  {status : Status Obj PC}

theorem Interference.refl (actor : ThreadId) (data : Data) : Interference actor data data :=
  ⟨fun _ number _ _ => .refl number data, .refl data⟩

theorem Writes.interference (writes : Writes data thread pc after) (here : At data thread pc) :
    Interference thread data after :=
  ⟨fun _ _ different concerns => writes.frame fun subject =>
    different (concerns.unique (here.concerns subject)), writes.grows here.place⟩

theorem issue_parts {args : Create} (issued : issue thread args data = some after) :
    data.creator args.thread = none ∧
      after = { data with creator := Function.update data.creator args.thread (some thread) } := by
  simpa [issue, eq_comm] using issued

theorem At.stable (valid : DataValid data) (here : At data other pc) (different : other ≠ actor)
    (interference : Interference actor data after)
    (threadMap : pc.holdsMap = true -> after.threadMap = data.threadMap) : At after other pc := by
  have frame (number : Nat) := interference.frame other number different
  refine ⟨here.placed, here.place.stable valid frame interference.grows threadMap, fun own same => ?_⟩
  have mine := here.own own same
  exact mine.stable (frame own (same ▸ mine.concerns)) interference.grows

theorem Waits.place {cv mutex : Obj} (waits : Waits data thread cv mutex pc) : pc.holdsMap = false := by
  obtain ⟨-, -, -, rfl⟩ | ⟨handle, -, -, -, rfl | rfl⟩ := waits <;> rfl

theorem Waits.stable {cv mutex : Obj} (waits : Waits data thread cv mutex pc) (grows : Grows data after) :
    Waits after thread cv mutex pc := by
  rcases waits with main | ⟨handle, cv, mutex, ⟨gated, executed, awaited⟩, goes⟩
  · exact Or.inl main
  · exact Or.inr ⟨handle, cv, mutex,
      ⟨grows.gated gated, grows.executed handle executed, grows.awaited handle gated awaited⟩, goes⟩

theorem HoldsAt.stable (valid : DataValid data) (holds : HoldsAt data other status)
    (different : other ≠ actor) (interference : Interference actor data after)
    (threadMap : ∀ pc, status = .running pc -> pc.holdsMap = true -> after.threadMap = data.threadMap)
    (unborn : status = .absent -> ∀ own, other = .library own -> own ∈ after.started ->
      own ∈ data.started) :
    HoldsAt after other status := by
  cases status with
  | absent =>
      obtain ⟨own, same, new⟩ := holds
      exact ⟨own, same, fun started => new (unborn rfl own same started)⟩
  | running pc => exact At.stable valid holds different interference (threadMap pc rfl)
  | waiting cv mutex pc =>
      obtain ⟨here, waits⟩ := holds
      exact ⟨here.stable valid different interference (by simp [waits.place]),
        waits.stable interference.grows⟩

end Interference

/-! ## Every step keeps the outline -/

section Instr

variable {state : State} {after : Data} {thread : ThreadId} {pc next : PC} {pick : Nat}
  {status : Status Obj PC}

theorem Writes.creator {data : Data} (writes : Writes data thread pc after) :
    after.creator = data.creator := by
  cases writes with
  | unregister own removed =>
      obtain ⟨threadMap, dangling, rfl, -, -⟩ := unregister_parts removed
      rfl
  | _ => rfl

theorem code_start {child : ThreadId} {first place : PC} (instr : code thread pc = .start child first place) :
    ∃ args, pc = .createStart args ∧ child = .library args.thread ∧ first = .startLock := by
  cases pc <;> cases thread <;> simp [code, goTo, branch, lookUp, withRecord, inExecute] at instr
  all_goals exact ⟨_, rfl, instr.1.symm, instr.2.1.symm⟩

theorem code_wait {cv mutex : Obj} {place : PC} (instr : code thread pc = .wait cv mutex place) :
    (thread = .main ∧ pc = .mainCond ∧ cv = .threadsRunningCv ∧ mutex = .threadsRunningMutex ∧
      place = .mainUnlock) ∨
    ∃ handle, pc = .waitCond handle ∧ cv = .waitingThreadsCv handle ∧
      mutex = .waitingThreadsMutex handle ∧ place = .waitUnlockEntry handle := by
  cases pc <;> cases thread <;> simp [code, goTo, branch, lookUp, withRecord, inExecute] at instr <;>
    simp [instr]

theorem code_awakes {cv : Obj} {place : PC}
    (instr : code thread pc = .signal cv place ∨ code thread pc = .broadcast cv place) :
    ∃ own, thread = .library own ∧ (pc = .cleanupSignal ∧ cv = .threadsRunningCv ∨
      pc = .cleanupBroadcast ∧ cv = .waitingThreadsCv own) := by
  cases pc <;> cases thread <;> simp [code, goTo, branch, lookUp, withRecord, inExecute] at instr <;>
    simp [instr]

theorem executed_of_unlock {data : Data} {handle : Nat} {place : PC} (here : At data thread pc)
    (instr : code thread pc = .unlock (.waitingThreadsMutex handle) place) :
    pc = .executeUnlockGate handle ∨ data.executed handle ≠ 0 := by
  cases pc <;> cases thread <;> simp [code, goTo, branch, lookUp, withRecord, inExecute] at instr
  case executeUnlockGate.main | executeUnlockGate.library | executeUnlockGate.outside =>
    exact Or.inl (by simp [instr.1])
  case waitUnlockEntry.main | waitUnlockEntry.library | waitUnlockEntry.outside =>
    exact Or.inr (instr.1 ▸ here.place.2.1)
  all_goals exact Or.inr (instr.1 ▸ (here.own _ rfl).executed PC.noConfusion)

theorem Writes.gated {data : Data} (writes : Writes data thread pc after) {handle : Nat}
    (member : handle ∈ after.gated) :
    handle ∈ data.gated ∨ ∃ args, pc = .createLockGate args ∧ args.thread = handle := by
  cases writes with
  | gate thread args =>
      rcases Finset.mem_insert.mp member with rfl | old
      · exact Or.inr ⟨args, rfl, rfl⟩
      · exact Or.inl old
  | unregister own removed =>
      obtain ⟨threadMap, dangling, rfl, -, -⟩ := unregister_parts removed
      exact Or.inl member
  | _ => exact Or.inl member

theorem Writes.started {data : Data} (writes : Writes data thread pc after) {own : Nat}
    (member : own ∈ after.started) :
    own ∈ data.started ∨ ∃ args, pc = .createStart args ∧ args.thread = own := by
  cases writes with
  | start thread args =>
      rcases Finset.mem_insert.mp member with rfl | old
      · exact Or.inr ⟨args, rfl, rfl⟩
      · exact Or.inl old
  | unregister own removed =>
      obtain ⟨threadMap, dangling, rfl, -, -⟩ := unregister_parts removed
      exact Or.inl member
  | _ => exact Or.inl member

theorem Gated.instr (gated : Gated state.data state.owner) (here : At state.data thread pc)
    (enabled : (code thread pc).Enabled state)
    (ran : program.outcome thread pick pc state.data = some (after, status)) :
    Gated after ((code thread pc).owners thread state.owner) := by
  intro handle member closed
  have changes := outcome_writes ran
  have creator : after.creator = state.data.creator := by
    rcases changes with rfl | writes
    · rfl
    · exact writes.creator
  have before : state.data.executed handle = 0 := by
    by_contra opened
    rcases changes with rfl | writes
    · exact opened closed
    · exact (writes.grows here.place).executed handle opened closed
  have old : handle ∈ state.data.gated ∨ ∃ args, pc = .createLockGate args ∧ args.thread = handle := by
    rcases changes with rfl | writes
    · exact Or.inl member
    · exact writes.gated member
  rcases old with old | ⟨args, rfl, rfl⟩
  · obtain ⟨owner, known⟩ := gated handle old before
    have keeps : (code thread pc).owners thread state.owner (.waitingThreadsMutex handle) =
        state.owner (.waitingThreadsMutex handle) := by
      cases instr : code thread pc with
      | lock mutex place =>
          have differ : Obj.waitingThreadsMutex handle ≠ mutex := fun same => by
            simp only [instr, Instr.Enabled, ← same, owner] at enabled
            exact known enabled
          simp [Instr.owners, differ]
      | unlock mutex place =>
          have differ : Obj.waitingThreadsMutex handle ≠ mutex := fun same => by
            rcases executed_of_unlock here (same ▸ instr) with rfl | opened
            · simp [Program.outcome, program, code, Instr.result, note] at ran
              simp [← ran.1] at closed
            · exact opened before
          simp [Instr.owners, differ]
      | wait cv mutex place =>
          have differ : Obj.waitingThreadsMutex handle ≠ mutex := fun same => by
            rcases code_wait instr with ⟨-, -, -, rfl, -⟩ | ⟨other, rfl, -, rfl, -⟩
            · cases same
            · cases same
              exact here.place.2.1 before
          simp [Instr.owners, differ]
      | _ => rfl
    exact creator ▸ ⟨keeps.trans owner, known⟩
  · have mine := here.place.1.mine
    exact creator ▸ ⟨by simp [code, Instr.owners, mine], by simp [mine]⟩

end Instr

theorem initial_valid : Valid initial where
  map := by
    constructor
    · intro thread
      cases thread <;> simp [initial, PC.holdsMap]
    · intro thread
      cases thread <;> simp [initial]
  running := by
    constructor
    · intro thread
      cases thread <;> simp [initial, PC.holdsRunning]
    · intro thread
      cases thread <;> simp [initial]
  asleep := ⟨by simp [initial], by simp [initial]⟩
  data := ⟨rfl, List.nodup_nil, by simp [initial], by simp [initial], by simp [initial]⟩
  gated := by simp [Gated, initial]
  outline thread := by
    cases thread with
    | main => exact ⟨rfl, trivial, by simp⟩
    | library own => exact ⟨own, rfl, by simp [initial]⟩
    | outside number => exact ⟨by simp [Placed], trivial, by simp⟩

section Step

variable {state next : State} {action : Action}

theorem Valid.opened (valid : Valid state) {thread : ThreadId} {pc : PC}
    (enabled : (code thread pc).Enabled state) (handle : Nat) (place : PC)
    (instr : code thread pc = .lock (.waitingThreadsMutex handle) place)
    (member : handle ∈ state.data.gated) : state.data.executed handle ≠ 0 := fun closed => by
  obtain ⟨owner, known⟩ := valid.gated handle member closed
  simp only [instr, Instr.Enabled, owner] at enabled
  exact known enabled

theorem Valid.at (valid : Valid state) {thread : ThreadId} {pc : PC}
    (here : state.status thread = .running pc) : At state.data thread pc := by
  have holds := valid.outline thread
  rwa [here] at holds

theorem Valid.waits (valid : Valid state) {thread : ThreadId} {cv mutex : Obj} {pc : PC}
    (here : state.status thread = .waiting cv mutex pc) :
    At state.data thread pc ∧ Waits state.data thread cv mutex pc := by
  have holds := valid.outline thread
  rwa [here] at holds

theorem Valid.map_alone (valid : Valid state) {one two : ThreadId} {pc place : PC}
    (here : state.status one = .running pc) (there : state.status two = .running place)
    (holds : pc.holdsMap = true) (also : place.holdsMap = true) : one = two :=
  Option.some.inj (((valid.map.owns here).mpr holds).symm.trans ((valid.map.owns there).mpr also))

theorem Valid.instr (valid : Valid state) {thread : ThreadId} {pick : Nat} {pc : PC} {after : State}
    (here : state.status thread = .running pc)
    (performed : program.perform thread pick state (code thread pc) = some after) :
    ∀ other, HoldsAt (note thread pc after.data) other (after.status other) := by
  have known := valid.at here
  have taken : step state (.run thread pick) =
      some { after with data := note thread pc after.data } := by
    simp only [step, Program.step, here]
    change Option.map _ (program.perform thread pick state (code thread pc)) = _
    rw [performed]
    rfl
  obtain ⟨enabled, ran, -, -⟩ := outcome_parts performed
  have opened := valid.opened enabled
  have changes := outcome_writes ran
  have interference : Interference thread state.data (note thread pc after.data) := by
    rcases changes with same | writes
    · exact same ▸ .refl thread _
    · exact writes.interference known
  have unlocked (unheld : pc.holdsMap = false) :
      (note thread pc after.data).threadMap = state.data.threadMap := by
    rcases changes with same | writes
    · exact congrArg Data.threadMap same
    · exact writes.threadMap unheld
  refine outline_step taken valid.outline ?_ (fun other different stays holds => ?_)
    (fun child _ pc' first place run there instr => ?_)
  · have reaches (next : PC) (goes : (after.status thread).place = some next) :
        At (note thread pc after.data) thread next :=
      ⟨known.placed.step ran goes, known.place.step valid.data opened ran goes, fun own same => by
        subst same
        exact Own.step known valid.data opened ran goes⟩
    change HoldsAt _ thread (after.status thread)
    rcases outcome_status ran with ⟨next, running⟩ | ⟨cv, mutex, next, waiting, instr⟩
    · rw [running]
      exact reaches next (by simp [running, Status.place])
    · rw [waiting]
      have there := reaches next (by simp [waiting, Status.place])
      rcases code_wait instr with ⟨main, -, cv, mutex, goes⟩ | ⟨handle, -, cv, mutex, rfl⟩
      · exact ⟨there, Or.inl ⟨main, cv, mutex, goes⟩⟩
      · exact ⟨there, Or.inr ⟨handle, cv, mutex, there.place, Or.inl rfl⟩⟩
  · refine HoldsAt.stable valid.data holds different interference (fun place there holds => unlocked ?_)
      (fun absent own same started => ?_)
    · by_contra held
      exact different (valid.map_alone there here holds (by simpa using held))
    · by_contra new
      -- Only `pthread_create` adds to the started threads, and the new thread is not absent then.
      rcases changes with unchanged | writes
      · exact new (unchanged ▸ started)
      · obtain old | ⟨args, rfl, rfl⟩ := writes.started started
        · exact new old
        · obtain ⟨-, _, _, -, -, -, statuses, -⟩ := perform_parts performed
          simp only [Act.actor] at different
          change after.status other = state.status other at stays
          rw [absent, statuses, same] at stays
          simp [code, Instr.spawned, ← same, different] at stays
  · cases here.symm.trans there
    obtain ⟨args, rfl, rfl, rfl⟩ := code_start instr
    obtain ⟨creating, stored⟩ := known.place
    simp only [Program.outcome, program, code, Instr.result, Option.map_some, Option.some.injEq,
      Prod.mk.injEq] at ran
    change HoldsAt (note thread (.createStart args) after.data) _ _
    rw [← ran.1]
    refine ⟨rfl, trivial, fun own same => ?_⟩
    cases same
    exact ⟨Finset.mem_insert_self _ _, creating.gated.mpr trivial, fun gone => absurd gone Bool.false_ne_true,
      ⟨fun _ => rfl, fun _ => creating.counted.mpr trivial⟩, fun _ => stored, fun start => absurd rfl start⟩

theorem Own.moves {data : Data} {own : Nat} {pc place : PC} (mine : Own data own pc)
    (removed : place.removed = pc.removed) (uncounted : place.uncounted = pc.uncounted)
    (present : pc ≠ .finished) (opened : pc ≠ .startLock) : Own data own place :=
  ⟨mine.started, mine.gated, removed ▸ mine.removed, uncounted ▸ mine.counted,
    fun _ => mine.stored present, fun _ => mine.executed opened⟩

theorem issue_interference {data after : Data} {thread : ThreadId} {args : Create}
    (issued : issue thread args data = some after) (actor : ThreadId) :
    Interference actor data after := by
  obtain ⟨unused, rfl⟩ := issue_parts issued
  refine ⟨fun _ number _ _ => ⟨fun used => ?_, .rfl, .rfl, .rfl, id, id, id⟩,
    ⟨fun _ => id, fun _ => id, fun _ => id, fun _ _ => id⟩⟩
  have differ : number ≠ args.thread := fun same => used (same ▸ unused)
  simp [differ]

theorem Valid.others (valid : Valid state) (taken : step state action = some next)
    (interference : Interference action.actor state.data next.data)
    (unchanged : next.data.threadMap = state.data.threadMap ∧ next.data.started = state.data.started)
    (actor : HoldsAt next.data action.actor (next.status action.actor))
    (noInstr : ∀ pick pc, action = .run action.actor pick -> state.status action.actor ≠ .running pc) :
    ∀ thread, HoldsAt next.data thread (next.status thread) := by
  refine outline_step taken valid.outline actor (fun other different _ holds => ?_)
    fun _ pick pc _ _ run here _ => absurd here (noInstr pick pc run)
  exact HoldsAt.stable valid.data holds different interference (fun _ _ _ => unchanged.1)
    fun _ _ _ started => unchanged.2 ▸ started

theorem Valid.call (valid : Valid state) {thread : ThreadId} {pc place : PC} {data : Data}
    (here : state.status thread = .running pc)
    (chosen : calls thread pc place state.data = some data) :
    DataValid data ∧ Gated data state.owner ∧
      ∀ other, HoldsAt data other (Function.update state.status thread (.running place) other) := by
  have taken : step state (.call thread place) =
      some ({ state with data := data }.goto thread place) := by
    simp [step, Program.step, here, program, chosen]
  have known := valid.at here
  rcases calls_cases chosen with ⟨args, rfl, unused, rfl, from_⟩ | ⟨rfl, rfl, goes⟩
  · have interference : Interference thread state.data
        { state.data with creator := Function.update state.data.creator args.thread (some thread) } :=
      issue_interference (show issue thread args state.data = _ by simp [issue, unused]) thread
    obtain ⟨notStarted, notCounted, notGated⟩ := valid.data.unused _ unused
    refine ⟨⟨valid.data.card, valid.data.nodup, valid.data.registered, valid.data.executed,
      fun number free => ?_⟩,
      fun handle member closed => ?_, valid.others taken interference ⟨rfl, rfl⟩ ?_ (by simp)⟩
    · have differ : number ≠ args.thread := fun same => by simp [same] at free
      exact valid.data.unused number (by simpa [differ] using free)
    · have differ : handle ≠ args.thread := fun same => notGated (same ▸ member)
      simpa [differ] using valid.gated handle member closed
    · simp only [Act.actor, State.goto, Function.update_self]
      refine ⟨fun main => ?_, ?_, fun own same => ?_⟩
      · rcases from_ with rfl | ⟨-, noAbort⟩
        · exact absurd main known.placed
        · exact noAbort
      · exact ⟨by simp, notStarted, by simpa using notCounted, by simpa using notGated⟩
      · have mine := known.own own same
        have differ : own ≠ args.thread := fun same => notStarted (same ▸ mine.started)
        rcases from_ with rfl | ⟨rfl, -⟩ <;>
          exact Own.moves ⟨mine.started, mine.gated, mine.removed, mine.counted, mine.stored,
            mine.executed⟩ rfl rfl (by simp) (by simp)
  · refine ⟨valid.data, valid.gated, valid.others taken (.refl thread _) ⟨rfl, rfl⟩ ?_ (by simp)⟩
    simp only [Act.actor, State.goto, Function.update_self]
    have away : thread ≠ .main := known.placed
    obtain ⟨handle, rfl | rfl | rfl | rfl⟩ | ⟨rfl, library⟩ := goes
    · exact ⟨trivial, trivial, fun own same => (known.own own same).moves rfl rfl (by simp) (by simp)⟩
    · exact ⟨away, trivial, fun own same => (known.own own same).moves rfl rfl (by simp) (by simp)⟩
    · exact ⟨away, trivial, fun own same => (known.own own same).moves rfl rfl (by simp) (by simp)⟩
    · exact ⟨away, trivial, fun own same => (known.own own same).moves rfl rfl (by simp) (by simp)⟩
    · exact ⟨library, trivial, fun own same => (known.own own same).moves rfl rfl (by simp) (by simp)⟩

theorem Valid.preserved (valid : Valid state) (taken : step state action = some next) : Valid next := by
  have map := map_guards.step valid.map (by simp) taken
  have running := running_guards.step valid.running (by simp) taken
  have asleep := valid.asleep.step taken
  cases step_cases taken with
  | @instr thread pick pc after here performed =>
      have known := valid.at here
      obtain ⟨enabled, ran, owner, -⟩ := outcome_parts performed
      have outline := valid.instr here performed
      refine ⟨map, running, asleep, ?_, ?_, outline⟩
      · change DataValid (program.note thread pc after.data)
        rcases outcome_writes ran with same | writes
        · exact same ▸ valid.data
        · exact writes.valid known valid.data
      · have gated := valid.gated.instr known enabled ran
        change Gated (note thread pc after.data) after.owner
        exact owner ▸ gated
  | @resume thread pick cv mutex pc here awake free =>
      obtain ⟨known, -⟩ := valid.waits here
      refine ⟨map, running, asleep, valid.data, fun handle member closed => ?_,
        valid.others taken (.refl thread _) ⟨rfl, rfl⟩
          (by simpa [State.goto, Act.actor, HoldsAt] using known)
          (by simp [Act.actor, here])⟩
      obtain ⟨owner, used⟩ := valid.gated handle member closed
      have differ : Obj.waitingThreadsMutex handle ≠ mutex := fun same =>
        used (owner.symm.trans (same ▸ free))
      simpa [State.goto, differ] using ⟨owner, used⟩
  | @call thread pc place data here chosen =>
      obtain ⟨data, gated, outline⟩ := valid.call here chosen
      exact ⟨map, running, asleep, data, gated, outline⟩
  | wake here member => exact ⟨map, running, asleep, valid.data, valid.gated, valid.outline⟩
  | @stop thread pc place here handled point =>
      obtain rfl : pc = .caller := by simpa [program] using point
      obtain ⟨rfl, library⟩ := handler_place handled
      have known := valid.at here
      refine ⟨map, running, asleep, valid.data, valid.gated,
        valid.others taken (.refl thread _) ⟨rfl, rfl⟩ ?_ (by simp)⟩
      simp only [Act.actor, State.goto, Function.update_self]
      exact ⟨library, trivial, fun own same => (known.own own same).moves rfl rfl (by simp) (by simp)⟩
  | @abandon thread cv mutex pc place here handled =>
      obtain ⟨rfl, library⟩ := handler_place handled
      obtain ⟨known, waits⟩ := valid.waits here
      refine ⟨map, running, asleep, valid.data, valid.gated,
        valid.others taken (.refl thread _) ⟨rfl, rfl⟩ ?_ (by simp)⟩
      simp only [Act.actor, Function.update_self]
      rcases waits with ⟨rfl, -⟩ | ⟨handle, cv, mutex, place, goes⟩
      · simp [ThreadId.isLibrary] at library
      · refine ⟨⟨library, trivial, fun own same => ?_⟩, Or.inr ⟨handle, cv, mutex, place, Or.inr rfl⟩⟩
        rcases goes with rfl | rfl <;>
          exact (known.own own same).moves rfl rfl (by simp) (by simp)

theorem Valid.grows (valid : Valid state) (taken : step state action = some next) :
    Grows state.data next.data := by
  cases step_cases taken with
  | @instr thread pick pc after here performed =>
      obtain ⟨-, ran, -, -⟩ := outcome_parts performed
      change Grows state.data (program.note thread pc after.data)
      rcases outcome_writes ran with same | writes
      · exact same ▸ .refl _
      · exact writes.grows (valid.at here).place
  | @call thread pc place data here chosen =>
      change Grows state.data data
      rcases calls_cases chosen with ⟨args, -, -, rfl, -⟩ | ⟨-, rfl, -⟩
      · exact ⟨fun _ => id, fun _ => id, fun _ => id, fun _ _ => id⟩
      · exact .refl _
  | _ => exact .refl _

def PC.inner : PC -> Bool
  | .startLock | .mainUnlock | .waitUnlockEntry _ => false
  | pc => !pc.entrance

theorem Valid.arrives (valid : Valid state) (taken : step state action = some next)
    {thread : ThreadId} {place : PC} (inner : place.inner = true)
    (there : next.status thread = .running place) :
    state.status thread = .running place ∨
      ∃ pick pc, action = .run thread pick ∧ state.status thread = .running pc ∧
        program.outcome thread pick pc state.data = some (next.data, .running place) ∧
        next.sleepers = (code thread pc).asleep thread pick state.sleepers ∧
        Source state.data thread pc (.running place) := by
  cases arrival taken thread with
  | stays same => exact Or.inl (same ▸ there)
  | instr run here _ ran _ sleepers =>
      rw [there] at ran
      exact Or.inr ⟨_, _, run, here, ran, sleepers, outcome_source ran⟩
  | born _ _ _ instr _ started =>
      obtain ⟨_, _, _, rfl⟩ := code_start instr
      cases there.symm.trans started
      simp [PC.inner] at inner
  | resume _ here _ _ resumed =>
      cases there.symm.trans resumed
      obtain ⟨-, -, -, rfl⟩ | ⟨handle, -, -, -, rfl | rfl⟩ := (valid.waits here).2 <;>
        simp [PC.inner, PC.entrance] at inner
  | call _ _ chosen called =>
      cases there.symm.trans called
      obtain ⟨_, rfl, -⟩ | ⟨-, -, ⟨_, rfl | rfl | rfl | rfl⟩ | ⟨rfl, -⟩⟩ := calls_cases chosen <;>
        simp [PC.inner, PC.entrance] at inner
  | stop _ _ handled _ stopped =>
      cases there.symm.trans stopped
      obtain ⟨rfl, -⟩ := handler_place handled
      simp [PC.inner, PC.entrance] at inner
  | abandon _ _ _ abandoned => simp [there] at abandoned

theorem Valid.running_alone (valid : Valid state) {one two : ThreadId} {pc place : PC}
    (here : state.status one = .running pc) (there : state.status two = .running place)
    (holds : pc.holdsRunning = true) (also : place.holdsRunning = true) : one = two :=
  Option.some.inj
    (((valid.running.owns here).mpr holds).symm.trans ((valid.running.owns there).mpr also))

theorem counts (taken : step state action = some next) :
    next.data.threadsRunning = state.data.threadsRunning ∨
    (∃ thread pick args, action = .run thread pick ∧
      state.status thread = .running (.createIncrement args) ∧
      next.data.threadsRunning = state.data.threadsRunning + 1) ∨
    ∃ own pick, action = .run (.library own) pick ∧
      state.status (.library own) = .running .cleanupDecrement ∧
      next.data.threadsRunning = state.data.threadsRunning - 1 := by
  cases step_cases taken with
  | @instr thread pick pc after here performed =>
      obtain ⟨-, ran, -, -⟩ := outcome_parts performed
      change (program.note thread pc after.data).threadsRunning = _ ∨ _
      rcases outcome_writes ran with same | writes
      · exact Or.inl (by rw [same])
      · generalize program.note thread pc after.data = result at writes
        cases writes with
        | count thread args => exact Or.inr (Or.inl ⟨thread, pick, args, rfl, here, rfl⟩)
        | uncount own => exact Or.inr (Or.inr ⟨own, pick, rfl, here, rfl⟩)
        | unregister own removed =>
            obtain ⟨threadMap, dangling, rfl, -, -⟩ := unregister_parts removed
            exact Or.inl rfl
        | _ => exact Or.inl rfl
  | @call thread pc place data here chosen =>
      change data.threadsRunning = _ ∨ _
      obtain ⟨_, -, -, rfl, -⟩ | ⟨-, rfl, -⟩ := calls_cases chosen <;> exact Or.inl rfl
  | _ => exact Or.inl rfl

theorem threadMap_next (taken : step state action = some next) :
    (next.data.threadMap = state.data.threadMap ∧ next.data.dangling = state.data.dangling) ∨
    (∃ thread pick args, action = .run thread pick ∧ state.status thread = .running (.createInsert args) ∧
      next.data.threadMap = args.thread :: state.data.threadMap ∧ next.data.dangling = state.data.dangling) ∨
    ∃ own pick, action = .run (.library own) pick ∧ state.status (.library own) = .running .cleanupRemove ∧
      state.data.unregister own = some next.data := by
  cases step_cases taken with
  | @instr thread pick pc after here performed =>
      obtain ⟨-, ran, -, -⟩ := outcome_parts performed
      change ((program.note thread pc after.data).threadMap = _ ∧ (program.note thread pc after.data).dangling = _) ∨
        (∃ _ _ _, _ ∧ _ ∧ (program.note thread pc after.data).threadMap = _ ∧
          (program.note thread pc after.data).dangling = _) ∨
        ∃ _ _, _ ∧ _ ∧ _ = some (program.note thread pc after.data)
      rcases outcome_writes ran with same | writes
      · exact Or.inl (by simp [same])
      · generalize program.note thread pc after.data = result at writes ⊢
        cases writes with
        | register thread args => exact Or.inr (Or.inl ⟨thread, pick, args, rfl, here, rfl, rfl⟩)
        | unregister own removed => exact Or.inr (Or.inr ⟨own, pick, rfl, here, removed⟩)
        | _ => exact Or.inl ⟨rfl, rfl⟩
  | @call thread pc place data here chosen =>
      change (data.threadMap = _ ∧ data.dangling = _) ∨ _
      obtain ⟨_, -, -, rfl, -⟩ | ⟨-, rfl, -⟩ := calls_cases chosen <;> exact Or.inl ⟨rfl, rfl⟩
  | _ => exact Or.inl ⟨rfl, rfl⟩

/-- A handle that is stored some other time does no harm. -/
theorem Valid.stored (valid : Valid state) (thread : Nat) :
    Valid { state with data := state.data.update thread fun record => { record with handleStored := true } } := by
  have present (number : Nat) (known : (state.data.record number).isSome) :
      ((state.data.update thread fun record => { record with handleStored := true }).record number).isSome := by
    rw [update_record]
    split_ifs with same
    · simpa [← same] using known
    · exact known
  have frame (number : Nat) : Frame number state.data
      (state.data.update thread fun record => { record with handleStored := true }) := by
    refine ⟨fun _ => rfl, .rfl, .rfl, .rfl, present number, fun ⟨record, read, stored⟩ => ?_, id⟩
    by_cases same : number = thread
    · subst same
      exact ⟨{ record with handleStored := true }, by simp [read], rfl⟩
    · exact ⟨record, by simp [same, read], stored⟩
  have grows : Grows state.data
      (state.data.update thread fun record => { record with handleStored := true }) := by
    refine ⟨fun _ => id, fun _ => id, fun _ => id, fun number _ awaited record read => ?_⟩
    rw [update_record] at read
    split_ifs at read with same
    · obtain ⟨before, known, rfl⟩ := Option.map_eq_some_iff.mp read
      exact awaited before (same ▸ known)
    · exact awaited record read
  refine ⟨valid.map, valid.running, valid.asleep, ?_, valid.gated, fun other => ?_⟩
  · exact ⟨valid.data.card, valid.data.nodup, fun handle member =>
      (valid.data.registered handle member).imp_right (present handle), valid.data.executed, valid.data.unused⟩
  · obtain ⟨actor, different⟩ : ∃ actor : ThreadId, other ≠ actor := by
      cases other with
      | main => exact ⟨.outside 0, by simp⟩
      | library | outside => exact ⟨.main, by simp⟩
    exact (valid.outline other).stable valid.data different ⟨fun _ number _ _ => frame number, grows⟩
      (fun _ _ _ => rfl) fun _ _ _ started => started

theorem valid_of_reach {allowed : State -> Action -> Prop}
    (reached : Reach step allowed initial state) : Valid state :=
  reached.invariant Valid initial_valid fun _ _ _ valid _ taken => valid.preserved taken

end Step

end ZSystem.Thread
