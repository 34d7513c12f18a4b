import ZSystem.Thread.Cancel
import ZSystem.Thread.Returns

set_option autoImplicit false

/-!
# Threads that nobody cancels

`zs__thread_abort` calls the abort callback of a thread that has one. A thread with a run function and an
abort callback is never cancelled, then, and it ends by returning from its run function.
-/

namespace ZSystem.Thread

open Posix Transition

/-- The call of `zs__thread_create` that a thread is in. -/
def PC.creates : PC -> Option Create
  | .createLockRunning args | .createIncrement args | .createUnlockRunning args | .createInit args
  | .createLockGate args | .createLockMap args | .createInsert args | .createUnlockMap args
  | .createHandle args | .createStart args => some args
  | _ => none

/-- The threads of `hosts` have a run function and an abort callback. -/
structure Immune (hosts : Nat -> Prop) (state : State) : Prop where
  valid : Valid state
  made : ∀ handle, hosts handle -> state.data.creator handle ≠ none
  creating : ∀ thread pc args, state.status thread = .running pc -> pc.creates = some args ->
    hosts args.thread -> args.run = true ∧ args.abort = true
  record : ∀ handle record, state.data.record handle = some record -> state.data.creator handle ≠ none ∧
    (hosts handle -> record.run = true ∧ record.abort = true)
  cancel : ∀ thread handle, state.status thread = .running (.abortCancel handle) ->
    state.data.creator handle ≠ none ∧ ¬ hosts handle
  cancelled : ∀ handle, state.cancelled (.library handle) = true ->
    state.data.creator handle ≠ none ∧ ¬ hosts handle
  abandoned : ∀ handle cv mutex, hosts handle ->
    state.status (.library handle) ≠ .waiting cv mutex .cleanupLockMap

section

variable {hosts : Nat -> Prop} {state next : State} {action : Action} {handle : Nat} {thread : ThreadId} {pc place : PC}
  {data after : Data} {pick : Nat} {status : Status Obj PC}

theorem creates_source (ran : program.outcome thread pick pc data = some (after, .running place)) {args : Create}
    (creates : place.creates = some args) : pc.creates = some args := by
  cases pc <;> cases thread <;>
    simp only [Program.outcome, program, code, Instr.result, goTo, branch, lookUp, withRecord, inExecute,
      afterCreate, afterExecute, Option.map_some, Option.map_none, Option.some.injEq, Prod.mk.injEq,
      reduceCtorEq, and_false, Status.running.injEq] at ran
  case cleanupRemove.library =>
    simp only [Option.map_map, Option.map_eq_some_iff, Function.comp_apply, Prod.mk.injEq,
      Status.running.injEq] at ran
    obtain ⟨_, -, -, rfl⟩ := ran
    cases creates
  all_goals
    obtain ⟨-, rfl⟩ := ran
    first
      | exact creates
      | cases creates
      | (split_ifs at creates <;> cases creates)

theorem abort_source (ran : program.outcome thread pick pc data = some (after, .running place))
    (goes : place = .abortCallback handle ∨ place = .abortCancel handle) :
    pc = .abortFind handle ∧ data.find handle = true ∧
      (place = .abortCancel handle -> (data.record handle).map Record.abort ≠ some true) := by
  cases pc <;> cases thread <;>
    simp only [Program.outcome, program, code, Instr.result, goTo, branch, lookUp, withRecord, inExecute,
      afterCreate, afterExecute, Option.map_some, Option.map_none, Option.some.injEq, Prod.mk.injEq,
      reduceCtorEq, and_false, Status.running.injEq] at ran
  case cleanupRemove.library =>
    simp only [Option.map_map, Option.map_eq_some_iff, Function.comp_apply, Prod.mk.injEq,
      Status.running.injEq] at ran
    obtain ⟨_, -, -, rfl⟩ := ran
    cases goes <;> contradiction
  case abortFind.main | abortFind.library | abortFind.outside =>
    obtain ⟨-, rfl⟩ := ran
    split_ifs at goes with found aborts
    · obtain same | same := goes <;> cases same
      exact ⟨rfl, found, by simp [found, aborts]⟩
    · obtain same | same := goes <;> cases same
      exact ⟨rfl, found, fun _ => aborts⟩
    · obtain same | same := goes <;> cases same
  all_goals
    obtain ⟨-, rfl⟩ := ran
    first
      | (obtain same | same := goes <;> cases same)
      | (split_ifs at goes <;> obtain same | same := goes <;> cases same)

theorem Valid.abort_finds (valid : Valid state) (taken : step state (.run thread pick) = some next)
    (there : next.status thread = .running (.abortCallback handle)) :
    state.status thread = .running (.abortFind handle) ∧ state.data.find handle = true := by
  cases Posix.step_cases taken with
  | instr here performed =>
      obtain ⟨-, ran, -⟩ := run_parts here taken
      rw [there] at ran
      obtain ⟨rfl, found, -⟩ := abort_source ran (Or.inl rfl)
      exact ⟨here, found⟩
  | resume here =>
      obtain ⟨-, -, -, rfl⟩ | ⟨_, -, -, -, rfl | rfl⟩ := (valid.waits here).2 <;> simp [Posix.State.goto] at there

theorem code_cancel {victim : ThreadId} (instr : code thread pc = .cancel victim place) :
    ∃ handle, pc = .abortCancel handle ∧ victim = .library handle := by
  cases pc <;> cases thread <;> simp [code, goTo, branch, lookUp, withRecord, inExecute] at instr
  all_goals exact ⟨_, rfl, instr.1.symm⟩

/-- A thread that ends by an instruction had no run function. -/
theorem ended_source (ran : program.outcome thread pick pc data = some (after, .running place))
    (ends : place.ended = true) : pc.ended = true ∨ pc = .startRun ∧
      ∀ own record, thread = .library own -> data.record own = some record -> record.run = false := by
  cases pc <;> cases thread <;>
    simp only [Program.outcome, program, code, Instr.result, goTo, branch, lookUp, withRecord, inExecute,
      afterCreate, afterExecute, Option.map_some, Option.map_none, Option.some.injEq, Prod.mk.injEq,
      reduceCtorEq, and_false, Status.running.injEq] at ran
  case cleanupRemove.library | cleanupLockMap.library => exact Or.inl rfl
  case startRun.library own =>
    obtain ⟨-, rfl⟩ := ran
    split_ifs at ends with runs
    · cases ends
    · refine Or.inr ⟨rfl, fun _ record same read => ?_⟩
      cases same
      simpa [read] using runs
  all_goals
    obtain ⟨-, rfl⟩ := ran
    first
      | exact Or.inl rfl
      | cases ends
      | (split_ifs at ends <;> cases ends)

theorem running_of_ended (past : ended state handle = true) :
    ∃ pc, state.status (.library handle) = .running pc ∧ pc.ended = true := by
  unfold ended at past
  split at past
  · exact ⟨_, by assumption, past⟩
  · cases past

theorem Valid.found (valid : Valid state) (found : state.data.find handle = true) :
    state.data.creator handle ≠ none ∧ ∃ record, state.data.record handle = some record := by
  obtain ⟨member, record, read, -⟩ := Data.find_iff.mp found
  exact ⟨fun new => (valid.data.unused handle new).2.2 (valid.data.registered handle member).1, record, read⟩

theorem Immune.creating_preserved (immune : Immune hosts state) (taken : step state action = some next)
    {args : Create} (there : next.status thread = .running place) (creates : place.creates = some args)
    (host : hosts args.thread) : args.run = true ∧ args.abort = true := by
  cases arrival taken thread with
  | stays same => exact immune.creating thread place args (same ▸ there) creates host
  | instr _ here _ ran =>
      rw [there] at ran
      exact immune.creating thread _ args here (creates_source ran creates) host
  | born _ _ _ instr _ started =>
      obtain ⟨_, _, _, rfl⟩ := code_start instr
      cases there.symm.trans started
      cases creates
  | resume _ here _ _ resumed =>
      cases there.symm.trans resumed
      obtain ⟨-, -, -, rfl⟩ | ⟨_, -, -, -, rfl | rfl⟩ := (immune.valid.waits here).2 <;> cases creates
  | call _ _ chosen called =>
      cases there.symm.trans called
      obtain ⟨_, rfl, new, -⟩ | ⟨-, -, ⟨_, rfl | rfl | rfl | rfl⟩ | ⟨rfl, -⟩⟩ := calls_cases chosen
      · cases creates
        exact absurd new (immune.made _ host)
      all_goals cases creates
  | stop _ _ handled _ stopped =>
      cases there.symm.trans stopped
      obtain ⟨rfl, -⟩ := handler_place handled
      cases creates
  | abandon _ _ _ abandoned => simp [there] at abandoned

theorem update_flags {number : Nat} {change : Record -> Record} {record : Record}
    (stored : (data.update number change).record handle = some record)
    (keeps : ∀ old, (change old).run = old.run ∧ (change old).abort = old.abort) :
    ∃ old, data.record handle = some old ∧ record.run = old.run ∧ record.abort = old.abort := by
  rw [update_record] at stored
  split_ifs at stored with same
  · obtain ⟨old, known, rfl⟩ := Option.map_eq_some_iff.mp stored
    exact ⟨old, same ▸ known, keeps old⟩
  · exact ⟨record, stored, rfl, rfl⟩

theorem Writes.flags (writes : Writes data thread pc after) {record : Record}
    (stored : after.record handle = some record) :
    (∃ old, data.record handle = some old ∧ record.run = old.run ∧ record.abort = old.abort) ∨
      ∃ args, pc = .createInit args ∧ args.thread = handle ∧ record.run = args.run ∧ record.abort = args.abort := by
  cases writes with
  | init thread args =>
      by_cases same : handle = args.thread
      · subst same
        obtain rfl := Option.some.inj ((Function.update_self args.thread _ data.record).symm.trans stored)
        exact Or.inr ⟨args, rfl, rfl, rfl, rfl⟩
      · exact Or.inl ⟨record, by simpa [same] using stored, rfl, rfl⟩
  | store thread args | await thread number => exact Or.inl (update_flags stored fun _ => ⟨rfl, rfl⟩)
  | unregister own removed =>
      obtain ⟨threadMap, dangling, rfl, -, -⟩ := unregister_parts removed
      exact Or.inl ⟨record, stored, rfl, rfl⟩
  | destroy own =>
      by_cases same : handle = own
      · simp [same] at stored
      · exact Or.inl ⟨record, by simpa [same] using stored, rfl, rfl⟩
  | _ => exact Or.inl ⟨record, stored, rfl, rfl⟩

theorem flags_source (taken : step state action = some next) {record : Record}
    (stored : next.data.record handle = some record) :
    (∃ old, state.data.record handle = some old ∧ record.run = old.run ∧ record.abort = old.abort) ∨
      ∃ thread args, state.status thread = .running (.createInit args) ∧ args.thread = handle ∧
        record.run = args.run ∧ record.abort = args.abort := by
  cases step_cases taken with
  | @instr thread pick pc after here performed =>
      obtain ⟨-, ran, -⟩ := outcome_parts performed
      change (program.note thread pc after.data).record handle = some record at stored
      obtain same | writes := outcome_writes ran
      · exact Or.inl ⟨record, same ▸ stored, rfl, rfl⟩
      · obtain old | ⟨args, rfl, new⟩ := writes.flags stored
        · exact Or.inl old
        · exact Or.inr ⟨thread, args, here, new⟩
  | call here chosen =>
      obtain ⟨_, -, -, rfl, -⟩ | ⟨-, rfl, -⟩ := calls_cases chosen <;> exact Or.inl ⟨record, stored, rfl, rfl⟩
  | _ => exact Or.inl ⟨record, stored, rfl, rfl⟩

theorem Immune.record_preserved (immune : Immune hosts state) (taken : step state action = some next)
    {record : Record} (stored : next.data.record handle = some record) : next.data.creator handle ≠ none ∧
      (hosts handle -> record.run = true ∧ record.abort = true) := by
  obtain ⟨old, read, run, abort⟩ | ⟨thread, args, here, rfl, run, abort⟩ := flags_source taken stored
  · obtain ⟨known, flags⟩ := immune.record handle old read
    exact ⟨by rwa [creator_kept taken known], fun host => run ▸ abort ▸ flags host⟩
  · have mine := (immune.valid.at here).place.mine
    have known : state.data.creator args.thread ≠ none := by simp [mine]
    exact ⟨by rwa [creator_kept taken known], fun host => run ▸ abort ▸ immune.creating thread _ args here rfl host⟩

theorem Immune.cancel_preserved (immune : Immune hosts state) (taken : step state action = some next)
    (there : next.status thread = .running (.abortCancel handle)) :
    next.data.creator handle ≠ none ∧ ¬ hosts handle := by
  obtain here | ⟨pick, pc, -, here, ran, -, -⟩ := immune.valid.arrives taken rfl there
  · exact (immune.cancel thread handle here).imp_left fun known => by rwa [creator_kept taken known]
  · obtain ⟨-, found, aborts⟩ := abort_source ran (Or.inr rfl)
    obtain ⟨known, record, read⟩ := immune.valid.found found
    refine ⟨by rwa [creator_kept taken known], fun host => aborts rfl ?_⟩
    simp [read, ((immune.record handle record read).2 host).2]

theorem Immune.cancelled_preserved (immune : Immune hosts state) (taken : step state action = some next)
    (cancelled : next.cancelled (.library handle) = true) : next.data.creator handle ≠ none ∧ ¬ hosts handle := by
  have before : state.data.creator handle ≠ none ∧ ¬ hosts handle := by
    obtain old | ⟨thread, pc, place, here, instr⟩ := cancelled_grow taken cancelled
    · exact immune.cancelled handle old
    · obtain ⟨_, rfl, same⟩ := code_cancel instr
      cases same
      exact immune.cancel thread handle here
  exact before.imp_left fun known => by rwa [creator_kept taken known]

theorem Immune.abandoned_preserved (immune : Immune hosts state) (taken : step state action = some next)
    {cv mutex : Obj} (host : hosts handle) : next.status (.library handle) ≠ .waiting cv mutex .cleanupLockMap := by
  intro there
  cases arrival taken (.library handle) with
  | stays same => exact immune.abandoned handle cv mutex host (same ▸ there)
  | instr _ _ _ ran =>
      rw [there] at ran
      obtain ⟨_, wrong⟩ | ⟨_, _, _, same, instr⟩ := outcome_status ran
      · cases wrong
      · cases same
        obtain ⟨-, -, -, -, wrong⟩ | ⟨_, -, -, -, wrong⟩ := code_wait instr <;> cases wrong
  | abandon interrupt =>
      subst interrupt
      exact (immune.cancelled handle (interrupt_pending taken)).2 host
  | born _ _ _ _ _ running | resume _ _ _ _ running | call _ _ _ running | stop _ _ _ _ running =>
      cases there.symm.trans running

theorem Immune.preserved (immune : Immune hosts state) (taken : step state action = some next) : Immune hosts next where
  valid := immune.valid.preserved taken
  made handle host := by
    rw [creator_kept taken (immune.made handle host)]
    exact immune.made handle host
  creating _ _ _ there creates host := immune.creating_preserved taken there creates host
  record _ _ stored := immune.record_preserved taken stored
  cancel _ _ there := immune.cancel_preserved taken there
  cancelled _ cancelled := immune.cancelled_preserved taken cancelled
  abandoned _ _ _ host := immune.abandoned_preserved taken host

theorem initial_immune : Immune (fun _ => False) initial where
  valid := initial_valid
  made _ host := host.elim
  creating _ _ _ _ _ host := host.elim
  record _ _ stored := by cases stored
  cancel thread _ there := by cases thread <;> cases there
  cancelled _ cancelled := by cases cancelled
  abandoned _ _ _ host := host.elim

theorem Valid.creates (valid : Valid state) (here : state.status thread = .running pc) {args : Create}
    (creates : pc.creates = some args) : state.data.creator args.thread = some thread := by
  have place := (valid.at here).place
  cases pc <;> simp only [PC.creates, reduceCtorEq, Option.some.injEq] at creates <;> subst creates
  case createLockRunning | createIncrement | createUnlockRunning | createInit => exact place.mine
  all_goals exact place.1.mine

/-- A call of `zs__thread_create` makes one of them. -/
theorem Immune.host (immune : Immune hosts state) {args : Create}
    (taken : step state (.call thread (.createLockRunning args)) = some next) (run : args.run = true)
    (abort : args.abort = true) : Immune (fun handle => hosts handle ∨ handle = args.thread) next := by
  have kept := immune.preserved taken
  cases step_cases taken with
  | @call _ pc _ data here chosen =>
      obtain ⟨_, same, new, rfl, -⟩ | ⟨-, -, ⟨_, wrong⟩ | ⟨wrong, -⟩⟩ := calls_cases chosen
      · cases same
        refine ⟨kept.valid, ?_, ?_, ?_, ?_, ?_, ?_⟩
        · rintro handle (host | rfl)
          · exact kept.made handle host
          · simp [State.goto]
        · rintro other place more there creates (host | equal)
          · exact kept.creating other place more there creates host
          · have mine := kept.valid.creates there creates
            by_cases same : other = thread
            · subst same
              simp only [State.goto, Function.update_self, Status.running.injEq] at there
              subst there
              cases creates
              exact ⟨run, abort⟩
            · have earlier := immune.valid.creates (by simpa [State.goto, same] using there) creates
              simp [equal, new] at earlier
        · rintro handle record stored
          refine (kept.record handle record stored).imp_right fun flags => ?_
          rintro (host | rfl)
          · exact flags host
          · exact absurd new (immune.record _ record stored).1
        · rintro other handle there
          obtain ⟨known, outside⟩ := kept.cancel other handle there
          refine ⟨known, ?_⟩
          rintro (host | rfl)
          · exact outside host
          · by_cases same : other = thread
            · subst same
              simp [State.goto] at there
            · exact (immune.cancel other _ (by simpa [State.goto, same] using there)).1 new
        · rintro handle cancelled
          obtain ⟨known, outside⟩ := kept.cancelled handle cancelled
          refine ⟨known, ?_⟩
          rintro (host | rfl)
          · exact outside host
          · exact (immune.cancelled _ cancelled).1 new
        · rintro handle cv mutex (host | rfl) there
          · exact kept.abandoned handle cv mutex host there
          · have differ : ThreadId.library args.thread ≠ thread := by
              rintro rfl
              simp [State.goto] at there
            have waits := (immune.valid.waits (by simpa [State.goto, differ] using there)).1
            exact (immune.valid.data.unused _ new).1 (waits.own _ rfl).started
      · simp at wrong
      · cases wrong

/-- One of them ends by a return from its run function. -/
theorem Immune.returns (immune : Immune hosts state) (taken : step state action = some next) (host : hosts handle)
    (before : ended state handle = false) (after : ended next handle = true) :
    action = .call (.library handle) .cleanupLockMap := by
  obtain ⟨place, there, ends⟩ := running_of_ended after
  have running {pc : PC} (here : state.status (.library handle) = .running pc) (past : pc.ended = true) : False := by
    simp [ended_of_running here past] at before
  cases arrival taken (.library handle) with
  | stays same => exact (running (same ▸ there) ends).elim
  | instr _ here _ ran =>
      rw [there] at ran
      obtain past | ⟨rfl, without⟩ := ended_source ran ends
      · exact (running here past).elim
      · obtain ⟨record, read, -⟩ := ((immune.valid.at here).own handle rfl).stored PC.noConfusion
        have runs := ((immune.record handle record read).2 host).1
        simp [without handle record rfl read] at runs
  | born _ _ _ instr _ started =>
      obtain ⟨_, _, _, rfl⟩ := code_start instr
      cases there.symm.trans started
      cases ends
  | resume _ here _ _ resumed =>
      cases there.symm.trans resumed
      obtain ⟨-, -, -, rfl⟩ | ⟨_, -, -, -, rfl | rfl⟩ := (immune.valid.waits here).2
      · cases ends
      · cases ends
      · exact absurd here (immune.abandoned handle _ _ host)
  | call call _ chosen called =>
      cases there.symm.trans called
      obtain ⟨_, rfl, -⟩ | ⟨-, -, ⟨_, rfl | rfl | rfl | rfl⟩ | ⟨rfl, -⟩⟩ := calls_cases chosen
      · cases ends
      · cases ends
      · cases ends
      · cases ends
      · cases ends
      · exact call
  | stop interrupt =>
      subst interrupt
      exact absurd host (immune.cancelled handle (interrupt_pending taken)).2
  | abandon _ _ _ abandoned => simp [there] at abandoned

end

end ZSystem.Thread
