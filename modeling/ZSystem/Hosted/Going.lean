import ZSystem.Hosted.Join
import ZSystem.MessageLoop.Rest
import ZSystem.Thread.Rest
import ZSystem.Thread.Signal

set_option autoImplicit false

/-!
# Threads and the loops that they are in

What the place of a thread says about the loop that it runs, and about the loop that it calls.
-/

namespace ZSystem.Hosted

open Posix Transition

theorem number_injective {one two : Thread.ThreadId} (same : number one = number two) : one = two := by
  cases one <;> cases two <;> simp only [number] at same <;> first | rfl | omega | (congr 1; omega)

theorem number_surjective (number : Nat) : ∃ thread, Hosted.number thread = number := by
  obtain rfl | positive := Nat.eq_zero_or_pos number
  · exact ⟨.main, rfl⟩
  · obtain ⟨half, even | odd⟩ := Nat.even_or_odd' number
    · exact ⟨.outside (half - 1), by simp only [Hosted.number]; omega⟩
    · exact ⟨.library half, odd.symm⟩

theorem client_injective {one two : Thread.ThreadId} (same : client one = client two) : one = two :=
  number_injective (MessageLoop.ThreadId.client.inj same)

theorem loop_status {loop after : MessageLoop.State} {act : MessageLoop.Action}
    (reached : Reachable MessageLoop.step MessageLoop.initial loop) (moved : MessageLoop.step loop act = some after)
    (other : MessageLoop.ThreadId) (differ : other ≠ act.actor) : after.status other = loop.status other := by
  obtain ⟨pc, place, -, statuses, -⟩ :=
    MessageLoop.step_move (MessageLoop.alive_of_reach reached).flowing.sectioned.all moved
  simp [statuses, differ]

def starting : Status Thread.Obj Thread.PC -> Bool
  | .absent => true
  | .running pc => pc.starting
  | .waiting _ _ _ => false

/-- Where the thread of a loop is while the loop does not go on. -/
inductive Parked (status : Status Thread.Obj Thread.PC) (loop : MessageLoop.State) : Prop where
  | begins (early : starting status = true) (first : loop.status .run = .running (.duplicate .runAwait))
  | callback (inside : inCallback loop = true)
  | ended {pc : Thread.PC} (here : status = .running pc) (past : pc.ended = true)
      (finished : loop.status .run = .running .finished)

/-- The thread of the loop goes on with the loop, or is where the loop is parked. -/
def Stands (threads : Thread.State) (inside : Option Nat) (own : Nat) (loop : MessageLoop.State) : Prop :=
  (threads.status (.library own) = .running .caller ∧ inside = none) ∨ Parked (threads.status (.library own)) loop

/-- The thread has been started, or a call of `zs__thread_create` is going to. -/
def Making (threads : Thread.State) (own : Nat) : Prop :=
  own ∈ threads.data.started ∨ ∃ thread pc args, threads.status thread = .running pc ∧
    pc.creates = some args ∧ args.thread = own

/-- A thread is inside a call on a loop exactly if the loop has it so. -/
def Calls (state : State) : Prop :=
  ∀ handle loop, state.loops handle = some loop -> ∀ thread,
    (loop.status (client thread) = .running .caller ↔ state.inside thread ≠ some handle)

structure Going (state : State) : Prop where
  linked : Linked state
  threads : Thread.Going state.threads
  calls : Calls state
  inside : ∀ thread handle, state.inside thread = some handle -> state.Hosts handle ∧
    (state.threads.status thread = .running .caller ∨ state.threads.status thread = .running (.abortCallback handle))
  stands : ∀ own loop, state.loops own = some loop -> Stands state.threads (state.inside (.library own)) own loop
  making : ∀ own, state.Hosts own -> Making state.threads own
  few : {handle | state.Hosts handle}.Finite

section

variable {state next : State} {action : Action} {thread : Thread.ThreadId} {handle : Nat}
  {loop after : MessageLoop.State}

theorem Linked.fresh (linked : Linked state) {threads : Thread.State}
    (moved : Thread.step state.threads (.call thread (.createLockRunning (loopArgs handle))) = some threads) :
    ¬ state.Hosts handle := by
  intro host
  obtain ⟨pc, data, -, chosen, -⟩ := call_parts moved
  obtain ⟨_, same, new, -⟩ | ⟨-, -, ⟨_, wrong⟩ | ⟨wrong, -⟩⟩ := Thread.calls_cases chosen
  · cases same
    exact linked.immune.made handle host new
  · simp at wrong
  · cases wrong

/-- The thread of a loop that is being made is not started yet. -/
theorem Linked.absent_of_fresh (linked : Linked state) {threads : Thread.State}
    (moved : Thread.step state.threads (.call thread (.createLockRunning (loopArgs handle))) = some threads) :
    threads.status (.library handle) = .absent := by
  have valid := linked.immune.valid.preserved moved
  have called : threads.status thread = .running (.createLockRunning (loopArgs handle)) := by
    obtain ⟨_, _, -, -, rfl⟩ := call_parts moved
    exact Function.update_self _ _ _
  have new := (valid.at called).place.notStarted
  cases here : threads.status (.library handle) with
  | absent => rfl
  | running pc => exact absurd ((valid.at here).own handle rfl).started new
  | waiting cv mutex pc => exact absurd ((valid.waits here).1.own handle rfl).started new

theorem outside_of_free (free : state.free thread = true) : state.inside thread = none := by
  simp only [State.free, Bool.and_eq_true, Option.isNone_iff_eq_none] at free
  exact free.1

theorem callback_of_free (free : state.free (.library handle) = true) (read : state.loops handle = some loop) :
    inCallback loop = true := by
  simp only [State.free, State.own, read, Bool.and_eq_true, Option.all_some] at free
  exact free.2

/-! ## Calls -/

theorem Calls.settle (calls : Calls state) (reached : Reachable MessageLoop.step MessageLoop.initial loop)
    (read : state.loops handle = some loop) {act : MessageLoop.Action}
    (moved : MessageLoop.step loop act = some after) (actor : act.actor = client thread)
    (place : state.inside thread = none ∨ state.inside thread = some handle) :
    Calls (state.settle thread handle after) := by
  intro other found there thread'
  have inside : (state.settle thread handle after).inside thread' = if thread' = thread then
      (if after.status (client thread) = .running .caller then none else some handle)
        else state.inside thread' := by
    simp [State.settle, Function.update_apply]
  rw [settle_loops] at there
  rw [inside]
  split_ifs at there with same
  · cases there
    by_cases mine : thread' = thread
    · subst mine
      by_cases back : after.status (client thread') = .running .caller <;> simp [back, same]
    · have still := loop_status reached moved (client thread') (fun equal => mine (client_injective (equal.trans actor)))
      simpa [mine, still] using calls other loop (same ▸ read) thread'
  · by_cases mine : thread' = thread
    · subst mine
      have outside : state.inside thread' ≠ some other := by
        obtain none | within := place
        · simp [none]
        · simp [within, Ne.symm same]
      refine iff_of_true ((calls other found there thread').mpr outside) ?_
      rw [if_pos rfl]
      split_ifs <;> simp [Ne.symm same]
    · simpa [mine] using calls other found there thread'

theorem Calls.put (calls : Calls state) (reached : Reachable MessageLoop.step MessageLoop.initial loop)
    (read : state.loops handle = some loop) {pick : Nat}
    (moved : MessageLoop.step loop (.run .run pick) = some after) : Calls (state.put handle after) := by
  intro other found there thread
  rw [put_loops] at there
  split_ifs at there with same
  · cases there
    have still := loop_status reached moved (client thread) MessageLoop.ThreadId.noConfusion
    rw [still]
    exact calls other loop (same ▸ read) thread
  · exact calls other found there thread

theorem Going.calls_preserved (going : Going state) (step : Step state action next) : Calls next := by
  have reached {handle : Nat} {loop : MessageLoop.State} (read : state.loops handle = some loop) :=
    going.linked.loops handle loop read
  cases step with
  | within here read moved => exact going.calls.settle (reached read) read moved rfl (Or.inr here)
  | body _ _ read moved => exact going.calls.put (reached read) read moved
  | @aborts _ _ _ threads _ _ outside _ _ _ read moved =>
      have same : Calls { state with threads := threads } := going.calls
      exact same.settle (reached read) read moved rfl (Or.inl outside)
  | post permitted _ read moved =>
      exact going.calls.settle (reached read) read moved rfl (Or.inl (outside_of_free permitted))
  | @create _ new threads permitted moved =>
      have fresh := going.linked.fresh moved
      intro other found there thread
      rw [put_loops] at there
      split_ifs at there with same
      · cases there
        refine iff_of_true rfl fun within => fresh ?_
        exact same ▸ (going.inside thread other within).1
      · exact going.calls other found there thread
  | _ => exact going.calls

/-! ## Whoever is inside a call -/

theorem stays {threads later : Thread.State} {act : Thread.Action} {pc : Thread.PC}
    (moved : Thread.step threads act = some later) (here : threads.status thread = .running pc)
    (differ : thread ≠ act.actor) : later.status thread = .running pc := by
  obtain same | ⟨_, _, _, _, -, -, -, absent, -⟩ := status_other moved differ
  · exact same.trans here
  · simp [here] at absent

theorem settle_inside (other : Thread.ThreadId) : (state.settle thread handle loop).inside other =
    if other = thread then (if loop.status (client thread) = .running .caller then none else some handle)
      else state.inside other := by
  simp [State.settle, Function.update_apply]

theorem Going.inside_preserved (going : Going state) (step : Step state action next)
    (within : next.inside thread = some handle) : next.Hosts handle ∧
      (next.threads.status thread = .running .caller ∨ next.threads.status thread = .running (.abortCallback handle)) := by
  have hosted (host : state.Hosts handle) : next.Hosts handle := by
    obtain same | ⟨_, _, -, more⟩ := step.hosts
    · rwa [same]
    · rw [more]
      exact Or.inl host
  have others {act : Thread.Action} {threads : Thread.State} (moved : Thread.step state.threads act = some threads)
      (inside : state.inside thread = some handle) (differ : thread ≠ act.actor) : next.Hosts handle ∧
        (threads.status thread = .running .caller ∨ threads.status thread = .running (.abortCallback handle)) := by
    obtain ⟨host, places⟩ := going.inside thread handle inside
    exact ⟨hosted host, places.imp (fun here => stays moved here differ) fun here => stays moved here differ⟩
  have apart {other : Thread.ThreadId} (outside : state.inside other = none)
      (inside : state.inside thread = some handle) : thread ≠ other := by
    rintro rfl
    simp [outside] at inside
  cases step with
  | @within other _ entered _ _ here read moved =>
      rw [settle_inside] at within
      split_ifs at within with same back
      · cases within
        exact (going.inside thread handle (same ▸ here)).imp_left hosted
      · exact (going.inside thread handle within).imp_left hosted
  | body => exact (going.inside thread handle within).imp_left hosted
  | returns outside _ _ moved | goesOn outside _ moved | interrupt outside moved =>
      exact others moved within (apart outside within)
  | @aborts other _ entered _ _ _ outside _ moved there read entered =>
      rw [settle_inside] at within
      split_ifs at within with same back
      · cases within
        exact ⟨hosted (by simp [State.Hosts, read]), Or.inr (same ▸ there)⟩
      · exact others moved within same
  | call free _ moved | create free moved => exact others moved within (apart (outside_of_free free) within)
  | @post other entered _ _ _ free here read _ =>
      rw [settle_inside] at within
      split_ifs at within with same back
      · cases within
        exact ⟨hosted (by simp [State.Hosts, read]), Or.inl (same ▸ here)⟩
      · exact (going.inside thread handle within).imp_left hosted
  | @wake other threads moved =>
      refine others moved within fun same => ?_
      obtain rfl : thread = other := same
      cases Posix.step_cases moved with
      | wake waits => obtain ⟨-, here | here⟩ := going.inside thread handle within <;> simp [here] at waits

/-! ## Where the thread of a loop is -/

theorem Parked.of_run {status : Status Thread.Obj Thread.PC} (parked : Parked status loop)
    (same : after.status .run = loop.status .run) : Parked status after := by
  cases parked with
  | begins early first => exact .begins early (same.trans first)
  | callback inside => exact .callback (by simpa only [inCallback, same] using inside)
  | ended here past finished => exact .ended here past (same.trans finished)

theorem starting_goes {pc place : Thread.PC} {data later : Thread.Data} {pick : Nat}
    (ran : Thread.program.outcome thread pick pc data = some (later, .running place)) (early : pc.starting = true) :
    place.starting = true ∨ place = .caller ∨ place.ended = true := by
  cases pc <;> simp only [Thread.PC.starting, Bool.false_eq_true] at early <;> cases thread <;>
    simp only [Program.outcome, Thread.program, Thread.code, Instr.result, Thread.branch, Thread.withRecord,
      Option.map_some, Option.map_none, Option.some.injEq, Prod.mk.injEq, Status.running.injEq, reduceCtorEq] at ran
  all_goals obtain ⟨-, rfl⟩ := ran
  · exact Or.inl rfl
  · exact Or.inl rfl
  · split_ifs
    · exact Or.inr (Or.inl rfl)
    · exact Or.inr (Or.inr rfl)

theorem starting_alive {pc : Thread.PC} (early : pc.starting = true) : pc.ended = false := by
  cases pc <;> first | rfl | cases early

theorem Linked.parked_goesOn (linked : Linked state) {threads : Thread.State} {act : Thread.Action}
    (moved : Thread.step state.threads act = some threads) (host : state.Hosts handle)
    (parked : Parked (state.threads.status (.library handle)) loop) :
    threads.status (.library handle) = .running .caller ∨ Parked (threads.status (.library handle)) loop := by
  cases parked with
  | callback inside => exact Or.inr (.callback inside)
  | ended here past finished =>
      obtain ⟨pc, there, later⟩ := Thread.running_of_ended
        (Thread.ended_kept (Thread.ended_of_running here past) moved)
      exact Or.inr (.ended there later finished)
  | begins early first =>
      cases arrival moved (.library handle) with
      | stays same => exact Or.inr (.begins (same ▸ early) first)
      | instr run here _ ran =>
          rw [here] at early
          obtain ⟨place, there⟩ | ⟨_, _, _, -, instr⟩ := outcome_status ran
          · rw [there] at ran
            obtain still | rfl | ends := starting_goes ran early
            · exact Or.inr (.begins (by rw [there]; exact still) first)
            · exact Or.inl there
            · have before : Thread.ended state.threads handle = false := by
                simp only [Thread.ended, here, starting_alive early]
              have returned := linked.immune.returns moved host before (Thread.ended_of_running there ends)
              cases run.symm.trans returned
          · obtain ⟨-, rfl, -⟩ | ⟨_, rfl, -⟩ := Thread.code_wait instr <;> cases early
      | born _ _ _ instr _ started =>
          obtain ⟨_, _, _, rfl⟩ := Thread.code_start instr
          exact Or.inr (.begins (by rw [started]; rfl) first)
      | resume _ here | abandon _ here =>
          rw [here] at early
          cases early
      | call _ here chosen =>
          rw [here] at early
          obtain ⟨_, -, -, -, rfl | ⟨rfl, -⟩⟩ | ⟨rfl, -⟩ := Thread.calls_cases chosen <;> cases early
      | stop _ here _ point =>
          rw [here] at early
          obtain rfl : _ = Thread.PC.caller := by simpa [Thread.program] using point
          cases early

theorem Linked.stands_other (linked : Linked state) {threads : Thread.State} {act : Thread.Action}
    {inside : Option Nat} (moved : Thread.step state.threads act = some threads) (host : state.Hosts handle)
    (stands : Stands state.threads inside handle loop) (differ : .library handle ≠ act.actor) :
    Stands threads inside handle loop := by
  obtain ⟨here, none⟩ | parked := stands
  · exact Or.inl ⟨stays moved here differ, none⟩
  · obtain same | ⟨_, _, _, _, -, -, instr, -, started⟩ := status_other moved differ
    · exact Or.inr (same ▸ parked)
    · obtain ⟨_, _, _, rfl⟩ := Thread.code_start instr
      exact Or.inr ((linked.parked_goesOn moved host parked).resolve_left fun here => by
        cases started.symm.trans here)

/-- The thread of a loop takes a step that is not one of the loop. -/
theorem Linked.stands_own (linked : Linked state) {threads : Thread.State} {act : Thread.Action}
    (moved : Thread.step state.threads act = some threads) (read : state.loops handle = some loop)
    (outside : state.inside (.library handle) = none) (away : state.body (.library handle) = none)
    (stands : Stands state.threads (state.inside (.library handle)) handle loop) :
    Stands threads (state.inside (.library handle)) handle loop := by
  obtain ⟨here, -⟩ | parked := stands
  · simp [State.body, here, read] at away
  · exact (linked.parked_goesOn moved (by simp [State.Hosts, read]) parked).imp_left fun here => ⟨here, outside⟩

theorem settle_run (read : state.loops handle = some loop) {result : MessageLoop.State}
    (same : result.status .run = loop.status .run) {own : Nat}
    (there : (state.settle thread handle result).loops own = some after) :
    ∃ before, state.loops own = some before ∧ after.status .run = before.status .run := by
  rw [settle_loops] at there
  split_ifs at there with equal
  · cases there
    exact ⟨loop, equal ▸ read, same⟩
  · exact ⟨after, there, rfl⟩

theorem Stands.of_run {threads : Thread.State} {inside : Option Nat} (stands : Stands threads inside handle loop)
    (same : after.status .run = loop.status .run) : Stands threads inside handle after :=
  stands.imp_right fun parked => parked.of_run same

theorem Going.stands_preserved (going : Going state) (step : Step state action next) (own : Nat)
    (there : next.loops own = some after) : Stands next.threads (next.inside (.library own)) own after := by
  have linked := going.linked
  have run {loop after : MessageLoop.State} {act : MessageLoop.Action} {handle : Nat}
      (read : state.loops handle = some loop) (moved : MessageLoop.step loop act = some after)
      (client : .run ≠ act.actor) : after.status .run = loop.status .run :=
    loop_status (linked.loops handle loop read) moved .run client
  have host (loop : MessageLoop.State) (read : state.loops own = some loop) : state.Hosts own := by
    simp [State.Hosts, read]
  have other {threads : Thread.State} {act : Thread.Action} (moved : Thread.step state.threads act = some threads)
      (read : state.loops own = some after) (differ : .library own ≠ act.actor) :
      Stands threads (state.inside (.library own)) own after :=
    linked.stands_other moved (host after read) (going.stands own after read) differ
  cases step with
  | @within thread _ _ _ _ here read moved =>
      obtain ⟨before, known, same⟩ := settle_run read (run read moved MessageLoop.ThreadId.noConfusion) there
      refine Stands.of_run ?_ same
      obtain ⟨here', outside⟩ | parked := going.stands own before known
      · have differ : .library own ≠ thread := by
          rintro rfl
          simp [outside] at here
        rw [settle_inside, if_neg differ]
        exact Or.inl ⟨here', outside⟩
      · exact Or.inr parked
  | @body changed _ _ _ outside here =>
      rw [put_loops] at there
      split_ifs at there with same
      · subst same
        exact Or.inl ⟨here, outside⟩
      · exact going.stands own after there
  | @returns changed _ loop threads outside read finished moved =>
      by_cases same : own = changed
      · subst same
        cases there.symm.trans read
        obtain ⟨_, _, -, -, rfl⟩ := call_parts moved
        exact Or.inr (.ended (Function.update_self _ _ _) rfl finished)
      · exact other moved there (by simpa [Act.actor] using same)
  | @goesOn thread _ threads outside away moved =>
      by_cases same : .library own = thread
      · subst same
        exact linked.stands_own moved there outside away (going.stands own after there)
      · exact other moved there same
  | @aborts thread _ entered threads loop _ outside away moved at' read called =>
      obtain ⟨before, known, same⟩ := @settle_run { state with threads := threads } _ _ _ _ read _
        (run read called MessageLoop.ThreadId.noConfusion) _ there
      refine Stands.of_run ?_ same
      rw [settle_inside]
      by_cases mine : .library own = thread
      · subst mine
        obtain ⟨here, -⟩ | parked := linked.stands_own moved known outside away (going.stands own before known)
        · cases here.symm.trans at'
        · exact Or.inr parked
      · rw [if_neg mine]
        exact linked.stands_other moved (host before known) (going.stands own before known) mine
  | @call thread _ _ free _ moved =>
      by_cases same : .library own = thread
      · subst same
        exact Or.inr (.callback (callback_of_free free there))
      · exact other moved there same
  | @create thread made threads free moved =>
      rw [put_loops] at there
      split_ifs at there with same
      · cases there
        subst same
        exact Or.inr (.begins (linked.absent_of_fresh moved ▸ rfl) rfl)
      · by_cases mine : .library own = thread
        · subst mine
          exact Or.inr (.callback (callback_of_free free there))
        · exact other moved there mine
  | @post thread _ _ _ _ free here read called =>
      obtain ⟨before, known, same⟩ := settle_run read (run read called MessageLoop.ThreadId.noConfusion) there
      refine Stands.of_run ?_ same
      by_cases mine : .library own = thread
      · subst mine
        exact Or.inr (.callback (callback_of_free free known))
      · rw [settle_inside, if_neg mine]
        exact going.stands own before known
  | wake moved =>
      cases Posix.step_cases moved with
      | wake => exact going.stands own after there
  | interrupt outside moved =>
      refine other moved there ?_
      rintro rfl
      exact (linked.immune.cancelled own (interrupt_pending moved)).2 (host after there)

/-! ## Threads that are being made -/

theorem creates_goes {pc : Thread.PC} {data later : Thread.Data} {pick : Nat} {status : Status Thread.Obj Thread.PC}
    {args : Thread.Create} (ran : Thread.program.outcome thread pick pc data = some (later, status))
    (creates : pc.creates = some args) :
    (∃ place, status = .running place ∧ place.creates = some args) ∨ args.thread ∈ later.started := by
  cases pc <;> simp only [Thread.PC.creates, reduceCtorEq, Option.some.injEq] at creates <;> subst creates <;>
    simp only [Program.outcome, Thread.program, Thread.code, Instr.result, Thread.goTo, Option.map_some,
      Option.some.injEq, Prod.mk.injEq] at ran
  case createStart => exact Or.inr (ran.1 ▸ Finset.mem_insert_self _ _)
  all_goals exact Or.inl ⟨_, ran.2.symm, rfl⟩

theorem Making.preserved {threads later : Thread.State} {act : Thread.Action} {own : Nat}
    (valid : Thread.Valid threads) (making : Making threads own) (moved : Thread.step threads act = some later) :
    Making later own := by
  obtain started | ⟨thread, pc, args, here, creates, rfl⟩ := making
  · exact Or.inl ((valid.grows moved).started started)
  · cases arrival moved thread with
    | stays same => exact Or.inr ⟨thread, pc, args, same.trans here, creates, rfl⟩
    | instr _ at' _ ran =>
        cases here.symm.trans at'
        obtain ⟨place, there, still⟩ | started := creates_goes ran creates
        · exact Or.inr ⟨thread, place, args, there, still, rfl⟩
        · exact Or.inl started
    | born _ _ _ _ absent => simp [here] at absent
    | resume _ at' | abandon _ at' => simp [here] at at'
    | call _ at' chosen =>
        cases here.symm.trans at'
        obtain ⟨_, -, -, -, rfl | ⟨rfl, -⟩⟩ | ⟨rfl, -⟩ := Thread.calls_cases chosen <;> cases creates
    | stop _ at' _ point =>
        cases here.symm.trans at'
        obtain rfl : pc = .caller := by simpa [Thread.program] using point
        cases creates

theorem Going.making_preserved (going : Going state) (step : Step state action next) {own : Nat}
    (host : next.Hosts own) : Making next.threads own := by
  have valid := going.linked.immune.valid
  have kept (before : state.Hosts own) : Making next.threads own := by
    obtain same | ⟨act, moved, -⟩ := step.threads
    · rw [same]
      exact going.making own before
    · exact (going.making own before).preserved valid moved
  obtain same | ⟨thread, handle, rfl, hosts⟩ := step.hosts
  · exact kept (same ▸ host)
  · rw [hosts] at host
    obtain before | rfl := host
    · exact kept before
    · cases step with
      | create free moved =>
          obtain ⟨_, _, -, -, rfl⟩ := call_parts moved
          exact Or.inr ⟨thread, _, _, Function.update_self _ _ _, rfl, rfl⟩

theorem Step.few (step : Step state action next) (few : {handle | state.Hosts handle}.Finite) :
    {handle | next.Hosts handle}.Finite := by
  obtain same | ⟨thread, handle, -, hosts⟩ := step.hosts
  · rwa [same]
  · rw [hosts]
    exact (few.insert handle).subset fun other host => host.symm

theorem Going.preserved (going : Going state) (uncancelled : Meets Thread.WaitsUncancelled state action)
    (taken : Hosted.step state action = some next) : Going next where
  linked := going.linked.preserved taken
  threads := (step_cases taken).keeps (fun _ _ _ => trivial)
    (fun _ _ _ going uncancelled moved => going.preserved uncancelled moved) going.threads uncancelled
  calls := going.calls_preserved (step_cases taken)
  inside _ _ within := going.inside_preserved (step_cases taken) within
  stands own _ there := going.stands_preserved (step_cases taken) own there
  making _ host := going.making_preserved (step_cases taken) host
  few := (step_cases taken).few going.few

theorem initial_going : Going initial where
  linked := initial_linked
  threads := Thread.initial_going
  calls _ _ there := by cases there
  inside _ _ within := by cases within
  stands _ _ there := by cases there
  making own host := absurd rfl host
  few := by simp [State.Hosts, initial]

end

end ZSystem.Hosted
