import ZSystem.Hosted.Going

set_option autoImplicit false

/-!
# Threads and loops that come to rest

What becomes of the threads, and of the message loops that they run, when none of them makes a new call.
-/

namespace ZSystem.Hosted

open Posix Transition

/-! ## How much is left to do -/

noncomputable def loopLoad (loop : MessageLoop.State) : Nat := loop.load (fun _ pc => pc.weight) MessageLoop.requests

noncomputable def threadLoad (threads : Thread.State) : Nat := threads.load (fun _ pc => pc.weight) fun _ _ => 0

/-- The loop pays for the cleanup that follows the return from it. -/
noncomputable def State.pending (state : State) (handle : Nat) : Nat :=
  match state.loops handle with
  | none => 0
  | some loop => loopLoad loop + if Thread.ended state.threads handle then 0 else 500

/-- A step of a thread may enter an abort callback. -/
noncomputable def State.load (state : State) : Nat := 40 * threadLoad state.threads + finsum state.pending

section

variable {state next : State} {thread : Thread.ThreadId} {handle pick : Nat} {loop after : MessageLoop.State}
  {threads : Thread.State}

theorem pending_finite (few : {handle | state.Hosts handle}.Finite) : (Function.support state.pending).Finite := by
  refine few.subset fun handle member host => member ?_
  simp [State.pending, host]

theorem pending_same (loops : next.loops = state.loops)
    (ended : ∀ own, state.Hosts own -> Thread.ended next.threads own = Thread.ended state.threads own) :
    next.pending = state.pending := by
  funext own
  simp only [State.pending, loops]
  cases read : state.loops own with
  | none => rfl
  | some loop => rw [ended own (by simp [State.Hosts, read])]

theorem pending_update (few : {handle | state.Hosts handle}.Finite) (read : state.loops handle = some loop)
    (loops : next.loops = Function.update state.loops handle (some after))
    (ended : ∀ own, state.Hosts own -> Thread.ended next.threads own = Thread.ended state.threads own) :
    finsum next.pending + loopLoad loop = finsum state.pending + loopLoad after := by
  have host : state.Hosts handle := by simp [State.Hosts, read]
  have updated : next.pending = Function.update state.pending handle
      (loopLoad after + if Thread.ended state.threads handle then 0 else 500) := by
    funext own
    by_cases same : own = handle
    · subst same
      simp [State.pending, loops, ended own host]
    · simp only [State.pending, loops, ne_eq, same, not_false_eq_true, Function.update_of_ne]
      cases known : state.loops own with
      | none => rfl
      | some loop => rw [ended own (by simp [State.Hosts, known])]
  have sum := finsum_update (pending_finite few) handle
    (loopLoad after + if Thread.ended state.threads handle then 0 else 500)
  rw [updated]
  simp only [State.pending, read] at sum ⊢
  omega

theorem Linked.ended_same (linked : Linked state) (moved : Thread.step state.threads (.run thread pick) = some threads)
    (host : state.Hosts handle) : Thread.ended threads handle = Thread.ended state.threads handle := by
  cases before : Thread.ended state.threads handle with
  | true => exact Thread.ended_kept before moved
  | false =>
      by_contra ends
      cases linked.immune.returns moved host before (by simpa using ends)

/-! ## Every turn leaves less to do -/

theorem loop_smaller (reached : Reachable MessageLoop.step MessageLoop.initial loop) {caller : MessageLoop.ThreadId}
    (moved : MessageLoop.step loop (.run caller pick) = some after) : loopLoad after < loopLoad loop := by
  have taken : MessageLoop.program.turn loop (caller, pick) = some after := moved
  exact MessageLoop.shortens.smaller (MessageLoop.going_of_reach reached).few taken

theorem abort_load (reached : Reachable MessageLoop.step MessageLoop.initial loop)
    (entered : MessageLoop.step loop (.call (client thread) (.duplicate .abortLock)) = some after) :
    loopLoad after ≤ loopLoad loop + 22 := by
  have finite := (MessageLoop.going_of_reach reached).few
  obtain ⟨pc, -, sum⟩ := @Posix.State.load_call _ _ _ _ _ _ _ _ MessageLoop.requests _ _ finite _ _ entered
  have stock : MessageLoop.requests after.value after.data = MessageLoop.requests loop.value loop.data := by
    obtain ⟨_, _, -, -, rfl⟩ := call_parts entered
    rfl
  have weight : (MessageLoop.PC.duplicate .abortLock).weight = 22 := rfl
  unfold loopLoad
  omega

theorem Going.smaller_threads (going : Going state)
    (moved : Thread.step state.threads (.run thread pick) = some threads) :
    threadLoad threads < threadLoad state.threads := by
  have taken : Thread.program.turn state.threads (thread, pick) = some threads := moved
  exact Thread.shortens.smaller going.threads.finite taken

theorem Going.returns_load (going : Going state) {own : Nat} (read : state.loops own = some loop)
    (moved : Thread.step state.threads (.call (.library own) .cleanupLockMap) = some threads) :
    State.load { state with threads := threads } < state.load := by
  obtain ⟨pc, here, sum⟩ :=
    @Posix.State.load_call _ _ _ _ _ _ _ _ (fun _ _ => 0) _ _ going.threads.finite _ _ moved
  have cleanup : (Thread.PC.cleanupLockMap).weight = 12 := rfl
  have caller : pc = .caller := by
    obtain ⟨_, _, there, chosen, -⟩ := call_parts moved
    cases here.symm.trans there
    obtain ⟨_, wrong, -⟩ | ⟨caller, -⟩ := Thread.calls_cases chosen
    · cases wrong
    · exact caller
  subst caller
  have before : Thread.ended state.threads own = false := by
    simp only [Thread.ended, here]
    rfl
  have after : Thread.ended threads own = true := by
    obtain ⟨_, _, -, -, rfl⟩ := call_parts moved
    exact Thread.ended_of_running (Function.update_self _ _ _) rfl
  have updated : State.pending { state with threads := threads } =
      Function.update state.pending own (loopLoad loop) := by
    funext other
    by_cases same : other = own
    · subst same
      simp [State.pending, read, after]
    · simp only [State.pending, ne_eq, same, not_false_eq_true, Function.update_of_ne]
      cases known : state.loops other with
      | none => rfl
      | some loop =>
          have still : Thread.ended threads other = Thread.ended state.threads other := by
            cases past : Thread.ended state.threads other with
            | true => exact Thread.ended_kept past moved
            | false =>
                by_contra ends
                have returned := going.linked.immune.returns moved (by simp [State.Hosts, known]) past (by simpa using ends)
                cases returned
                exact same rfl
          simp only [still]
  have pending := finsum_update (pending_finite going.few) own (loopLoad loop)
  have paid : state.pending own = loopLoad loop + 500 := by simp [State.pending, read, before]
  simp only [State.load, updated, threadLoad]
  omega

theorem Going.smaller (going : Going state) (taken : state.turn thread pick = some next) : next.load < state.load := by
  have reached {handle : Nat} {loop : MessageLoop.State} (read : state.loops handle = some loop) :=
    going.linked.loops handle loop read
  cases turn_cases taken with
  | @within _ _ handle loop after here read moved =>
      have less := loop_smaller (reached read) moved
      have sum : finsum (state.settle thread handle after).pending + loopLoad loop =
          finsum state.pending + loopLoad after := pending_update going.few read rfl fun _ _ => rfl
      have same : (state.settle thread handle after).threads = state.threads := rfl
      simp only [State.load, same]
      omega
  | @body own _ loop after outside here read moved =>
      have less := loop_smaller (reached read) moved
      have sum : finsum (state.put own after).pending + loopLoad loop =
          finsum state.pending + loopLoad after := pending_update going.few read rfl fun _ _ => rfl
      have same : (state.put own after).threads = state.threads := rfl
      simp only [State.load, same]
      omega
  | returns outside read finished moved => exact going.returns_load read moved
  | @goesOn _ _ threads outside away moved quiet =>
      have less := going.smaller_threads moved
      have same : State.pending { state with threads := threads } = state.pending :=
        pending_same rfl fun _ host => going.linked.ended_same moved host
      simp only [State.load, same]
      omega
  | @aborts _ _ handle threads loop after outside away moved there read entered =>
      have less := going.smaller_threads moved
      have more := abort_load (reached read) entered
      have sum : finsum (State.settle { state with threads := threads } thread handle after).pending + loopLoad loop =
          finsum state.pending + loopLoad after :=
        pending_update going.few read rfl fun _ host => going.linked.ended_same moved host
      have same : (State.settle { state with threads := threads } thread handle after).threads = threads := rfl
      simp only [State.load, same]
      omega

end

/-! ## Where they stop -/

/-- The thread of a loop is not executed yet, waits for a request, has ended, or sleeps in a callback. -/
inductive LoopRests (state : State) (own : Nat) (loop : MessageLoop.State) : Prop where
  | unexecuted (here : state.threads.status (.library own) = .running .startLock)
      (closed : state.threads.data.executed own = 0)
  | idle (here : state.threads.status (.library own) = .running .caller)
      (awaits : loop.status .run = .running (.op .runAwait)) (accepting : loop.data.aborting = false)
      (delivered : loop.data.delivered = loop.data.enqueued.map Prod.snd)
  | asleep {cv mutex : Thread.Obj} {pc : Thread.PC}
      (here : state.threads.status (.library own) = .waiting cv mutex pc) (callback : inCallback loop = true)
  | ended (here : state.threads.status (.library own) = .running .finished) (served : MessageLoop.Served loop)

structure Settled (state : State) : Prop where
  threads : ∀ thread, Thread.Rests state.threads thread
  calls : ∀ thread, state.inside thread = none
  loops : ∀ own loop, state.loops own = some loop -> LoopRests state own loop

/-- `zs__thread_abort` is about to find the thread of a loop that has been freed. -/
def AbortsGone (state : State) : Prop :=
  ∃ thread handle loop, state.threads.status thread = .running (.abortFind handle) ∧
    state.threads.data.find handle = true ∧ state.loops handle = some loop ∧ loop.data.destroyed = true

def Stranded (state : State) : Prop :=
  Thread.RegistryBlocked state.threads ∨ Thread.ReachesFreed state.threads ∨ AbortsGone state ∨
    ∃ handle loop, state.loops handle = some loop ∧ (MessageLoop.Full loop ∨ MessageLoop.Overtaken loop)

section

variable {state next : State} {thread : Thread.ThreadId} {handle own : Nat} {loop : MessageLoop.State}

/-- An abort callback cannot start on a loop that has been freed. -/
theorem Calls.callback_none (calls : Calls state) (outside : state.inside thread = none)
    (nothing : state.callback thread = none) : ∃ handle loop, state.threads.status thread =
      .running (.abortCallback handle) ∧ state.loops handle = some loop ∧ loop.data.destroyed = true := by
  unfold State.callback at nothing
  split at nothing
  · next handle there =>
      split_ifs at nothing with plain
      obtain ⟨loop, read⟩ := Option.ne_none_iff_exists'.mp plain
      refine ⟨handle, loop, there, read, ?_⟩
      have caller : loop.status (client thread) = _ := (calls handle loop read thread).mpr (by simp [outside])
      by_contra present
      simp [State.within, read, MessageLoop.step, Program.step, caller, MessageLoop.program, MessageLoop.calls,
        present] at nothing
  · cases nothing

section Stuck

variable (going : Going state) (stuck : ∀ thread pick, state.turn thread pick = none)

include going stuck

theorem Going.client_stuck (read : state.loops handle = some loop) (number : Nat) :
    MessageLoop.Stuck loop (.client number) := by
  intro pick
  obtain ⟨thread, rfl⟩ := number_surjective number
  by_cases inside : state.inside thread = some handle
  · have none := stuck thread pick
    change MessageLoop.step loop (.run (client thread) pick) = Option.none
    simpa [State.turn, inside, State.within, read] using none
  · have caller : loop.status (client thread) = _ := (going.calls handle loop read thread).mpr inside
    change MessageLoop.program.step loop (.run (client thread) pick) = none
    simp [Program.step, caller, MessageLoop.program, MessageLoop.code, Program.perform]

omit going in
theorem run_stuck (read : state.loops own = some loop)
    (here : state.threads.status (.library own) = .running .caller) (outside : state.inside (.library own) = none) :
    loop.status .run ≠ .running .finished ∧ MessageLoop.Stuck loop .run := by
  have unfinished : loop.status .run ≠ .running .finished := fun finished => by
    have none := stuck (.library own) 0
    simp [State.turn, outside, State.body, here, read, finished, State.perform, Thread.step, Program.step,
      Thread.program, Thread.calls, Thread.ThreadId.isLibrary] at none
  refine ⟨unfinished, fun pick => ?_⟩
  have none := stuck (.library own) pick
  change MessageLoop.step loop (.run .run pick) = Option.none
  simpa [State.turn, outside, State.body, here, read, unfinished] using none

theorem Going.locked_stuck (read : state.loops own = some loop) {pc : MessageLoop.PC}
    (there : loop.status .run = .running pc) (locked : pc.locked = true) : MessageLoop.Stuck loop .run := by
  obtain ⟨here, outside⟩ | parked := going.stands own loop read
  · exact (run_stuck stuck read here outside).2
  · cases parked with
    | begins _ first =>
        cases there.symm.trans first
        cases locked
    | callback inside =>
        simp only [inCallback, there] at inside
        cases pc <;> simp [MessageLoop.PC.locked] at inside locked
    | ended _ _ finished =>
        cases there.symm.trans finished
        cases locked

theorem Going.outside (clear : ¬ Stranded state) (thread : Thread.ThreadId) : state.inside thread = none := by
  by_contra within
  obtain ⟨handle, inside⟩ := Option.ne_none_iff_exists'.mp within
  obtain ⟨loop, read⟩ := Option.ne_none_iff_exists'.mp (going.inside thread handle inside).1
  have busy : loop.status (client thread) ≠ .running .caller := fun caller =>
    (going.calls handle loop read thread).mp caller inside
  have fine (wrong : MessageLoop.Full loop ∨ MessageLoop.Overtaken loop) : False :=
    clear (Or.inr (Or.inr (Or.inr ⟨handle, loop, read, wrong⟩)))
  cases present : loop.data.destroyed with
  | true => exact fine (Or.inr ⟨present, _, busy⟩)
  | false =>
      have alive := MessageLoop.going_of_reach (going.linked.loops handle loop read)
      exact busy (alive.client_returned (going.client_stuck stuck read)
        (fun _ there locked => going.locked_stuck stuck read there locked) (fun full => fine (Or.inl full)) present _)

theorem Going.threads_stuck (clear : ¬ Stranded state) (turn : Thread.ThreadId × Nat) :
    Thread.program.turn state.threads turn = none := by
  obtain ⟨thread, pick⟩ := turn
  have outside := going.outside stuck clear thread
  have none := stuck thread pick
  cases body : state.body thread with
  | some entry =>
      obtain ⟨-, caller, -⟩ := body_parts body
      simp [Program.turn, Program.step, caller, Thread.program, Thread.code, Program.perform]
  | none =>
      by_contra moves
      obtain ⟨threads, moved⟩ := Option.ne_none_iff_exists'.mp moves
      have taken : Thread.step state.threads (.run thread pick) = some threads := moved
      simp only [State.turn, outside, body, State.perform, taken, Option.map_some, Option.bind_some] at none
      have calls : Calls { state with threads := threads } := going.calls
      obtain ⟨handle, loop, there, read, gone⟩ := calls.callback_none outside none
      obtain ⟨here, found⟩ := going.linked.immune.valid.abort_finds taken there
      exact clear (Or.inr (Or.inr (Or.inl ⟨thread, handle, loop, here, found, read, gone⟩)))

theorem Going.loop_rests (clear : ¬ Stranded state) (rests : ∀ thread, Thread.Rests state.threads thread)
    (read : state.loops own = some loop) : LoopRests state own loop := by
  have valid := going.linked.immune.valid
  have reached := going.linked.loops own loop read
  have host : state.Hosts own := by simp [State.Hosts, read]
  have fine (wrong : MessageLoop.Full loop ∨ MessageLoop.Overtaken loop) : False :=
    clear (Or.inr (Or.inr (Or.inr ⟨own, loop, read, wrong⟩)))
  have rest := rests (.library own)
  cases here : state.threads.status (.library own) with
  | absent =>
      obtain started | ⟨thread, pc, args, there, creates, -⟩ := going.making own host
      · have outline := valid.outline (.library own)
        rw [here] at outline
        obtain ⟨_, same, new⟩ := outline
        cases same
        exact absurd started new
      · have other := rests thread
        simp only [Thread.Rests, there] at other
        obtain other | ⟨rfl, -⟩ := other
        · cases pc <;> simp [Thread.PC.creates, Thread.PC.rests] at creates other
        · cases creates
  | running pc =>
      simp only [Thread.Rests, here] at rest
      obtain rest | ⟨rfl, _, same, closed⟩ := rest
      · cases pc with
        | caller =>
            obtain ⟨unfinished, blocked⟩ := run_stuck stuck read here (going.outside stuck clear _)
            have drained := (MessageLoop.going_of_reach reached).drained (going.client_stuck stuck read)
              (fun _ there locked => going.locked_stuck stuck read there locked) blocked
              (fun full => fine (Or.inl full)) fun overtaken => fine (Or.inr overtaken)
            obtain ⟨awaits, accepting⟩ | ⟨finished, -⟩ := drained.loop
            · exact .idle here awaits accepting drained.delivered
            · exact absurd finished unfinished
        | finished =>
            have finished := going.linked.served own loop read (Thread.ended_of_running here rfl)
            exact .ended here (MessageLoop.served_of_reach reached finished)
        | mainStart | mainReturn => exact absurd (valid.at here).placed Thread.ThreadId.noConfusion
        | _ => cases rest
      · cases same
        exact .unexecuted here closed
  | waiting cv mutex pc =>
      obtain ⟨there, -⟩ | parked := going.stands own loop read
      · cases here.symm.trans there
      · cases parked with
        | begins early =>
            rw [here] at early
            cases early
        | callback inside => exact .asleep here inside
        | ended there => cases here.symm.trans there

end Stuck

theorem Going.not_settled (going : Going state) (stranded : Stranded state) : ¬ Settled state := by
  intro settled
  obtain blocked | freed | ⟨thread, handle, loop, here, -⟩ | ⟨handle, loop, read, wrong⟩ := stranded
  · exact going.threads.busy (Or.inl blocked) settled.threads
  · exact going.threads.busy (Or.inr freed) settled.threads
  · have rest := settled.threads thread
    simp [Thread.Rests, here, Thread.PC.rests] at rest
  · have returned (number : Nat) : loop.status (.client number) = .running .caller := by
      obtain ⟨thread, rfl⟩ := number_surjective number
      exact (going.calls handle loop read thread).mpr (by simp [settled.calls thread])
    obtain ⟨number, site, here, -⟩ | ⟨-, number, busy⟩ := wrong
    · cases here.symm.trans (returned number)
    · exact busy (returned number)

/--
When no thread makes a new call, the threads and the loops in them stop after finitely many turns, in whatever
order they take them. Then all are at rest, each loop that is not aborted having handed over what it has
accepted and each that is having been served, except where a thread is stranded.
-/
theorem settles (reached : Reach step (Meets Thread.WaitsUncancelled) initial state) :
    Terminates (fun state (turn : Thread.ThreadId × Nat) => state.turn turn.1 turn.2)
      (fun final => Settled final ↔ ¬ Stranded final) state := by
  have going : Going state := reached.invariant Going initial_going fun _ _ _ going uncancelled taken =>
    going.preserved uncancelled taken
  have descends : Descends (fun (state : State) (turn : Thread.ThreadId × Nat) => state.turn turn.1 turn.2)
      Going State.load :=
    ⟨fun state turn next going taken =>
      going.preserved (show Meets Thread.WaitsUncancelled state (.turn turn.1 turn.2) from trivial) taken,
      fun state turn next going taken => going.smaller taken⟩
  refine descends.terminates going fun final going blocked => ?_
  have stuck (thread : Thread.ThreadId) (pick : Nat) : final.turn thread pick = none := blocked (thread, pick)
  refine ⟨fun settled stranded => going.not_settled stranded settled, fun clear => ?_⟩
  have rests : ∀ thread, Thread.Rests final.threads thread :=
    going.threads.rests (going.threads_stuck stuck clear) (fun freed => clear (Or.inr (Or.inl freed)))
      fun blocked => clear (Or.inl blocked)
  exact ⟨rests, going.outside stuck clear, fun own loop read => going.loop_rests stuck clear rests read⟩

end

theorem settles_postAndWait : ∃ state, exec step initial postAndWait = some state ∧
    Terminates (fun state (turn : Thread.ThreadId × Nat) => state.turn turn.1 turn.2)
      (fun final => Settled final ↔ ¬ Stranded final) state := by
  obtain ⟨state, run⟩ :=
    Option.isSome_iff_exists.mp (by decide +kernel : (exec step initial postAndWait).isSome)
  exact ⟨state, run, settles (reach_of_along run (by decide +kernel))⟩

end ZSystem.Hosted
