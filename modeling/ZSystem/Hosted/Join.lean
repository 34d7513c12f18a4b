import ZSystem.Hosted.Program
import ZSystem.MessageLoop.Lifetime
import ZSystem.MessageLoop.Memory
import ZSystem.Thread.Immune

set_option autoImplicit false

/-!
# What whoever waits for a message loop may rely on

The thread of a loop ends by a return from `zs__messageloop_run` only. When `zs__thread_wait` has waited for
that thread, or `zs__execute` for all, the loop has handed over whatever it has accepted.
-/

namespace ZSystem.MessageLoop

open Posix Transition

/-- The loop has come to its end, and nothing is left to do or to free. -/
structure Served (state : State) : Prop where
  finished : state.status .run = .running .finished
  delivered : state.data.delivered = state.data.enqueued.map Prod.snd
  /-- Each post that has returned true has been handed to `response`. -/
  accepted : ∀ index, (index, true) ∈ state.data.returned -> ∃ thread posted,
    state.data.sections[index]? = some (thread, .post posted) ∧ posted ∈ state.data.delivered
  aborted : HasAbort state.data.sections
  elements : ∀ address, state.data.queue.elements address = none
  freed : state.data.destroyed = true ∧ state.data.freed = true

section

variable {state next : State} {action : Action}

theorem served_of_reach (reached : Reachable step initial state)
    (finished : state.status .run = .running .finished) : Served state := by
  have alive := alive_of_reach reached
  have log := alive.flowing.sectioned.log
  obtain ⟨pc, addresses, contents, hand, here, flow⟩ := alive.flowing.flow
  cases here.symm.trans finished
  obtain ⟨nothing, aborting⟩ := flow.left rfl
  have delivered : state.data.delivered = state.data.enqueued.map Prod.snd := by
    rw [flow.order, flow.hand.left rfl, nothing, List.append_nil, List.append_nil]
  refine ⟨finished, delivered, fun index member => ?_, log.aborted aborting,
    (owning_of_reach reached).empty finished rfl, ?_⟩
  · obtain ⟨entry, listed, same⟩ := List.mem_map.mp ((log.returned _ member).2.mp rfl)
    obtain ⟨⟨thread, placed⟩, -⟩ := log.accepted entry listed
    obtain rfl : entry.1 = index := same
    refine ⟨thread, entry.2, placed, ?_⟩
    rw [delivered]
    exact List.mem_map_of_mem listed
  · exact ⟨alive.destroyed _ finished, by simp [alive.freed _ finished]⟩

theorem Move.unfinished {thread : ThreadId} {data after : Data} {pc place : PC} {value values : Sem -> Nat}
    (move : Move thread data value pc place after values) : pc ≠ .finished := by
  cases move <;> exact PC.noConfusion

theorem finished_kept (reached : Reachable step initial state) (taken : step state action = some next)
    (finished : state.status .run = .running .finished) : next.status .run = .running .finished := by
  obtain ⟨pc, place, here, moved, move⟩ := step_move (alive_of_reach reached).flowing.sectioned.all taken
  by_cases mine : action.actor = .run
  · rw [mine] at here
    cases here.symm.trans finished
    exact absurd rfl move.unfinished
  · simp [moved, Ne.symm mine, finished]

end

end ZSystem.MessageLoop

namespace ZSystem.Hosted

open Posix Transition

/-- The step as one of the threads; the calls are always possible where there is no step of theirs. -/
def Action.thread : Action -> Thread.Action
  | .turn thread pick => .run thread pick
  | .call thread place => .call thread place
  | .create thread handle => .call thread (.createLockRunning (loopArgs handle))
  | .post thread _ _ => .call thread .caller
  | .wake thread => .wake thread
  | .interrupt thread => .interrupt thread

/-- A condition on the steps of the threads that says nothing about their calls. -/
def Meets (cond : Thread.State -> Thread.Action -> Prop) (state : State) (action : Action) : Prop :=
  cond state.threads action.thread

instance (cond : Thread.State -> Thread.Action -> Prop) [∀ state action, Decidable (cond state action)]
    (state : State) (action : Action) : Decidable (Meets cond state action) :=
  inferInstanceAs (Decidable (cond state.threads action.thread))

def State.Hosts (state : State) (handle : Nat) : Prop := state.loops handle ≠ none

section

variable {state next : State} {action : Action} {thread : Thread.ThreadId} {handle : Nat}

theorem Step.threads (step : Step state action next) : next.threads = state.threads ∨
    ∃ act, Thread.step state.threads act = some next.threads ∧
      (act = action.thread ∨ ∃ thread place, act = .call thread place) := by
  cases step with
  | within | body | post => exact Or.inl rfl
  | returns _ _ _ moved => exact Or.inr ⟨_, moved, Or.inr ⟨_, _, rfl⟩⟩
  | goesOn _ _ moved | aborts _ _ moved | call _ _ moved | create _ moved | wake moved | interrupt _ moved =>
      exact Or.inr ⟨_, moved, Or.inl rfl⟩

theorem Step.keeps {inv : Thread.State -> Prop} {cond : Thread.State -> Thread.Action -> Prop}
    (calls : ∀ state thread place, cond state (.call thread place))
    (kept : ∀ state act next, inv state -> cond state act -> Thread.step state act = some next -> inv next)
    (holds : inv state.threads) (meets : Meets cond state action) (step : Step state action next) :
    inv next.threads := by
  obtain same | ⟨act, moved, rfl | ⟨thread, place, rfl⟩⟩ := step.threads
  · exact same ▸ holds
  · exact kept _ _ _ holds meets moved
  · exact kept _ _ _ holds (calls _ _ _) moved

theorem put_loops (loop : MessageLoop.State) (other : Nat) :
    (state.put handle loop).loops other = if other = handle then some loop else state.loops other := by
  simp [State.put, Function.update_apply]

theorem settle_loops (loop : MessageLoop.State) (other : Nat) :
    (state.settle thread handle loop).loops other = if other = handle then some loop else state.loops other := by
  simp [State.settle, State.put, Function.update_apply]

/-- What a step does to a loop. -/
theorem Step.loop (step : Step state action next) (handle : Nat) :
    next.loops handle = state.loops handle ∨
      (∃ loop after act, state.loops handle = some loop ∧ next.loops handle = some after ∧
        MessageLoop.step loop act = some after) ∨
      ∃ thread, action = .create thread handle ∧ next.loops handle = some MessageLoop.initial := by
  cases step with
  | @within _ _ changed _ _ _ read moved | @aborts _ _ changed _ _ _ _ _ _ _ read moved
  | @post _ changed _ _ _ _ _ read moved =>
      simp only [settle_loops]
      split_ifs with same
      · exact Or.inr (Or.inl ⟨_, _, _, same ▸ read, rfl, moved⟩)
      · exact Or.inl rfl
  | @body changed _ _ _ _ _ read moved =>
      simp only [put_loops]
      split_ifs with same
      · exact Or.inr (Or.inl ⟨_, _, _, same ▸ read, rfl, moved⟩)
      · exact Or.inl rfl
  | @create thread changed =>
      simp only [put_loops]
      split_ifs with same
      · exact Or.inr (Or.inr ⟨thread, by rw [same], rfl⟩)
      · exact Or.inl rfl
  | _ => exact Or.inl rfl

theorem Step.hosts (step : Step state action next) :
    next.Hosts = state.Hosts ∨ ∃ thread handle, action = .create thread handle ∧
      next.Hosts = fun other => state.Hosts other ∨ other = handle := by
  have written {loop after : MessageLoop.State} {changed : Nat} {inside : Thread.ThreadId -> Option Nat}
      {threads : Thread.State} (read : state.loops changed = some loop) :
      State.Hosts ⟨threads, Function.update state.loops changed (some after), inside⟩ = state.Hosts := by
    funext other
    by_cases same : other = changed
    · simp [State.Hosts, same, read]
    · simp [State.Hosts, same]
  cases step with
  | within _ read | body _ _ read | aborts _ _ _ _ read | post _ _ read => exact Or.inl (written read)
  | @create thread changed =>
      refine Or.inr ⟨thread, changed, rfl, ?_⟩
      funext other
      by_cases same : other = changed
      · simp [State.Hosts, State.put, same]
      · simp [State.Hosts, State.put, same]
  | _ => exact Or.inl rfl

structure Linked (state : State) : Prop where
  immune : Thread.Immune state.Hosts state.threads
  loops : ∀ handle loop, state.loops handle = some loop ->
    Reachable MessageLoop.step MessageLoop.initial loop
  served : ∀ handle loop, state.loops handle = some loop -> Thread.ended state.threads handle = true ->
    loop.status .run = .running .finished

theorem Linked.immune_preserved (linked : Linked state) (step : Step state action next) :
    Thread.Immune next.Hosts next.threads := by
  obtain same | ⟨thread, handle, rfl, hosts⟩ := step.hosts
  · rw [same]
    obtain threads | ⟨act, moved, -⟩ := step.threads
    · rw [threads]
      exact linked.immune
    · exact linked.immune.preserved moved
  · rw [hosts]
    cases step with
    | create free moved => exact linked.immune.host moved rfl rfl

theorem Linked.loops_preserved (linked : Linked state) (step : Step state action next)
    {after : MessageLoop.State} (there : next.loops handle = some after) :
    Reachable MessageLoop.step MessageLoop.initial after := by
  obtain same | ⟨loop, result, act, read, written, moved⟩ | ⟨thread, -, written⟩ := step.loop handle
  · exact linked.loops handle after (same ▸ there)
  · cases there.symm.trans written
    exact .tail (linked.loops handle loop read) trivial moved
  · cases there.symm.trans written
    exact .refl

/-- A thread whose loop goes on has not ended, and a step that ends it is a return from the loop. -/
theorem Linked.ends (linked : Linked state) (step : Step state action next) {loop : MessageLoop.State}
    (read : state.loops handle = some loop) (before : Thread.ended state.threads handle = false)
    (after : Thread.ended next.threads handle = true) :
    loop.status .run = .running .finished ∧ next.loops handle = some loop := by
  have host : state.Hosts handle := by simp [State.Hosts, read]
  have returned {act : Thread.Action} (moved : Thread.step state.threads act = some next.threads) :
      act = .call (.library handle) .cleanupLockMap := linked.immune.returns moved host before after
  cases step with
  | within | body | post => exact absurd (before.symm.trans after) Bool.false_ne_true
  | @returns own _ loop' _ _ known finished moved =>
      cases returned moved
      cases read.symm.trans known
      exact ⟨finished, read⟩
  | call free user moved =>
      cases returned moved
      exact absurd (user rfl) (by simp [State.own, read])
  | goesOn _ _ moved | aborts _ _ moved | create _ moved | wake moved | interrupt _ moved =>
      cases returned moved

theorem Linked.served_preserved (linked : Linked state) (step : Step state action next)
    {after : MessageLoop.State} (there : next.loops handle = some after)
    (ended : Thread.ended next.threads handle = true) : after.status .run = .running .finished := by
  obtain same | ⟨loop, result, act, read, written, moved⟩ | ⟨thread, rfl, written⟩ := step.loop handle
  · have read := same.symm.trans there
    cases before : Thread.ended state.threads handle with
    | true => exact linked.served handle after read before
    | false => exact (linked.ends step read before ended).1
  · cases there.symm.trans written
    refine MessageLoop.finished_kept (linked.loops handle loop read) moved ?_
    cases before : Thread.ended state.threads handle with
    | true => exact linked.served handle loop read before
    | false => exact (linked.ends step read before ended).1
  · -- The thread of a loop that has just been made is not started yet.
    obtain ⟨pc, here, -⟩ := Thread.running_of_ended ended
    have valid := (linked.immune_preserved step).valid
    have called : next.threads.status thread = .running (.createLockRunning (loopArgs handle)) := by
      cases step with
      | create free moved =>
          obtain ⟨_, _, -, -, rfl⟩ := call_parts moved
          exact Function.update_self _ _ _
    exact absurd ((valid.at here).own handle rfl).started (valid.at called).place.notStarted

theorem Linked.preserved (linked : Linked state) (taken : Hosted.step state action = some next) : Linked next where
  immune := linked.immune_preserved (step_cases taken)
  loops _ _ there := linked.loops_preserved (step_cases taken) there
  served _ _ there ended := linked.served_preserved (step_cases taken) there ended

theorem initial_linked : Linked initial where
  immune := by
    have nobody : initial.Hosts = fun _ => False := by
      funext handle
      simp [State.Hosts, initial]
    rw [nobody]
    exact Thread.initial_immune
  loops _ _ there := by cases there
  served _ _ there := by cases there

/-- What `zs__thread_wait` and `zs__execute` have waited for, as far as message loops go. -/
structure Joined (state : State) : Prop where
  wait : ∀ thread handle loop, Thread.WaitReturns state.threads thread handle ->
    state.loops handle = some loop -> MessageLoop.Served loop
  execute : Thread.ExecuteReturns state.threads -> ∀ handle loop, state.loops handle = some loop ->
    handle ∈ state.threads.data.started -> MessageLoop.Served loop

end

def turns (thread : Thread.ThreadId) (count : Nat) : List Action := List.replicate count (.turn thread 1)

/-- `zs__execute` with thread 0, which makes a message loop in thread 1. -/
def launchLoop : List Action :=
  .call .main (.createLockRunning { thread := 0, run := true, abort := false }) :: turns .main 15 ++
    turns (.library 0) 3 ++ .create (.library 0) 1 :: turns (.library 0) 11 ++
    .call (.library 0) (.executeLockMap 1) :: turns (.library 0) 4 ++ turns (.library 1) 3

/-- Thread 0 posts a message and waits for the loop, which somebody aborts. -/
def postAndWait : List Action :=
  launchLoop ++ .post (.library 0) 1 7 :: turns (.library 0) 11 ++
    .call (.library 0) (.waitLockMap 1) :: turns (.library 0) 6 ++
    .call (.outside 0) (.abortLockMap 1) :: turns (.outside 0) 14

end ZSystem.Hosted
