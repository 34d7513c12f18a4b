import ZSystem.MessageLoop.Program
import ZSystem.Thread.Program

set_option autoImplicit false

/-!
# Message loops in the threads of the library

`zs__messageloop_create` makes a thread with `zs__messageloop_run` as its run function and
`zs__messageloop_abort` as its abort callback. The threads of the library run any number of such loops, and
post to them, abort them and wait for them.
-/

namespace ZSystem.Hosted

open Posix Transition

def number : Thread.ThreadId -> Nat
  | .main => 0
  | .library own => 2 * own + 1
  | .outside number => 2 * number + 2

/-- The thread as a caller of `zs__messageloop_post` or `zs__messageloop_abort`. -/
def client (thread : Thread.ThreadId) : MessageLoop.ThreadId := .client (number thread)

structure State where
  threads : Thread.State
  -- The loop that `zs__messageloop_create` has made a thread for.
  loops : Nat -> Option MessageLoop.State
  -- The loop whose `zs__messageloop_post` or `zs__messageloop_abort` a thread is in.
  inside : Thread.ThreadId -> Option Nat

def initial : State := { threads := Thread.initial, loops := fun _ => none, inside := fun _ => none }

inductive Action where
  /-- The thread goes on with what it is doing. -/
  | turn (thread : Thread.ThreadId) (pick : Nat)
  | call (thread : Thread.ThreadId) (place : Thread.PC)
  /-- `zs__messageloop_create`, with the thread that the call is going to make. -/
  | create (thread : Thread.ThreadId) (handle : Nat)
  | post (thread : Thread.ThreadId) (handle data : Nat)
  | wake (thread : Thread.ThreadId)
  | interrupt (thread : Thread.ThreadId)

/-- `zs__messageloop_run` is inside `response` or `after_abort`. -/
def inCallback (loop : MessageLoop.State) : Bool :=
  match loop.status .run with
  | .running (.runFree _) | .running .runDestroy => true
  | _ => false

def State.own (state : State) : Thread.ThreadId -> Option MessageLoop.State
  | .library own => state.loops own
  | _ => none

/-- The thread is in code of its user, which may call the library. -/
def State.free (state : State) (thread : Thread.ThreadId) : Bool :=
  (state.inside thread).isNone && (state.own thread).all inCallback

/-- The loop whose `zs__messageloop_run` the thread is in. -/
def State.body (state : State) : Thread.ThreadId -> Option (Nat × MessageLoop.State)
  | .library own =>
      match state.threads.status (.library own) with
      | .running .caller => (state.loops own).map fun loop => (own, loop)
      | _ => none
  | _ => none

def State.put (state : State) (handle : Nat) (loop : MessageLoop.State) : State :=
  { state with loops := Function.update state.loops handle (some loop) }

/-- The thread is inside a call on the loop until the call has returned. -/
def State.settle (state : State) (thread : Thread.ThreadId) (handle : Nat) (loop : MessageLoop.State) : State :=
  { state.put handle loop with
    inside := Function.update state.inside thread
      (if loop.status (client thread) = .running .caller then none else some handle) }

def State.perform (state : State) (action : Thread.Action) : Option State :=
  (Thread.step state.threads action).map fun threads => { state with threads := threads }

def State.within (state : State) (thread : Thread.ThreadId) (handle : Nat) (action : MessageLoop.Action) :
    Option State :=
  (state.loops handle).bind fun loop =>
    (MessageLoop.step loop action).map fun after => state.settle thread handle after

/-- `zs__thread_abort` calls the abort callback of the thread that it has found. -/
def State.callback (state : State) (thread : Thread.ThreadId) : Option State :=
  match state.threads.status thread with
  | .running (.abortCallback handle) =>
      if state.loops handle = none then some state
      else state.within thread handle (.call (client thread) (.duplicate .abortLock))
  | _ => some state

def State.turn (state : State) (thread : Thread.ThreadId) (pick : Nat) : Option State :=
  match state.inside thread with
  | some handle => state.within thread handle (.run (client thread) pick)
  | none =>
      match state.body thread with
      | some (handle, loop) =>
          if loop.status .run = .running .finished then state.perform (.call thread .cleanupLockMap)
          else (MessageLoop.step loop (.run .run pick)).map (state.put handle)
      | none => (state.perform (.run thread pick)).bind fun next => next.callback thread

/-- The arguments that `zs__messageloop_create` gives to `zs__thread_create`. -/
def loopArgs (handle : Nat) : Thread.Create := { thread := handle, run := true, abort := true }

def step (state : State) : Action -> Option State
  | .turn thread pick => state.turn thread pick
  | .call thread place =>
      -- A return from `zs__messageloop_run` is not up to the user.
      if state.free thread ∧ (place = .cleanupLockMap -> (state.own thread).isNone) then
        state.perform (.call thread place)
      else none
  | .create thread handle =>
      if state.free thread then
        (state.perform (.call thread (.createLockRunning (loopArgs handle)))).map fun next =>
          next.put handle MessageLoop.initial
      else none
  | .post thread handle data =>
      -- `zs__messageloop_create` has returned.
      if state.free thread ∧ state.threads.status thread = .running .caller ∧
          handle ∈ state.threads.data.started then
        state.within thread handle (.call (client thread) (.duplicate (.postLock data)))
      else none
  | .wake thread => state.perform (.wake thread)
  | .interrupt thread => if state.inside thread = none then state.perform (.interrupt thread) else none

/-! ## What one step can do -/

inductive Step (state : State) : Action -> State -> Prop where
  | within {thread : Thread.ThreadId} {pick handle : Nat} {loop after : MessageLoop.State}
      (here : state.inside thread = some handle) (read : state.loops handle = some loop)
      (moved : MessageLoop.step loop (.run (client thread) pick) = some after) :
      Step state (.turn thread pick) (state.settle thread handle after)
  | body {own pick : Nat} {loop after : MessageLoop.State} (outside : state.inside (.library own) = none)
      (here : state.threads.status (.library own) = .running .caller) (read : state.loops own = some loop)
      (moved : MessageLoop.step loop (.run .run pick) = some after) :
      Step state (.turn (.library own) pick) (state.put own after)
  | returns {own pick : Nat} {loop : MessageLoop.State} {threads : Thread.State}
      (outside : state.inside (.library own) = none) (read : state.loops own = some loop)
      (finished : loop.status .run = .running .finished)
      (moved : Thread.step state.threads (.call (.library own) .cleanupLockMap) = some threads) :
      Step state (.turn (.library own) pick) { state with threads := threads }
  | goesOn {thread : Thread.ThreadId} {pick : Nat} {threads : Thread.State} (outside : state.inside thread = none)
      (away : state.body thread = none) (moved : Thread.step state.threads (.run thread pick) = some threads)
      (quiet : ∀ handle, threads.status thread = .running (.abortCallback handle) -> state.loops handle = none) :
      Step state (.turn thread pick) { state with threads := threads }
  | aborts {thread : Thread.ThreadId} {pick handle : Nat} {threads : Thread.State} {loop after : MessageLoop.State}
      (outside : state.inside thread = none) (away : state.body thread = none)
      (moved : Thread.step state.threads (.run thread pick) = some threads)
      (there : threads.status thread = .running (.abortCallback handle)) (read : state.loops handle = some loop)
      (entered : MessageLoop.step loop (.call (client thread) (.duplicate .abortLock)) = some after) :
      Step state (.turn thread pick) ({ state with threads := threads }.settle thread handle after)
  | call {thread : Thread.ThreadId} {place : Thread.PC} {threads : Thread.State} (free : state.free thread = true)
      (user : place = .cleanupLockMap -> state.own thread = none)
      (moved : Thread.step state.threads (.call thread place) = some threads) :
      Step state (.call thread place) { state with threads := threads }
  | create {thread : Thread.ThreadId} {handle : Nat} {threads : Thread.State} (free : state.free thread = true)
      (moved : Thread.step state.threads (.call thread (.createLockRunning (loopArgs handle))) = some threads) :
      Step state (.create thread handle) ({ state with threads := threads }.put handle MessageLoop.initial)
  | post {thread : Thread.ThreadId} {handle data : Nat} {loop after : MessageLoop.State}
      (free : state.free thread = true) (here : state.threads.status thread = .running .caller)
      (read : state.loops handle = some loop)
      (entered : MessageLoop.step loop (.call (client thread) (.duplicate (.postLock data))) = some after) :
      Step state (.post thread handle data) (state.settle thread handle after)
  | wake {thread : Thread.ThreadId} {threads : Thread.State}
      (moved : Thread.step state.threads (.wake thread) = some threads) :
      Step state (.wake thread) { state with threads := threads }
  | interrupt {thread : Thread.ThreadId} {threads : Thread.State} (outside : state.inside thread = none)
      (moved : Thread.step state.threads (.interrupt thread) = some threads) :
      Step state (.interrupt thread) { state with threads := threads }

section

variable {state next : State} {action : Action} {thread : Thread.ThreadId} {handle : Nat}

theorem within_parts {step : MessageLoop.Action} (taken : state.within thread handle step = some next) :
    ∃ loop after, state.loops handle = some loop ∧ MessageLoop.step loop step = some after ∧
      next = state.settle thread handle after := by
  obtain ⟨loop, read, moves⟩ := Option.bind_eq_some_iff.mp taken
  obtain ⟨after, moved, rfl⟩ := Option.map_eq_some_iff.mp moves
  exact ⟨loop, after, read, moved, rfl⟩

theorem perform_parts {step : Thread.Action} (taken : state.perform step = some next) :
    ∃ threads, Thread.step state.threads step = some threads ∧ next = { state with threads := threads } := by
  obtain ⟨threads, moved, rfl⟩ := Option.map_eq_some_iff.mp taken
  exact ⟨threads, moved, rfl⟩

theorem body_parts {loop : MessageLoop.State} (body : state.body thread = some (handle, loop)) :
    thread = .library handle ∧ state.threads.status thread = .running .caller ∧ state.loops handle = some loop := by
  cases thread with
  | library own =>
      simp only [State.body] at body
      split at body
      · obtain ⟨_, read, same⟩ := Option.map_eq_some_iff.mp body
        cases same
        exact ⟨rfl, by assumption, read⟩
      · cases body
  | main | outside => cases body

theorem turn_cases {pick : Nat} (taken : state.turn thread pick = some next) :
    Step state (.turn thread pick) next := by
  unfold State.turn at taken
  cases outside : state.inside thread with
  | some handle =>
      simp only [outside] at taken
      obtain ⟨loop, after, read, moved, rfl⟩ := within_parts taken
      exact .within outside read moved
  | none =>
      simp only [outside] at taken
      cases body : state.body thread with
      | some entry =>
          obtain ⟨handle, loop⟩ := entry
          obtain ⟨rfl, here, read⟩ := body_parts body
          simp only [body] at taken
          split_ifs at taken with finished
          · obtain ⟨threads, moved, rfl⟩ := perform_parts taken
            exact .returns outside read finished moved
          · obtain ⟨after, moved, rfl⟩ := Option.map_eq_some_iff.mp taken
            exact .body outside here read moved
      | none =>
          simp only [body] at taken
          obtain ⟨_, performed, called⟩ := Option.bind_eq_some_iff.mp taken
          obtain ⟨threads, moved, rfl⟩ := perform_parts performed
          unfold State.callback at called
          split at called
          · next handle there =>
              split_ifs at called with plain
              · cases called
                refine .goesOn outside body moved fun other same => ?_
                cases there.symm.trans same
                exact plain
              · obtain ⟨loop, after, read, entered, rfl⟩ := within_parts called
                exact .aborts outside body moved there read entered
          · next elsewhere =>
              cases called
              exact .goesOn outside body moved fun other same => absurd same (elsewhere other)

theorem step_cases (taken : step state action = some next) : Step state action next := by
  cases action with
  | turn thread pick => exact turn_cases taken
  | call thread place =>
      simp only [step, Option.ite_none_right_eq_some] at taken
      obtain ⟨⟨free, user⟩, performed⟩ := taken
      obtain ⟨threads, moved, rfl⟩ := perform_parts performed
      exact .call free (fun same => Option.isNone_iff_eq_none.mp (user same)) moved
  | create thread handle =>
      simp only [step, Option.ite_none_right_eq_some, Option.map_eq_some_iff] at taken
      obtain ⟨free, _, performed, rfl⟩ := taken
      obtain ⟨threads, moved, rfl⟩ := perform_parts performed
      exact .create free moved
  | post thread handle data =>
      simp only [step, Option.ite_none_right_eq_some] at taken
      obtain ⟨⟨free, here, -⟩, called⟩ := taken
      obtain ⟨loop, after, read, entered, rfl⟩ := within_parts called
      exact .post free here read entered
  | wake thread =>
      obtain ⟨threads, moved, rfl⟩ := perform_parts taken
      exact .wake moved
  | interrupt thread =>
      simp only [step, Option.ite_none_right_eq_some] at taken
      obtain ⟨threads, moved, rfl⟩ := perform_parts taken.2
      exact .interrupt taken.1 moved

end

end ZSystem.Hosted
