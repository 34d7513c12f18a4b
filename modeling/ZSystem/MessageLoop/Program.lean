import Mathlib.Data.Finset.Card
import ZSystem.MessageLoop.Queue
import ZSystem.Shared.Semaphore

set_option autoImplicit false

/-!
# The message loop

One thread runs `zs__messageloop_run` on a loop, and any number of others call `zs__messageloop_post`
and `zs__messageloop_abort` on it. A post made by a callback of the loop behaves like one of another
thread that happens while the loop thread does nothing.
-/

namespace ZSystem.MessageLoop

open Posix

inductive ThreadId where
  | run
  | client (number : Nat)
  deriving DecidableEq, Repr

inductive Sem where
  -- Semaphore 0 locks the request queue.
  | queue
  -- Semaphore 1 counts the requests.
  | requests
  deriving DecidableEq, Repr

inductive Site where
  | postLock (data : Nat)
  | postAnnounce
  | postUnlock (back : Bool)
  | abortLock
  | abortAnnounce
  | abortUnlock
  | runAwait
  | runLock
  | runUnlock (element : Nat)
  deriving DecidableEq, Repr

def Site.sem : Site -> Sem
  | .postAnnounce | .abortAnnounce | .runAwait => .requests
  | _ => .queue

/-- `a_value` is -1, not 1. -/
def Site.down : Site -> Bool
  | .postLock _ | .abortLock | .runAwait | .runLock => true
  | _ => false

/-- A place names the next thing to do; the prefix is the function it belongs to. -/
inductive PC where
  | caller
  /-- `zs__semaphore_op` reads the handle of the loop and duplicates it. -/
  | duplicate (site : Site)
  | op (site : Site)
  | dropDuplicate (site : Site)
  | postTest (data : Nat)
  | postInsert (data : Nat)
  | abortTest
  | runTake
  | runRespond (element : Nat)
  | runFree (element : Nat)
  | runAfterAbort
  | runDestroy
  | runFreeLoop
  | finished
  deriving DecidableEq, Repr

def Site.next : Site -> PC
  | .postLock data => .postTest data
  | .postAnnounce => .duplicate (.postUnlock true)
  | .postUnlock _ => .caller
  | .abortLock => .abortTest
  | .abortAnnounce => .duplicate .abortUnlock
  | .abortUnlock => .caller
  | .runAwait => .duplicate .runLock
  | .runLock => .runTake
  | .runUnlock element => if element = 0 then .runAfterAbort else .runRespond element

/-- A stretch of `zs__messageloop_post` or `zs__messageloop_abort` with semaphore 0 held. -/
inductive Section where
  | post (data : Nat)
  | abort
  deriving DecidableEq, Repr

structure Data where
  queue : Queue := {}
  aborting : Bool := false
  -- The counter that the handle of the loop and its duplicates share.
  references : Nat := 1
  -- The kernel semaphores have been removed with the last reference.
  removed : Bool := false
  -- `zs__semaphore_destroy` has freed the handle of the loop.
  destroyed : Bool := false
  freed : Bool := false
  -- History: the threads that have a duplicate of the handle.
  users : Finset ThreadId := ∅
  -- History: every section, in the order in which they got semaphore 0.
  sections : List (ThreadId × Section) := []
  -- History: the place of a thread's latest section in `sections`.
  current : ThreadId -> Nat := fun _ => 0
  -- History: the data put into the queue, each with the place of its section.
  enqueued : List (Nat × Nat) := []
  -- History: what the posts have returned, each with the place of its section.
  returned : List (Nat × Bool) := []
  -- History: the data handed to `response`.
  delivered : List Nat := []
  -- History: something is in the queue, or an abort is in force, that semaphore 1 does not count yet.
  owed : Bool := false

def Data.duplicate (data : Data) (thread : ThreadId) : Data :=
  { data with references := data.references + 1, users := insert thread data.users }

/-- The part of `zs__semaphore_destroy` that the handles share. -/
def Data.release (data : Data) : Data :=
  { data with references := data.references - 1, removed := decide (data.references - 1 = 0) }

def Data.drop (data : Data) (thread : ThreadId) : Data :=
  { data.release with users := data.users.erase thread }

def Data.enqueue (data : Data) (thread : ThreadId) (posted : Nat) (queue : Queue) : Data :=
  { data with
    queue := queue
    enqueued := data.enqueued ++ [(data.current thread, posted)]
    owed := true }

def Data.begin (data : Data) (thread : ThreadId) (stretch : Section) : Data :=
  { data with
    sections := data.sections ++ [(thread, stretch)]
    current := Function.update data.current thread data.sections.length }

/-- What is written down when the semaphore operation of a call has been performed. -/
def Site.performed (thread : ThreadId) : Site -> Data -> Data
  | .postLock posted, data => data.begin thread (.post posted)
  | .abortLock, data => data.begin thread .abort
  | .postAnnounce, data | .abortAnnounce, data => { data with owed := false }
  | _, data => data

/-- What is written down when a call returns. -/
def Site.returned (thread : ThreadId) : Site -> Data -> Data
  | .postUnlock back, data => { data with returned := data.returned ++ [(data.current thread, back)] }
  | _, data => data

abbrev Code := Instr ThreadId Sem PC Data

def onLoop (effect : Nat -> Data -> Option (Data × PC)) : Code :=
  .act fun pick data => if data.freed then none else effect pick data

def code (thread : ThreadId) : PC -> Code
  | .caller => .halt
  -- zs__semaphore_op
  | .duplicate site => .act fun _ data =>
      if data.destroyed then none else some (data.duplicate thread, .op site)
  | .op site =>
      if site.down then .acquire site.sem (.dropDuplicate site) else .release site.sem (.dropDuplicate site)
  | .dropDuplicate site => .act fun _ data => some (data.drop thread, site.next)
  -- zs__messageloop_post
  | .postTest posted => onLoop fun _ data => some
      (data, if data.aborting then .duplicate (.postUnlock false) else .postInsert posted)
  | .postInsert posted => onLoop fun address data =>
      (data.queue.insert address posted).map fun queue =>
        (data.enqueue thread posted queue, .duplicate .postAnnounce)
  -- zs__messageloop_abort
  | .abortTest => onLoop fun _ data => some <|
      if data.aborting then (data, .duplicate .abortUnlock)
      else ({ data with aborting := true, owed := true }, .duplicate .abortAnnounce)
  -- zs__messageloop_run
  | .runTake => onLoop fun _ data => data.queue.remove.map fun (queue, element) =>
      ({ data with queue := queue }, .duplicate (.runUnlock element))
  | .runRespond element => onLoop fun _ data => (data.queue.elements element).map fun node =>
      ({ data with delivered := data.delivered ++ [node.data] }, .runFree element)
  | .runFree element => .act fun _ data => some
      ({ data with queue := data.queue.free element }, .duplicate .runAwait)
  | .runAfterAbort => onLoop fun _ data => some (data, .runDestroy)
  | .runDestroy => onLoop fun _ data => some ({ data.release with destroyed := true }, .runFreeLoop)
  | .runFreeLoop => .act fun _ data => some ({ data with freed := true }, .finished)
  | .finished => .halt

/-- Calls are made while the loop exists. -/
def calls (_ : ThreadId) : PC -> PC -> Data -> Option Data
  | .caller, .duplicate (.postLock _), data | .caller, .duplicate .abortLock, data =>
      if data.destroyed then none else some data
  | _, _, _ => none

def note (thread : ThreadId) : PC -> Data -> Data
  | .op site, data => site.performed thread data
  | .dropDuplicate site, data => site.returned thread data
  | _, data => data

/-- A semaphore cannot exceed `SEMVMX`; `zs__semaphore_op` then tries again. -/
def program : Program ThreadId Sem PC Data where
  code := code
  calls := calls
  note := note
  limit := some 32767

abbrev State := Posix.State ThreadId Sem PC Data

abbrev Action := Posix.Act ThreadId PC

/-- `zs__messageloop_create` has returned, and the thread of the loop has been executed. -/
def initial : State where
  owner _ := none
  sleepers _ := []
  value
    | .queue => 1
    | .requests => 0
  cancelled _ := false
  status
    | .run => .running (.duplicate .runAwait)
    | .client _ => .running .caller
  data := {}

abbrev step : State -> Action -> Option State := program.step

/-! ## What one step can do -/

/-- The possible moves of a thread from a place to another, with the data and the semaphores. -/
inductive Move (thread : ThreadId) (data : Data) (value : Sem -> Nat) :
    PC -> PC -> Data -> (Sem -> Nat) -> Prop where
  | call {site : Site} (called : (∃ posted, site = .postLock posted) ∨ site = .abortLock)
      (present : data.destroyed = false) : Move thread data value .caller (.duplicate site) data value
  | duplicate {site : Site} (present : data.destroyed = false) :
      Move thread data value (.duplicate site) (.op site) (data.duplicate thread) value
  | acquire {site : Site} (down : site.down = true) (free : 0 < value site.sem) :
      Move thread data value (.op site) (.dropDuplicate site) (site.performed thread data)
        (Function.update value site.sem (value site.sem - 1))
  | release {site : Site} (up : site.down = false) :
      Move thread data value (.op site) (.dropDuplicate site) (site.performed thread data)
        (Function.update value site.sem (value site.sem + 1))
  | drop {site : Site} :
      Move thread data value (.dropDuplicate site) site.next (site.returned thread (data.drop thread)) value
  | refuse {posted : Nat} (aborting : data.aborting = true) :
      Move thread data value (.postTest posted) (.duplicate (.postUnlock false)) data value
  | accept {posted : Nat} (accepting : data.aborting = false) :
      Move thread data value (.postTest posted) (.postInsert posted) data value
  | insert {posted address : Nat} {queue : Queue}
      (inserted : data.queue.insert address posted = some queue) :
      Move thread data value (.postInsert posted) (.duplicate .postAnnounce)
        (data.enqueue thread posted queue) value
  | again (aborting : data.aborting = true) :
      Move thread data value .abortTest (.duplicate .abortUnlock) data value
  | abort (accepting : data.aborting = false) :
      Move thread data value .abortTest (.duplicate .abortAnnounce)
        { data with aborting := true, owed := true } value
  | take {element : Nat} {queue : Queue} (removed : data.queue.remove = some (queue, element)) :
      Move thread data value .runTake (.duplicate (.runUnlock element)) { data with queue := queue } value
  | respond {element : Nat} {node : Element} (read : data.queue.elements element = some node) :
      Move thread data value (.runRespond element) (.runFree element)
        { data with delivered := data.delivered ++ [node.data] } value
  | free {element : Nat} :
      Move thread data value (.runFree element) (.duplicate .runAwait)
        { data with queue := data.queue.free element } value
  | afterAbort : Move thread data value .runAfterAbort .runDestroy data value
  | destroy : Move thread data value .runDestroy .runFreeLoop { data.release with destroyed := true } value
  | freeLoop : Move thread data value .runFreeLoop .finished { data with freed := true } value

def AllRunning (state : State) : Prop := ∀ thread, ∃ pc, state.status thread = .running pc

variable {state next : State} {action : Action} {thread : ThreadId} {pc place : PC} {data : Data}

theorem calls_cases {result : Data} (chosen : calls thread pc place data = some result) :
    pc = .caller ∧ result = data ∧ data.destroyed = false ∧
      ∃ site, place = .duplicate site ∧ ((∃ posted, site = .postLock posted) ∨ site = .abortLock) := by
  unfold calls at chosen
  split at chosen <;> simp only [Option.ite_none_left_eq_some, Option.some.injEq, reduceCtorEq] at chosen
  · exact ⟨rfl, chosen.2.symm, by simpa using chosen.1, _, rfl, Or.inl ⟨_, rfl⟩⟩
  · exact ⟨rfl, chosen.2.symm, by simpa using chosen.1, _, rfl, Or.inr rfl⟩

theorem perform_move {pick : Nat} {after : State} (here : state.status thread = .running pc)
    (performed : program.perform thread pick state (code thread pc) = some after) :
    ∃ place, after.status = Function.update state.status thread (.running place) ∧
      Move thread state.data state.value pc place (note thread pc after.data) after.value := by
  cases pc with
  | caller | finished => simp [code, Program.perform] at performed
  | duplicate site =>
      simp only [code, Program.perform, Option.map_eq_some_iff, Option.ite_none_left_eq_some,
        Option.some.injEq] at performed
      obtain ⟨_, ⟨present, rfl⟩, rfl⟩ := performed
      exact ⟨_, rfl, .duplicate (by simpa using present)⟩
  | op site =>
      cases down : site.down with
      | true =>
          simp only [code, down, if_true, Program.perform, Option.ite_none_right_eq_some,
            Option.some.injEq] at performed
          obtain ⟨free, rfl⟩ := performed
          exact ⟨_, rfl, .acquire down free⟩
      | false =>
          simp only [code, down, Bool.false_eq_true, if_false, Program.perform,
            Option.ite_none_right_eq_some, Option.some.injEq] at performed
          obtain ⟨-, rfl⟩ := performed
          exact ⟨_, rfl, .release down⟩
  | dropDuplicate site =>
      simp only [code, Program.perform, Option.map_some, Option.some.injEq] at performed
      subst performed
      exact ⟨_, rfl, .drop⟩
  | postTest posted =>
      simp only [code, onLoop, Program.perform, Option.map_eq_some_iff, Option.ite_none_left_eq_some,
        Option.some.injEq] at performed
      obtain ⟨_, ⟨-, rfl⟩, rfl⟩ := performed
      cases aborting : state.data.aborting with
      | true =>
          exact ⟨.duplicate (.postUnlock false), by simp [State.goto], .refuse aborting⟩
      | false => exact ⟨.postInsert posted, by simp [State.goto], .accept aborting⟩
  | postInsert posted =>
      simp only [code, onLoop, Program.perform, Option.map_eq_some_iff, Option.ite_none_left_eq_some]
        at performed
      obtain ⟨_, ⟨-, queue, inserted, rfl⟩, rfl⟩ := performed
      exact ⟨_, rfl, .insert inserted⟩
  | abortTest =>
      simp only [code, onLoop, Program.perform, Option.map_eq_some_iff, Option.ite_none_left_eq_some,
        Option.some.injEq] at performed
      obtain ⟨_, ⟨-, rfl⟩, rfl⟩ := performed
      cases aborting : state.data.aborting with
      | true =>
          refine ⟨.duplicate .abortUnlock, by simp [State.goto], ?_⟩
          simpa [State.goto, aborting, note] using .again aborting
      | false =>
          refine ⟨.duplicate .abortAnnounce, by simp [State.goto], ?_⟩
          simpa [State.goto, aborting, note] using .abort aborting
  | runTake =>
      simp only [code, onLoop, Program.perform, Option.map_eq_some_iff, Option.ite_none_left_eq_some]
        at performed
      obtain ⟨_, ⟨-, ⟨queue, element⟩, removed, rfl⟩, rfl⟩ := performed
      exact ⟨_, rfl, .take removed⟩
  | runRespond element =>
      simp only [code, onLoop, Program.perform, Option.map_eq_some_iff, Option.ite_none_left_eq_some]
        at performed
      obtain ⟨_, ⟨-, node, read, rfl⟩, rfl⟩ := performed
      exact ⟨_, rfl, .respond read⟩
  | runFree element =>
      simp only [code, Program.perform, Option.map_some, Option.some.injEq] at performed
      subst performed
      exact ⟨_, rfl, .free⟩
  | runAfterAbort =>
      simp only [code, onLoop, Program.perform, Option.map_eq_some_iff, Option.ite_none_left_eq_some,
        Option.some.injEq] at performed
      obtain ⟨_, ⟨-, rfl⟩, rfl⟩ := performed
      exact ⟨_, rfl, .afterAbort⟩
  | runDestroy =>
      simp only [code, onLoop, Program.perform, Option.map_eq_some_iff, Option.ite_none_left_eq_some,
        Option.some.injEq] at performed
      obtain ⟨_, ⟨-, rfl⟩, rfl⟩ := performed
      exact ⟨_, rfl, .destroy⟩
  | runFreeLoop =>
      simp only [code, Program.perform, Option.map_some, Option.some.injEq] at performed
      subst performed
      exact ⟨_, rfl, .freeLoop⟩

theorem outcome_move {pick : Nat} {after : Data} {status : Status Sem PC}
    (ran : program.outcome thread pick pc data = some (after, status)) :
    ∃ place values, status = .running place ∧ Move thread data (fun _ => 1) pc place after values := by
  let state : State :=
    { owner := fun _ => none, sleepers := fun _ => [], value := fun _ => 1, cancelled := fun _ => false
      status := fun _ => .running pc, data := data }
  have enabled : (program.code thread pc).Enabled state := by
    cases pc with
    | op site => cases site <;> simp [program, code, Site.down, Instr.Enabled, state]
    | _ => trivial
  have below : ∀ sem, ∀ most ∈ program.limit, state.value sem < most := by simp [program, state]
  have here : state.status thread = .running pc := rfl
  have ran : program.outcome thread pick pc state.data = some (after, status) := ran
  obtain ⟨next, performed, rfl, rfl⟩ := perform_of_outcome ran enabled below
  obtain ⟨place, moved, move⟩ := perform_move here performed
  exact ⟨place, next.value, by simp [moved], move⟩

theorem step_move (all : AllRunning state) (taken : step state action = some next) :
    ∃ pc place, state.status action.actor = .running pc ∧
      next.status = Function.update state.status action.actor (.running place) ∧
      Move action.actor state.data state.value pc place next.data next.value := by
  cases step_cases taken with
  | instr here performed =>
      obtain ⟨place, moved, move⟩ := perform_move here performed
      exact ⟨_, place, here, moved, move⟩
  | @call thread pc place data here chosen =>
      change calls thread pc place state.data = some data at chosen
      obtain ⟨rfl, rfl, present, site, rfl, called⟩ := calls_cases chosen
      exact ⟨_, _, here, rfl, .call called present⟩
  | @resume thread _ _ _ _ here | @wake thread _ _ _ here =>
      obtain ⟨pc, running⟩ := all thread
      simp [here] at running
  | stop _ handled | abandon _ handled => simp [program] at handled

theorem AllRunning.preserved (all : AllRunning state) (taken : step state action = some next) :
    AllRunning next := by
  obtain ⟨pc, place, here, moved, -⟩ := step_move all taken
  intro thread
  rw [moved]
  by_cases same : thread = action.actor
  · exact ⟨place, by simp [same]⟩
  · simpa [same] using all thread

end ZSystem.MessageLoop
