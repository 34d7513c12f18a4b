import Mathlib.Logic.Function.Basic
import ZSystem.Shared.Transition

set_option autoImplicit false

/-!
# Threads over mutexes, condition variables and semaphores

A program gives each thread one instruction for each place in its code; a scheduler picks the thread
that takes the next step. `T` names threads, `O` synchronisation objects, `L` places in the code and
`D` is the memory that the threads share.
-/

namespace Posix

inductive Instr (T O L D : Type) where
  | lock (mutex : O) (next : L)
  /-- Leaves the mutex without an owner, whoever the owner was. -/
  | unlock (mutex : O) (next : L)
  /-- Gives up the mutex and joins the sleepers in one step; goes on once awake and the mutex is free. -/
  | wait (cv mutex : O) (next : L)
  | signal (cv : O) (next : L)
  | broadcast (cv : O) (next : L)
  | acquire (sem : O) (next : L)
  | release (sem : O) (next : L)
  /-- A step on the shared memory; `none` means that the thread cannot go on yet. The number stands for
  whatever the environment decides, such as an address given by an allocator. -/
  | act (effect : Nat -> D -> Option (D × L))
  /-- A test of the shared memory; from where it has no `defined` outcome the thread does not go on. -/
  | look (defined : D -> Bool) (next : D -> L)
  | start (child : T) (first next : L)
  | cancel (victim : T) (next : L)
  | halt

structure Program (T O L D : Type) where
  code : T -> L -> Instr T O L D
  /-- The places a thread may choose to go to by itself, with what the choice does to the memory. -/
  calls : T -> L -> L -> D -> Option D := fun _ _ _ _ => none
  /-- History variables: what is written down when the instruction at a place has been performed. -/
  note : T -> L -> D -> D := fun _ _ data => data
  /-- Where a cancelled thread goes on; `none` for a thread that cannot be cancelled. -/
  handler : T -> Option L := fun _ => none
  /-- The places, besides condition variables, where a pending cancellation acts. -/
  interruptible : L -> Bool := fun _ => false
  limit : Option Nat := none

inductive Status (O L : Type) where
  | absent
  | running (pc : L)
  /-- Inside the wait on `cv`, asleep or on its way to take the mutex again. -/
  | waiting (cv mutex : O) (pc : L)
  deriving DecidableEq

def Status.place {O L : Type} : Status O L -> Option L
  | .absent => none
  | .running pc | .waiting _ _ pc => some pc

structure State (T O L D : Type) where
  owner : O -> Option T
  sleepers : O -> List T
  value : O -> Nat
  cancelled : T -> Bool
  status : T -> Status O L
  data : D

inductive Act (T L : Type) where
  | run (thread : T) (pick : Nat)
  | call (thread : T) (place : L)
  | wake (thread : T)
  | interrupt (thread : T)

variable {T O L D : Type} [DecidableEq T] [DecidableEq O]

def State.goto (state : State T O L D) (thread : T) (pc : L) : State T O L D :=
  { state with status := Function.update state.status thread (.running pc) }

def Program.perform (program : Program T O L D) (thread : T) (pick : Nat) (state : State T O L D) :
    Instr T O L D -> Option (State T O L D)
  | .lock mutex next =>
      if state.owner mutex = none then
        some ({ state with owner := Function.update state.owner mutex (some thread) }.goto thread next)
      else none
  | .unlock mutex next =>
      some ({ state with owner := Function.update state.owner mutex none }.goto thread next)
  | .wait cv mutex next =>
      some { state with
        owner := Function.update state.owner mutex none
        sleepers := Function.update state.sleepers cv (state.sleepers cv ++ [thread])
        status := Function.update state.status thread (.waiting cv mutex next) }
  | .signal cv next =>
      let asleep := state.sleepers cv
      some ({ state with
        sleepers := Function.update state.sleepers cv (asleep.eraseIdx (pick % asleep.length)) }.goto
          thread next)
  | .broadcast cv next =>
      some ({ state with sleepers := Function.update state.sleepers cv [] }.goto thread next)
  | .acquire sem next =>
      if 0 < state.value sem then
        some ({ state with value := Function.update state.value sem (state.value sem - 1) }.goto thread next)
      else none
  | .release sem next =>
      if ∀ most ∈ program.limit, state.value sem < most then
        some ({ state with value := Function.update state.value sem (state.value sem + 1) }.goto thread next)
      else none
  | .act effect =>
      (effect pick state.data).map fun (data, next) => { state with data := data }.goto thread next
  | .look defined next => if defined state.data then some (state.goto thread (next state.data)) else none
  | .start child first next =>
      match state.status child with
      | .absent => some ((state.goto child first).goto thread next)
      | _ => none
  | .cancel victim next =>
      some ({ state with cancelled := Function.update state.cancelled victim true }.goto thread next)
  | .halt => none

def Program.step (program : Program T O L D) (state : State T O L D) :
    Act T L -> Option (State T O L D)
  | .run thread pick =>
      match state.status thread with
      | .absent => none
      | .running pc =>
          (program.perform thread pick state (program.code thread pc)).map fun next =>
            { next with data := program.note thread pc next.data }
      | .waiting cv mutex pc =>
          if thread ∉ state.sleepers cv ∧ state.owner mutex = none then
            some ({ state with owner := Function.update state.owner mutex (some thread) }.goto thread pc)
          else none
  | .call thread place =>
      match state.status thread with
      | .running pc =>
          (program.calls thread pc place state.data).map fun data =>
            { state with data := data }.goto thread place
      | _ => none
  | .wake thread =>
      match state.status thread with
      | .waiting cv _ _ =>
          if thread ∈ state.sleepers cv then
            some { state with
              sleepers := Function.update state.sleepers cv ((state.sleepers cv).erase thread) }
          else none
      | _ => none
  | .interrupt thread =>
      match program.handler thread with
      | none => none
      | some place =>
          if state.cancelled thread then
            match state.status thread with
            | .absent => none
            | .running pc =>
                if program.interruptible pc then
                  some ({ state with cancelled := Function.update state.cancelled thread false }.goto
                    thread place)
                else none
            | .waiting cv mutex _ =>
                some { state with
                  cancelled := Function.update state.cancelled thread false
                  sleepers := Function.update state.sleepers cv ((state.sleepers cv).erase thread)
                  status := Function.update state.status thread (.waiting cv mutex place) }
          else none

/-! ## What one step can do -/

/-- The possible steps, each with its guard and its whole effect. -/
inductive Step (program : Program T O L D) (state : State T O L D) : Act T L -> State T O L D -> Prop where
  | instr {thread : T} {pick : Nat} {pc : L} {after : State T O L D}
      (here : state.status thread = .running pc)
      (performed : program.perform thread pick state (program.code thread pc) = some after) :
      Step program state (.run thread pick) { after with data := program.note thread pc after.data }
  | resume {thread : T} {pick : Nat} {cv mutex : O} {pc : L}
      (here : state.status thread = .waiting cv mutex pc) (awake : thread ∉ state.sleepers cv)
      (free : state.owner mutex = none) :
      Step program state (.run thread pick)
        ({ state with owner := Function.update state.owner mutex (some thread) }.goto thread pc)
  | call {thread : T} {pc place : L} {data : D} (here : state.status thread = .running pc)
      (chosen : program.calls thread pc place state.data = some data) :
      Step program state (.call thread place) ({ state with data := data }.goto thread place)
  | wake {thread : T} {cv mutex : O} {pc : L} (here : state.status thread = .waiting cv mutex pc)
      (asleep : thread ∈ state.sleepers cv) :
      Step program state (.wake thread) { state with
        sleepers := Function.update state.sleepers cv ((state.sleepers cv).erase thread) }
  | stop {thread : T} {pc place : L} (here : state.status thread = .running pc)
      (handled : program.handler thread = some place) (point : program.interruptible pc = true) :
      Step program state (.interrupt thread)
        ({ state with cancelled := Function.update state.cancelled thread false }.goto thread place)
  | abandon {thread : T} {cv mutex : O} {pc place : L}
      (here : state.status thread = .waiting cv mutex pc)
      (handled : program.handler thread = some place) :
      Step program state (.interrupt thread) { state with
        cancelled := Function.update state.cancelled thread false
        sleepers := Function.update state.sleepers cv ((state.sleepers cv).erase thread)
        status := Function.update state.status thread (.waiting cv mutex place) }

variable {program : Program T O L D} {state next : State T O L D} {action : Act T L}

theorem step_cases (taken : program.step state action = some next) : Step program state action next := by
  cases action with
  | run thread pick =>
      cases here : state.status thread with
      | absent => simp [Program.step, here] at taken
      | running pc =>
          simp only [Program.step, here, Option.map_eq_some_iff] at taken
          obtain ⟨after, performed, rfl⟩ := taken
          exact .instr here performed
      | waiting cv mutex pc =>
          simp only [Program.step, here] at taken
          split_ifs at taken with ready
          cases taken
          exact .resume here ready.1 ready.2
  | call thread place =>
      cases here : state.status thread <;>
        simp only [Program.step, here, Option.map_eq_some_iff, reduceCtorEq] at taken
      obtain ⟨data, chosen, rfl⟩ := taken
      exact .call here chosen
  | wake thread =>
      cases here : state.status thread <;> simp only [Program.step, here, reduceCtorEq] at taken
      split_ifs at taken with asleep
      cases taken
      exact .wake here asleep
  | interrupt thread =>
      cases handled : program.handler thread with
      | none => simp [Program.step, handled] at taken
      | some place =>
          simp only [Program.step, handled] at taken
          split_ifs at taken with pending
          cases here : state.status thread <;> simp only [here, reduceCtorEq] at taken
          · split_ifs at taken with point
            cases taken
            exact .stop here handled point
          · cases taken
            exact .abandon here handled

theorem step_of_perform {thread : T} {pick : Nat} {pc : L} {after : State T O L D}
    (here : state.status thread = .running pc)
    (performed : program.perform thread pick state (program.code thread pc) = some after) :
    program.step state (.run thread pick) =
      some { after with data := program.note thread pc after.data } := by
  simp [Program.step, here, performed]

/-! ## The parts of a state after an instruction -/

/-- The data and the acting thread's status after the instruction, if it is not blocked. -/
def Instr.result (pick : Nat) (data : D) : Instr T O L D -> Option (D × Status O L)
  | .lock _ next | .unlock _ next | .signal _ next | .broadcast _ next | .acquire _ next
  | .release _ next | .start _ _ next | .cancel _ next => some (data, .running next)
  | .wait cv mutex next => some (data, .waiting cv mutex next)
  | .act effect => (effect pick data).map fun (data, next) => (data, .running next)
  | .look _ next => some (data, .running (next data))
  | .halt => none

def Instr.owners (thread : T) (owner : O -> Option T) : Instr T O L D -> O -> Option T
  | .lock mutex _ => Function.update owner mutex (some thread)
  | .unlock mutex _ | .wait _ mutex _ => Function.update owner mutex none
  | _ => owner

def Instr.asleep (thread : T) (pick : Nat) (sleepers : O -> List T) : Instr T O L D -> O -> List T
  | .wait cv _ _ => Function.update sleepers cv (sleepers cv ++ [thread])
  | .signal cv _ =>
      Function.update sleepers cv ((sleepers cv).eraseIdx (pick % (sleepers cv).length))
  | .broadcast cv _ => Function.update sleepers cv []
  | _ => sleepers

def Instr.spawned (status : T -> Status O L) : Instr T O L D -> T -> Status O L
  | .start child first _ => Function.update status child (.running first)
  | _ => status

def Instr.Enabled (state : State T O L D) : Instr T O L D -> Prop
  | .lock mutex _ => state.owner mutex = none
  | .acquire sem _ => 0 < state.value sem
  | .look defined _ => defined state.data = true
  | .start child _ _ => state.status child = .absent
  | _ => True

theorem perform_parts {thread : T} {pick : Nat} {after : State T O L D} {instr : Instr T O L D}
    (performed : program.perform thread pick state instr = some after) :
    instr.Enabled state ∧ ∃ data status, instr.result pick state.data = some (data, status) ∧
      after.owner = instr.owners thread state.owner ∧
      after.sleepers = instr.asleep thread pick state.sleepers ∧
      after.status = Function.update (instr.spawned state.status) thread status ∧
      after.data = data := by
  cases instr with
  | lock mutex place | acquire sem place | look defined place =>
      simp only [Program.perform] at performed
      split_ifs at performed with free
      cases performed
      exact ⟨free, _, _, rfl, rfl, rfl, rfl, rfl⟩
  | release sem place =>
      simp only [Program.perform] at performed
      split_ifs at performed
      cases performed
      exact ⟨trivial, _, _, rfl, rfl, rfl, rfl, rfl⟩
  | unlock mutex place | cancel victim place | wait cv mutex place | signal cv place
  | broadcast cv place =>
      cases performed
      exact ⟨trivial, _, _, rfl, rfl, rfl, rfl, rfl⟩
  | act effect =>
      simp only [Program.perform, Option.map_eq_some_iff] at performed
      obtain ⟨⟨data, place⟩, effective, rfl⟩ := performed
      exact ⟨trivial, data, .running place, by simp [Instr.result, effective], rfl, rfl, rfl, rfl⟩
  | start child first place =>
      simp only [Program.perform] at performed
      cases born : state.status child <;> simp only [born, reduceCtorEq, Option.some.injEq] at performed
      subst performed
      exact ⟨born, _, _, rfl, rfl, rfl, rfl, rfl⟩
  | halt => simp [Program.perform] at performed

/-! ## Mutexes that follow the code -/

/-- An instruction at `pc` treats `mutex` as the places in `holds` say. -/
def Respects (mutex : O) (holds : T -> L -> Prop) (thread : T) (pc : L) : Instr T O L D -> Prop
  | .lock other next => if other = mutex then holds thread next else (holds thread next ↔ holds thread pc)
  | .unlock other next =>
      if other = mutex then holds thread pc ∧ ¬ holds thread next
      else (holds thread next ↔ holds thread pc)
  | .wait _ other next =>
      if other = mutex then holds thread pc ∧ holds thread next
      else ¬ holds thread pc ∧ ¬ holds thread next
  | .act effect =>
      ∀ pick data result next, effect pick data = some (result, next) ->
        (holds thread next ↔ holds thread pc)
  | .look _ next => ∀ data, holds thread (next data) ↔ holds thread pc
  | .start child first next => (holds thread next ↔ holds thread pc) ∧ ¬ holds child first
  | .signal _ next | .broadcast _ next | .acquire _ next | .release _ next | .cancel _ next =>
      holds thread next ↔ holds thread pc
  | .halt => True

section Respects

variable {mutex other cv : O} {holds : T -> L -> Prop} {thread child : T} {pc first next : L}

omit [DecidableEq T]

@[simp] theorem respects_lock :
    Respects mutex holds thread pc (.lock other next : Instr T O L D) ↔
      if other = mutex then holds thread next else (holds thread next ↔ holds thread pc) := Iff.rfl

@[simp] theorem respects_unlock :
    Respects mutex holds thread pc (.unlock other next : Instr T O L D) ↔
      if other = mutex then holds thread pc ∧ ¬ holds thread next
      else (holds thread next ↔ holds thread pc) := Iff.rfl

@[simp] theorem respects_wait :
    Respects mutex holds thread pc (.wait cv other next : Instr T O L D) ↔
      if other = mutex then holds thread pc ∧ holds thread next
      else ¬ holds thread pc ∧ ¬ holds thread next := Iff.rfl

@[simp] theorem respects_signal :
    Respects mutex holds thread pc (.signal cv next : Instr T O L D) ↔
      (holds thread next ↔ holds thread pc) := Iff.rfl

@[simp] theorem respects_broadcast :
    Respects mutex holds thread pc (.broadcast cv next : Instr T O L D) ↔
      (holds thread next ↔ holds thread pc) := Iff.rfl

@[simp] theorem respects_cancel :
    Respects mutex holds thread pc (.cancel child next : Instr T O L D) ↔
      (holds thread next ↔ holds thread pc) := Iff.rfl

@[simp] theorem respects_start :
    Respects mutex holds thread pc (.start child first next : Instr T O L D) ↔
      (holds thread next ↔ holds thread pc) ∧ ¬ holds child first := Iff.rfl

@[simp] theorem respects_look {defined : D -> Bool} {goes : D -> L} :
    Respects mutex holds thread pc (.look defined goes : Instr T O L D) ↔
      ∀ data, holds thread (goes data) ↔ holds thread pc := Iff.rfl

@[simp] theorem respects_halt :
    Respects mutex holds thread pc (.halt : Instr T O L D) ↔ True := Iff.rfl

end Respects

/--
The program locks and unlocks `mutex` so that a thread owns it exactly at the places in `holds`, as
long as no instruction at an `irregular` place is performed.
-/
structure Guards (program : Program T O L D) (mutex : O) (holds irregular : T -> L -> Prop) :
    Prop where
  instr : ∀ thread pc, ¬ irregular thread pc -> Respects mutex holds thread pc (program.code thread pc)
  call : ∀ thread pc place data result, program.calls thread pc place data = some result ->
    (holds thread place ↔ holds thread pc)
  handler : ∀ thread place, program.handler thread = some place -> ¬ holds thread place
  interruptible : ∀ thread pc, program.interruptible pc = true -> ¬ holds thread pc
  waiter : ∀ thread pc cv next, program.code thread pc = .wait cv mutex next ->
    program.handler thread = none

structure Held (program : Program T O L D) (mutex : O) (holds : T -> L -> Prop)
    (owner : Option T) (status : T -> Status O L) : Prop where
  owner : ∀ thread, owner = some thread ↔ ∃ pc, status thread = .running pc ∧ holds thread pc
  /-- A thread that waits with another mutex does not come back as an owner of this one. -/
  waiting : ∀ thread cv other pc, status thread = .waiting cv other pc ->
    if other = mutex then holds thread pc ∧ program.handler thread = none else ¬ holds thread pc

section Held

variable {mutex : O} {holds : T -> L -> Prop} {owner : Option T} {status : T -> Status O L}
  {thread : T} {pc place : L}

omit [DecidableEq T] in
theorem Held.owns (held : Held program mutex holds owner status)
    (here : status thread = .running pc) : owner = some thread ↔ holds thread pc := by
  rw [held.owner thread, here]
  simp

theorem Held.move (held : Held program mutex holds owner status)
    (here : status thread = .running pc) (same : holds thread place ↔ holds thread pc) :
    Held program mutex holds owner (Function.update status thread (.running place)) := by
  constructor
  · intro other
    by_cases equal : other = thread
    · subst equal
      simp [held.owns here, same]
    · simp [equal, held.owner other]
  · intro other cv mutex' pc' wait
    by_cases equal : other = thread
    · simp [equal] at wait
    · exact held.waiting other cv mutex' pc' (by simpa [equal] using wait)

theorem Held.take (held : Held program mutex holds none status) (holding : holds thread place) :
    Held program mutex holds (some thread) (Function.update status thread (.running place)) := by
  have nobody (other : T) (pc : L) (here : status other = .running pc) : ¬ holds other pc := fun has => by
    simpa using (held.owns here).mpr has
  constructor
  · intro other
    by_cases equal : other = thread
    · subst equal
      simp [holding]
    · simp only [Option.some.injEq, ne_eq, equal, not_false_eq_true, Function.update_of_ne]
      exact ⟨fun same => absurd same.symm equal, fun ⟨pc, here, has⟩ => absurd has (nobody other pc here)⟩
  · intro other cv mutex' pc' wait
    by_cases equal : other = thread
    · simp [equal] at wait
    · exact held.waiting other cv mutex' pc' (by simpa [equal] using wait)

theorem Held.give (held : Held program mutex holds owner status)
    (here : status thread = .running pc) (holding : holds thread pc)
    (after : Status O L) (out : ∀ next, after = .running next -> ¬ holds thread next)
    (wait : ∀ cv other next, after = .waiting cv other next ->
      if other = mutex then holds thread next ∧ program.handler thread = none else ¬ holds thread next) :
    Held program mutex holds none (Function.update status thread after) := by
  have mine : owner = some thread := (held.owns here).mpr holding
  constructor
  · intro other
    by_cases equal : other = thread
    · subst equal
      simpa using fun next same => out next same
    · have notOwner : owner ≠ some other := by
        rw [mine]
        exact fun same => equal (Option.some.inj same).symm
      have := held.owner other
      simp_all
  · intro other cv mutex' pc' waits
    by_cases equal : other = thread
    · subst equal
      exact wait cv mutex' pc' (by simpa using waits)
    · exact held.waiting other cv mutex' pc' (by simpa [equal] using waits)

theorem Held.away (held : Held program mutex holds owner status) (thread : T)
    (before : ∀ pc, status thread = .running pc -> ¬ holds thread pc) (after : Status O L)
    (out : ∀ next, after = .running next -> ¬ holds thread next)
    (wait : ∀ cv other next, after = .waiting cv other next ->
      if other = mutex then holds thread next ∧ program.handler thread = none else ¬ holds thread next) :
    Held program mutex holds owner (Function.update status thread after) := by
  constructor
  · intro other
    by_cases equal : other = thread
    · subst equal
      have notOwner : owner ≠ some other := fun same => by
        obtain ⟨pc, here, has⟩ := (held.owner other).mp same
        exact before pc here has
      simpa [notOwner] using fun next same => out next same
    · simp [equal, held.owner other]
  · intro other cv mutex' pc' waits
    by_cases equal : other = thread
    · subst equal
      exact wait cv mutex' pc' (by simpa using waits)
    · exact held.waiting other cv mutex' pc' (by simpa [equal] using waits)

theorem Held.perform (held : Held program mutex holds (state.owner mutex) state.status)
    (here : state.status thread = .running pc) {instr : Instr T O L D} {pick : Nat} {after : State T O L D}
    (respects : Respects mutex holds thread pc instr)
    (waiter : ∀ cv next, instr = .wait cv mutex next -> program.handler thread = none)
    (performed : program.perform thread pick state instr = some after) :
    Held program mutex holds (after.owner mutex) after.status := by
  cases instr with
  | lock other place =>
      simp only [Program.perform, Respects] at performed respects
      split_ifs at performed with free
      cases performed
      by_cases same : other = mutex
      · subst same
        simp only [if_true] at respects
        rw [free] at held
        simpa [State.goto] using held.take respects
      · simp only [same, if_false] at respects
        simpa [State.goto, Ne.symm same] using held.move here respects
  | unlock other place =>
      cases performed
      simp only [Respects] at respects
      by_cases same : other = mutex
      · subst same
        simp only [if_true] at respects
        simpa [State.goto] using held.give here respects.1
          (.running place) (by simpa using respects.2) (by simp)
      · simp only [same, if_false] at respects
        simpa [State.goto, Ne.symm same] using held.move here respects
  | wait cv other place =>
      cases performed
      simp only [Respects] at respects
      by_cases same : other = mutex
      · subst same
        simp only [if_true] at respects
        have noHandler := waiter cv place rfl
        simpa using held.give here respects.1
          (.waiting cv other place) (by simp) (by
            rintro _ _ _ ⟨⟩
            simpa using ⟨respects.2, noHandler⟩)
      · simp only [same, if_false] at respects
        simpa [Ne.symm same] using held.away thread
          (fun _ there => by
            cases here.symm.trans there
            exact respects.1)
          (.waiting cv other place) (by simp) (by
            rintro _ _ _ ⟨⟩
            simpa [same] using respects.2)
  | signal cv place | broadcast cv place | cancel victim place =>
      cases performed
      exact held.move here respects
  | acquire sem place | release sem place =>
      simp only [Program.perform] at performed
      split_ifs at performed
      cases performed
      exact held.move here respects
  | act effect =>
      simp only [Program.perform, Option.map_eq_some_iff] at performed
      obtain ⟨⟨data, place⟩, effective, rfl⟩ := performed
      exact held.move here (respects pick state.data data place effective)
  | look defined place =>
      simp only [Program.perform] at performed
      split_ifs at performed
      cases performed
      exact held.move here (respects state.data)
  | start child first place =>
      simp only [Program.perform] at performed
      cases born : state.status child <;> simp only [born, reduceCtorEq, Option.some.injEq] at performed
      subst performed
      have different : thread ≠ child := fun same => by simp [same, born] at here
      have started := held.away child (fun _ there => by simp [born] at there)
        (.running first) (by simpa using respects.2) (by simp)
      exact started.move (by simpa [different] using here) respects.1
  | halt => simp [Program.perform] at performed

theorem Guards.step {irregular : T -> L -> Prop} (guards : Guards program mutex holds irregular)
    (held : Held program mutex holds (state.owner mutex) state.status)
    (regular : ∀ thread pick pc, action = .run thread pick -> state.status thread = .running pc ->
      ¬ irregular thread pc)
    (taken : program.step state action = some next) :
    Held program mutex holds (next.owner mutex) next.status := by
  cases step_cases taken with
  | @instr thread pick pc after here performed =>
      have respects := guards.instr thread pc (regular thread pick pc rfl here)
      have kept := held.perform here respects (guards.waiter thread pc) performed
      exact kept
  | @resume thread pick cv other pc here awake free =>
      have wait := held.waiting thread cv other pc here
      by_cases same : other = mutex
      · subst same
        simp only [if_true] at wait
        rw [free] at held
        simpa [State.goto] using held.take wait.1
      · simp only [same, if_false] at wait
        simpa [State.goto, Ne.symm same] using held.away thread
          (fun _ there => by simp [here] at there) (.running pc) (by simpa using wait) (by simp)
  | call here chosen => exact held.move here (guards.call _ _ _ _ _ chosen)
  | wake => exact held
  | @stop thread pc place here handled point =>
      exact held.away thread
        (fun _ there => by
          cases here.symm.trans there
          exact guards.interruptible thread pc point)
        (.running place) (by simpa using guards.handler thread place handled) (by simp)
  | @abandon thread cv other pc place here handled =>
      have wait := held.waiting thread cv other pc here
      have notSame : other ≠ mutex := fun same => by simp [same, handled] at wait
      exact held.away thread (fun _ there => by simp [here] at there)
        (.waiting cv other place) (by simp) (by
          rintro _ _ _ ⟨⟩
          simpa [notSame] using guards.handler thread place handled)

end Held

/-! ## Sleepers -/

/-- Whoever sleeps on a condition variable is inside a wait on it, once. -/
structure Asleep (sleepers : O -> List T) (status : T -> Status O L) : Prop where
  nodup : ∀ cv, (sleepers cv).Nodup
  waiting : ∀ cv, ∀ thread ∈ sleepers cv, ∃ mutex pc, status thread = .waiting cv mutex pc

section Asleep

variable {sleepers : O -> List T} {status : T -> Status O L} {thread : T} {pc : L}

omit [DecidableEq O] in
theorem Asleep.move (asleep : Asleep sleepers status) (after : Status O L)
    (awake : ∀ cv, thread ∉ sleepers cv) :
    Asleep sleepers (Function.update status thread after) := by
  refine ⟨asleep.nodup, fun cv other member => ?_⟩
  have different : other ≠ thread := fun same => awake cv (same ▸ member)
  simpa [different] using asleep.waiting cv other member

omit [DecidableEq T] [DecidableEq O] in
theorem Asleep.awake (asleep : Asleep sleepers status)
    (elsewhere : ∀ cv mutex pc, status thread ≠ .waiting cv mutex pc) (cv : O) :
    thread ∉ sleepers cv := fun member => by
  obtain ⟨mutex, pc, wait⟩ := asleep.waiting cv thread member
  exact elsewhere cv mutex pc wait

omit [DecidableEq T] in
theorem Asleep.fewer (asleep : Asleep sleepers status) (cv : O) {rest : List T}
    (sublist : rest.Sublist (sleepers cv)) :
    Asleep (Function.update sleepers cv rest) status := by
  constructor
  · intro other
    by_cases same : other = cv
    · subst same
      simpa using (asleep.nodup other).sublist sublist
    · simpa [same] using asleep.nodup other
  · intro other sleeper member
    by_cases same : other = cv
    · subst same
      exact asleep.waiting other sleeper (sublist.subset (by simpa using member))
    · exact asleep.waiting other sleeper (by simpa [same] using member)

theorem Asleep.join (asleep : Asleep sleepers status) (awake : ∀ cv, thread ∉ sleepers cv)
    (cv mutex : O) (pc : L) :
    Asleep (Function.update sleepers cv (sleepers cv ++ [thread]))
      (Function.update status thread (.waiting cv mutex pc)) := by
  have moved := asleep.move (.waiting cv mutex pc) awake
  constructor
  · intro other
    by_cases same : other = cv
    · subst same
      simpa [List.nodup_append] using ⟨asleep.nodup other, fun _ member same => awake other (same ▸ member)⟩
    · simpa [same] using asleep.nodup other
  · intro other sleeper member
    by_cases same : other = cv
    · subst same
      simp only [Function.update_self, List.mem_append, List.mem_singleton] at member
      rcases member with old | rfl
      · exact moved.waiting other sleeper old
      · simp
    · exact moved.waiting other sleeper (by simpa [same] using member)

theorem Asleep.perform (asleep : Asleep state.sleepers state.status) (here : state.status thread = .running pc)
    {instr : Instr T O L D} {pick : Nat} {after : State T O L D}
    (performed : program.perform thread pick state instr = some after) :
    Asleep after.sleepers after.status := by
  have awake : ∀ cv, thread ∉ state.sleepers cv := asleep.awake (by simp [here])
  cases instr with
  | lock mutex place | acquire sem place | release sem place | look defined place =>
      simp only [Program.perform] at performed
      split_ifs at performed
      cases performed
      exact asleep.move _ awake
  | unlock mutex place | cancel victim place =>
      cases performed
      exact asleep.move _ awake
  | wait cv mutex place =>
      cases performed
      exact asleep.join awake cv mutex place
  | signal cv place =>
      cases performed
      exact (asleep.move _ awake).fewer cv (List.eraseIdx_sublist _ _)
  | broadcast cv place =>
      cases performed
      exact (asleep.move _ awake).fewer cv (List.nil_sublist _)
  | act effect =>
      simp only [Program.perform, Option.map_eq_some_iff] at performed
      obtain ⟨⟨data, place⟩, -, rfl⟩ := performed
      exact asleep.move _ awake
  | start child first place =>
      simp only [Program.perform] at performed
      cases born : state.status child <;> simp only [born, reduceCtorEq, Option.some.injEq] at performed
      subst performed
      exact (asleep.move _ (asleep.awake (by simp [born]))).move _ awake
  | halt => simp [Program.perform] at performed

theorem Asleep.step (asleep : Asleep state.sleepers state.status)
    (taken : program.step state action = some next) : Asleep next.sleepers next.status := by
  have runs {thread : T} {pc : L} (here : state.status thread = .running pc) (cv : O) :
      thread ∉ state.sleepers cv :=
    asleep.awake (by simp [here]) cv
  cases step_cases taken with
  | @instr thread pick pc after here performed =>
      have kept := asleep.perform here performed
      exact kept
  | @resume thread pick cv mutex pc here awake free =>
      refine asleep.move _ fun other member => ?_
      -- A thread waits on one condition variable only.
      obtain ⟨mutex', pc', wait⟩ := asleep.waiting other thread member
      cases here.symm.trans wait
      exact awake member
  | call here chosen => exact asleep.move _ (runs here)
  | wake here member => exact asleep.fewer _ (List.erase_sublist)
  | stop here handled point => exact asleep.move _ (runs here)
  | @abandon thread cv mutex pc place here handled =>
      have woken := asleep.fewer cv (List.erase_sublist (a := thread))
      refine woken.move _ fun other member => ?_
      obtain ⟨mutex', pc', wait⟩ := woken.waiting other thread member
      cases here.symm.trans wait
      simp only [Function.update_self] at member
      exact (asleep.nodup cv).not_mem_erase member

end Asleep

/-! ## Frames -/

def Act.actor {T L : Type} : Act T L -> T
  | .run thread _ | .call thread _ | .wake thread | .interrupt thread => thread

theorem status_other (taken : program.step state action = some next) {other : T}
    (different : other ≠ action.actor) :
    next.status other = state.status other ∨
      ∃ pick pc first place, action = .run action.actor pick ∧
        state.status action.actor = .running pc ∧
        program.code action.actor pc = .start other first place ∧
        state.status other = .absent ∧ next.status other = .running first := by
  cases step_cases taken with
  | @instr thread pick pc after here performed =>
      simp only [Act.actor] at different
      obtain ⟨enabled, data, status, result, -, -, statuses, -⟩ := perform_parts performed
      cases instr : program.code thread pc with
      | start child first place =>
          simp only [instr, Instr.Enabled] at enabled
          by_cases same : other = child
          · subst same
            exact Or.inr ⟨pick, pc, first, place, rfl, here, instr, enabled, by
              simp [statuses, instr, Instr.spawned, different]⟩
          · exact Or.inl (by simp [statuses, instr, Instr.spawned, different, same])
      | _ => exact Or.inl (by simp [statuses, instr, Instr.spawned, different])
  | resume | call | stop | abandon =>
      simp only [Act.actor] at different
      exact Or.inl (by simp [State.goto, different])
  | wake => exact Or.inl rfl

theorem sleepers_grow (taken : program.step state action = some next) {cv : O} {thread : T}
    (asleep : thread ∈ next.sleepers cv) :
    thread ∈ state.sleepers cv ∨ ∃ pick pc mutex place, action = .run thread pick ∧
      state.status thread = .running pc ∧ program.code thread pc = .wait cv mutex place := by
  -- Whoever leaves one of the lists leaves a sublist of it.
  have fewer {other : O} {rest : List T} (sublist : rest.Sublist (state.sleepers other))
      (member : thread ∈ Function.update state.sleepers other rest cv) : thread ∈ state.sleepers cv := by
    by_cases same : cv = other
    · subst same
      exact sublist.subset (by simpa using member)
    · simpa [same] using member
  cases step_cases taken with
  | @instr actor pick pc after here performed =>
      obtain ⟨-, _, _, -, -, sleepers, -, -⟩ := perform_parts performed
      change thread ∈ after.sleepers cv at asleep
      rw [sleepers] at asleep
      cases instr : program.code actor pc with
      | wait other mutex place =>
          simp only [instr, Instr.asleep] at asleep
          by_cases same : cv = other
          · subst same
            simp only [Function.update_self, List.mem_append, List.mem_singleton] at asleep
            rcases asleep with old | rfl
            · exact Or.inl old
            · exact Or.inr ⟨pick, pc, mutex, place, rfl, here, instr⟩
          · exact Or.inl (by simpa [same] using asleep)
      | signal other place =>
          simp only [instr, Instr.asleep] at asleep
          exact Or.inl (fewer (List.eraseIdx_sublist _ _) asleep)
      | broadcast other place =>
          simp only [instr, Instr.asleep] at asleep
          exact Or.inl (fewer (List.nil_sublist _) asleep)
      | _ => exact Or.inl (by simpa [instr, Instr.asleep] using asleep)
  | resume | call | stop => exact Or.inl asleep
  | wake | abandon => exact Or.inl (fewer List.erase_sublist asleep)

/-- What an instruction and its note do to the memory and to the status of the thread. -/
def Program.outcome (program : Program T O L D) (thread : T) (pick : Nat) (pc : L) (data : D) :
    Option (D × Status O L) :=
  ((program.code thread pc).result pick data).map fun (data, status) =>
    (program.note thread pc data, status)

theorem perform_of_outcome {thread : T} {pick : Nat} {pc : L} {data : D} {status : Status O L}
    (ran : program.outcome thread pick pc state.data = some (data, status))
    (enabled : (program.code thread pc).Enabled state)
    (below : ∀ sem, ∀ most ∈ program.limit, state.value sem < most) :
    ∃ after, program.perform thread pick state (program.code thread pc) = some after ∧
      program.note thread pc after.data = data ∧ after.status thread = status := by
  simp only [Program.outcome, Option.map_eq_some_iff, Prod.mk.injEq] at ran
  obtain ⟨⟨result, _⟩, ran, rfl, rfl⟩ := ran
  cases instr : program.code thread pc with
  | lock mutex place | acquire sem place | look defined place =>
      simp only [instr, Instr.result, Instr.Enabled, Option.some.injEq, Prod.mk.injEq] at ran enabled
      obtain ⟨rfl, rfl⟩ := ran
      refine ⟨_, if_pos enabled, ?_⟩
      simp [State.goto]
  | release sem place =>
      simp only [instr, Instr.result, Option.some.injEq, Prod.mk.injEq] at ran
      obtain ⟨rfl, rfl⟩ := ran
      refine ⟨_, if_pos (below sem), ?_⟩
      simp [State.goto]
  | start child first place =>
      simp only [instr, Instr.result, Instr.Enabled, Option.some.injEq, Prod.mk.injEq] at ran enabled
      obtain ⟨rfl, rfl⟩ := ran
      have performed : program.perform thread pick state (.start child first place) =
          some ((state.goto child first).goto thread place) := by
        simp only [Program.perform, enabled]
      refine ⟨_, performed, ?_⟩
      simp [State.goto]
  | act effect =>
      simp only [instr, Instr.result, Option.map_eq_some_iff, Prod.mk.injEq] at ran
      obtain ⟨⟨result, place⟩, effective, rfl, rfl⟩ := ran
      have performed : program.perform thread pick state (.act effect) =
          some ({ state with data := result }.goto thread place) := by
        simp only [Program.perform, effective, Option.map_some]
      refine ⟨_, performed, ?_⟩
      simp [State.goto]
  | halt => simp [instr, Instr.result] at ran
  | _ =>
      simp only [instr, Instr.result, Option.some.injEq, Prod.mk.injEq] at ran
      obtain ⟨rfl, rfl⟩ := ran
      refine ⟨_, rfl, ?_⟩
      simp [State.goto]

theorem step_of_outcome {thread : T} {pick : Nat} {pc : L} {data : D} {status : Status O L}
    (here : state.status thread = .running pc)
    (ran : program.outcome thread pick pc state.data = some (data, status))
    (enabled : (program.code thread pc).Enabled state)
    (below : ∀ sem, ∀ most ∈ program.limit, state.value sem < most) :
    ∃ next, program.step state (.run thread pick) = some next ∧ next.status thread = status := by
  obtain ⟨after, performed, -, there⟩ := perform_of_outcome ran enabled below
  exact ⟨_, step_of_perform here performed, there⟩

theorem outcome_parts {thread : T} {pick : Nat} {pc : L} {after : State T O L D}
    (performed : program.perform thread pick state (program.code thread pc) = some after) :
    (program.code thread pc).Enabled state ∧
      program.outcome thread pick pc state.data =
        some (program.note thread pc after.data, after.status thread) ∧
      after.owner = (program.code thread pc).owners thread state.owner ∧
      after.sleepers = (program.code thread pc).asleep thread pick state.sleepers := by
  obtain ⟨enabled, data, status, result, owner, sleepers, statuses, rfl⟩ := perform_parts performed
  exact ⟨enabled, by simp [Program.outcome, result, statuses], owner, sleepers⟩

theorem run_parts {thread : T} {pick : Nat} {pc : L} (here : state.status thread = .running pc)
    (taken : program.step state (.run thread pick) = some next) :
    (program.code thread pc).Enabled state ∧
      program.outcome thread pick pc state.data = some (next.data, next.status thread) ∧
      next.owner = (program.code thread pc).owners thread state.owner ∧
      next.sleepers = (program.code thread pc).asleep thread pick state.sleepers := by
  cases step_cases taken with
  | instr there performed =>
      cases here.symm.trans there
      exact outcome_parts performed
  | resume there => simp [here] at there

inductive Arrival (program : Program T O L D) (state next : State T O L D) (action : Act T L)
    (thread : T) : Prop where
  | stays (same : next.status thread = state.status thread)
  | instr {pick : Nat} {pc : L} (run : action = .run thread pick)
      (here : state.status thread = .running pc) (enabled : (program.code thread pc).Enabled state)
      (ran : program.outcome thread pick pc state.data = some (next.data, next.status thread))
      (owner : next.owner = (program.code thread pc).owners thread state.owner)
      (sleepers : next.sleepers = (program.code thread pc).asleep thread pick state.sleepers)
  | born {pick : Nat} {pc first place : L} (different : thread ≠ action.actor)
      (run : action = .run action.actor pick) (here : state.status action.actor = .running pc)
      (instr : program.code action.actor pc = .start thread first place)
      (absent : state.status thread = .absent) (there : next.status thread = .running first)
  | resume {pick : Nat} {cv mutex : O} {pc : L} (run : action = .run thread pick)
      (here : state.status thread = .waiting cv mutex pc) (awake : thread ∉ state.sleepers cv)
      (free : state.owner mutex = none) (there : next.status thread = .running pc)
  | call {pc place : L} {data : D} (call : action = .call thread place)
      (here : state.status thread = .running pc)
      (chosen : program.calls thread pc place state.data = some data)
      (there : next.status thread = .running place)
  | stop {pc place : L} (interrupt : action = .interrupt thread)
      (here : state.status thread = .running pc) (handled : program.handler thread = some place)
      (point : program.interruptible pc = true)
      (there : next.status thread = .running place)
  | abandon {cv mutex : O} {pc place : L} (interrupt : action = .interrupt thread)
      (here : state.status thread = .waiting cv mutex pc)
      (handled : program.handler thread = some place)
      (there : next.status thread = .waiting cv mutex place)

theorem arrival (taken : program.step state action = some next) (thread : T) :
    Arrival program state next action thread := by
  by_cases same : thread = action.actor
  · cases step_cases taken with
    | @instr actor pick pc after here performed =>
        cases same
        obtain ⟨enabled, ran, owner, sleepers⟩ := outcome_parts performed
        exact .instr rfl here enabled ran owner sleepers
    | resume here awake free =>
        cases same
        exact .resume rfl here awake free (by simp [State.goto, Act.actor])
    | call here chosen =>
        cases same
        exact .call rfl here chosen (by simp [State.goto, Act.actor])
    | wake here asleep => exact .stays rfl
    | stop here handled point =>
        cases same
        exact .stop rfl here handled point (by simp [State.goto, Act.actor])
    | abandon here handled =>
        cases same
        exact .abandon rfl here handled (by simp [Act.actor])
  · rcases status_other taken same with stays | ⟨pick, pc, first, place, run, here, instr, absent, there⟩
    · exact .stays stays
    · exact .born same run here instr absent there

omit [DecidableEq T] [DecidableEq O] in
theorem outcome_status {thread : T} {pick : Nat} {pc : L} {data after : D} {status : Status O L}
    (ran : program.outcome thread pick pc data = some (after, status)) :
    (∃ next, status = .running next) ∨
      ∃ cv mutex next, status = .waiting cv mutex next ∧ program.code thread pc = .wait cv mutex next := by
  simp only [Program.outcome, Option.map_eq_some_iff, Prod.mk.injEq] at ran
  obtain ⟨⟨_, _⟩, result, -, rfl⟩ := ran
  cases instr : program.code thread pc with
  | wait cv mutex place =>
      simp only [instr, Instr.result, Option.some.injEq, Prod.mk.injEq] at result
      exact Or.inr ⟨cv, mutex, place, result.2.symm, rfl⟩
  | act effect =>
      simp only [instr, Instr.result, Option.map_eq_some_iff, Prod.mk.injEq] at result
      obtain ⟨⟨_, place⟩, -, -, running⟩ := result
      exact Or.inl ⟨place, running.symm⟩
  | halt => simp [instr, Instr.result] at result
  | _ =>
      simp only [instr, Instr.result, Option.some.injEq, Prod.mk.injEq] at result
      exact Or.inl ⟨_, result.2.symm⟩

/--
A proof outline: an assertion about the memory for each thread at its place. A step has to establish
the assertion of the thread that takes it and of the thread that it starts, and to keep the others.
-/
theorem outline_step {holdsAt : D -> T -> Status O L -> Prop}
    (taken : program.step state action = some next)
    (outline : ∀ thread, holdsAt state.data thread (state.status thread))
    (actor : holdsAt next.data action.actor (next.status action.actor))
    (others : ∀ other, other ≠ action.actor -> next.status other = state.status other ->
      holdsAt state.data other (state.status other) -> holdsAt next.data other (state.status other))
    (born : ∀ child pick pc first place, action = .run action.actor pick ->
      state.status action.actor = .running pc ->
      program.code action.actor pc = .start child first place ->
      holdsAt next.data child (.running first)) :
    ∀ thread, holdsAt next.data thread (next.status thread) := by
  intro thread
  by_cases same : thread = action.actor
  · exact same ▸ actor
  · rcases status_other taken same with stays | ⟨pick, pc, first, place, run, here, instr, -, started⟩
    · exact stays ▸ others thread same stays (outline thread)
    · exact started ▸ born thread pick pc first place run here instr

theorem sleepers_shrink (taken : program.step state action = some next) {cv : O} {thread : T}
    (asleep : thread ∈ state.sleepers cv) :
    thread ∈ next.sleepers cv ∨ action = .wake thread ∨ action = .interrupt thread ∨
      ∃ actor pick pc place, action = .run actor pick ∧ state.status actor = .running pc ∧
        (program.code actor pc = .signal cv place ∨ program.code actor pc = .broadcast cv place) := by
  have erased {actor : T} (other : O) (different : thread ≠ actor) :
      thread ∈ Function.update state.sleepers other ((state.sleepers other).erase actor) cv := by
    by_cases same : cv = other
    · subst same
      simpa using (List.mem_erase_of_ne different).mpr asleep
    · simpa [same] using asleep
  cases step_cases taken with
  | @instr actor pick pc after here performed =>
      obtain ⟨-, _, _, -, -, sleepers, -, -⟩ := perform_parts performed
      change thread ∈ after.sleepers cv ∨ _
      rw [sleepers]
      cases instr : program.code actor pc with
      | wait other mutex place =>
          refine Or.inl ?_
          by_cases same : cv = other
          · subst same
            simp [Instr.asleep, asleep]
          · simpa [Instr.asleep, same] using asleep
      | signal other place | broadcast other place =>
          by_cases same : cv = other
          · subst same
            exact Or.inr (Or.inr (Or.inr ⟨actor, pick, pc, place, rfl, here, by simp [instr]⟩))
          · exact Or.inl (by simpa [Instr.asleep, same] using asleep)
      | _ => exact Or.inl asleep
  | resume | call | stop => exact Or.inl asleep
  | @wake actor other =>
      by_cases same : thread = actor
      · exact Or.inr (Or.inl (same ▸ rfl))
      · exact Or.inl (erased other same)
  | @abandon actor other =>
      by_cases same : thread = actor
      · exact Or.inr (Or.inr (Or.inl (same ▸ rfl)))
      · exact Or.inl (erased other same)

/-- Whoever comes to own a mutex has locked it, or comes back from a wait with it. -/
theorem owner_taken (taken : program.step state action = some next) {mutex : O} {thread : T}
    (owner : next.owner mutex = some thread) :
    state.owner mutex = some thread ∨ ∃ pick place, action = .run thread pick ∧
      next.status thread = .running place ∧
      ((∃ pc, state.status thread = .running pc ∧ program.code thread pc = .lock mutex place) ∨
        ∃ cv, state.status thread = .waiting cv mutex place) := by
  have given {other : O} (kept : Function.update state.owner other none mutex = some thread) :
      state.owner mutex = some thread := by
    by_cases same : mutex = other
    · simp [same] at kept
    · simpa [same] using kept
  cases step_cases taken with
  | @instr actor pick pc after here performed =>
      obtain ⟨-, data, status, result, owners, -, statuses, -⟩ := perform_parts performed
      change after.owner mutex = some thread at owner
      rw [owners] at owner
      cases instr : program.code actor pc with
      | lock other place =>
          simp only [instr, Instr.owners] at owner
          by_cases same : mutex = other
          · subst same
            obtain rfl : actor = thread := by simpa using owner
            simp only [instr, Instr.result, Option.some.injEq, Prod.mk.injEq] at result
            exact Or.inr ⟨pick, place, rfl, by simp [statuses, ← result.2], Or.inl ⟨pc, here, instr⟩⟩
          · exact Or.inl (by simpa [same] using owner)
      | unlock other place | wait cv other place =>
          exact Or.inl (given (by simpa [instr, Instr.owners] using owner))
      | _ => exact Or.inl (by simpa [instr, Instr.owners] using owner)
  | @resume actor pick cv other pc here awake free =>
      simp only [State.goto] at owner
      by_cases same : mutex = other
      · subst same
        obtain rfl : actor = thread := by simpa using owner
        exact Or.inr ⟨pick, pc, rfl, by simp [State.goto], Or.inr ⟨cv, here⟩⟩
      · exact Or.inl (by simpa [same] using owner)
  | _ => exact Or.inl owner

theorem cancelled_grow (taken : program.step state action = some next) {victim : T}
    (cancelled : next.cancelled victim = true) :
    state.cancelled victim = true ∨ ∃ thread pc place, state.status thread = .running pc ∧
      program.code thread pc = .cancel victim place := by
  have fewer {thread : T} (left : Function.update state.cancelled thread false victim = true) :
      state.cancelled victim = true := by
    by_cases same : victim = thread
    · simp [same] at left
    · simpa [same] using left
  cases step_cases taken with
  | @instr thread pick pc after here performed =>
      change after.cancelled victim = true at cancelled
      cases instr : program.code thread pc with
      | cancel other place =>
          simp only [instr, Program.perform, Option.some.injEq] at performed
          subst performed
          by_cases same : victim = other
          · exact Or.inr ⟨thread, pc, place, here, same ▸ instr⟩
          · exact Or.inl (by simpa [State.goto, same] using cancelled)
      | lock | acquire | release | look =>
          simp only [instr, Program.perform, Option.ite_none_right_eq_some, Option.some.injEq] at performed
          obtain ⟨-, rfl⟩ := performed
          exact Or.inl cancelled
      | act effect =>
          simp only [instr, Program.perform, Option.map_eq_some_iff] at performed
          obtain ⟨_, -, rfl⟩ := performed
          exact Or.inl cancelled
      | start child first place =>
          simp only [instr, Program.perform] at performed
          cases born : state.status child <;> simp only [born, reduceCtorEq, Option.some.injEq] at performed
          subst performed
          exact Or.inl cancelled
      | halt => simp [instr, Program.perform] at performed
      | unlock | wait | signal | broadcast =>
          simp only [instr, Program.perform, Option.some.injEq] at performed
          subst performed
          exact Or.inl cancelled
  | resume | call | wake => exact Or.inl cancelled
  | stop | abandon => exact Or.inl (fewer cancelled)

theorem interrupt_pending {thread : T} (taken : program.step state (.interrupt thread) = some next) :
    state.cancelled thread = true := by
  cases handled : program.handler thread with
  | none => simp [Program.step, handled] at taken
  | some place =>
      simp only [Program.step, handled] at taken
      split_ifs at taken with pending
      exact pending

theorem call_parts {thread : T} {place : L} (taken : program.step state (.call thread place) = some next) :
    ∃ pc data, state.status thread = .running pc ∧ program.calls thread pc place state.data = some data ∧
      next = { state with data := data }.goto thread place := by
  cases step_cases taken with
  | call here chosen => exact ⟨_, _, here, chosen, rfl⟩

end Posix
