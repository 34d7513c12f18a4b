import ZSystem.Shared.Posix

set_option autoImplicit false

/-!
# Code inside other code

An instruction of one program as an instruction of a larger one, which has more synchronisation
objects, more places and more memory.
-/

namespace Posix

variable {T O L D O' L' D' : Type}

def Status.embed (object : O -> O') (place : L -> L') : Status O L -> Status O' L'
  | .absent => .absent
  | .running pc => .running (place pc)
  | .waiting cv mutex pc => .waiting (object cv) (object mutex) (place pc)

/-- `get` and `put` read and write the part of the memory that the instruction works on. -/
def Instr.embed (object : O -> O') (place : L -> L') (get : D' -> D) (put : D -> D' -> D') :
    Instr T O L D -> Instr T O' L' D'
  | .lock mutex next => .lock (object mutex) (place next)
  | .unlock mutex next => .unlock (object mutex) (place next)
  | .wait cv mutex next => .wait (object cv) (object mutex) (place next)
  | .signal cv next => .signal (object cv) (place next)
  | .broadcast cv next => .broadcast (object cv) (place next)
  | .acquire sem next => .acquire (object sem) (place next)
  | .release sem next => .release (object sem) (place next)
  | .act effect => .act fun pick data =>
      (effect pick (get data)).map fun (part, next) => (put part data, place next)
  | .look defined next => .look (fun data => defined (get data)) fun data => place (next (get data))
  | .start child first next => .start child (place first) (place next)
  | .cancel victim next => .cancel victim (place next)
  | .halt => .halt

@[simp] theorem place_embed (object : O -> O') (place : L -> L') (status : Status O L) :
    (status.embed object place).place = status.place.map place := by
  cases status <;> rfl

theorem result_embed {object : O -> O'} {place : L -> L'} {get : D' -> D} {put : D -> D' -> D'}
    {pick : Nat} {data : D'} (same : put (get data) data = data) (instr : Instr T O L D) :
    (instr.embed object place get put).result pick data =
      (instr.result pick (get data)).map fun (part, status) => (put part data, status.embed object place) := by
  cases instr with
  | act effect =>
      simp only [Instr.embed, Instr.result, Option.map_map]
      rfl
  | _ => simp [Instr.embed, Instr.result, Status.embed, same]

theorem embed_eq_start {object : O -> O'} {place : L -> L'} {get : D' -> D} {put : D -> D' -> D'}
    {instr : Instr T O L D} {child : T} {first next : L'}
    (starts : instr.embed object place get put = .start child first next) :
    ∃ first next, instr = .start child first next := by
  cases instr <;> simp only [Instr.embed, Instr.start.injEq, reduceCtorEq] at starts
  obtain ⟨rfl, -, -⟩ := starts
  exact ⟨_, _, rfl⟩

/-! ## A part of the memory -/

section Part

variable [DecidableEq T] [DecidableEq O] {program : Program T O L D} {larger : Program T O L D'}
  {get : D' -> D} {put : D -> D' -> D'}

/-- What is left of a state when only the part of the memory counts that `get` reads. -/
def State.part (get : D' -> D) (state : State T O L D') : State T O L D where
  owner := state.owner
  sleepers := state.sleepers
  value := state.value
  cancelled := state.cancelled
  status := state.status
  data := get state.data

theorem perform_embed (limit : larger.limit = program.limit) (reads : ∀ part data, get (put part data) = part)
    (thread : T) (pick : Nat) (state : State T O L D') (instr : Instr T O L D) :
    (larger.perform thread pick state (instr.embed id id get put)).map (State.part get) =
      program.perform thread pick (state.part get) instr := by
  cases instr with
  | lock mutex next =>
      by_cases free : state.owner mutex = none <;>
        simp [Instr.embed, Program.perform, State.part, State.goto, free]
  | acquire sem next =>
      by_cases some : 0 < state.value sem <;>
        simp [Instr.embed, Program.perform, State.part, State.goto, some]
  | release sem next => simp [Instr.embed, Program.perform, State.part, State.goto, limit]
  | act effect =>
      cases ran : effect pick (get state.data) with
      | none => simp [Instr.embed, Program.perform, State.part, ran]
      | some result => simp [Instr.embed, Program.perform, State.part, State.goto, ran, reads]
  | look defined next =>
      by_cases known : defined (get state.data) = true <;>
        simp [Instr.embed, Program.perform, State.part, State.goto, known]
  | start child first next =>
      simp only [Instr.embed, Program.perform, State.part, id_eq]
      cases state.status child <;> rfl
  | _ => rfl

/-- What the larger program does besides its instructions. -/
structure Widens (program : Program T O L D) (larger : Program T O L D') (get : D' -> D) : Prop where
  calls : ∀ thread pc place data after, larger.calls thread pc place data = some after ->
    program.calls thread pc place (get data) = some (get after)
  note : ∀ thread pc data, get (larger.note thread pc data) = program.note thread pc (get data)
  handler : larger.handler = program.handler
  interruptible : larger.interruptible = program.interruptible

/-- A step is one of the smaller program, if that holds of the instruction that it performs. -/
theorem Widens.step (widens : Widens program larger get) {state next : State T O L D'} {action : Act T L}
    (taken : larger.step state action = some next)
    (performs : ∀ thread pick pc after, action = .run thread pick -> state.status thread = .running pc ->
      larger.perform thread pick state (larger.code thread pc) = some after ->
      program.perform thread pick (state.part get) (program.code thread pc) = some (after.part get)) :
    program.step (state.part get) action = some (next.part get) := by
  cases action with
  | run thread pick =>
      cases here : state.status thread with
      | absent => simp [Program.step, here] at taken
      | running pc =>
          simp only [Program.step, here, Option.map_eq_some_iff] at taken
          obtain ⟨after, performed, rfl⟩ := taken
          have smaller := performs thread pick pc after rfl here performed
          have there : (state.part get).status thread = .running pc := here
          simp only [Program.step, there, smaller, Option.map_some, Option.some.injEq]
          simp [State.part, widens.note]
      | waiting cv mutex pc =>
          simp only [Program.step, here] at taken
          split_ifs at taken with ready
          cases taken
          simp [Program.step, State.part, here, ready, State.goto]
  | call thread place =>
      cases here : state.status thread <;>
        simp only [Program.step, here, Option.map_eq_some_iff, reduceCtorEq] at taken
      obtain ⟨data, chosen, rfl⟩ := taken
      simp [Program.step, State.part, here, widens.calls _ _ _ _ _ chosen, State.goto]
  | wake thread =>
      cases here : state.status thread <;> simp only [Program.step, here, reduceCtorEq] at taken
      split_ifs at taken with asleep
      cases taken
      simp [Program.step, State.part, here, asleep]
  | interrupt thread =>
      cases handled : program.handler thread with
      | none => simp [Program.step, widens.handler, handled] at taken
      | some place =>
          simp only [Program.step, widens.handler, handled, widens.interruptible] at taken
          split_ifs at taken with pending
          cases here : state.status thread <;> simp only [here, reduceCtorEq] at taken
          · split_ifs at taken with point
            cases taken
            simp [Program.step, State.part, State.goto, handled, pending, here, point]
          · cases taken
            simp [Program.step, State.part, handled, pending, here]

/--
A step of the smaller program is one of the larger program, if that holds of the instruction that it performs,
with any pick. `allowed` says which steps of the larger program are asked for.
-/
theorem Widens.follow (widens : Widens program larger get)
    (called : ∀ thread pc place data part, program.calls thread pc place (get data) = some part ->
      ∃ after, larger.calls thread pc place data = some after ∧ get after = part)
    {allowed : Act T L -> Prop} {state : State T O L D'} {action : Act T L} {after : State T O L D}
    (taken : program.step (state.part get) action = some after)
    (performs : ∀ thread pick pc middle, action = .run thread pick -> state.status thread = .running pc ->
      program.perform thread pick (state.part get) (program.code thread pc) = some middle ->
      ∃ pick next, allowed (.run thread pick) ∧
        larger.perform thread pick state (larger.code thread pc) = some next ∧ next.part get = middle)
    (others : (∀ thread pick pc, action = .run thread pick -> state.status thread ≠ .running pc) -> allowed action) :
    ∃ action next, allowed action ∧ larger.step state action = some next ∧ next.part get = after := by
  cases action with
  | run thread pick =>
      cases here : state.status thread with
      | absent => simp [Program.step, State.part, here] at taken
      | running pc =>
          have there : (state.part get).status thread = .running pc := here
          simp only [Program.step, there, Option.map_eq_some_iff] at taken
          obtain ⟨middle, performed, rfl⟩ := taken
          obtain ⟨pick', next, meets, done, rfl⟩ := performs thread pick pc middle rfl here performed
          refine ⟨.run thread pick', { next with data := larger.note thread pc next.data }, meets, ?_, ?_⟩
          · simp [Program.step, here, done]
          · simp [State.part, widens.note]
      | waiting cv mutex pc =>
          have there : (state.part get).status thread = .waiting cv mutex pc := here
          simp only [Program.step, there] at taken
          split_ifs at taken with ready
          cases taken
          have meets := others fun other _ place run running => by
            cases run
            cases here.symm.trans running
          have possible : thread ∉ state.sleepers cv ∧ state.owner mutex = none := ready
          let next := { state with owner := Function.update state.owner mutex (some thread) }.goto thread pc
          have moved : larger.step state (.run thread pick) = some next := by
            simp only [Program.step, here, if_pos possible, next]
          exact ⟨.run thread pick, next, meets, moved, rfl⟩
  | call thread place =>
      cases here : state.status thread <;>
        simp only [Program.step, State.part, here, Option.map_eq_some_iff, reduceCtorEq] at taken
      obtain ⟨part, chosen, rfl⟩ := taken
      obtain ⟨data, moved, rfl⟩ := called _ _ _ _ _ chosen
      exact ⟨.call thread place, { state with data := data }.goto thread place, others (by simp),
        by simp [Program.step, here, moved], rfl⟩
  | wake thread =>
      cases here : state.status thread with
      | absent | running pc => simp [Program.step, State.part, here] at taken
      | waiting cv mutex pc =>
          have there : (state.part get).status thread = .waiting cv mutex pc := here
          simp only [Program.step, there] at taken
          split_ifs at taken with ready
          cases taken
          have asleep : thread ∈ state.sleepers cv := ready
          let next := { state with
            sleepers := Function.update state.sleepers cv ((state.sleepers cv).erase thread) }
          have moved : larger.step state (.wake thread) = some next := by
            simp only [Program.step, here, if_pos asleep, next]
          exact ⟨.wake thread, next, others (by simp), moved, rfl⟩
  | interrupt thread =>
      cases handled : program.handler thread with
      | none => simp [Program.step, handled] at taken
      | some place =>
          simp only [Program.step, handled] at taken
          split_ifs at taken with pending
          have cancelled : state.cancelled thread = true := pending
          cases here : state.status thread with
          | absent => simp [State.part, here] at taken
          | running pc =>
              simp only [State.part, here] at taken
              split_ifs at taken with point
              cases taken
              let next := { state with cancelled := Function.update state.cancelled thread false }.goto thread place
              have moved : larger.step state (.interrupt thread) = some next := by
                simp only [Program.step, widens.handler, widens.interruptible, handled, cancelled, here, point,
                  if_true, next]
              exact ⟨.interrupt thread, next, others (by simp), moved, rfl⟩
          | waiting cv mutex pc =>
              simp only [State.part, here, Option.some.injEq] at taken
              subst taken
              let next := { state with
                cancelled := Function.update state.cancelled thread false
                sleepers := Function.update state.sleepers cv ((state.sleepers cv).erase thread)
                status := Function.update state.status thread (.waiting cv mutex place) }
              have moved : larger.step state (.interrupt thread) = some next := by
                simp only [Program.step, widens.handler, handled, cancelled, here, if_true, next]
              exact ⟨.interrupt thread, next, others (by simp), moved, rfl⟩

end Part

end Posix
