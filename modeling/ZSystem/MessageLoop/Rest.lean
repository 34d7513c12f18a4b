import ZSystem.MessageLoop.Load
import ZSystem.Shared.Turns

set_option autoImplicit false

/-!
# A message loop that nobody calls any more

The threads go on with their calls until all have returned, and the loop thread until it has handed over
whatever has been accepted.
-/

namespace ZSystem.MessageLoop

open Posix Transition

/-! ## How much is left to do -/

/-- One request of semaphore 1 is good for this many turns of the loop thread. -/
def round : Nat := 12

/-- What is left after the semaphore operation. -/
def Site.rest : Site -> Nat
  | .postLock _ => 21
  | .abortLock => 20
  | .postAnnounce | .abortAnnounce => 4
  | .postUnlock _ | .abortUnlock => 1
  | .runAwait => 12
  | .runLock => 9
  | .runUnlock _ => 5

/-- An announcement pays for the request, and the loop thread takes it. -/
def Site.due : Site -> Nat
  | .postAnnounce | .abortAnnounce => 17
  | .runAwait => 1
  | site => site.rest + 1

def PC.weight : PC -> Nat
  | .caller | .finished => 0
  | .duplicate site => site.due + 1
  | .op site => site.due
  | .dropDuplicate site => site.rest
  | .postTest _ => 20
  | .postInsert _ | .abortTest => 19
  | .runTake => 8
  | .runRespond _ => 4
  | .runFree _ | .runAfterAbort => 3
  | .runDestroy => 2
  | .runFreeLoop => 1

def requests (value : Sem -> Nat) (_ : Data) : Nat := round * value .requests

section Moves

variable {data after : Data} {thread : ThreadId} {pc place : PC} {value values : Sem -> Nat}

theorem Move.shorter (move : Move thread data value pc place after values) (inside : pc ≠ .caller) :
    place.weight + round * values .requests < pc.weight + round * value .requests := by
  cases move with
  | call => exact absurd rfl inside
  | @acquire site down free =>
      cases site with
      | runAwait =>
          simp only [Site.sem, Function.update_self, PC.weight, Site.rest, Site.due, round] at free ⊢
          omega
      | postLock | abortLock | runLock =>
          simp [Site.sem, PC.weight, Site.rest, Site.due]
      | _ => cases down
  | @release site up =>
      cases site with
      | postAnnounce | abortAnnounce =>
          simp only [Site.sem, Function.update_self, PC.weight, Site.rest, Site.due, round]
          omega
      | postUnlock | abortUnlock | runUnlock =>
          simp [Site.sem, PC.weight, Site.rest, Site.due]
      | _ => cases up
  | @drop site =>
      cases site <;> simp only [Site.next]
      case runUnlock element => split_ifs <;> simp [PC.weight, Site.rest]
      all_goals simp [PC.weight, Site.rest, Site.due]
  | _ => simp [PC.weight, Site.rest, Site.due]

/-- Semaphore 0 is taken by a thread that is inside a section then. -/
theorem Move.taken (move : Move thread data value pc place after values) (none : values .queue = 0) :
    place.locked = true ∨ pc.locked = false ∧ value .queue = 0 := by
  cases move with
  | call => exact Or.inr ⟨rfl, none⟩
  | @duplicate site =>
      cases inside : site.inside with
      | true => exact Or.inl inside
      | false => exact Or.inr ⟨inside, none⟩
  | @acquire site down =>
      cases site with
      | postLock | abortLock | runLock => exact Or.inl rfl
      | runAwait => exact Or.inr ⟨rfl, by simpa [Site.sem] using none⟩
      | _ => cases down
  | @release site up =>
      cases site with
      | postAnnounce | abortAnnounce => exact Or.inl rfl
      | postUnlock | abortUnlock | runUnlock => simp [Site.sem] at none
      | _ => cases up
  | @drop site =>
      cases site with
      | postUnlock | abortUnlock | runAwait => exact Or.inr ⟨rfl, none⟩
      | runUnlock element => exact Or.inr ⟨rfl, none⟩
      | _ => exact Or.inl rfl
  | refuse | accept | insert | again | abort | take => exact Or.inl rfl
  | _ => exact Or.inr ⟨rfl, none⟩

end Moves

theorem shortens : Shortens program (fun _ pc => pc.weight) requests := by
  intro state thread pick pc after here performed
  obtain ⟨place, statuses, move⟩ := perform_move here performed
  have inside : pc ≠ .caller := fun same => by simp [same, program, code, Program.perform] at performed
  have spawns : (program.code thread pc).spawns (fun _ pc => pc.weight) = 0 := by
    cases pc <;> simp only [program, code, onLoop, Instr.spawns]
    split_ifs <;> rfl
  have shorter := move.shorter inside
  simpa [statuses, spawns, requests, Status.weight] using shorter

/-! ## Where the threads stop -/

/-- All calls have returned and all that they accepted has been handed over. -/
structure Drained (state : State) : Prop where
  clients : ∀ number, state.status (.client number) = .running .caller
  delivered : state.data.delivered = state.data.enqueued.map Prod.snd
  loop : state.status .run = .running (.op .runAwait) ∧ state.data.aborting = false ∨
    state.status .run = .running .finished ∧ state.data.aborting = true

/-- An announcement finds no room in semaphore 1. -/
def Full (state : State) : Prop :=
  ∃ number site, state.status (.client number) = .running (.op site) ∧
    (site = .postAnnounce ∨ site = .abortAnnounce) ∧ state.value .requests = 32767

/-- The loop has gone while a call was under way. -/
def Overtaken (state : State) : Prop :=
  state.data.destroyed = true ∧ ∃ number, state.status (.client number) ≠ .running .caller

structure Going (state : State) : Prop where
  alive : Alive state
  finite : state.data.queue.Finite
  most : ∀ sem, state.value sem ≤ 32767
  holder : state.value .queue = 0 -> ∃ thread pc, state.status thread = .running pc ∧ pc.locked = true
  few : state.Finite fun _ pc => pc.weight

section

variable {state next : State} {action : Action} {thread : ThreadId} {pc : PC}

theorem Going.preserved (going : Going state) (taken : step state action = some next) : Going next := by
  obtain ⟨pc, place, here, moved, move⟩ := step_move going.alive.flowing.sectioned.all taken
  refine ⟨going.alive.preserved taken, move.finite going.finite, value_most rfl going.most taken, fun none => ?_,
    going.few.step taken⟩
  obtain locked | ⟨unlocked, before⟩ := move.taken none
  · exact ⟨action.actor, place, by simp [moved], locked⟩
  · obtain ⟨holder, there, at', locked⟩ := going.holder before
    have differ : holder ≠ action.actor := fun same => by
      cases here.symm.trans (same ▸ at')
      simp [unlocked] at locked
    exact ⟨holder, there, by simp [moved, differ, at'], locked⟩

theorem initial_going : Going initial where
  alive := initial_alive
  finite := initial_loaded.finite
  most := initial_loaded.most
  holder none := by cases none
  few := by
    refine (Set.finite_singleton ThreadId.run).subset fun thread member => ?_
    cases thread with
    | run => rfl
    | client number => exact absurd rfl member

def Stuck (state : State) (thread : ThreadId) : Prop := ∀ pick, program.turn state (thread, pick) = none

theorem Going.waits (going : Going state) (stuck : Stuck state thread) (here : state.status thread = .running pc)
    (kept : state.data.freed = false) : ¬ Ready state pc := by
  intro ready
  obtain ⟨pick, taken⟩ := going.alive.proceeds going.finite here kept ready
  simp [show step state (.run thread pick) = none from stuck pick] at taken

/-- A loop that is not destroyed is not freed. -/
theorem Going.present (going : Going state) (present : state.data.destroyed = false) : state.data.freed = false := by
  obtain ⟨pc, here⟩ := going.alive.flowing.sectioned.all .run
  have past := going.alive.destroyed pc here
  rw [going.alive.freed pc here, decide_eq_false_iff_not]
  rintro rfl
  simp [present, PC.past] at past

theorem going_of_reach (reached : Reachable step initial state) : Going state :=
  reached.invariant Going initial_going fun _ _ _ going _ taken => going.preserved taken

section Stuck

variable (going : Going state) (clients : ∀ number, Stuck state (.client number))
  (run : ∀ pc, state.status .run = .running pc -> pc.locked = true -> Stuck state .run)

include going clients run

/-- Semaphore 0 is free, since whoever has it goes on. -/
theorem Going.queue_free (room : ¬ Full state) (present : state.data.destroyed = false) :
    0 < state.value .queue := by
  by_contra none
  obtain ⟨holder, pc, here, locked⟩ := going.holder (Nat.eq_zero_of_not_pos none)
  have stuck : Stuck state holder := by
    cases holder with
    | run => exact run pc here locked
    | client number => exact clients number
  have waits := going.waits stuck here (going.present present)
  cases holder with
  | run =>
      have mine := (going.alive.flowing.placed .run pc here).mpr rfl
      have few : state.value .queue ≤ 1 := going.alive.flowing.sectioned.lock.most
      cases pc with
      | duplicate site => exact waits present
      | op site =>
          cases site with
          | runUnlock element =>
              refine waits (show state.value .queue < 32767 from ?_)
              omega
          | runAwait | runLock => cases locked
          | _ => cases mine
      | dropDuplicate | runTake => exact waits trivial
      | postTest | postInsert | abortTest => cases mine
      | _ => cases locked
  | client number =>
      obtain ready | ⟨announces, full⟩ :=
        going.alive.holder_ready going.most here locked ThreadId.noConfusion present
      · exact waits ready
      · cases pc with
        | op site =>
            cases site with
            | postAnnounce => exact room ⟨number, _, here, Or.inl rfl, full⟩
            | abortAnnounce => exact room ⟨number, _, here, Or.inr rfl, full⟩
            | _ => cases announces
        | duplicate site => exact waits present
        | dropDuplicate | postTest | postInsert | abortTest => exact waits trivial
        | _ => cases announces

theorem Going.client_returned (room : ¬ Full state) (present : state.data.destroyed = false) (number : Nat) :
    state.status (.client number) = .running .caller := by
  obtain ⟨pc, here⟩ := going.alive.flowing.sectioned.all (.client number)
  have waits := going.waits (clients number) here (going.present present)
  have free := going.queue_free clients run room present
  have few : state.value .queue ≤ 1 := going.alive.flowing.sectioned.lock.most
  have client : pc.ofRun = false := by
    by_contra mine
    cases (going.alive.flowing.placed _ pc here).mp (by simpa using mine)
  cases pc with
  | caller => exact here
  | duplicate site => exact absurd present waits
  | op site =>
      cases site with
      | postLock | abortLock => exact absurd free waits
      | postAnnounce | abortAnnounce =>
          refine absurd (show state.value .requests < 32767 from ?_) waits
          refine lt_of_le_of_ne (going.most .requests) fun full => room ⟨number, _, here, by simp, full⟩
      | postUnlock | abortUnlock =>
          refine absurd (show state.value .queue < 32767 from ?_) waits
          omega
      | _ => cases client
  | dropDuplicate | postTest | postInsert | abortTest => exact absurd trivial waits
  | _ => cases client

theorem Going.run_awaits (stuck : Stuck state .run) (room : ¬ Full state) (present : state.data.destroyed = false) :
    state.status .run = .running (.op .runAwait) ∧ state.value .requests = 0 := by
  obtain ⟨pc, here⟩ := going.alive.flowing.sectioned.all .run
  have waits := going.waits stuck here (going.present present)
  have free := going.queue_free clients run room present
  have few : state.value .queue ≤ 1 := going.alive.flowing.sectioned.lock.most
  have mine := (going.alive.flowing.placed .run pc here).mpr rfl
  have past := going.alive.destroyed pc here
  cases pc with
  | duplicate site => exact absurd present waits
  | op site =>
      cases site with
      | runAwait => exact ⟨here, Nat.eq_zero_of_not_pos waits⟩
      | runLock => exact absurd free waits
      | runUnlock =>
          refine absurd (show state.value .queue < 32767 from ?_) waits
          omega
      | _ => cases mine
  | finished => simp [present, PC.past] at past
  | caller | postTest | postInsert | abortTest => cases mine
  | _ => exact absurd trivial waits

theorem Going.drained (stuck : Stuck state .run) (room : ¬ Full state) (overtaken : ¬ Overtaken state) :
    Drained state := by
  obtain ⟨pc, addresses, contents, hand, here, flow⟩ := going.alive.flowing.flow
  have past := going.alive.destroyed pc here
  have freed := going.alive.freed pc here
  cases present : state.data.destroyed with
  | true =>
      have returned (number : Nat) : state.status (.client number) = .running .caller :=
        by_contra fun busy => overtaken ⟨present, number, busy⟩
      have ended : pc = .finished := by
        by_contra more
        have kept : state.data.freed = false := by simpa [more] using freed
        have waits := going.waits stuck here kept
        cases pc <;> simp [present, PC.past] at past more
        exact waits trivial
      subst ended
      obtain ⟨nothing, aborting⟩ := flow.left rfl
      have order := flow.order
      rw [show hand = [] from flow.hand, nothing] at order
      exact ⟨returned, by simp [order], Or.inr ⟨here, aborting⟩⟩
  | false =>
      have returned := going.client_returned clients run room present
      obtain ⟨awaits, none⟩ := going.run_awaits clients run stuck room present
      cases here.symm.trans awaits
      have paid : state.data.owed = false := by
        by_contra owed
        obtain ⟨thread, place, there, owing⟩ := going.alive.flowing.owing.mp (by simpa using owed)
        cases thread with
        | run =>
            cases there.symm.trans awaits
            cases owing
        | client number =>
            cases there.symm.trans (returned number)
            cases owing
      have balance := flow.balance
      have order := flow.order
      simp only [none, paid, PC.tokens, PC.left, Bool.toNat_false, Bool.not_false, Bool.and_true] at balance
      have nothing : contents = [] := List.eq_nil_of_length_eq_zero (by omega)
      have accepting : state.data.aborting = false := by
        cases aborting : state.data.aborting with
        | false => rfl
        | true =>
            rw [aborting, Bool.toNat_true] at balance
            omega
      rw [show hand = [] from flow.hand, nothing] at order
      exact ⟨returned, by simp [order], Or.inl ⟨awaits, accepting⟩⟩

end Stuck

theorem not_drained (wrong : Full state ∨ Overtaken state) : ¬ Drained state := by
  intro drained
  obtain ⟨number, site, here, -⟩ | ⟨-, number, busy⟩ := wrong
  · cases here.symm.trans (drained.clients number)
  · exact busy (drained.clients number)

/--
When nobody makes a new call, the threads stop after finitely many turns, in whatever order they take them.
Then the calls have returned and what they accepted has been handed over, except where an announcement finds
no room in semaphore 1 or the loop has gone before a call came to its end.
-/
theorem loop_drains (reached : Reachable step initial state) :
    Terminates program.turn (fun final => Drained final ↔ ¬ (Full final ∨ Overtaken final)) state := by
  have going := going_of_reach reached
  refine shortens.terminates Going going.few going (fun _ _ _ going taken => going.preserved taken)
    fun final going stuck => ⟨fun drained wrong => not_drained wrong drained, fun fine => ?_⟩
  obtain ⟨room, overtaken⟩ := not_or.mp fine
  exact going.drained (fun number pick => stuck (.client number, pick)) (fun _ _ _ pick => stuck (.run, pick))
    (fun pick => stuck (.run, pick)) room overtaken

end

theorem loop_drains_abortBetweenPosts : ∃ state, exec step initial abortBetweenPosts = some state ∧
    Terminates program.turn (fun final => Drained final ↔ ¬ (Full final ∨ Overtaken final)) state := by
  obtain ⟨state, run⟩ := Option.isSome_iff_exists.mp (by decide : (exec step initial abortBetweenPosts).isSome)
  exact ⟨state, run, loop_drains (reachable_of_exec _ run)⟩

end ZSystem.MessageLoop
