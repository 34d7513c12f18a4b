import Mathlib.Algebra.BigOperators.Finprod
import ZSystem.Shared.Posix

set_option autoImplicit false

/-!
# Turns

What becomes of a program whose threads only go on with what they are doing. A weight for each place bounds
the turns that are left from there, and a stock those that semaphores and memory are good for.
-/

namespace Posix

open Transition

variable {T O L D : Type}

/-- A waiting thread takes a turn to come back. -/
def Status.weight (weight : L -> Nat) : Status O L -> Nat
  | .absent => 0
  | .running pc => weight pc
  | .waiting _ _ pc => weight pc + 1

def Instr.spawns (weight : T -> L -> Nat) : Instr T O L D -> Nat
  | .start child first _ => weight child first
  | _ => 0

def weights (weight : T -> L -> Nat) (status : T -> Status O L) (thread : T) : Nat :=
  (status thread).weight (weight thread)

noncomputable def State.load (weight : T -> L -> Nat) (stock : (O -> Nat) -> D -> Nat) (state : State T O L D) : Nat :=
  finsum (weights weight state.status) + stock state.value state.data

/-- All but finitely many threads have nothing to do. -/
def State.Finite (weight : T -> L -> Nat) (state : State T O L D) : Prop :=
  (Function.support (weights weight state.status)).Finite

/-! ## Sums -/

section Sums

variable [DecidableEq T] {values : T -> Nat}

theorem support_update (finite : (Function.support values).Finite) (thread : T) (value : Nat) :
    (Function.support (Function.update values thread value)).Finite := by
  refine (finite.insert thread).subset fun other member => ?_
  by_cases same : other = thread
  · exact Or.inl same
  · exact Or.inr (by simpa [same] using member)

theorem finsum_update (finite : (Function.support values).Finite) (thread : T) (value : Nat) :
    finsum (Function.update values thread value) + values thread = finsum values + value := by
  have within : Function.support values ⊆ insert thread finite.toFinset := fun other member => by
    simp [Function.mem_support.mp member]
  have after : Function.support (Function.update values thread value) ⊆ insert thread finite.toFinset :=
    fun other member => by
      by_cases same : other = thread
      · simp [same]
      · have member : values other ≠ 0 := by simpa [same] using member
        simp [member]
  rw [finsum_eq_sum_of_support_subset values (by exact_mod_cast within),
    finsum_eq_sum_of_support_subset (Function.update values thread value) (by exact_mod_cast after),
    Finset.sum_update_of_mem (Finset.mem_insert_self _ _),
    ← Finset.add_sum_erase _ _ (Finset.mem_insert_self thread finite.toFinset), ← Finset.sdiff_singleton_eq_erase]
  omega

end Sums

variable [DecidableEq T] [DecidableEq O]

/-- Nobody makes a call, wakes up by himself or is cancelled. -/
def Program.turn (program : Program T O L D) (state : State T O L D) (turn : T × Nat) : Option (State T O L D) :=
  program.step state (.run turn.1 turn.2)

/-- Every instruction leaves less to do, that of a thread that it starts included. -/
def Shortens (program : Program T O L D) (weight : T -> L -> Nat) (stock : (O -> Nat) -> D -> Nat) : Prop :=
  ∀ (state : State T O L D) (thread : T) (pick : Nat) (pc : L) (after : State T O L D),
    state.status thread = .running pc ->
      program.perform thread pick state (program.code thread pc) = some after ->
        (after.status thread).weight (weight thread) + (program.code thread pc).spawns weight +
          stock after.value (program.note thread pc after.data) < weight thread pc + stock state.value state.data

section Turn

variable {program : Program T O L D} {weight : T -> L -> Nat} {stock : (O -> Nat) -> D -> Nat}
  {state next : State T O L D} {action : Act T L} {turn : T × Nat}

theorem State.Finite.step (finite : state.Finite weight) (taken : program.step state action = some next) :
    next.Finite weight := by
  have child : {other | ∃ pc first place, state.status action.actor = .running pc ∧
      program.code action.actor pc = .start other first place}.Subsingleton := by
    rintro one ⟨pc, first, place, here, instr⟩ two ⟨pc', first', place', there, instr'⟩
    cases here.symm.trans there
    cases instr.symm.trans instr'
    rfl
  refine ((finite.union child.finite).insert action.actor).subset fun other member => ?_
  by_cases same : other = action.actor
  · exact Or.inl same
  · obtain stays | ⟨_, pc, first, place, -, here, instr, -, -⟩ := status_other taken same
    · exact Or.inr (Or.inl (by simpa [weights, stays] using member))
    · exact Or.inr (Or.inr ⟨pc, first, place, here, instr⟩)

omit [DecidableEq O] in
theorem weights_update (status : T -> Status O L) (thread : T) (after : Status O L) :
    weights weight (Function.update status thread after) =
      Function.update (weights weight status) thread (after.weight (weight thread)) := by
  funext other
  by_cases same : other = thread
  · subst same
    simp [weights]
  · simp [weights, same]

omit [DecidableEq O] in
/-- A thread that is started had no weight before. -/
theorem weights_spawned {instr : Instr T O L D} (enabled : instr.Enabled state) (finite : state.Finite weight) :
    (Function.support (weights weight (instr.spawned state.status))).Finite ∧
      finsum (weights weight (instr.spawned state.status)) =
        finsum (weights weight state.status) + instr.spawns weight := by
  cases instr with
  | start child first place =>
      have absent : weights weight state.status child = 0 := by
        rw [weights, show state.status child = .absent from enabled, Status.weight]
      simp only [Instr.spawned, weights_update, Instr.spawns]
      refine ⟨support_update finite child _, ?_⟩
      have sum := finsum_update finite child (Status.weight (weight child) (.running first : Status O L))
      rwa [absent] at sum
  | _ => exact ⟨finite, rfl⟩

theorem Shortens.smaller (shortens : Shortens program weight stock) (finite : state.Finite weight)
    (taken : program.turn state turn = some next) : next.load weight stock < state.load weight stock := by
  cases step_cases taken with
  | @instr _ _ pc after here performed =>
      have shorter := shortens _ _ _ _ _ here performed
      obtain ⟨enabled, data, status, -, -, -, statuses, -⟩ := perform_parts performed
      obtain ⟨spawned, sum⟩ := weights_spawned enabled finite
      have moved := finsum_update spawned turn.1 (status.weight (weight turn.1))
      have before : weights weight ((program.code turn.1 pc).spawned state.status) turn.1 = weight turn.1 pc := by
        cases instr : program.code turn.1 pc with
        | start child first place =>
            have differ : turn.1 ≠ child := fun same => by simp [instr, Instr.Enabled, ← same, here] at enabled
            simp [Instr.spawned, weights, differ, here, Status.weight]
        | _ => simp [Instr.spawned, weights, here, Status.weight]
      simp only [statuses, Function.update_self] at shorter
      simp only [State.load, statuses, weights_update]
      omega
  | @resume _ _ cv mutex pc here awake free =>
      have moved := finsum_update finite turn.1 (weight turn.1 pc)
      have before : weights weight state.status turn.1 = weight turn.1 pc + 1 := by
        rw [weights, here, Status.weight]
      simp only [State.load, State.goto, weights_update, Status.weight]
      omega

/-- A call adds what is left to do in it. -/
theorem State.load_call (finite : state.Finite weight) {thread : T} {place : L}
    (taken : program.step state (.call thread place) = some next) : ∃ pc, state.status thread = .running pc ∧
      next.load weight stock + weight thread pc + stock state.value state.data =
        state.load weight stock + weight thread place + stock next.value next.data := by
  obtain ⟨pc, data, here, -, rfl⟩ := call_parts taken
  have moved := finsum_update finite thread (weight thread place)
  have before : weights weight state.status thread = weight thread pc := by rw [weights, here, Status.weight]
  refine ⟨pc, here, ?_⟩
  simp only [State.load, State.goto, weights_update, Status.weight]
  omega

/-- Where a program is stuck is up to the program; it always gets there. -/
theorem Shortens.terminates (shortens : Shortens program weight stock) (inv : State T O L D -> Prop)
    {done : State T O L D -> Prop} (finite : state.Finite weight) (established : inv state)
    (kept : ∀ state turn next, inv state -> program.turn state turn = some next -> inv next)
    (stuck : ∀ state, inv state -> (∀ turn, program.turn state turn = none) -> done state) :
    Terminates program.turn done state := by
  have descends : Descends program.turn (fun state => inv state ∧ state.Finite weight) (State.load weight stock) :=
    ⟨fun state turn next holds taken => ⟨kept state turn next holds.1 taken, holds.2.step taken⟩,
      fun state turn next holds taken => shortens.smaller holds.2 taken⟩
  exact descends.terminates ⟨established, finite⟩ fun state holds => stuck state holds.1

end Turn

end Posix
