import ZSystem.Semaphore.Operation
import ZSystem.Semaphore.Removal

set_option autoImplicit false

/-!
# The values of a family

`zs__semaphore_set`, `zs__semaphore_get` and `zs__semaphore_op` go to the kernel set of a family, and kernel
sets of other families and of other programs come and go. For its handles a family is one array of
semaphores that nobody else sees.
-/

namespace ZSystem.Semaphore.Store

open Operation (Accepted Call Local SemBuf SemValue performs semvmx)
open Transition

/-! ## The kernel -/

structure State where
  base : Semaphore.State := .start
  values : Int -> Nat -> SemValue := fun _ _ => ⟨0, by decide⟩
  -- The operations that are under way and not performed yet, each with its arguments.
  pending : Nat -> Option Call := fun _ => none
  -- What the calls of `zs__semaphore_get` have returned.
  answers : List Int32 := []

def State.present (state : State) (sem : Int) : Bool :=
  (state.base.sets sem).isSome

def State.write (state : State) (sem : Int) (number : Nat) (value : SemValue) : State :=
  { state with
    values := Function.update state.values sem (Function.update (state.values sem) number value) }

/-- A set starts with zeros. -/
def State.make (state : State) (sem : Int) : State :=
  { state with values := Function.update state.values sem fun _ => ⟨0, by decide⟩ }

/-- `SETVAL` fails where no set has the identifier or the value is not one of a semaphore. -/
def State.setval (state : State) (sem : Int) (number : Nat) (value : Int32) : State :=
  if fits : state.present sem = true ∧ 0 ≤ value.toInt ∧ value.toInt ≤ semvmx then
    state.write sem number ⟨value.toInt.toNat, by omega⟩
  else state

def State.getval (state : State) (sem : Int) (number : Nat) : Int32 :=
  if state.present sem then Int32.ofNat (state.values sem number).val else -1

/-- `none` while it waits, and where it fails, since the call tries again then. -/
def State.semtimedop (state : State) (sem : Int) (sb : SemBuf) : Option State :=
  if state.present sem then
    (performs sb.semOp (state.values sem sb.semNum.toNat)).map fun value =>
      state.write sem sb.semNum.toNat value
  else none

/-! ## `zs__semaphore_set`, `zs__semaphore_get` and `zs__semaphore_op` -/

def State.set (state : State) (shared : Family) (semId : UInt8) (value : Int32) : State :=
  if shared.count ≤ semId then state else state.setval shared.sem semId.toNat value

def State.get (state : State) (shared : Family) (semId : UInt8) : Int32 :=
  if shared.count ≤ semId then 0 else state.getval shared.sem semId.toNat

/-- What the kernel does for an operation that has come to its `semtimedop`. -/
def State.perform (state : State) (shared : Family) (call : Call) : Option State :=
  if Accepted call shared then state.semtimedop shared.sem (Local.prepared call shared).request.1 else none

inductive Op where
  | create (handle : Nat) (count : UInt8) (kernel : Int)
  | duplicate (handle source : Nat)
  | decrement (name : Name)
  | test (name : Name)
  | remove (name : Name)
  | set (handle : Nat) (semId : UInt8) (value : Int32)
  | get (handle : Nat) (semId : UInt8)
  | operate (operation source : Nat) (call : Call)
  | perform (operation : Nat)
  | otherCreate (kernel : Int)
  | otherRemove (kernel : Int)
  /-- Another program changes a value of a set of its own. -/
  | otherWrite (kernel : Int) (number : Nat) (value : SemValue)

/-- The operation as one on the handles. -/
def Op.base : Op -> Option Semaphore.Op
  | .create handle count kernel => some (.create handle count kernel)
  | .duplicate handle source => some (.duplicate handle source)
  | .decrement name => some (.decrement name)
  | .test name => some (.test name)
  | .remove name => some (.remove name)
  | .operate operation source _ => some (.operate operation source)
  | .otherCreate kernel => some (.otherCreate kernel)
  | .otherRemove kernel => some (.otherRemove kernel)
  | .set .. | .get .. | .perform _ | .otherWrite .. => none

def State.familyOf (state : State) (name : Name) : Option Family :=
  (state.base.familyOf name).bind state.base.families

/-- An accepted operation does not come to its end before it has been performed. -/
def State.ends (state : State) (name : Name) : Bool :=
  match name with
  | .user _ => true
  | .operation operation =>
      match state.pending operation, state.familyOf name with
      | some call, some shared => !decide (Accepted call shared)
      | _, _ => true

def State.lift (state : State) (op : Semaphore.Op) : Option State :=
  (Semaphore.step state.base op).map fun base => { state with base := base }

def step (state : State) : Op -> Option State
  | .create handle count kernel =>
      (state.lift (.create handle count kernel)).map fun made =>
        if count ≠ 0 ∧ kernel ≠ -1 then made.make kernel else made
  | .duplicate handle source => state.lift (.duplicate handle source)
  | .decrement name => if state.ends name then state.lift (.decrement name) else none
  | .test name => state.lift (.test name)
  | .remove name => state.lift (.remove name)
  | .set handle semId value =>
      (state.familyOf (.user handle)).map fun shared => state.set shared semId value
  | .get handle semId =>
      (state.familyOf (.user handle)).map fun shared =>
        { state with answers := state.answers ++ [state.get shared semId] }
  | .operate operation source call =>
      (state.lift (.operate operation source)).map fun next =>
        { next with pending := Function.update next.pending operation (some call) }
  | .perform operation =>
      (state.pending operation).bind fun call => (state.familyOf (.operation operation)).bind fun shared =>
        (state.perform shared call).map fun next =>
          { next with pending := Function.update next.pending operation none }
  | .otherCreate kernel => (state.lift (.otherCreate kernel)).map fun next => next.make kernel
  | .otherRemove kernel => state.lift (.otherRemove kernel)
  | .otherWrite kernel number value =>
      if state.base.sets kernel = some .other then some (state.write kernel number value) else none

/-- `Semaphore.Careful` where the operation is one on the handles. -/
def Careful (state : State) (op : Op) : Prop :=
  ∀ base, op.base = some base -> Semaphore.Careful state.base base

instance (state : Semaphore.State) : ∀ op, Decidable (Semaphore.Careful state op)
  | .duplicate _ source | .operate _ source =>
      inferInstanceAs (Decidable (∀ family ∈ state.familyOf (.user source), state.handles.count family < 2 ^ 32 - 1))
  | .decrement name =>
      inferInstanceAs (Decidable (∀ family ∈ state.familyOf name,
        state.handles.count family = 1 -> state.testing.count family = 0))
  | .remove name =>
      decidable_of_iff (∀ id ∈ state.removing.target name, ∀ family ∈ state.families id,
        family.count = 0 -> state.sets 0 = none)
        ⟨fun safe id family target here => safe id target family here,
          fun safe id target family here => safe id family target here⟩
  | .create .. | .test _ | .otherCreate _ | .otherRemove _ => isTrue trivial

instance (state : State) (op : Op) : Decidable (Careful state op) :=
  inferInstanceAs (Decidable (∀ base ∈ op.base, Semaphore.Careful state.base base))

/-! ## What a family is for -/

/-- The semaphores of a family, as its handles know them. -/
structure Group where
  count : UInt8
  -- `semget` has made the set.
  made : Bool
  values : Nat -> SemValue

structure Spec where
  groups : Nat -> Option Group := fun _ => none
  next : Nat := 0
  handles : Holders Name Nat := .empty
  pending : Nat -> Option Call := fun _ => none
  answers : List Int32 := []

def Group.set (group : Group) (semId : UInt8) (value : Int32) : Group :=
  if fits : semId < group.count ∧ group.made = true ∧ 0 ≤ value.toInt ∧ value.toInt ≤ semvmx then
    { group with values := Function.update group.values semId.toNat ⟨value.toInt.toNat, by omega⟩ }
  else group

def Group.get (group : Group) (semId : UInt8) : Int32 :=
  if semId < group.count then if group.made then Int32.ofNat (group.values semId.toNat).val else -1 else 0

/-- A semaphore changes by a `short`. -/
def Group.perform (group : Group) (call : Call) : Option Group :=
  if call.semId < group.count ∧ call.value ≠ 0 ∧ group.made = true then
    (performs call.value.toInt16 (group.values call.semId.toNat)).map fun value =>
      { group with values := Function.update group.values call.semId.toNat value }
  else none

def Spec.familyOf (spec : Spec) (name : Name) : Option Nat :=
  if name ∈ spec.handles.live then spec.handles.target name else none

def Spec.add (spec : Spec) (name source : Name) : Option Spec :=
  if name ∈ spec.handles.live then none
  else (spec.familyOf source).map fun family => { spec with handles := spec.handles.add name (some family) }

/-- A change to the group of a handle. -/
def Spec.change (spec : Spec) (name : Name) (change : Group -> Option Group) : Option Spec :=
  (spec.familyOf name).bind fun family => (spec.groups family).bind fun group => (change group).map fun group =>
    { spec with groups := Function.update spec.groups family (some group) }

def Spec.step (spec : Spec) : Op -> Option Spec
  | .create handle count kernel =>
      if .user handle ∈ spec.handles.live then none
      else some { spec with
        groups := Function.update spec.groups spec.next
          (some { count := count, made := decide (kernel ≠ -1), values := fun _ => ⟨0, by decide⟩ })
        next := spec.next + 1
        handles := spec.handles.add (.user handle) (some spec.next) }
  | .duplicate handle source => spec.add (.user handle) (.user source)
  | .decrement name => (spec.familyOf name).map fun _ => { spec with handles := spec.handles.remove name }
  | .set handle semId value => spec.change (.user handle) fun group => some (group.set semId value)
  | .get handle semId =>
      (spec.familyOf (.user handle)).bind fun family => (spec.groups family).map fun group =>
        { spec with answers := spec.answers ++ [group.get semId] }
  | .operate operation source call =>
      (spec.add (.operation operation) (.user source)).map fun next =>
        { next with pending := Function.update next.pending operation (some call) }
  | .perform operation =>
      (spec.pending operation).bind fun call =>
        (spec.change (.operation operation) fun group => group.perform call).map fun next =>
          { next with pending := Function.update next.pending operation none }
  -- The counter, the kernel set and other programs do not show.
  | .test _ | .remove _ | .otherCreate _ | .otherRemove _ | .otherWrite .. => some spec

/-! ## The kernel set is the array of its family -/

structure Agrees (state : State) (id : Nat) (shared : Family) (group : Group) : Prop where
  count : group.count = shared.count
  made : shared.count ≠ 0 -> (group.made = true ↔ shared.sem ≠ -1)
  values : 0 < state.base.handles.count id -> shared.count ≠ 0 -> shared.sem ≠ -1 ->
    state.values shared.sem = group.values

structure Refines (state : State) (spec : Spec) : Prop where
  inv : Inv state.base
  next : spec.next = state.base.next
  handles : spec.handles = state.base.handles
  pending : spec.pending = state.pending
  answers : spec.answers = state.answers
  groups : ∀ id shared, state.base.families id = some shared ->
    ∃ group, spec.groups id = some group ∧ Agrees state id shared group

section Steps

variable {state next : State} {spec : Spec} {id : Nat} {name : Name} {shared : Family} {group : Group}

/-- As long as a family has a handle its set is there, and nobody else's. -/
theorem live_set (inv : Inv state.base) (here : state.base.families id = some shared)
    (live : 0 < state.base.handles.count id) (counted : shared.count ≠ 0) (valid : shared.sem ≠ -1) :
    state.base.sets shared.sem = some (.family id) :=
  inv.set id shared here counted valid ((inv.law id shared here).before live).1

/-- A step that changes nothing that the handles know of. -/
theorem Refines.move (refines : Refines state spec) (inv : Inv next.base) (number : next.base.next = state.base.next)
    (answers : next.answers = state.answers)
    (families : ∀ id shared, next.base.families id = some shared ->
      ∃ before, state.base.families id = some before ∧ before.count = shared.count ∧ before.sem = shared.sem)
    (live : ∀ id, 0 < next.base.handles.count id -> 0 < state.base.handles.count id)
    (values : ∀ id sem, state.base.sets sem = some (.family id) -> next.values sem = state.values sem) :
    Refines next { spec with handles := next.base.handles, pending := next.pending } := by
  refine ⟨inv, refines.next.trans number.symm, rfl, rfl, refines.answers.trans answers.symm, fun id shared here => ?_⟩
  obtain ⟨before, there, count, sem⟩ := families id shared here
  obtain ⟨group, found, agrees⟩ := refines.groups id before there
  refine ⟨group, found, agrees.count.trans count, fun counted => ?_, fun held counted valid => ?_⟩
  · rw [← sem]
    exact agrees.made (count ▸ counted)
  · rw [← count] at counted
    rw [← sem] at valid ⊢
    rw [values id _ (live_set refines.inv there (live id held) counted valid)]
    exact agrees.values (live id held) counted valid

/-- A value that both sides write. -/
theorem Refines.write (refines : Refines state spec) (here : state.base.families id = some shared)
    (found : spec.groups id = some group) (live : 0 < state.base.handles.count id) (counted : shared.count ≠ 0)
    (valid : shared.sem ≠ -1) (number : Nat) (value : SemValue) :
    Refines (state.write shared.sem number value)
      { spec with
        groups := Function.update spec.groups id
          (some { group with values := Function.update group.values number value }) } := by
  refine ⟨refines.inv, refines.next, refines.handles, refines.pending, refines.answers, fun other there kept => ?_⟩
  obtain ⟨before, old, agrees⟩ := refines.groups other there kept
  by_cases same : other = id
  · subst same
    cases here.symm.trans kept
    cases found.symm.trans old
    refine ⟨_, Function.update_self .., agrees.count, agrees.made, fun _ _ _ => ?_⟩
    simp only [State.write, Function.update_self, agrees.values live counted valid]
  · refine ⟨before, by simp [same, old], agrees.count, agrees.made, fun held full given => ?_⟩
    -- Two families with handles have two sets.
    have differ : there.sem ≠ shared.sem := fun equal => by
      have mine := live_set refines.inv here live counted valid
      have theirs := live_set refines.inv kept held full given
      rw [equal, mine] at theirs
      cases theirs
      exact same rfl
    simp only [State.write, Function.update_of_ne differ]
    exact agrees.values held full given

theorem Refines.withPending (refines : Refines state spec) (pending : Nat -> Option Call) :
    Refines { state with pending := pending } { spec with pending := pending } :=
  ⟨refines.inv, refines.next, refines.handles, rfl, refines.answers, fun id shared here => by
    obtain ⟨group, found, agrees⟩ := refines.groups id shared here
    exact ⟨group, found, agrees.count, agrees.made, agrees.values⟩⟩

theorem Refines.withAnswer (refines : Refines state spec) (answer : Int32) :
    Refines { state with answers := state.answers ++ [answer] } { spec with answers := spec.answers ++ [answer] } :=
  ⟨refines.inv, refines.next, refines.handles, refines.pending, by rw [refines.answers], fun id shared here => by
    obtain ⟨group, found, agrees⟩ := refines.groups id shared here
    exact ⟨group, found, agrees.count, agrees.made, agrees.values⟩⟩

theorem Refines.familyOf (refines : Refines state spec) (name : Name) :
    spec.familyOf name = state.base.familyOf name := by
  rw [Spec.familyOf, Semaphore.State.familyOf, refines.handles]

/-! ## What the handles do with their group -/

section Values

variable (refines : Refines state spec) (here : state.base.families id = some shared)
  (live : 0 < state.base.handles.count id) (found : spec.groups id = some group) (agrees : Agrees state id shared group)

include refines here live agrees

theorem present_iff (counted : shared.count ≠ 0) : state.present shared.sem = true ↔ group.made = true := by
  rw [agrees.made counted, State.present]
  constructor
  · rintro there same
    simp [same, refines.inv.invalid] at there
  · intro valid
    simp [live_set refines.inv here live counted valid]

theorem get_eq (semId : UInt8) : state.get shared semId = group.get semId := by
  rw [State.get, Group.get, agrees.count]
  by_cases within : semId < shared.count
  · have counted : shared.count ≠ 0 := fun zero => absurd (zero ▸ within) UInt8.not_lt_zero
    have same := present_iff refines here live agrees counted
    rw [if_neg (UInt8.not_le.mpr within), if_pos within, State.getval]
    by_cases made : group.made = true
    · rw [if_pos (same.mpr made), if_pos made, agrees.values live counted ((agrees.made counted).mp made)]
    · rw [if_neg (fun there => made (same.mp there)), if_neg made]
  · rw [if_pos (UInt8.not_lt.mp within), if_neg within]

include found

theorem set_follows (semId : UInt8) (value : Int32) : Refines (state.set shared semId value)
    { spec with groups := Function.update spec.groups id (some (group.set semId value)) } := by
  have unchanged : { spec with groups := Function.update spec.groups id (some group) } = spec := by
    rw [← found, Function.update_eq_self]
  have count := agrees.count
  rw [State.set, Group.set]
  by_cases within : semId < shared.count
  · have counted : shared.count ≠ 0 := fun zero => absurd (zero ▸ within) UInt8.not_lt_zero
    have same := present_iff refines here live agrees counted
    rw [if_neg (UInt8.not_le.mpr within), State.setval]
    by_cases fits : group.made = true ∧ 0 ≤ value.toInt ∧ value.toInt ≤ semvmx
    · rw [dif_pos ⟨same.mpr fits.1, fits.2⟩, dif_pos ⟨count ▸ within, fits⟩]
      exact refines.write here found live counted ((agrees.made counted).mp fits.1) _ _
    · rw [dif_neg fun both => fits ⟨same.mp both.1, both.2⟩, dif_neg fun both => fits both.2, unchanged]
      exact refines
  · rw [if_pos (UInt8.not_lt.mp within), dif_neg fun both => within (count ▸ both.1), unchanged]
    exact refines

theorem perform_follows (call : Call) :
    (∀ next, state.perform shared call = some next -> ∃ after, group.perform call = some after ∧
      Refines next { spec with groups := Function.update spec.groups id (some after) }) ∧
      ((group.perform call).isSome -> (state.perform shared call).isSome) := by
  by_cases accepted : Accepted call shared
  · have counted : shared.count ≠ 0 := fun zero => absurd (zero ▸ accepted.1) UInt8.not_lt_zero
    have same := present_iff refines here live agrees counted
    have concrete : state.perform shared call = state.semtimedop shared.sem (Local.prepared call shared).request.1 :=
      if_pos accepted
    by_cases made : group.made = true
    · have valid := (agrees.made counted).mp made
      have abstract : group.perform call = (performs call.value.toInt16 (group.values call.semId.toNat)).map fun value =>
          { group with values := Function.update group.values call.semId.toNat value } :=
        if_pos ⟨agrees.count ▸ accepted.1, accepted.2, made⟩
      have number : (Local.prepared call shared).request.1.semNum.toNat = call.semId.toNat := by
        simp [Local.prepared, Local.request]
      have op : (Local.prepared call shared).request.1.semOp = call.value.toInt16 := rfl
      rw [concrete, State.semtimedop, if_pos (same.mpr made), abstract, number, op, agrees.values live counted valid]
      refine ⟨fun next done => ?_, fun done => by simpa using done⟩
      obtain ⟨value, performed, rfl⟩ := Option.map_eq_some_iff.mp done
      exact ⟨_, by simp [performed], refines.write here found live counted valid _ _⟩
    · have absent : group.perform call = none := if_neg fun both => made both.2.2
      rw [concrete, State.semtimedop, if_neg fun there => made (same.mp there), absent]
      exact ⟨by simp, by simp⟩
  · have refused : group.perform call = none := if_neg fun both => accepted ⟨agrees.count ▸ both.1, both.2.1⟩
    rw [State.perform, if_neg accepted, refused]
    exact ⟨by simp, by simp⟩

end Values

/-! ## What the handles do with their family -/

theorem Refines.create (refines : Refines state spec) {handle : Nat} {count : UInt8} {kernel : Int}
    (free : state.base.free (.user handle)) (fresh : kernel = -1 ∨ (0 ≤ kernel ∧ state.base.sets kernel = none))
    (inv : Inv (state.base.create (.user handle) count kernel))
    (base : next.base = state.base.create (.user handle) count kernel) (pending : next.pending = state.pending)
    (answers : next.answers = state.answers)
    (values : next.values = if count ≠ 0 ∧ kernel ≠ -1 then (state.make kernel).values else state.values) :
    ∃ after, spec.step (.create handle count kernel) = some after ∧ Refines next after := by
  have unused : .user handle ∉ spec.handles.live := refines.handles ▸ free.1
  refine ⟨_, if_neg unused, base ▸ inv, ?_, ?_, refines.pending.trans pending.symm,
    refines.answers.trans answers.symm, fun id shared here => ?_⟩
  · rw [base, refines.next]
    rfl
  · rw [base, refines.handles, refines.next]
    rfl
  · rw [base] at here
    obtain ⟨differ, before⟩ | ⟨rfl, rfl⟩ := found_create here
    · obtain ⟨group, found, agrees⟩ := refines.groups id shared before
      refine ⟨group, by simp [refines.next, differ, found], agrees.count, agrees.made, fun held counted valid => ?_⟩
      rw [base] at held
      have live := (Holders.count_pos_of_add free.1 held).resolve_left differ
      -- The new set is not the one that the family has.
      have apart : kernel ≠ -1 -> shared.sem ≠ kernel := fun made same => by
        have owned := live_set refines.inv before live counted valid
        rw [same, (fresh.resolve_left made).2] at owned
        cases owned
      rw [values]
      split_ifs with makes
      · simpa [State.make, apart makes.2] using agrees.values live counted valid
      · exact agrees.values live counted valid
    · rw [← refines.next]
      refine ⟨_, Function.update_self .., rfl, fun counted => ?_, fun _ counted valid => ?_⟩
      · simp [semaphoreCreate, show count ≠ 0 from counted]
      · have counted : count ≠ 0 := counted
        simp only [semaphoreCreate, counted, ne_eq, not_false_eq_true, if_true] at valid ⊢
        simp [values, counted, valid, State.make]

theorem Refines.duplicate (refines : Refines state spec) {source : Name} (free : state.base.free name)
    (known : state.base.familyOf source = some id) (inv : Inv (state.base.duplicate name id)) :
    spec.add name source = some { spec with handles := spec.handles.add name (some id) } ∧
      Refines { state with base := state.base.duplicate name id }
        { spec with handles := spec.handles.add name (some id) } := by
  have unused : name ∉ spec.handles.live := refines.handles ▸ free.1
  refine ⟨by rw [Spec.add, if_neg unused, refines.familyOf, known, Option.map_some], ?_⟩
  have live (other : Nat) (held : 0 < (state.base.duplicate name id).handles.count other) :
      0 < state.base.handles.count other := by
    obtain rfl | before := Holders.count_pos_of_add free.1 held
    · exact live_of_familyOf known
    · exact before
  have families (other : Nat) (shared : Family) (here : (state.base.duplicate name id).families other = some shared) :
      ∃ before, state.base.families other = some before ∧ before.count = shared.count ∧ before.sem = shared.sem := by
    obtain ⟨-, before⟩ | ⟨-, before, there, rfl⟩ := found_update here
    · exact ⟨shared, before, rfl, rfl⟩
    · exact ⟨before, there, rfl, rfl⟩
  rw [refines.handles, refines.pending]
  exact refines.move inv rfl rfl families live fun _ _ _ => rfl

theorem Refines.decrement (refines : Refines state spec) (inv : Inv (state.base.decrement name id)) :
    Refines { state with base := state.base.decrement name id } { spec with handles := spec.handles.remove name } := by
  have families (other : Nat) (shared : Family) (here : (state.base.decrement name id).families other = some shared) :
      ∃ before, state.base.families other = some before ∧ before.count = shared.count ∧ before.sem = shared.sem := by
    obtain ⟨-, before⟩ | ⟨-, before, there, rfl⟩ := found_update here
    · exact ⟨shared, before, rfl, rfl⟩
    · exact ⟨before, there, rfl, rfl⟩
  rw [refines.handles, refines.pending]
  exact refines.move inv rfl rfl families (fun _ => Holders.count_pos_of_remove) fun _ _ _ => rfl

/-- A step on a family that its handles do not see. -/
theorem Refines.hidden (refines : Refines state spec) (inv : Inv next.base) (number : next.base.next = state.base.next)
    (handles : next.base.handles = state.base.handles) (pending : next.pending = state.pending)
    (answers : next.answers = state.answers)
    (families : ∀ id shared, next.base.families id = some shared ->
      ∃ before, state.base.families id = some before ∧ before.count = shared.count ∧ before.sem = shared.sem)
    (values : ∀ id sem, state.base.sets sem = some (.family id) -> next.values sem = state.values sem) :
    Refines next spec := by
  have moved := refines.move inv number answers families (fun _ held => handles ▸ held) values
  rwa [handles, pending, ← refines.handles, ← refines.pending] at moved

theorem Refines.known (refines : Refines state spec) (found : state.familyOf name = some shared) :
    ∃ id group, state.base.families id = some shared ∧ 0 < state.base.handles.count id ∧
      spec.familyOf name = some id ∧ spec.groups id = some group ∧ Agrees state id shared group := by
  obtain ⟨id, known, here⟩ := Option.bind_eq_some_iff.mp found
  obtain ⟨group, there, agrees⟩ := refines.groups id shared here
  exact ⟨id, group, here, live_of_familyOf known, (refines.familyOf name).trans known, there, agrees⟩

theorem Refines.step (refines : Refines state spec) {op : Op} (careful : Careful state op)
    (taken : Store.step state op = some next) : ∃ after, spec.step op = some after ∧ Refines next after := by
  -- What the handles do keeps the law of the families.
  have inv {base : Semaphore.Op} (same : op.base = some base) {after : Semaphore.State}
      (done : Semaphore.step state.base base = some after) : Inv after :=
    step_inv refines.inv (careful base same) done
  cases op with
  | create handle count kernel =>
      obtain ⟨made, lifted, rfl⟩ := Option.map_eq_some_iff.mp taken
      obtain ⟨base, done, rfl⟩ := Option.map_eq_some_iff.mp lifted
      have kept := inv rfl done
      simp only [Semaphore.step] at done
      split_ifs at done with ready
      cases done
      exact refines.create ready.1 ready.2 kept (by split_ifs <;> rfl) (by split_ifs <;> rfl)
        (by split_ifs <;> rfl) (by split_ifs <;> rfl)
  | duplicate handle source =>
      obtain ⟨base, done, rfl⟩ := Option.map_eq_some_iff.mp taken
      have kept := inv rfl done
      simp only [Semaphore.step, State.duplicateOf] at done
      split_ifs at done with free
      obtain ⟨id, known, rfl⟩ := Option.map_eq_some_iff.mp done
      exact ⟨_, refines.duplicate free known kept⟩
  | operate operation source call =>
      obtain ⟨added, lifted, rfl⟩ := Option.map_eq_some_iff.mp taken
      obtain ⟨base, done, rfl⟩ := Option.map_eq_some_iff.mp lifted
      have kept := inv rfl done
      simp only [Semaphore.step, State.duplicateOf] at done
      split_ifs at done with free
      obtain ⟨id, known, rfl⟩ := Option.map_eq_some_iff.mp done
      obtain ⟨added, again⟩ := refines.duplicate free known kept
      refine ⟨_, by rw [Spec.step, added, Option.map_some], ?_⟩
      rw [refines.pending]
      exact again.withPending _
  | decrement name =>
      simp only [Store.step] at taken
      split_ifs at taken
      obtain ⟨base, done, rfl⟩ := Option.map_eq_some_iff.mp taken
      have kept := inv rfl done
      obtain ⟨id, known, rfl⟩ := Option.map_eq_some_iff.mp done
      exact ⟨_, by rw [Spec.step, refines.familyOf, known, Option.map_some], refines.decrement kept⟩
  | set handle semId value =>
      obtain ⟨shared, known, rfl⟩ := Option.map_eq_some_iff.mp taken
      obtain ⟨id, group, here, live, same, found, agrees⟩ := refines.known known
      exact ⟨_, by simp [Spec.step, Spec.change, same, found], set_follows refines here live found agrees semId value⟩
  | get handle semId =>
      obtain ⟨shared, known, rfl⟩ := Option.map_eq_some_iff.mp taken
      obtain ⟨id, group, here, live, same, found, agrees⟩ := refines.known known
      refine ⟨{ spec with answers := spec.answers ++ [group.get semId] }, by simp [Spec.step, same, found], ?_⟩
      rw [get_eq refines here live agrees]
      exact refines.withAnswer _
  | perform operation =>
      obtain ⟨call, waits, taken⟩ := Option.bind_eq_some_iff.mp taken
      obtain ⟨shared, known, taken⟩ := Option.bind_eq_some_iff.mp taken
      obtain ⟨performed, done, rfl⟩ := Option.map_eq_some_iff.mp taken
      obtain ⟨id, group, here, live, same, found, agrees⟩ := refines.known known
      obtain ⟨after, follows, again⟩ := (perform_follows refines here live found agrees call).1 performed done
      have abstract : spec.step (.perform operation) = some { spec with
          groups := Function.update spec.groups id (some after)
          pending := Function.update spec.pending operation none } := by
        simp [Spec.step, Spec.change, refines.pending, waits, same, found, follows]
      refine ⟨_, abstract, ?_⟩
      rw [← again.pending]
      exact again.withPending _
  | test name =>
      obtain ⟨base, done, rfl⟩ := Option.map_eq_some_iff.mp taken
      have kept := inv rfl done
      simp only [Semaphore.step] at done
      split_ifs at done
      obtain ⟨id, -, done⟩ := Option.bind_eq_some_iff.mp done
      obtain ⟨shared, -, rfl⟩ := Option.map_eq_some_iff.mp done
      exact ⟨spec, rfl, refines.hidden kept rfl rfl rfl rfl (fun _ shared here => ⟨shared, here, rfl, rfl⟩) fun _ _ _ => rfl⟩
  | remove name =>
      obtain ⟨base, done, rfl⟩ := Option.map_eq_some_iff.mp taken
      have kept := inv rfl done
      simp only [Semaphore.step] at done
      split_ifs at done
      obtain ⟨id, -, done⟩ := Option.bind_eq_some_iff.mp done
      obtain ⟨shared, -, rfl⟩ := Option.map_eq_some_iff.mp done
      refine ⟨spec, rfl, refines.hidden kept rfl rfl rfl rfl (fun other shared here => ?_) fun _ _ _ => rfl⟩
      obtain ⟨-, before⟩ | ⟨-, before, there, rfl⟩ := found_update here
      · exact ⟨shared, before, rfl, rfl⟩
      · exact ⟨before, there, rfl, rfl⟩
  | otherCreate kernel =>
      obtain ⟨made, lifted, rfl⟩ := Option.map_eq_some_iff.mp taken
      obtain ⟨base, done, rfl⟩ := Option.map_eq_some_iff.mp lifted
      have kept := inv rfl done
      simp only [Semaphore.step] at done
      split_ifs at done with fresh
      cases done
      refine ⟨spec, rfl, refines.hidden kept rfl rfl rfl rfl (fun _ shared here => ⟨shared, here, rfl, rfl⟩)
        fun id sem owned => ?_⟩
      have differ : sem ≠ kernel := fun same => by simp [same, fresh.2] at owned
      simp [State.make, differ]
  | otherRemove kernel =>
      obtain ⟨base, done, rfl⟩ := Option.map_eq_some_iff.mp taken
      have kept := inv rfl done
      simp only [Semaphore.step] at done
      split_ifs at done
      cases done
      exact ⟨spec, rfl, refines.hidden kept rfl rfl rfl rfl (fun _ shared here => ⟨shared, here, rfl, rfl⟩) fun _ _ _ => rfl⟩
  | otherWrite kernel number value =>
      simp only [Store.step] at taken
      split_ifs at taken with theirs
      cases taken
      refine ⟨spec, rfl, refines.hidden refines.inv rfl rfl rfl rfl (fun _ shared here => ⟨shared, here, rfl, rfl⟩)
        fun id sem owned => ?_⟩
      have differ : sem ≠ kernel := fun same => by simp [same, theirs] at owned
      simp [State.write, differ]

/-- Nothing but its own semaphore holds an operation back. -/
theorem Refines.acts (refines : Refines state spec) {operation : Nat}
    (acts : (spec.step (.perform operation)).isSome) : (Store.step state (.perform operation)).isSome := by
  obtain ⟨after, taken⟩ := Option.isSome_iff_exists.mp acts
  obtain ⟨call, waits, taken⟩ := Option.bind_eq_some_iff.mp taken
  obtain ⟨changed, taken, -⟩ := Option.map_eq_some_iff.mp taken
  obtain ⟨id, known, taken⟩ := Option.bind_eq_some_iff.mp taken
  obtain ⟨group, found, taken⟩ := Option.bind_eq_some_iff.mp taken
  obtain ⟨performed, done, -⟩ := Option.map_eq_some_iff.mp taken
  rw [refines.familyOf] at known
  have live := live_of_familyOf known
  obtain ⟨shared, here⟩ := refines.inv.made id (refines.inv.old fun gone => by simp [gone] at live)
  obtain ⟨same, there, agrees⟩ := refines.groups id shared here
  cases found.symm.trans there
  have concrete := (perform_follows refines here live found agrees call).2 (by simp [done])
  simpa [Store.step, ← refines.pending, waits, State.familyOf, known, here] using concrete

theorem refines_start : Refines {} {} :=
  ⟨.start, rfl, rfl, rfl, rfl, fun id shared here => by cases here⟩

end Steps

/--
Every program of handles is one on the arrays of its families: `zs__semaphore_get` returns what it returns
there, and an operation that is under way can be performed when it can be there.
-/
theorem store_refines (program : List Op) {state : State} (run : exec step {} program = some state)
    (careful : Along step Careful {} program) :
    ∃ spec, exec Spec.step {} program = some spec ∧ spec.answers = state.answers ∧
      ∀ operation, (step state (.perform operation)).isSome ↔ (spec.step (.perform operation)).isSome := by
  have follows (state : State) (spec : Spec) (op : Op) (next : State) (refines : Refines state spec)
      (careful : Careful state op) (taken : step state op = some next) :
      ∃ after, spec.step op = some after ∧ Refines next after :=
    refines.step careful taken
  obtain ⟨spec, ran, refines⟩ := exec_follows Refines follows refines_start run careful
  refine ⟨spec, ran, refines.answers, fun operation => ⟨fun acts => ?_, refines.acts⟩⟩
  obtain ⟨next, taken⟩ := Option.isSome_iff_exists.mp acts
  obtain ⟨after, followed, -⟩ := refines.step (fun _ handles => by cases handles) taken
  simp [followed]

/-- One operation takes two of three and the other one has to wait, while another program writes to its own set. -/
def withdrawal : List Op :=
  [.create 0 2 5, .duplicate 1 0, .set 0 1 3, .operate 0 1 ⟨1, -2, 0, 0⟩, .operate 1 1 ⟨0, -1, 0, 0⟩,
    .decrement (.user 0), .test (.user 0), .otherCreate 0, .otherWrite 0 1 ⟨9, by decide⟩, .perform 0, .get 1 1,
    .get 1 7, .decrement (.operation 0), .test (.operation 0)]

theorem store_refines_withdrawal : ∃ state, exec step {} withdrawal = some state ∧ state.answers = [1, 0] ∧
    ∃ spec, exec Spec.step {} withdrawal = some spec ∧ spec.answers = state.answers ∧
      ∀ operation, (step state (.perform operation)).isSome ↔ (spec.step (.perform operation)).isSome := by
  have ran : (exec step {} withdrawal).map (fun state => state.answers) = some [1, 0] := by decide +kernel
  obtain ⟨state, run, answers⟩ := Option.map_eq_some_iff.mp ran
  exact ⟨state, run, answers, store_refines withdrawal run (by decide +kernel)⟩

end ZSystem.Semaphore.Store
