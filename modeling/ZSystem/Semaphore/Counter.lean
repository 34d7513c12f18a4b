import ZSystem.Semaphore.Removal
import ZSystem.Shared.Torn

set_option autoImplicit false

/-!
# The counter of a family in several threads

`++(*a_sem->references)` and `--(*a_sem->references)` read the counter and write it, and nothing keeps other
threads away between the two.
-/

namespace ZSystem.Semaphore.Counter

open Transition

/-! ## Reading and writing -/

/-- `*a_sem->references` of a live handle. -/
def counter (state : State) (name : Name) : Option UInt32 :=
  (state.familyOf name).map fun family => ((state.families family).map Family.references).getD 0

def stored (state : State) (family : Nat) (value : UInt32) : State :=
  state.update family fun shared => { shared with references := value }

/-- The end of `zs__semaphore_duplicate` where the counter was `value`. -/
def increment (state : State) (name source : Name) (value : UInt32) : Option State :=
  if state.free name then
    (state.familyOf source).map fun family =>
      { stored state family (value + 1) with handles := state.handles.add name (some family) }
  else none

/-- `zs__semaphore_destroy` up to its test, where the counter was `value`. -/
def decrement (state : State) (name : Name) (value : UInt32) : Option State :=
  (state.familyOf name).map fun family =>
    { stored state family (value - 1) with
      handles := state.handles.remove name
      testing := state.testing.add name (some family) }

def access : Torn.Access State Op UInt32 where
  read state
    | .duplicate _ source | .operate _ source => counter state (.user source)
    | .decrement name => counter state name
    | .create .. | .test _ | .remove _ | .otherCreate _ | .otherRemove _ => some 0
  write state action value :=
    match action with
    | .duplicate handle source => increment state (.user handle) (.user source) value
    | .operate operation source => increment state (.operation operation) (.user source) value
    | .decrement name => decrement state name value
    | .create .. | .test _ | .remove _ | .otherCreate _ | .otherRemove _ => Semaphore.step state action
  whole
    | .duplicate .. | .operate .. | .decrement _ => false
    | .create .. | .test _ | .remove _ | .otherCreate _ | .otherRemove _ => true

/-- A program of several threads, each of which has at most one update under way. -/
abbrev Threads := Torn.State State Op Nat UInt32

def start : Threads := { base := .start }

abbrev step : Threads -> Torn.Op Op Nat -> Option Threads := Torn.step access

/-- One more handle fits into the counter. -/
def Room (state : State) : Op -> Prop
  | .duplicate _ source | .operate _ source =>
      ∀ family, state.familyOf (.user source) = some family -> state.handles.count family < 2 ^ 32 - 1
  | _ => True

instance (state : State) : ∀ op, Decidable (Room state op)
  | .duplicate _ source | .operate _ source =>
      inferInstanceAs (Decidable (∀ family ∈ state.familyOf (.user source), state.handles.count family < 2 ^ 32 - 1))
  | .decrement _ | .create .. | .test _ | .remove _ | .otherCreate _ | .otherRemove _ => isTrue trivial

/-- The counter of a family is the number of its handles. -/
def Counted (state : State) : Prop :=
  ∀ id shared, state.families id = some shared -> shared.references.toNat = state.handles.count id

section Updates

variable {state next : State} {name source : Name} {family id : Nat} {value current : UInt32} {op : Op}

theorem stored_current (value : UInt32) (change : UInt32 -> UInt32)
    (current : ((state.families family).map Family.references).getD 0 = value) :
    stored state family (change value) =
      state.update family fun shared => { shared with references := change shared.references } := by
  simp only [stored, State.update]
  cases here : state.families family with
  | none => rfl
  | some shared =>
      simp only [here, Option.map_some, Option.getD_some] at current
      simp [current]

theorem access_step (state : State) (op : Op) : access.step state op = Semaphore.step state op := by
  cases op with
  | duplicate handle source | operate operation source =>
      simp only [Torn.Access.step, access, increment, counter, Semaphore.step, State.duplicateOf]
      cases state.familyOf (.user source) with
      | none => split_ifs <;> rfl
      | some family =>
          simp only [Option.map_some, Option.bind_some, State.duplicate, stored_current _ (· + 1) rfl]
  | decrement name =>
      simp only [Torn.Access.step, access, decrement, counter, Semaphore.step]
      cases state.familyOf name with
      | none => rfl
      | some family =>
          simp only [Option.map_some, Option.bind_some, State.decrement, stored_current _ (· - 1) rfl]
  | create | test | remove | otherCreate | otherRemove => rfl

/-! ## What a store does to the count -/

theorem add_iff {live : Nat} (counts : current.toNat = live) :
    (value + 1).toNat = live + 1 ↔ value = current ∧ live < 2 ^ 32 - 1 := by
  have value_lt := value.toNat_lt
  have current_lt := current.toNat_lt
  rw [← UInt32.toNat_inj, counts, UInt32.toNat_add, UInt32.toNat_one]
  omega

theorem sub_iff {live : Nat} (counts : current.toNat = live) (some : 0 < live) :
    (value - 1).toNat = live - 1 ↔ value = current := by
  have value_lt := value.toNat_lt
  have current_lt := current.toNat_lt
  rw [← UInt32.toNat_inj, counts, UInt32.toNat_sub, UInt32.toNat_one]
  omega

/-- After a store into one family the counters are right when that one is. -/
theorem counted_stored_iff {shared : Family} (counted : Counted state) (here : state.families family = some shared)
    (families : next.families = (stored state family value).families)
    (others : ∀ id, id ≠ family -> next.handles.count id = state.handles.count id) :
    Counted next ↔ value.toNat = next.handles.count family := by
  constructor
  · intro after
    exact after family { shared with references := value } (by simp [families, stored, State.update, here])
  · intro right id shared found
    rw [families] at found
    obtain ⟨differ, before⟩ | ⟨rfl, before, -, rfl⟩ := found_update found
    · rw [others id differ]
      exact counted id shared before
    · exact right

theorem Counted.exists_family (counted : Counted state) (shape : Shape state) (found : state.familyOf name = some family) :
    ∃ shared, state.families family = some shared ∧ counter state name = some shared.references ∧
      shared.references.toNat = state.handles.count family := by
  have live := live_of_familyOf found
  obtain ⟨shared, here⟩ := shape.made family (shape.old fun gone => by simp [gone] at live)
  exact ⟨shared, here, by simp [counter, found, here], counted family shared here⟩

theorem increment_counted_iff (counted : Counted state) (shape : Shape state)
    (written : increment state name source value = some next) :
    Counted next ↔ counter state source = some value ∧
      ∀ family, state.familyOf source = some family -> state.handles.count family < 2 ^ 32 - 1 := by
  simp only [increment] at written
  split_ifs at written with free
  obtain ⟨family, found, same⟩ := Option.map_eq_some_iff.mp written
  have families : next.families = (stored state family (value + 1)).families := by rw [← same]
  have handles : next.handles = state.handles.add name (some family) := by rw [← same]
  obtain ⟨shared, here, read, counts⟩ := counted.exists_family shape found
  have count (id : Nat) := Holders.count_add (some family) id free.1
  rw [counted_stored_iff counted here families fun id differ => by simpa [handles, differ.symm] using count id,
    handles, count family, if_pos rfl, add_iff counts, read, Option.some.injEq, eq_comm]
  refine and_congr_right fun _ => ⟨fun room other known => ?_, fun room => room family found⟩
  exact Option.some.inj (found.symm.trans known) ▸ room

theorem decrement_counted_iff (counted : Counted state) (shape : Shape state)
    (written : decrement state name value = some next) : Counted next ↔ counter state name = some value := by
  obtain ⟨family, found, same⟩ := Option.map_eq_some_iff.mp written
  have families : next.families = (stored state family (value - 1)).families := by rw [← same]
  have handles : next.handles = state.handles.remove name := by rw [← same]
  obtain ⟨shared, here, read, counts⟩ := counted.exists_family shape found
  obtain ⟨live, target⟩ := familyOf_eq_some.mp found
  have count (id : Nat) := Holders.count_remove id live
  have less : (state.handles.remove name).count family = state.handles.count family - 1 := by
    rw [count family, if_pos target, Nat.add_sub_cancel]
  have others (id : Nat) (differ : id ≠ family) : next.handles.count id = state.handles.count id := by
    simpa [handles, target, differ.symm] using (count id).symm
  rw [counted_stored_iff counted here families others, handles, less, sub_iff counts (live_of_familyOf found), read,
    Option.some.injEq, eq_comm]

theorem whole_counted (counted : Counted state) (shape : Shape state) (whole : access.whole op = true)
    (taken : Semaphore.step state op = some next) : Counted next := by
  cases op with
  | create handle count kernel =>
      simp only [Semaphore.step] at taken
      split_ifs at taken with ready
      cases taken
      have counts (id : Nat) := Holders.count_add (some state.next) id ready.1.1
      intro id shared found
      obtain ⟨differ, before⟩ | ⟨rfl, rfl⟩ := found_create found
      · simpa [State.create, counts, differ.symm] using counted id shared before
      · have unheld : state.handles.count state.next = 0 := congrArg Numbers.live (shape.fresh _ le_rfl).2
        simp [State.create, semaphoreCreate, counts, unheld]
  | test name =>
      simp only [Semaphore.step] at taken
      split_ifs at taken
      obtain ⟨family, -, taken⟩ := Option.bind_eq_some_iff.mp taken
      obtain ⟨shared, -, rfl⟩ := Option.map_eq_some_iff.mp taken
      exact counted
  | remove name =>
      simp only [Semaphore.step] at taken
      split_ifs at taken
      obtain ⟨family, -, taken⟩ := Option.bind_eq_some_iff.mp taken
      obtain ⟨shared, -, rfl⟩ := Option.map_eq_some_iff.mp taken
      intro id after found
      obtain ⟨-, before⟩ | ⟨-, before, here, rfl⟩ := found_update found
      · exact counted id after before
      · exact counted id before here
  | otherCreate kernel | otherRemove kernel =>
      simp only [Semaphore.step] at taken
      split_ifs at taken
      cases taken
      exact counted
  | duplicate | operate | decrement => cases whole

end Updates

/-! ## Threads -/

section Threads

variable {threads next : Threads} {op : Torn.Op Op Nat}

/-- A step keeps the counts right if and only if it writes what it would write without the others. -/
theorem step_counted_iff (counted : Counted threads.base) (shape : Shape threads.base) (split : Torn.Split access threads)
    (taken : step threads op = some next) : Counted next.base ↔ Torn.Timely access Room threads op := by
  obtain ⟨performed, fresh, same⟩ | ⟨action, value, performed, written, fresh⟩ := Torn.step_cases taken
  · exact iff_of_true (same ▸ counted) ⟨fresh, fun action other => by simp [performed] at other⟩
  · have timely : Torn.Timely access Room threads op ↔
        access.read threads.base action = some value ∧ Room threads.base action := by
      rw [Torn.Timely, fresh, performed]
      exact and_congr_right fun _ => ⟨fun room => room action rfl, fun room other same => Option.some.inj same ▸ room⟩
    rw [timely]
    cases action with
    | duplicate handle source | operate operation source => exact increment_counted_iff counted shape written
    | decrement name =>
        rw [decrement_counted_iff counted shape written]
        exact (and_iff_left trivial).symm
    | create handle count kernel | test name | remove name | otherCreate kernel | otherRemove kernel =>
        have read := fresh.mp (by_contra fun stale => by cases split.fresh stale performed)
        have done := (access_step _ _).symm.trans (Option.bind_eq_some_iff.mpr ⟨value, read, written⟩)
        exact iff_of_true (whole_counted counted shape rfl done) ⟨read, trivial⟩

theorem step_shape (shape : Shape threads.base) (timely : Torn.Timely access Room threads op)
    (taken : step threads op = some next) : Shape next.base := by
  obtain same | ⟨action, -, done⟩ := Torn.step_timely timely taken
  · exact same ▸ shape
  · exact Semaphore.step_shape shape (access_step .. ▸ done)

end Threads

/--
The counters count the handles as long as every counter that a thread writes still has the value that it has
read. Careful threads then get the kernel to where they get it with indivisible updates.
-/
theorem counted_iff_timely (program : List (Torn.Op Op Nat)) {final : Threads}
    (run : exec step start program = some final) :
    (Throughout step (fun threads => Counted threads.base) start program ↔
      Along step (Torn.Timely access Room) start program) ∧
    (Along step (Torn.Timely access Careful) start program ->
      Reach Semaphore.step Careful .start final.base ∧ Owned final.base) := by
  constructor
  · refine throughout_iff_along
      (fun threads => Counted threads.base ∧ Shape threads.base ∧ Torn.Split access threads) (fun _ inv => inv.1)
      (fun threads op next inv timely taken => ?_) (fun threads op next inv late taken => ?_)
      ⟨(fun id shared here => by cases here), Inv.start.toShape, (fun agent begun same => by cases same)⟩
      (Option.isSome_iff_exists.mpr ⟨final, run⟩)
    · obtain ⟨counted, shape, split⟩ := inv
      exact ⟨(step_counted_iff counted shape split taken).mpr timely, step_shape shape timely taken, split.step taken⟩
    · exact fun counted => late ((step_counted_iff inv.1 inv.2.1 inv.2.2 taken).mp counted)
  · intro along
    have indivisible : access.step = Semaphore.step := funext fun state => funext fun op => access_step state op
    have reached := (Torn.reach_iff 0).mp ⟨final, reach_of_along run along, rfl⟩
    rw [indivisible] at reached
    have inv := reached.invariant Inv Inv.start fun _ _ _ inv careful taken => step_inv inv careful taken
    exact ⟨reached, inv.owned⟩

/-- Two operations of two threads, one of which reads while the other one has not written yet. -/
def overlapping : List (Torn.Op Op Nat) :=
  [.whole (.create 0 1 5), .load 1 (.operate 1 0), .load 2 (.operate 2 0), .store 1, .store 2,
    .load 1 (.decrement (.operation 1)), .store 1, .whole (.test (.operation 1)),
    .load 2 (.decrement (.operation 2)), .store 2, .whole (.test (.operation 2)), .whole (.remove (.operation 2)),
    .whole (.otherCreate 5)]

/-- The same two one after the other. -/
def serial : List (Torn.Op Op Nat) :=
  [.whole (.create 0 1 5), .load 1 (.operate 1 0), .store 1, .load 2 (.operate 2 0), .store 2,
    .load 1 (.decrement (.operation 1)), .store 1, .whole (.test (.operation 1)),
    .load 2 (.decrement (.operation 2)), .store 2, .whole (.test (.operation 2))]

theorem counted_iff_timely_serial : Throughout step (fun threads => Counted threads.base) start serial := by
  obtain ⟨final, run⟩ := Option.isSome_iff_exists.mp (show (exec step start serial).isSome by decide +kernel)
  exact (counted_iff_timely serial run).1.mpr (by decide +kernel)

/-- One increment is lost: the set is removed, and somebody else has its identifier while the handle is still there. -/
theorem counted_fails : ∃ final, exec step start overlapping = some final ∧
    final.base.familyOf (.user 0) = some 0 ∧ final.base.removed = [(0, some (.family 0))] ∧
    final.base.sets 5 = some .other := by
  have ran : (exec step start overlapping).map (fun final =>
      (final.base.familyOf (.user 0), final.base.removed, final.base.sets 5)) =
      some (some 0, [(0, some (.family 0))], some .other) := by decide +kernel
  obtain ⟨final, run, same⟩ := Option.map_eq_some_iff.mp ran
  simp only [Prod.mk.injEq] at same
  exact ⟨final, run, same⟩

end ZSystem.Semaphore.Counter
