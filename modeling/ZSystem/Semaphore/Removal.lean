import ZSystem.Semaphore.Families

set_option autoImplicit false

/-!
# Removing the kernel set of a family

The counter of a family against its live handles, and when `IPC_RMID` is issued.
-/

namespace ZSystem.Semaphore

open Transition

/-! ## The numbers of a family -/

/-- What every step that is careful keeps. -/
structure Law (family : Family) (numbers : Numbers) : Prop where
  counts : family.references.toNat = numbers.live
  before : 0 < numbers.live -> family.removals = 0 ∧ numbers.removing = 0
  after : numbers.live = 0 -> family.removals + numbers.testing + numbers.removing = 1

section Law

variable {family : Family} {numbers : Numbers}

theorem Law.kept (law : Law family numbers) : Kept family numbers := by
  rcases Nat.eq_zero_or_pos numbers.live with none | some
  · have sum := law.after none
    exact ⟨law.counts, by omega, fun _ => none, fun _ => by omega⟩
  · have zero := law.before some
    exact ⟨law.counts, by omega, by omega, by omega⟩

theorem Law.zero_iff (law : Law family numbers) : family.references = 0 ↔ numbers.live = 0 := by
  rw [← law.counts, ← UInt32.toNat_inj]
  rfl

theorem Law.create (count : UInt8) (kernel : Int) :
    Law (semaphoreCreate count kernel) { live := 1, testing := 0, removing := 0 } :=
  ⟨rfl, fun _ => ⟨rfl, rfl⟩, fun none => by cases none⟩

theorem Law.duplicate (law : Law family numbers) (some : 0 < numbers.live) (room : numbers.live < 2 ^ 32 - 1) :
    Law { family with references := family.references + 1 } { numbers with live := numbers.live + 1 } := by
  refine ⟨?_, fun _ => law.before some, fun none => by cases none⟩
  simp only [UInt32.toNat_add, law.counts]
  exact Nat.mod_eq_of_lt (by simp only [UInt32.toNat_one]; omega)

theorem Law.decrement (law : Law family numbers) (some : 0 < numbers.live)
    (careful : numbers.live = 1 -> numbers.testing = 0) :
    Law { family with references := family.references - 1 }
      { numbers with live := numbers.live - 1, testing := numbers.testing + 1 } := by
  obtain ⟨none, idle⟩ := law.before some
  refine ⟨?_, fun _ => ⟨none, idle⟩, fun last => ?_⟩
  · have below : (1 : UInt32) ≤ family.references := UInt32.le_iff_toNat_le.mpr (by rw [law.counts]; exact some)
    simp only [UInt32.toNat_sub_of_le _ _ below, law.counts]
    rfl
  · have quiet := careful (by simp only at last; omega)
    simp only [none, quiet, idle]

theorem Law.test (law : Law family numbers) (some : 0 < numbers.testing) :
    Law family { numbers with
      testing := numbers.testing - 1
      removing := if family.references = 0 then numbers.removing + 1 else numbers.removing } := by
  refine ⟨law.counts, fun more => ?_, fun none => ?_⟩
  · rw [if_neg fun zero => more.ne' (law.zero_iff.mp zero)]
    exact law.before more
  · have sum := law.after none
    rw [if_pos (law.zero_iff.mpr none)]
    simp only
    omega

theorem Law.remove (law : Law family numbers) (some : 0 < numbers.removing) :
    Law { family with removals := family.removals + 1 } { numbers with removing := numbers.removing - 1 } := by
  refine ⟨law.counts, fun more => ?_, fun none => ?_⟩
  · have := (law.before more).2
    omega
  · have sum := law.after none
    simp only
    omega

end Law

/-! ## The numbers after each operation -/

section Numbers

variable {state : State} {name : Name} {family id : Nat}

theorem families_update (change : Family -> Family) : (state.update family change).families id =
    if id = family then (state.families id).map change else state.families id := by
  by_cases same : id = family
  · subst same
    simp [State.update]
  · simp [State.update, same]

theorem found_update {change : Family -> Family} {shared : Family}
    (found : (state.update family change).families id = some shared) :
    (id ≠ family ∧ state.families id = some shared) ∨
      (id = family ∧ ∃ before, state.families id = some before ∧ shared = change before) := by
  rw [families_update] at found
  split_ifs at found with same
  · obtain ⟨before, here, rfl⟩ := Option.map_eq_some_iff.mp found
    exact Or.inr ⟨same, before, here, rfl⟩
  · exact Or.inl ⟨same, found⟩

theorem found_create {count : UInt8} {kernel : Int} {shared : Family}
    (found : (state.create name count kernel).families id = some shared) :
    (id ≠ state.next ∧ state.families id = some shared) ∨ (id = state.next ∧ shared = semaphoreCreate count kernel) := by
  by_cases same : id = state.next
  · subst same
    exact Or.inr ⟨rfl, by simpa [State.create] using found.symm⟩
  · exact Or.inl ⟨same, by simpa [State.create, same] using found⟩

theorem sets_create_kept (count : UInt8) {kernel sem : Int} {owner : Owner}
    (fresh : kernel = -1 ∨ (0 ≤ kernel ∧ state.sets kernel = none)) (owned : state.sets sem = some owner) :
    (state.create name count kernel).sets sem = some owner := by
  simp only [State.create]
  split_ifs with makes
  · have differ : sem ≠ kernel := by
      rintro rfl
      rw [(fresh.resolve_left makes.2).2] at owned
      cases owned
    rw [Function.update_of_ne differ, owned]
  · exact owned

theorem sets_create_new {count : UInt8} {kernel : Int} (counted : count ≠ 0)
    (valid : (semaphoreCreate count kernel).sem ≠ -1) :
    (state.create name count kernel).sets (semaphoreCreate count kernel).sem = some (.family state.next) := by
  simp only [semaphoreCreate, counted, ne_eq, not_false_eq_true, if_true] at valid ⊢
  simp [State.create, counted, valid]

theorem sets_create_cases {count : UInt8} {kernel sem : Int} {owner : Owner}
    (owned : (state.create name count kernel).sets sem = some owner) :
    state.sets sem = some owner ∨ (owner = .family state.next ∧ count ≠ 0 ∧ sem = kernel ∧ kernel ≠ -1) := by
  simp only [State.create] at owned
  split_ifs at owned with makes
  · by_cases same : sem = kernel
    · subst same
      rw [Function.update_self, Option.some.injEq] at owned
      exact Or.inr ⟨owned.symm, makes.1, rfl, makes.2⟩
    · rw [Function.update_of_ne same] at owned
      exact Or.inl owned
  · exact Or.inl owned

theorem sets_create_invalid (count : UInt8) (kernel : Int) (invalid : state.sets (-1) = none) :
    (state.create name count kernel).sets (-1) = none := by
  by_contra some
  obtain ⟨owner, owned⟩ := Option.ne_none_iff_exists'.mp some
  rcases sets_create_cases owned with before | ⟨-, -, same, valid⟩
  · cases invalid.symm.trans before
  · exact valid same.symm

/-- What others do with their sets is nothing to a family. -/
theorem sets_update_other {sem other : Int} {owner : Option Owner} (foreign : ∀ id, state.sets sem ≠ some (.family id))
    (theirs : ∀ id, owner ≠ some (.family id)) :
    Function.update state.sets sem owner other = some (.family id) ↔ state.sets other = some (.family id) := by
  by_cases same : other = sem
  · subst same
    simp [foreign id, theirs id]
  · rw [Function.update_of_ne same]

theorem numbers_create (count : UInt8) (kernel : Int) (free : state.free name) :
    (state.create name count kernel).numbers id =
      if id = state.next then { state.numbers id with live := (state.numbers id).live + 1 }
      else state.numbers id := by
  have live := Holders.count_add (some state.next) id free.1
  simp only [Option.some.injEq, @eq_comm Nat state.next] at live
  split_ifs at live ⊢ <;> simp [State.numbers, State.create, live]

theorem numbers_duplicate (free : state.free name) : (state.duplicate name family).numbers id =
    if id = family then { state.numbers id with live := (state.numbers id).live + 1 } else state.numbers id := by
  have live := Holders.count_add (some family) id free.1
  simp only [Option.some.injEq, @eq_comm Nat family] at live
  split_ifs at live ⊢ <;> simp [State.numbers, State.duplicate, State.update, live]

theorem numbers_decrement (live : name ∈ state.handles.live) (target : state.handles.target name = some family)
    (free : name ∉ state.testing.live) : (state.decrement name family).numbers id =
      if id = family then
        { state.numbers id with
          live := (state.numbers id).live - 1
          testing := (state.numbers id).testing + 1 }
      else state.numbers id := by
  have less := Holders.count_remove id live
  have more := Holders.count_add (some family) id free
  simp only [target, Option.some.injEq, @eq_comm Nat family] at less more
  split_ifs at less more ⊢ <;> simp [State.numbers, State.decrement, State.update, less, more]

theorem numbers_test (references : UInt32) (testing : name ∈ state.testing.live)
    (target : state.testing.target name = some family) (free : name ∉ state.removing.live) :
    (state.test name family references).numbers id =
      if id = family then
        { state.numbers id with
          testing := (state.numbers id).testing - 1
          removing := if references = 0 then (state.numbers id).removing + 1 else (state.numbers id).removing }
      else state.numbers id := by
  have less := Holders.count_remove id testing
  have more := Holders.count_add (some family) id free
  simp only [target, Option.some.injEq, @eq_comm Nat family] at less more
  by_cases zero : references = 0 <;> split_ifs at less more ⊢ <;>
    simp [State.numbers, State.test, zero, less, more]

theorem numbers_remove (sem : Int) (removing : name ∈ state.removing.live)
    (target : state.removing.target name = some family) : (state.remove name family sem).numbers id =
      if id = family then { state.numbers id with removing := (state.numbers id).removing - 1 }
      else state.numbers id := by
  have less := Holders.count_remove id removing
  simp only [target, Option.some.injEq, @eq_comm Nat family] at less
  split_ifs at less ⊢ <;> simp [State.numbers, State.remove, State.update, less]

end Numbers

/-! ## What the steps keep -/

/-- What every step keeps. -/
structure Shape (state : State) : Prop where
  made : ∀ id, id < state.next -> ∃ family, state.families id = some family
  fresh : ∀ id, state.next ≤ id -> state.families id = none ∧
    state.numbers id = { live := 0, testing := 0, removing := 0 }
  apart : ∀ name, (name ∈ state.handles.live -> name ∉ state.testing.live ∧ name ∉ state.removing.live) ∧
    (name ∈ state.testing.live -> name ∉ state.removing.live)

/-- No handle of a family is left, and more than one `IPC_RMID` is issued or under way. -/
structure Doomed (state : State) : Prop where
  shape : Shape state
  more : ∃ id family, state.families id = some family ∧ family.references = 0 ∧ (state.numbers id).live = 0 ∧
    1 < family.removals + (state.numbers id).testing + (state.numbers id).removing

/-- What every careful step keeps. -/
structure Inv (state : State) : Prop extends Shape state where
  law : ∀ id family, state.families id = some family -> Law family (state.numbers id)
  placeholder : ∀ id family, state.families id = some family -> family.count = 0 -> family.sem = 0
  -- The set of a family is its own until it has issued `IPC_RMID`.
  set : ∀ id family, state.families id = some family -> family.count ≠ 0 -> family.sem ≠ -1 ->
    family.removals = 0 -> state.sets family.sem = some (.family id)
  owners : ∀ sem id, state.sets sem = some (.family id) ->
    ∃ family, state.families id = some family ∧ family.count ≠ 0
  invalid : state.sets (-1) = none
  own : ∀ id owner, (id, owner) ∈ state.removed -> owner = none ∨ owner = some (.family id)

section Shape

variable {state : State} {name : Name} {family id : Nat}

theorem familyOf_eq_some : state.familyOf name = some family ↔
    name ∈ state.handles.live ∧ state.handles.target name = some family := by
  unfold State.familyOf
  split_ifs with live <;> simp [live]

theorem live_of_familyOf (found : state.familyOf name = some family) : 0 < (state.numbers family).live :=
  Holders.count_pos_iff.mpr ⟨name, familyOf_eq_some.mp found⟩

theorem Shape.old (shape : Shape state) (some : state.numbers family ≠ { live := 0, testing := 0, removing := 0 }) :
    family < state.next :=
  Nat.lt_of_not_le fun beyond => some (shape.fresh family beyond).2

theorem Shape.update (shape : Shape state) (after : State) (family : Nat) (change : Family -> Family)
    (families : after.families = (state.update family change).families) (next : after.next = state.next)
    (old : family < state.next) (others : ∀ id, id ≠ family -> after.numbers id = state.numbers id)
    (apart : ∀ name, (name ∈ after.handles.live -> name ∉ after.testing.live ∧ name ∉ after.removing.live) ∧
      (name ∈ after.testing.live -> name ∉ after.removing.live)) : Shape after := by
  refine ⟨fun id before => ?_, fun id beyond => ?_, apart⟩
  · obtain ⟨shared, here⟩ := shape.made id (next ▸ before)
    rw [families, families_update, here]
    split_ifs
    · exact ⟨_, rfl⟩
    · exact ⟨_, rfl⟩
  · rw [next] at beyond
    have differ : id ≠ family := by omega
    rw [families, families_update, if_neg differ, others id differ]
    exact shape.fresh id beyond

theorem Shape.create (shape : Shape state) (count : UInt8) (kernel : Int) (free : state.free name) :
    Shape (state.create name count kernel) := by
  refine ⟨fun id before => ?_, fun id beyond => ?_, fun other => ⟨fun live => ?_, (shape.apart other).2⟩⟩
  · by_cases same : id = state.next
    · subst same
      exact ⟨_, Function.update_self ..⟩
    · have older : id < state.next := Nat.lt_of_le_of_ne (Nat.le_of_lt_succ before) same
      obtain ⟨shared, here⟩ := shape.made id older
      exact ⟨shared, by simpa [State.create, same] using here⟩
  · have later : state.next < id := beyond
    rw [numbers_create count kernel free, if_neg later.ne']
    obtain ⟨none, numbers⟩ := shape.fresh id later.le
    exact ⟨by simp [State.create, later.ne', none], numbers⟩
  · rcases Holders.mem_add.mp live with rfl | before
    · exact free.2
    · exact (shape.apart other).1 before

theorem Shape.duplicate (shape : Shape state) {source : Name} (free : state.free name)
    (found : state.familyOf source = some family) : Shape (state.duplicate name family) := by
  have some := live_of_familyOf found
  refine shape.update _ family (fun shared => { shared with references := shared.references + 1 }) rfl rfl
    (shape.old fun zero => by simp [zero] at some) (fun id differ => ?_)
    (fun other => ⟨fun live => ?_, (shape.apart other).2⟩)
  · rw [numbers_duplicate free, if_neg differ]
  · rcases Holders.mem_add.mp live with rfl | before
    · exact free.2
    · exact (shape.apart other).1 before

theorem Shape.numbers_decrement (shape : Shape state) (found : state.familyOf name = some family) (id : Nat) :
    (state.decrement name family).numbers id =
      if id = family then
        { state.numbers id with
          live := (state.numbers id).live - 1
          testing := (state.numbers id).testing + 1 }
      else state.numbers id := by
  obtain ⟨live, target⟩ := familyOf_eq_some.mp found
  exact Semaphore.numbers_decrement live target ((shape.apart name).1 live).1

theorem Shape.decrement (shape : Shape state) (found : state.familyOf name = some family) :
    Shape (state.decrement name family) := by
  have some := live_of_familyOf found
  have idle := ((shape.apart name).1 (familyOf_eq_some.mp found).1).2
  refine shape.update _ family (fun shared => { shared with references := shared.references - 1 }) rfl rfl
    (shape.old fun zero => by simp [zero] at some) (fun id differ => ?_)
    fun other => ⟨fun still => ?_, fun tests => ?_⟩
  · rw [shape.numbers_decrement found, if_neg differ]
  · obtain ⟨differ, before⟩ := Holders.mem_remove.mp still
    obtain ⟨away, quiet⟩ := (shape.apart other).1 before
    exact ⟨fun tests => (Holders.mem_add.mp tests).elim differ away, quiet⟩
  · rcases Holders.mem_add.mp tests with rfl | before
    · exact idle
    · exact (shape.apart other).2 before

theorem Shape.numbers_test (shape : Shape state) (references : UInt32) (testing : name ∈ state.testing.live)
    (target : state.testing.target name = some family) (id : Nat) :
    (state.test name family references).numbers id =
      if id = family then
        { state.numbers id with
          testing := (state.numbers id).testing - 1
          removing := if references = 0 then (state.numbers id).removing + 1 else (state.numbers id).removing }
      else state.numbers id :=
  Semaphore.numbers_test references testing target ((shape.apart name).2 testing)

theorem Shape.test (shape : Shape state) (references : UInt32) (testing : name ∈ state.testing.live)
    (target : state.testing.target name = some family) : Shape (state.test name family references) := by
  have some : 0 < (state.numbers family).testing := Holders.count_pos_iff.mpr ⟨name, testing, target⟩
  have removes (other : Name) (removing : other ∈ (state.test name family references).removing.live) :
      other = name ∨ other ∈ state.removing.live := by
    simp only [State.test] at removing
    split_ifs at removing
    · exact Holders.mem_add.mp removing
    · exact Or.inr removing
  refine shape.update _ family id (by simp [State.update, State.test]) rfl
    (shape.old fun zero => by simp [zero] at some) (fun id differ => ?_)
    fun other => ⟨fun live => ?_, fun tests => ?_⟩
  · rw [shape.numbers_test references testing target, if_neg differ]
  · obtain ⟨away, quiet⟩ := (shape.apart other).1 live
    refine ⟨fun tests => away (Holders.mem_remove.mp tests).2, fun removing => ?_⟩
    rcases removes other removing with rfl | before
    · exact away testing
    · exact quiet before
  · obtain ⟨differ, before⟩ := Holders.mem_remove.mp tests
    exact fun removing => (removes other removing).elim differ ((shape.apart other).2 before)

theorem Shape.remove (shape : Shape state) (sem : Int) (removing : name ∈ state.removing.live)
    (target : state.removing.target name = some family) : Shape (state.remove name family sem) := by
  have pending : 0 < (state.numbers family).removing := Holders.count_pos_iff.mpr ⟨name, removing, target⟩
  refine shape.update _ family (fun shared => { shared with removals := shared.removals + 1 }) rfl rfl
    (shape.old fun zero => by simp [zero] at pending) (fun id differ => ?_)
    fun other => ⟨fun live => ?_, fun tests removes => ?_⟩
  · rw [numbers_remove sem removing target, if_neg differ]
  · obtain ⟨away, quiet⟩ := (shape.apart other).1 live
    exact ⟨away, fun removes => quiet (Holders.mem_remove.mp removes).2⟩
  · exact (shape.apart other).2 tests (Holders.mem_remove.mp removes).2

end Shape

/-! ## The law -/

section Inv

variable {state next : State} {name : Name} {family id : Nat}

theorem Inv.start : Inv .start := by
  refine ⟨⟨?_, fun _ _ => ⟨rfl, rfl⟩, fun _ => ⟨?_, ?_⟩⟩, ?_, ?_, ?_, ?_, rfl, ?_⟩ <;>
    simp [State.start, Holders.empty]

theorem Inv.update (inv : Inv state) (after : State) (shape : Shape after) (family : Nat)
    (change : Family -> Family)
    (same : ∀ shared, (change shared).count = shared.count ∧ (change shared).sem = shared.sem ∧
      shared.removals ≤ (change shared).removals)
    (families : after.families = (state.update family change).families)
    (sets : ∀ id shared, state.families id = some shared -> (change shared).removals = 0 ∨ id ≠ family ->
      state.sets shared.sem = some (.family id) -> after.sets shared.sem = some (.family id))
    (fewer : ∀ sem owner, after.sets sem = some owner -> state.sets sem = some owner)
    (law : ∀ shared, state.families family = some shared -> Law (change shared) (after.numbers family))
    (others : ∀ id, id ≠ family -> after.numbers id = state.numbers id)
    (own : ∀ id owner, (id, owner) ∈ after.removed -> owner = none ∨ owner = some (.family id)) : Inv after := by
  have found {id : Nat} {shared : Family} (here : after.families id = some shared) :=
    found_update (families ▸ here)
  refine ⟨shape, fun id shared here => ?_, fun id shared here none => ?_, fun id shared here some valid zero => ?_,
    fun sem id owned => ?_, ?_, own⟩
  · rcases found here with ⟨differ, before⟩ | ⟨rfl, before, there, rfl⟩
    · exact others id differ ▸ inv.law id shared before
    · exact law before there
  · rcases found here with ⟨differ, before⟩ | ⟨rfl, before, there, rfl⟩
    · exact inv.placeholder id shared before none
    · rw [(same before).2.1]
      exact inv.placeholder id before there ((same before).1 ▸ none)
  · rcases found here with ⟨differ, before⟩ | ⟨rfl, before, there, rfl⟩
    · exact sets id shared before (Or.inr differ) (inv.set id shared before some valid zero)
    · obtain ⟨count, sem, more⟩ := same before
      rw [sem]
      exact sets id before there (Or.inl zero)
        (inv.set id before there (count ▸ some) (sem ▸ valid) (by omega))
  · obtain ⟨shared, here, some⟩ := inv.owners sem id (fewer _ _ owned)
    rw [families, families_update, here]
    split_ifs
    · exact ⟨_, rfl, (same shared).1 ▸ some⟩
    · exact ⟨_, rfl, some⟩
  · by_contra some
    obtain ⟨owner, owned⟩ := Option.ne_none_iff_exists'.mp some
    cases inv.invalid.symm.trans (fewer _ _ owned)

theorem Inv.create (inv : Inv state) (count : UInt8) {kernel : Int} (free : state.free name)
    (fresh : kernel = -1 ∨ (0 ≤ kernel ∧ state.sets kernel = none)) : Inv (state.create name count kernel) := by
  refine ⟨inv.toShape.create count kernel free, fun id shared here => ?_, fun id shared here none => ?_,
    fun id shared here some valid zero => ?_, fun sem id owned => ?_, sets_create_invalid count kernel inv.invalid,
    inv.own⟩
  · rw [numbers_create count kernel free]
    rcases found_create here with ⟨differ, before⟩ | ⟨rfl, rfl⟩
    · rw [if_neg differ]
      exact inv.law id shared before
    · rw [if_pos rfl, (inv.fresh _ le_rfl).2]
      exact .create count kernel
  · rcases found_create here with ⟨-, before⟩ | ⟨-, rfl⟩
    · exact inv.placeholder id shared before none
    · exact if_neg (not_not.mpr none)
  · rcases found_create here with ⟨-, before⟩ | ⟨rfl, rfl⟩
    · exact sets_create_kept count fresh (inv.set id shared before some valid zero)
    · exact sets_create_new some valid
  · rcases sets_create_cases owned with before | ⟨new, counted, -⟩
    · obtain ⟨shared, here, some⟩ := inv.owners sem id before
      have differ : id ≠ state.next := fun same => by
        rw [same, (inv.fresh _ le_rfl).1] at here
        cases here
      exact ⟨shared, by simpa [State.create, differ] using here, some⟩
    · cases new
      exact ⟨_, Function.update_self .., counted⟩

theorem Inv.duplicate (inv : Inv state) {source : Name} (free : state.free name)
    (found : state.familyOf source = some family) (room : state.handles.count family < 2 ^ 32 - 1) :
    Inv (state.duplicate name family) := by
  refine inv.update _ (inv.toShape.duplicate free found) family
    (fun shared => { shared with references := shared.references + 1 })
    (fun _ => ⟨rfl, rfl, le_rfl⟩) rfl (fun _ _ _ _ mine => mine) (fun _ _ owned => owned)
    (fun shared here => ?_) (fun id differ => ?_) inv.own
  · rw [numbers_duplicate free, if_pos rfl]
    exact (inv.law family shared here).duplicate (live_of_familyOf found) room
  · rw [numbers_duplicate free, if_neg differ]

theorem Inv.decrement (inv : Inv state) (found : state.familyOf name = some family)
    (careful : state.handles.count family = 1 -> state.testing.count family = 0) :
    Inv (state.decrement name family) := by
  refine inv.update _ (inv.toShape.decrement found) family
    (fun shared => { shared with references := shared.references - 1 })
    (fun _ => ⟨rfl, rfl, le_rfl⟩) rfl (fun _ _ _ _ mine => mine) (fun _ _ owned => owned)
    (fun shared here => ?_) (fun id differ => ?_) inv.own
  · rw [inv.toShape.numbers_decrement found, if_pos rfl]
    exact (inv.law family shared here).decrement (live_of_familyOf found) careful
  · rw [inv.toShape.numbers_decrement found, if_neg differ]

theorem Inv.test (inv : Inv state) (testing : name ∈ state.testing.live)
    (target : state.testing.target name = some family) {shared : Family}
    (here : state.families family = some shared) : Inv (state.test name family shared.references) := by
  have some : 0 < (state.numbers family).testing := Holders.count_pos_iff.mpr ⟨name, testing, target⟩
  refine inv.update _ (inv.toShape.test shared.references testing target) family id (fun _ => ⟨rfl, rfl, le_rfl⟩)
    (by simp [State.update, State.test]) (fun _ _ _ _ mine => mine) (fun _ _ owned => owned)
    (fun found there => ?_) (fun id differ => ?_) inv.own
  · cases here.symm.trans there
    rw [inv.toShape.numbers_test shared.references testing target, if_pos rfl]
    exact (inv.law family shared here).test some
  · rw [inv.toShape.numbers_test shared.references testing target, if_neg differ]

theorem Inv.own_set (inv : Inv state) (removing : name ∈ state.removing.live)
    (target : state.removing.target name = some family) {shared : Family}
    (here : state.families family = some shared) (careful : shared.count = 0 -> state.sets 0 = none) :
    state.sets shared.sem = none ∨ state.sets shared.sem = some (.family family) := by
  have pending : 0 < (state.numbers family).removing := Holders.count_pos_iff.mpr ⟨name, removing, target⟩
  have law := inv.law family shared here
  have zero : shared.removals = 0 := by
    rcases Nat.eq_zero_or_pos (state.numbers family).live with gone | live
    · have := law.after gone
      omega
    · exact (law.before live).1
  by_cases some : shared.count = 0
  · rw [inv.placeholder family shared here some]
    exact Or.inl (careful some)
  · by_cases valid : shared.sem = -1
    · rw [valid]
      exact Or.inl inv.invalid
    · exact Or.inr (inv.set family shared here some valid zero)

theorem Inv.remove (inv : Inv state) (removing : name ∈ state.removing.live)
    (target : state.removing.target name = some family) {shared : Family}
    (here : state.families family = some shared) (careful : shared.count = 0 -> state.sets 0 = none) :
    Inv (state.remove name family shared.sem) := by
  have pending : 0 < (state.numbers family).removing := Holders.count_pos_iff.mpr ⟨name, removing, target⟩
  have owner := inv.own_set removing target here careful
  refine inv.update _ (inv.toShape.remove shared.sem removing target) family
    (fun shared => { shared with removals := shared.removals + 1 }) (fun _ => ⟨rfl, rfl, Nat.le_succ _⟩) rfl
    (fun id found there either mine => ?_) (fun sem mine owned => ?_) (fun found there => ?_) (fun id differ => ?_)
    (fun id owned member => ?_)
  · have differ : id ≠ family := either.resolve_left (Nat.succ_ne_zero _)
    have apart : found.sem ≠ shared.sem := fun same => by
      rw [same] at mine
      rcases owner with none | own
      · cases none.symm.trans mine
      · cases own.symm.trans mine
        exact differ rfl
    exact (Function.update_of_ne apart ..).trans mine
  · by_cases same : sem = shared.sem
    · rw [same] at owned
      cases (Function.update_self ..).symm.trans owned
    · exact (Function.update_of_ne same ..).symm.trans owned
  · cases here.symm.trans there
    rw [numbers_remove shared.sem removing target, if_pos rfl]
    exact (inv.law family shared here).remove pending
  · rw [numbers_remove shared.sem removing target, if_neg differ]
  · rcases List.mem_append.mp member with before | now
    · exact inv.own id owned before
    · cases List.mem_singleton.mp now
      exact owner

theorem Inv.other (inv : Inv state) (sem : Int) (owner : Option Owner)
    (foreign : ∀ id, state.sets sem ≠ some (.family id)) (theirs : ∀ id, owner ≠ some (.family id))
    (valid : sem ≠ -1) : Inv { state with sets := Function.update state.sets sem owner } :=
  ⟨⟨inv.made, inv.fresh, inv.apart⟩, inv.law, inv.placeholder,
    fun id shared here some given zero =>
      (sets_update_other foreign theirs).mpr (inv.set id shared here some given zero),
    fun other id owned => inv.owners other id ((sets_update_other foreign theirs).mp owned),
    (Function.update_of_ne valid.symm ..).trans inv.invalid, inv.own⟩

theorem step_inv (inv : Inv state) {op : Op} (careful : Careful state op) (taken : step state op = some next) :
    Inv next := by
  cases op with
  | create handle count kernel =>
      simp only [step] at taken
      split_ifs at taken with ready
      cases taken
      exact inv.create count ready.1 ready.2
  | duplicate handle source | operate operation source =>
      simp only [step, State.duplicateOf] at taken
      split_ifs at taken with free
      obtain ⟨family, found, rfl⟩ := Option.map_eq_some_iff.mp taken
      exact inv.duplicate free found (careful family found)
  | decrement name =>
      obtain ⟨family, found, rfl⟩ := Option.map_eq_some_iff.mp taken
      exact inv.decrement found (careful family found)
  | test name =>
      simp only [step] at taken
      split_ifs at taken with testing
      obtain ⟨family, target, taken⟩ := Option.bind_eq_some_iff.mp taken
      obtain ⟨shared, here, rfl⟩ := Option.map_eq_some_iff.mp taken
      exact inv.test testing target here
  | remove name =>
      simp only [step] at taken
      split_ifs at taken with removing
      obtain ⟨family, target, taken⟩ := Option.bind_eq_some_iff.mp taken
      obtain ⟨shared, here, rfl⟩ := Option.map_eq_some_iff.mp taken
      exact inv.remove removing target here (careful family shared target here)
  | otherCreate kernel =>
      simp only [step] at taken
      split_ifs at taken with fresh
      cases taken
      exact inv.other kernel _ (by simp [fresh.2]) (by simp) (by omega)
  | otherRemove kernel =>
      simp only [step] at taken
      split_ifs at taken with foreign
      cases taken
      refine inv.other kernel _ (by simp [foreign]) (by simp) ?_
      rintro rfl
      cases inv.invalid.symm.trans foreign

theorem Inv.owned (inv : Inv state) : Owned state :=
  ⟨fun id family here => (inv.law id family here).kept, inv.own⟩

theorem Inv.full (inv : Inv state) {source : Name} (free : state.free name)
    (found : state.familyOf source = some family) (full : ¬ state.handles.count family < 2 ^ 32 - 1) :
    ¬ Owned (state.duplicate name family) := by
  intro owned
  have after := inv.toShape.duplicate free found
  obtain ⟨shared, here⟩ := after.made family (inv.old fun zero => by
    have some := live_of_familyOf found
    simp [zero] at some)
  have counts := (owned.kept family shared here).counts
  rw [numbers_duplicate free, if_pos rfl] at counts
  have bound := shared.references.toNat_lt
  have many : 2 ^ 32 - 1 ≤ (state.numbers family).live := not_lt.mp full
  simp only at counts
  omega

theorem step_dooms (inv : Inv state) {op : Op} (careless : ¬ Careful state op) (taken : step state op = some next) :
    Doomed next ∨ ¬ Owned next := by
  cases op with
  | create _ _ _ => exact absurd trivial careless
  | test _ => exact absurd trivial careless
  | otherCreate _ => exact absurd trivial careless
  | otherRemove _ => exact absurd trivial careless
  | duplicate handle source | operate operation source =>
      simp only [step, State.duplicateOf] at taken
      split_ifs at taken with free
      obtain ⟨family, found, rfl⟩ := Option.map_eq_some_iff.mp taken
      simp only [Careful, not_forall] at careless
      obtain ⟨same, here, full⟩ := careless
      cases found.symm.trans here
      exact Or.inr (inv.full free found full)
  | decrement name =>
      obtain ⟨family, found, rfl⟩ := Option.map_eq_some_iff.mp taken
      simp only [Careful, not_forall] at careless
      obtain ⟨same, here, last, busy⟩ := careless
      cases found.symm.trans here
      obtain ⟨shared, there⟩ := inv.made family (inv.old fun zero => by
        have some := live_of_familyOf found
        simp [zero] at some)
      have law := inv.law family shared there
      have one : shared.references = 1 := UInt32.toNat_inj.mp (law.counts.trans last)
      refine Or.inl ⟨inv.toShape.decrement found, family, { shared with references := shared.references - 1 }, ?_,
        by simp [one], ?_, ?_⟩
      · simp [State.decrement, families_update, there]
      · rw [inv.toShape.numbers_decrement found, if_pos rfl]
        exact Nat.sub_eq_zero_of_le last.le
      · rw [inv.toShape.numbers_decrement found, if_pos rfl]
        have some : (state.numbers family).testing ≠ 0 := busy
        simp only
        omega
  | remove name =>
      simp only [step] at taken
      split_ifs at taken with removing
      obtain ⟨family, target, taken⟩ := Option.bind_eq_some_iff.mp taken
      obtain ⟨shared, here, rfl⟩ := Option.map_eq_some_iff.mp taken
      simp only [Careful, not_forall] at careless
      obtain ⟨id, other, target', there, empty, used⟩ := careless
      cases target.symm.trans target'
      cases here.symm.trans there
      obtain ⟨owner, owned⟩ := Option.ne_none_iff_exists'.mp used
      refine Or.inr fun law => ?_
      rcases law.own family (state.sets shared.sem) (by simp [State.remove]) with none | own
      · rw [inv.placeholder family shared here empty] at none
        exact used none
      · obtain ⟨also, there, some⟩ := inv.owners _ family own
        cases here.symm.trans there
        exact some empty

end Inv

/-! ## More than one `IPC_RMID` -/

section Doomed

variable {state next : State}

theorem step_shape (shape : Shape state) {op : Op} (taken : step state op = some next) : Shape next := by
  cases op with
  | create handle count kernel =>
      simp only [step] at taken
      split_ifs at taken with ready
      exact Option.some.inj taken ▸ shape.create count kernel ready.1
  | duplicate handle source | operate operation source =>
      simp only [step, State.duplicateOf] at taken
      split_ifs at taken with free
      obtain ⟨family, found, rfl⟩ := Option.map_eq_some_iff.mp taken
      exact shape.duplicate free found
  | decrement name =>
      obtain ⟨family, found, rfl⟩ := Option.map_eq_some_iff.mp taken
      exact shape.decrement found
  | test name =>
      simp only [step] at taken
      split_ifs at taken with testing
      obtain ⟨family, target, taken⟩ := Option.bind_eq_some_iff.mp taken
      obtain ⟨shared, here, rfl⟩ := Option.map_eq_some_iff.mp taken
      exact shape.test shared.references testing target
  | remove name =>
      simp only [step] at taken
      split_ifs at taken with removing
      obtain ⟨family, target, taken⟩ := Option.bind_eq_some_iff.mp taken
      obtain ⟨shared, here, rfl⟩ := Option.map_eq_some_iff.mp taken
      exact shape.remove shared.sem removing target
  | otherCreate kernel | otherRemove kernel =>
      simp only [step] at taken
      split_ifs at taken
      cases taken
      exact ⟨shape.made, shape.fresh, shape.apart⟩

theorem Doomed.stays (doomed : Doomed state) {op : Op} (taken : step state op = some next) : Doomed next := by
  obtain ⟨shape, id, family, here, zero, none, many⟩ := doomed
  refine ⟨step_shape shape taken, id, ?_⟩
  have old : id < state.next := by
    by_contra beyond
    cases here.symm.trans (shape.fresh id (not_lt.mp beyond)).1
  have other {name : Name} {live : Nat} (found : state.familyOf name = some live) : id ≠ live := fun same => by
    have some := live_of_familyOf found
    rw [← same, none] at some
    cases some
  cases op with
  | create handle count kernel =>
      simp only [step] at taken
      split_ifs at taken with ready
      cases taken
      rw [numbers_create count kernel ready.1, if_neg old.ne]
      exact ⟨family, by simpa [State.create, old.ne] using here, zero, none, many⟩
  | duplicate handle source | operate operation source =>
      simp only [step, State.duplicateOf] at taken
      split_ifs at taken with free
      obtain ⟨live, found, rfl⟩ := Option.map_eq_some_iff.mp taken
      rw [numbers_duplicate free, if_neg (other found)]
      exact ⟨family, by simpa [State.duplicate, families_update, other found] using here, zero, none, many⟩
  | decrement name =>
      obtain ⟨live, found, rfl⟩ := Option.map_eq_some_iff.mp taken
      rw [shape.numbers_decrement found, if_neg (other found)]
      exact ⟨family, by simpa [State.decrement, families_update, other found] using here, zero, none, many⟩
  | test name =>
      simp only [step] at taken
      split_ifs at taken with testing
      obtain ⟨tested, target, taken⟩ := Option.bind_eq_some_iff.mp taken
      obtain ⟨shared, there, rfl⟩ := Option.map_eq_some_iff.mp taken
      rw [shape.numbers_test shared.references testing target]
      refine ⟨family, here, zero, ?_⟩
      split_ifs with same reached
      · exact ⟨none, by simp only; omega⟩
      · subst same
        cases here.symm.trans there
        exact absurd zero reached
      · exact ⟨none, many⟩
  | remove name =>
      simp only [step] at taken
      split_ifs at taken with removing
      obtain ⟨removed, target, taken⟩ := Option.bind_eq_some_iff.mp taken
      obtain ⟨shared, there, rfl⟩ := Option.map_eq_some_iff.mp taken
      rw [numbers_remove shared.sem removing target]
      by_cases same : id = removed
      · subst same
        have some : 0 < (state.numbers id).removing := Holders.count_pos_iff.mpr ⟨name, removing, target⟩
        refine ⟨{ family with removals := family.removals + 1 }, ?_, zero, ?_⟩
        · simp [State.remove, families_update, here]
        rw [if_pos rfl]
        exact ⟨none, by simp only; omega⟩
      · rw [if_neg same]
        exact ⟨family, by simpa [State.remove, families_update, same] using here, zero, none, many⟩
  | otherCreate kernel | otherRemove kernel =>
      simp only [step] at taken
      split_ifs at taken
      cases taken
      exact ⟨family, here, zero, none, many⟩

end Doomed

/--
In a program whose steps are all careful the sets are owned as they should be; and a program in which they
are is careful, unless it ends with more than one `IPC_RMID` issued or under way.
-/
theorem sets_owned (program : List Op) (final : State) (run : exec step .start program = some final) :
    (Along step Careful .start program -> Throughout step Owned .start program) ∧
    (Throughout step Owned .start program -> Along step Careful .start program ∨ Doomed final) :=
  ⟨throughout_of_along Inv (fun _ inv => inv.owned)
      (fun _ _ _ inv careful taken => step_inv inv careful taken) .start,
  along_or_doomed Inv Doomed (fun _ _ _ inv careful taken => step_inv inv careful taken)
    (fun _ _ _ inv careless taken => step_dooms inv careless taken)
    (fun _ _ _ doomed _ taken => Or.inl (doomed.stays taken)) .start run⟩

def destruction (name : Name) : List Op := [.decrement name, .test name, .remove name]

/-- An operation outlives the handle that it was given. -/
def operateAndDestroy : List Op :=
  [.create 0 2 5, .operate 0 0, .decrement (.user 0), .test (.user 0)] ++ destruction (.operation 0)

theorem sets_owned_operateAndDestroy : ∃ final, exec step .start operateAndDestroy = some final ∧
    final.removed = [(0, some (.family 0))] ∧
    (Along step Careful .start operateAndDestroy -> Throughout step Owned .start operateAndDestroy) ∧
    (Throughout step Owned .start operateAndDestroy ->
      Along step Careful .start operateAndDestroy ∨ Doomed final) := by
  have ran : (exec step .start operateAndDestroy).map (fun final => final.removed) =
      some [(0, some (.family 0))] := by decide
  obtain ⟨final, run, removed⟩ := Option.map_eq_some_iff.mp ran
  exact ⟨final, run, removed, sets_owned operateAndDestroy final run⟩

def emptyFamily : List Op := [.otherCreate 0, .create 0 0 (-1)] ++ destruction (.user 0)

def destroyedTogether : List Op :=
  [.create 0 1 5, .duplicate 1 0, .decrement (.user 0), .decrement (.user 1), .test (.user 0), .test (.user 1),
    .remove (.user 0), .remove (.user 1)]

/-- A family without semaphores removes a set of somebody else; two destructions both see the counter at 0. -/
theorem sets_owned_fails : ¬ (∀ state, Reachable step .start state -> Owned state) ∧
    (∃ state, Reachable step .start state ∧ state.removed = [(0, some .other)]) ∧
    ∃ state, Reachable step .start state ∧ state.removed = [(0, some (.family 0)), (0, none)] := by
  have empty : (exec step .start emptyFamily).map (fun final => final.removed) = some [(0, some .other)] := by
    decide
  have twice : (exec step .start destroyedTogether).map (fun final => final.removed) =
      some [(0, some (.family 0)), (0, none)] := by decide
  obtain ⟨first, run, other⟩ := Option.map_eq_some_iff.mp empty
  obtain ⟨second, after, both⟩ := Option.map_eq_some_iff.mp twice
  refine ⟨fun owned => ?_, ⟨first, reachable_of_exec _ run, other⟩, second, reachable_of_exec _ after, both⟩
  rcases (owned first (reachable_of_exec _ run)).own 0 (some .other) (by simp [other]) with none | own
  · cases none
  · cases own

end ZSystem.Semaphore
