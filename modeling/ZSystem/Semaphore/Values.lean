import ZSystem.Semaphore.Removal

set_option autoImplicit false

/-!
# Semaphores as values

The special member functions of `ZSSemaphore`. The class has no assignment of its own, so an assignment
copies `semaphore_struct`.
-/

namespace ZSystem.Semaphore

open Transition

/-- All of `zs__semaphore_destroy`, from the decrement to `semctl`. -/
def State.destroyOf (state : State) (name : Name) (family : Nat) (shared : Family) : State :=
  let tested := (state.decrement name family).test name family (shared.references - 1)
  if shared.references - 1 = 0 then tested.remove name family shared.sem else tested

def State.destroy (state : State) (name : Name) : Option State :=
  (state.familyOf name).bind fun family => (state.families family).map fun shared =>
    state.destroyOf name family shared

namespace Values

structure State where
  semaphores : Semaphore.State
  -- The live `ZSSemaphore`s, each with its `semaphore_struct`.
  objects : Holders Nat Nat
  -- The handles are numbered as they are made.
  made : Nat
  -- The handle of each call of `zs__semaphore_destroy`.
  destroyed : List Nat
  -- The handles that an operation has used behind their destruction.
  stale : List Nat

def start : State :=
  { semaphores := .start, objects := .empty, made := 0, destroyed := [], stale := [] }

inductive Op where
  | construct (object : Nat) (count : UInt8) (kernel : Int)
  | copy (object source : Nat)
  | assign (target source : Nat)
  | destroy (object : Nat)
  -- Sets of other programs come and go.
  | otherCreate (kernel : Int)
  | otherRemove (kernel : Int)
  deriving DecidableEq, Repr

def State.copy (state : State) (object handle : Nat) : State :=
  match state.semaphores.familyOf (.user handle) with
  | none => { state with stale := state.stale ++ [handle] }
  | some family =>
      { state with
        semaphores := state.semaphores.duplicate (.user state.made) family
        objects := state.objects.add object (some state.made)
        made := state.made + 1 }

def State.destroy (state : State) (object handle : Nat) : State :=
  let state := { state with
    objects := state.objects.remove object
    destroyed := state.destroyed ++ [handle] }
  match state.semaphores.destroy (.user handle) with
  | none => { state with stale := state.stale ++ [handle] }
  | some semaphores => { state with semaphores := semaphores }

/-- The assignment that the compiler writes. -/
def State.assign (state : State) (target source : Nat) : State :=
  { state with
    objects := { state.objects with
      target := Function.update state.objects.target target (state.objects.target source) } }

/-- An object is constructed once and used while it is live. -/
def step (state : State) : Op -> Option State
  | .construct object count kernel =>
      -- `semget` returns -1 or a new identifier.
      if object ∉ state.objects.live ∧ (kernel = -1 ∨ (0 ≤ kernel ∧ state.semaphores.sets kernel = none)) then
        some { state with
          semaphores := state.semaphores.create (.user state.made) count kernel
          objects := state.objects.add object (some state.made)
          made := state.made + 1 }
      else none
  | .copy object source =>
      if object ∉ state.objects.live ∧ source ∈ state.objects.live then
        (state.objects.target source).map fun handle => state.copy object handle
      else none
  | .assign target source =>
      if target ∈ state.objects.live ∧ source ∈ state.objects.live then some (state.assign target source)
      else none
  | .destroy object =>
      if object ∈ state.objects.live then
        (state.objects.target object).map fun handle => state.destroy object handle
      else none
  | .otherCreate kernel =>
      (Semaphore.step state.semaphores (.otherCreate kernel)).map fun semaphores =>
        { state with semaphores := semaphores }
  | .otherRemove kernel =>
      (Semaphore.step state.semaphores (.otherRemove kernel)).map fun semaphores =>
        { state with semaphores := semaphores }

/-! ## What a value is -/

/-- The handle of a live object is live, its counter is not freed, and its kernel set is there. -/
def Usable (state : Semaphore.State) (handle : Nat) : Prop :=
  ∃ id family, state.familyOf (.user handle) = some id ∧ state.families id = some family ∧
    family.removals = 0 ∧ (family.count ≠ 0 -> family.sem ≠ -1 -> state.sets family.sem = some (.family id))

structure ValueSemantics (state : State) : Prop where
  -- A handle is owned by exactly one object until it is destroyed, which happens to it once.
  owned : ∀ handle < state.made, state.objects.count handle + state.destroyed.count handle = 1
  usable : ∀ object ∈ state.objects.live, ∃ handle, state.objects.target object = some handle ∧
    handle < state.made ∧ Usable state.semaphores handle
  fresh : state.stale = []

/--
An object is only assigned to itself; a destruction does not bring a counter that has wrapped around to 0;
and the last destruction of a semaphore with no counts meets no set of the program under the identifier 0.
-/
def Careful (state : State) : Op -> Prop
  | .assign target source => target = source
  | .destroy object =>
      ∀ handle id family, state.objects.target object = some handle ->
        state.semaphores.familyOf (.user handle) = some id -> state.semaphores.families id = some family ->
          family.references = 1 ->
            state.semaphores.handles.count id = 1 ∧
              (family.count = 0 -> ∀ other, state.semaphores.sets 0 ≠ some (.family other))
  | _ => True

/-! ## The handles and their sets -/

structure Shared (state : Semaphore.State) : Prop extends Shape state where
  testing : state.testing.live = ∅
  removing : state.removing.live = ∅
  named : ∀ name ∈ state.handles.live, ∃ id, state.handles.target name = some id
  -- The counter has 32 bits.
  counts : ∀ id family, state.families id = some family ->
    family.references = UInt32.ofNat (state.handles.count id)
  whole : ∀ id family, state.families id = some family -> 0 < state.handles.count id -> family.removals = 0
  placeholder : ∀ id family, state.families id = some family -> family.count = 0 -> family.sem = 0
  set : ∀ id family, state.families id = some family -> 0 < state.handles.count id -> family.count ≠ 0 ->
    family.sem ≠ -1 -> state.sets family.sem = some (.family id)
  owners : ∀ sem id, state.sets sem = some (.family id) -> ∃ family, state.families id = some family ∧
    family.count ≠ 0 ∧ family.sem = sem ∧ 0 < state.handles.count id
  invalid : state.sets (-1) = none

section Shared

variable {state : Semaphore.State} {name : Name} {family : Nat} {shared : Family}

theorem start_shared : Shared .start := by
  refine ⟨Inv.start.toShape, rfl, rfl, ?_, ?_, ?_, ?_, ?_, ?_, rfl⟩ <;>
    simp [Semaphore.State.start, Holders.empty]

theorem Shared.free (keeps : Shared state) (unused : name ∉ state.handles.live) : state.free name :=
  ⟨unused, by simp [keeps.testing], by simp [keeps.removing]⟩

theorem Shared.exists_family (keeps : Shared state) (held : 0 < state.handles.count family) :
    ∃ shared, state.families family = some shared :=
  keeps.made family (keeps.old fun zero => held.ne' (congrArg Numbers.live zero))

theorem Shared.found (keeps : Shared state) (live : name ∈ state.handles.live) :
    ∃ family shared, state.familyOf name = some family ∧ state.families family = some shared ∧
      0 < state.handles.count family := by
  obtain ⟨family, target⟩ := keeps.named name live
  have held : 0 < state.handles.count family := Holders.count_pos_iff.mpr ⟨name, live, target⟩
  obtain ⟨shared, here⟩ := keeps.exists_family held
  exact ⟨family, shared, familyOf_eq_some.mpr ⟨live, target⟩, here, held⟩

theorem Shared.usable (keeps : Shared state) {handle : Nat} (live : .user handle ∈ state.handles.live) :
    Usable state handle := by
  obtain ⟨family, shared, found, here, held⟩ := keeps.found live
  exact ⟨family, shared, found, here, keeps.whole family shared here held, keeps.set family shared here held⟩

theorem count_create {count : UInt8} {kernel : Int} (unused : name ∉ state.handles.live) (id : Nat) :
    (state.create name count kernel).handles.count id =
      state.handles.count id + if id = state.next then 1 else 0 := by
  simpa [Semaphore.State.create, eq_comm] using Holders.count_add (some state.next) id unused

theorem count_duplicate (unused : name ∉ state.handles.live) (id : Nat) :
    (state.duplicate name family).handles.count id =
      state.handles.count id + if id = family then 1 else 0 := by
  simpa [Semaphore.State.duplicate, eq_comm] using Holders.count_add (some family) id unused

theorem Shared.create (keeps : Shared state) (count : UInt8) {kernel : Int} (unused : name ∉ state.handles.live)
    (fresh : kernel = -1 ∨ (0 ≤ kernel ∧ state.sets kernel = none)) :
    Shared (state.create name count kernel) := by
  have unheld : state.handles.count state.next = 0 := congrArg Numbers.live (keeps.fresh _ le_rfl).2
  refine ⟨keeps.toShape.create count kernel (keeps.free unused), keeps.testing, keeps.removing,
    fun other live => ?_, fun id shared here => ?_, fun id shared here held => ?_, fun id shared here zero => ?_,
    fun id shared here held counted valid => ?_, fun sem id owned => ?_,
    sets_create_invalid count kernel keeps.invalid⟩
  · rcases Holders.mem_add.mp live with rfl | before
    · exact ⟨state.next, by simp [Semaphore.State.create]⟩
    · have differ : other ≠ name := fun same => unused (same ▸ before)
      simpa [Semaphore.State.create, Holders.target_add_of_ne differ] using keeps.named other before
  · rw [count_create unused]
    rcases found_create here with ⟨differ, before⟩ | ⟨rfl, rfl⟩
    · rw [if_neg differ]
      exact keeps.counts id shared before
    · simp [unheld, semaphoreCreate]
  · rw [count_create unused] at held
    rcases found_create here with ⟨differ, before⟩ | ⟨rfl, rfl⟩
    · rw [if_neg differ] at held
      exact keeps.whole id shared before held
    · rfl
  · rcases found_create here with ⟨-, before⟩ | ⟨-, rfl⟩
    · exact keeps.placeholder id shared before zero
    · exact if_neg (not_not.mpr zero)
  · rw [count_create unused] at held
    rcases found_create here with ⟨differ, before⟩ | ⟨rfl, rfl⟩
    · rw [if_neg differ] at held
      exact sets_create_kept count fresh (keeps.set id shared before held counted valid)
    · exact sets_create_new counted valid
  · rcases sets_create_cases owned with before | ⟨new, counted, same, -⟩
    · obtain ⟨shared, here, counted, same, held⟩ := keeps.owners sem id before
      have differ : id ≠ state.next := fun same => by
        rw [same, unheld] at held
        exact absurd held (lt_irrefl 0)
      refine ⟨shared, by simpa [Semaphore.State.create, differ] using here, counted, same, ?_⟩
      rwa [count_create unused, if_neg differ]
    · cases new
      refine ⟨_, Function.update_self .., counted, by simp [semaphoreCreate, counted, same], ?_⟩
      rw [count_create unused, if_pos rfl]
      exact Nat.succ_pos _

theorem Shared.duplicate (keeps : Shared state) {source : Name} (unused : name ∉ state.handles.live)
    (found : state.familyOf source = some family) : Shared (state.duplicate name family) := by
  obtain ⟨live, target⟩ := familyOf_eq_some.mp found
  have held : 0 < state.handles.count family := Holders.count_pos_iff.mpr ⟨source, live, target⟩
  have members {id : Nat} (more : 0 < (state.duplicate name family).handles.count id) :
      0 < state.handles.count id := by
    rw [count_duplicate unused] at more
    split_ifs at more with same
    · exact same ▸ held
    · exact more
  have grows (id : Nat) (before : 0 < state.handles.count id) :
      0 < (state.duplicate name family).handles.count id := by
    rw [count_duplicate unused]
    omega
  have same_family {id : Nat} {shared : Family} (here : (state.duplicate name family).families id = some shared) :
      ∃ before, state.families id = some before ∧ shared.count = before.count ∧ shared.sem = before.sem ∧
        shared.removals = before.removals ∧
        shared.references = before.references + if id = family then 1 else 0 := by
    rcases found_update here with ⟨differ, before⟩ | ⟨rfl, before, there, rfl⟩
    · exact ⟨shared, before, rfl, rfl, rfl, by simp [differ]⟩
    · exact ⟨before, there, rfl, rfl, rfl, by simp⟩
  refine ⟨keeps.toShape.duplicate (keeps.free unused) found, keeps.testing, keeps.removing,
    fun other live => ?_, fun id shared here => ?_, fun id shared here more => ?_, fun id shared here zero => ?_,
    fun id shared here more counted valid => ?_, fun sem id owned => ?_, keeps.invalid⟩
  · rcases Holders.mem_add.mp live with rfl | before
    · exact ⟨family, by simp [Semaphore.State.duplicate]⟩
    · have differ : other ≠ name := fun same => unused (same ▸ before)
      simpa [Semaphore.State.duplicate, Holders.target_add_of_ne differ] using keeps.named other before
  · obtain ⟨before, there, -, -, -, references⟩ := same_family here
    rw [count_duplicate unused, references, keeps.counts id before there]
    split_ifs
    · exact (UInt32.ofNat_add _ 1).symm
    · simp
  · obtain ⟨before, there, -, -, removals, -⟩ := same_family here
    exact removals ▸ keeps.whole id before there (members more)
  · obtain ⟨before, there, count, sem, -⟩ := same_family here
    exact sem ▸ keeps.placeholder id before there (count ▸ zero)
  · obtain ⟨before, there, count, sem, -⟩ := same_family here
    rw [sem] at valid ⊢
    exact keeps.set id before there (members more) (count ▸ counted) valid
  · obtain ⟨before, there, counted, same, more⟩ := keeps.owners sem id owned
    simp only [Semaphore.State.duplicate, families_update, there]
    split_ifs
    · exact ⟨_, rfl, counted, same, grows id more⟩
    · exact ⟨_, rfl, counted, same, grows id more⟩

@[simp] theorem destroyOf_handles : (state.destroyOf name family shared).handles = state.handles.remove name := by
  unfold Semaphore.State.destroyOf
  split_ifs <;> rfl

theorem destroyOf_sets : (state.destroyOf name family shared).sets =
    if shared.references - 1 = 0 then Function.update state.sets shared.sem none else state.sets := by
  unfold Semaphore.State.destroyOf
  split_ifs <;> rfl

theorem destroyOf_families (here : state.families family = some shared) :
    (state.destroyOf name family shared).families = Function.update state.families family (some { shared with
      references := shared.references - 1
      removals := if shared.references - 1 = 0 then shared.removals + 1 else shared.removals }) := by
  unfold Semaphore.State.destroyOf
  split_ifs <;>
    simp [Semaphore.State.remove, Semaphore.State.test, Semaphore.State.decrement, Semaphore.State.update, here]

theorem count_destroyOf (shared : Family) (found : state.familyOf name = some family) (id : Nat) :
    state.handles.count id =
      (state.destroyOf name family shared).handles.count id + if id = family then 1 else 0 := by
  obtain ⟨live, target⟩ := familyOf_eq_some.mp found
  simpa [target, eq_comm] using Holders.count_remove id live

theorem destroyOf_shape (shape : Shape state) (found : state.familyOf name = some family) :
    Shape (state.destroyOf name family shared) := by
  have testing : name ∈ (state.decrement name family).testing.live := Holders.mem_add.mpr (Or.inl rfl)
  have target : (state.decrement name family).testing.target name = some family := Holders.target_add_self
  have tested := (shape.decrement found).test (shared.references - 1) testing target
  unfold Semaphore.State.destroyOf
  split_ifs with last
  · refine tested.remove shared.sem ?_ ?_ <;> simp [Semaphore.State.test, last]
  · exact tested

/-- The last handle of a family takes its set along; no other destruction touches a counter of 0. -/
theorem Shared.destroyOf (keeps : Shared state) (found : state.familyOf name = some family)
    (here : state.families family = some shared)
    (careful : shared.references = 1 -> state.handles.count family = 1 ∧
      (shared.count = 0 -> ∀ other, state.sets 0 ≠ some (.family other))) :
    Shared (state.destroyOf name family shared) := by
  have fewer (id : Nat) := count_destroyOf shared found id
  have last_gone (last : shared.references - 1 = 0) :
      ¬ 0 < (state.destroyOf name family shared).handles.count family := by
    have one : shared.references = 1 := by rwa [sub_eq_zero] at last
    have alone := (careful one).1
    have less := fewer family
    rw [if_pos rfl] at less
    omega
  have number : shared.references - 1 =
      UInt32.ofNat ((state.destroyOf name family shared).handles.count family) := by
    rw [keeps.counts family shared here, fewer family, if_pos rfl]
    exact (congrArg (· - 1) (UInt32.ofNat_add _ 1)).trans (UInt32.add_sub_cancel _ 1)
  have members (id : Nat) (held : 0 < (state.destroyOf name family shared).handles.count id) :
      0 < state.handles.count id := by
    have less := fewer id
    omega
  have found_after {id : Nat} {after : Family} (there : (state.destroyOf name family shared).families id = some after) :
      (id ≠ family ∧ state.families id = some after) ∨ (id = family ∧ after = { shared with
        references := shared.references - 1
        removals := if shared.references - 1 = 0 then shared.removals + 1 else shared.removals }) := by
    rw [destroyOf_families here] at there
    by_cases same : id = family
    · subst same
      exact Or.inr ⟨rfl, by simpa using there.symm⟩
    · exact Or.inl ⟨same, by simpa [same] using there⟩
  have kept_sets {sem : Int} {id : Nat}
      (owned : (state.destroyOf name family shared).sets sem = some (.family id)) :
      state.sets sem = some (.family id) ∧ (shared.references - 1 = 0 -> sem ≠ shared.sem) := by
    rw [destroyOf_sets] at owned
    split_ifs at owned with last
    · by_cases same : sem = shared.sem
      · simp [same] at owned
      · exact ⟨by simpa [same] using owned, fun _ => same⟩
    · exact ⟨owned, fun zero => absurd zero last⟩
  refine ⟨destroyOf_shape keeps.toShape found, ?_, ?_, fun other live => ?_, fun id after there => ?_,
    fun id after there held => ?_, fun id after there zero => ?_, fun id after there held counted valid => ?_,
    fun sem id owned => ?_, ?_⟩
  · unfold Semaphore.State.destroyOf
    split_ifs <;>
      simp [Semaphore.State.remove, Semaphore.State.test, Semaphore.State.decrement, Semaphore.State.update,
        Holders.add, Holders.remove, keeps.testing]
  · unfold Semaphore.State.destroyOf
    split_ifs with last <;>
      simp [Semaphore.State.remove, Semaphore.State.test, Semaphore.State.decrement, Semaphore.State.update,
        Holders.add, Holders.remove, keeps.removing, last]
  · rw [destroyOf_handles] at live ⊢
    exact keeps.named other (Holders.mem_remove.mp live).2
  · rcases found_after there with ⟨differ, before⟩ | ⟨rfl, rfl⟩
    · have same := fewer id
      rw [if_neg differ, Nat.add_zero] at same
      exact same ▸ keeps.counts id after before
    · exact number
  · rcases found_after there with ⟨-, before⟩ | ⟨rfl, rfl⟩
    · exact keeps.whole id after before (members id held)
    · rw [if_neg fun last => last_gone last held]
      exact keeps.whole id shared here (members id held)
  · rcases found_after there with ⟨-, before⟩ | ⟨rfl, rfl⟩
    · exact keeps.placeholder id after before zero
    · exact keeps.placeholder id shared here zero
  · rw [destroyOf_sets]
    rcases found_after there with ⟨differ, before⟩ | ⟨rfl, rfl⟩
    · have mine := keeps.set id after before (members id held) counted valid
      split_ifs with last
      · -- The set that is removed is not the one of another family.
        refine (Function.update_of_ne (fun same => ?_) ..).trans mine
        by_cases empty : shared.count = 0
        · rw [same, keeps.placeholder family shared here empty] at mine
          exact (careful (by rwa [sub_eq_zero] at last)).2 empty id mine
        · have own := keeps.set family shared here
            (Holders.count_pos_iff.mpr ⟨name, familyOf_eq_some.mp found⟩) empty (same ▸ valid)
          rw [← same, mine] at own
          cases own
          exact differ rfl
      · exact mine
    · rw [if_neg fun last => last_gone last held]
      exact keeps.set id shared here (members id held) counted valid
  · obtain ⟨before, spared⟩ := kept_sets owned
    obtain ⟨other, there, counted, same, held⟩ := keeps.owners sem id before
    have less := fewer id
    rw [destroyOf_families here]
    by_cases mine : id = family
    · subst mine
      cases here.symm.trans there
      refine ⟨_, Function.update_self .., counted, same, Nat.pos_of_ne_zero fun gone => ?_⟩
      rw [gone] at number
      exact spared number same.symm
    · rw [if_neg mine] at less
      exact ⟨other, by simpa [mine] using there, counted, same, by omega⟩
  · rw [destroyOf_sets]
    split_ifs
    · by_cases same : shared.sem = -1
      · simp [same]
      · rw [Function.update_of_ne (Ne.symm same), keeps.invalid]
    · exact keeps.invalid

theorem Shared.other (keeps : Shared state) (sem : Int) (owner : Option Owner)
    (foreign : ∀ id, state.sets sem ≠ some (.family id)) (theirs : ∀ id, owner ≠ some (.family id))
    (valid : sem ≠ -1) : Shared { state with sets := Function.update state.sets sem owner } :=
  ⟨⟨keeps.made, keeps.fresh, keeps.apart⟩, keeps.testing, keeps.removing, keeps.named, keeps.counts,
    keeps.whole, keeps.placeholder,
    fun id shared here held counted given =>
      (sets_update_other foreign theirs).mpr (keeps.set id shared here held counted given),
    fun other id owned => keeps.owners other id ((sets_update_other foreign theirs).mp owned),
    (Function.update_of_ne valid.symm ..).trans keeps.invalid⟩

end Shared

/-! ## The objects and their handles -/

structure Inv (state : State) : Prop where
  shared : Shared state.semaphores
  owned : ∀ handle < state.made, state.objects.count handle + state.destroyed.count handle = 1
  beyond : ∀ handle, state.made ≤ handle -> state.objects.count handle = 0 ∧ handle ∉ state.destroyed
  held : ∀ object ∈ state.objects.live, ∃ handle, state.objects.target object = some handle
  handles : ∀ name, name ∈ state.semaphores.handles.live ↔
    ∃ handle, name = .user handle ∧ 0 < state.objects.count handle
  fresh : state.stale = []

section Inv

variable {state next : State} {object handle : Nat}

theorem start_inv : Inv start := by
  refine ⟨start_shared, ?_, fun _ _ => ⟨rfl, ?_⟩, ?_, fun name => ?_, rfl⟩ <;>
    simp [start, Semaphore.State.start, Holders.empty, Holders.count, Holders.held]

theorem Inv.unused (inv : Inv state) : .user state.made ∉ state.semaphores.handles.live := fun member => by
  obtain ⟨handle, same, some⟩ := (inv.handles _).mp member
  cases same
  exact some.ne' (inv.beyond _ le_rfl).1

theorem Inv.live (inv : Inv state) (live : object ∈ state.objects.live)
    (target : state.objects.target object = some handle) :
    .user handle ∈ state.semaphores.handles.live ∧ handle < state.made ∧ state.objects.count handle = 1 := by
  have some : 0 < state.objects.count handle := Holders.count_pos_iff.mpr ⟨object, live, target⟩
  have made : handle < state.made := Nat.lt_of_not_le fun beyond => some.ne' (inv.beyond handle beyond).1
  have once := inv.owned handle made
  exact ⟨(inv.handles _).mpr ⟨handle, rfl, some⟩, made, by omega⟩

theorem Inv.alone (inv : Inv state) {other : Nat} (live : object ∈ state.objects.live)
    (target : state.objects.target object = some handle) (also : other ∈ state.objects.live)
    (same : state.objects.target other = some handle) : other = object := by
  obtain ⟨-, -, one⟩ := inv.live live target
  obtain ⟨owner, only⟩ := Finset.card_eq_one.mp one
  have first : object ∈ state.objects.held handle := Holders.mem_held.mpr ⟨live, target⟩
  have second : other ∈ state.objects.held handle := Holders.mem_held.mpr ⟨also, same⟩
  rw [only, Finset.mem_singleton] at first second
  exact second.trans first.symm

theorem Inv.valueSemantics (inv : Inv state) : ValueSemantics state := by
  refine ⟨inv.owned, fun object live => ?_, inv.fresh⟩
  obtain ⟨handle, target⟩ := inv.held object live
  obtain ⟨member, made, -⟩ := inv.live live target
  exact ⟨handle, target, made, inv.shared.usable member⟩

theorem Inv.add (inv : Inv state) {semaphores : Semaphore.State} (shared : Shared semaphores)
    (handles : semaphores.handles.live = insert (.user state.made) state.semaphores.handles.live)
    (new : object ∉ state.objects.live) :
    Inv { state with
      semaphores := semaphores
      objects := state.objects.add object (some state.made)
      made := state.made + 1 } := by
  have count (handle : Nat) := Holders.count_add (some state.made) handle new
  simp only [Option.some.injEq] at count
  refine ⟨shared, fun handle made => ?_, fun handle beyond => ?_, fun other live => ?_, fun name => ?_, inv.fresh⟩
  · simp only [count]
    by_cases same : handle = state.made
    · obtain ⟨none, undestroyed⟩ := inv.beyond handle same.ge
      simp [same, same ▸ none, List.count_eq_zero.mpr (same ▸ undestroyed)]
    · rw [if_neg (Ne.symm same), Nat.add_zero]
      exact inv.owned handle (Nat.lt_of_le_of_ne (Nat.le_of_lt_succ made) same)
  · have later : state.made < handle := beyond
    rw [count, if_neg later.ne, Nat.add_zero]
    exact inv.beyond handle later.le
  · rcases Holders.mem_add.mp live with rfl | before
    · exact ⟨state.made, Holders.target_add_self⟩
    · have differ : other ≠ object := fun same => new (same ▸ before)
      simpa [Holders.target_add_of_ne differ] using inv.held other before
  · simp only [handles, Finset.mem_insert, inv.handles, count]
    constructor
    · rintro (rfl | ⟨handle, rfl, some⟩)
      · exact ⟨state.made, rfl, by simp⟩
      · exact ⟨handle, rfl, by omega⟩
    · rintro ⟨handle, rfl, some⟩
      by_cases same : state.made = handle
      · exact Or.inl (by rw [same])
      · rw [if_neg same] at some
        exact Or.inr ⟨handle, rfl, some⟩

theorem Inv.environment (inv : Inv state) {semaphores : Semaphore.State} (shared : Shared semaphores)
    (handles : semaphores.handles = state.semaphores.handles) : Inv { state with semaphores := semaphores } :=
  ⟨shared, inv.owned, inv.beyond, inv.held, fun name => by rw [handles]; exact inv.handles name, inv.fresh⟩

theorem Inv.destroyed (inv : Inv state) (taken : step state (.destroy object) = some next) :
    ∃ handle family shared, object ∈ state.objects.live ∧ state.objects.target object = some handle ∧
      state.semaphores.familyOf (.user handle) = some family ∧ state.semaphores.families family = some shared ∧
      next = { state with
        semaphores := state.semaphores.destroyOf (.user handle) family shared
        objects := state.objects.remove object
        destroyed := state.destroyed ++ [handle] } := by
  simp only [step] at taken
  split_ifs at taken with live
  obtain ⟨handle, target, rfl⟩ := Option.map_eq_some_iff.mp taken
  obtain ⟨family, shared, found, here, -⟩ := inv.shared.found (inv.live live target).1
  refine ⟨handle, family, shared, live, target, found, here, ?_⟩
  simp [State.destroy, Semaphore.State.destroy, found, here]

theorem Inv.destroy (inv : Inv state) (live : object ∈ state.objects.live)
    (target : state.objects.target object = some handle) {semaphores : Semaphore.State} (shared : Shared semaphores)
    (handles : semaphores.handles = state.semaphores.handles.remove (.user handle)) :
    Inv { state with
      semaphores := semaphores
      objects := state.objects.remove object
      destroyed := state.destroyed ++ [handle] } := by
  obtain ⟨-, made, one⟩ := inv.live live target
  have count (other : Nat) := Holders.count_remove other live
  simp only [target, Option.some.injEq] at count
  refine ⟨shared, fun other before => ?_, fun other beyond => ?_, fun other still => ?_, fun name => ?_, inv.fresh⟩
  · have sum := inv.owned other before
    have less := count other
    simp only [List.count_append, List.count_singleton, beq_iff_eq]
    omega
  · obtain ⟨none, undestroyed⟩ := inv.beyond other beyond
    have less := count other
    have differ : other ≠ handle := fun same => by
      have above : state.made ≤ other := beyond
      omega
    exact ⟨by simp only; omega, by simp [undestroyed, differ]⟩
  · exact inv.held other (Holders.mem_remove.mp still).2
  · rw [handles, Holders.mem_remove, inv.handles]
    constructor
    · rintro ⟨differ, other, rfl, some⟩
      have less := count other
      rw [if_neg fun same => differ (by rw [same])] at less
      exact ⟨other, rfl, by simp only; omega⟩
    · rintro ⟨other, rfl, some⟩
      have less := count other
      refine ⟨fun same => ?_, other, rfl, by simp only at some; omega⟩
      cases same
      rw [if_pos rfl] at less
      simp only at some
      omega

theorem step_inv (inv : Inv state) {op : Op} (careful : Careful state op) (taken : step state op = some next) :
    Inv next := by
  cases op with
  | construct object count kernel =>
      simp only [step] at taken
      split_ifs at taken with ready
      cases taken
      exact inv.add (inv.shared.create count inv.unused ready.2) rfl ready.1
  | copy object source =>
      simp only [step] at taken
      split_ifs at taken with ready
      obtain ⟨handle, target, rfl⟩ := Option.map_eq_some_iff.mp taken
      obtain ⟨family, shared, found, -⟩ := inv.shared.found (inv.live ready.2 target).1
      simp only [State.copy, found]
      exact inv.add (inv.shared.duplicate inv.unused found) rfl ready.1
  | assign target source =>
      simp only [step] at taken
      split_ifs at taken
      cases taken
      obtain rfl : target = source := careful
      simpa [State.assign, Function.update_eq_self] using inv
  | destroy object =>
      obtain ⟨handle, family, shared, live, target, found, here, rfl⟩ := inv.destroyed taken
      exact inv.destroy live target
        (inv.shared.destroyOf found here (careful handle family shared target found here)) destroyOf_handles
  | otherCreate kernel =>
      obtain ⟨semaphores, created, rfl⟩ := Option.map_eq_some_iff.mp taken
      simp only [Semaphore.step] at created
      split_ifs at created with unused
      cases created
      exact inv.environment (inv.shared.other kernel _ (by simp [unused.2]) (by simp) (by omega)) rfl
  | otherRemove kernel =>
      obtain ⟨semaphores, removed, rfl⟩ := Option.map_eq_some_iff.mp taken
      simp only [Semaphore.step] at removed
      split_ifs at removed with foreign
      cases removed
      refine inv.environment (inv.shared.other kernel _ (by simp [foreign]) (by simp) ?_) rfl
      rintro rfl
      cases inv.shared.invalid.symm.trans foreign

/-- The handle of the target has no owner any more, and nothing has destroyed it. -/
theorem Inv.assign_broken (inv : Inv state) {target source : Nat} (differ : target ≠ source)
    (taken : step state (.assign target source) = some next) : ¬ ValueSemantics next := by
  simp only [step] at taken
  split_ifs at taken with live
  cases taken
  obtain ⟨handle, mine⟩ := inv.held target live.1
  obtain ⟨-, made, one⟩ := inv.live live.1 mine
  have undestroyed : state.destroyed.count handle = 0 := by
    have sum := inv.owned handle made
    omega
  intro values
  have sum := values.owned handle made
  have owned : 0 < (state.assign target source).objects.count handle := by
    simp only [State.assign] at sum ⊢
    omega
  obtain ⟨owner, still, holds⟩ := Holders.count_pos_iff.mp owned
  by_cases same : owner = target
  · subst same
    simp only [State.assign, Function.update_self] at holds
    exact differ (inv.alone live.1 mine live.2 holds).symm
  · simp only [State.assign, Function.update_of_ne same] at holds
    exact same (inv.alone live.1 mine still holds)

theorem Inv.destroy_broken (inv : Inv state) (careless : ¬ Careful state (.destroy object))
    (taken : step state (.destroy object) = some next) : ¬ ValueSemantics next := by
  obtain ⟨handle, family, shared, live, target, found, here, rfl⟩ := inv.destroyed taken
  have member := (inv.live live target).1
  -- Another live handle still has its object behind the destruction, so it is still usable.
  have others (values : ValueSemantics { state with
      semaphores := state.semaphores.destroyOf (.user handle) family shared
      objects := state.objects.remove object
      destroyed := state.destroyed ++ [handle] }) {name : Name} (differ : name ≠ .user handle)
      (also : name ∈ state.semaphores.handles.live) : ∃ other, name = .user other ∧
        Usable (state.semaphores.destroyOf (.user handle) family shared) other := by
    obtain ⟨other, rfl, some⟩ := (inv.handles name).mp also
    obtain ⟨owner, owns, holds⟩ := Holders.count_pos_iff.mp some
    have away : owner ≠ object := by
      rintro rfl
      rw [target, Option.some.injEq] at holds
      exact differ (by rw [holds])
    obtain ⟨same, held, -, usable⟩ := values.usable owner (Holders.mem_remove.mpr ⟨away, owns⟩)
    rw [Holders.target_remove, holds, Option.some.injEq] at held
    exact ⟨other, rfl, held ▸ usable⟩
  simp only [Careful, not_forall] at careless
  obtain ⟨same, id, family', mine, owns, there, one, broken⟩ := careless
  cases target.symm.trans mine
  cases found.symm.trans owns
  cases here.symm.trans there
  have last : shared.references - 1 = 0 := by rw [one]; rfl
  intro values
  by_cases alone : state.semaphores.handles.count family = 1
  · -- The set with the identifier 0 is removed for a semaphore that has none.
    obtain ⟨empty, victim, owned⟩ : shared.count = 0 ∧ ∃ victim, state.semaphores.sets 0 = some (.family victim) := by
      simpa [alone] using broken
    obtain ⟨other, stored, counted, sem, some⟩ := inv.shared.owners 0 victim owned
    obtain ⟨name, also, holds⟩ := Holders.count_pos_iff.mp some
    have apart : victim ≠ family := by
      rintro rfl
      exact counted ((congrArg Family.count (Option.some.inj (stored.symm.trans here))).trans empty)
    have differ : name ≠ .user handle := by
      rintro rfl
      rw [(familyOf_eq_some.mp found).2, Option.some.injEq] at holds
      exact apart holds.symm
    obtain ⟨number, rfl, id, after, belongs, read, -, kept⟩ := others values differ also
    obtain ⟨-, holds'⟩ := familyOf_eq_some.mp belongs
    rw [destroyOf_handles, Holders.target_remove, holds, Option.some.injEq] at holds'
    subst holds'
    rw [destroyOf_families here, Function.update_of_ne apart, stored, Option.some.injEq] at read
    subst read
    have removed := kept counted (by rw [sem]; decide)
    rw [destroyOf_sets, if_pos last, sem, inv.shared.placeholder family shared here empty] at removed
    simp at removed
  · -- The counter comes to 0 while other handles use it.
    have less := count_destroyOf shared found family
    have some : 0 < state.semaphores.handles.count family :=
      Holders.count_pos_iff.mpr ⟨.user handle, familyOf_eq_some.mp found⟩
    have more : 0 < (state.semaphores.destroyOf (.user handle) family shared).handles.count family := by
      rw [if_pos rfl] at less
      omega
    obtain ⟨name, still, holds⟩ := Holders.count_pos_iff.mp more
    rw [destroyOf_handles] at still holds
    obtain ⟨differ, also⟩ := Holders.mem_remove.mp still
    obtain ⟨number, rfl, id, after, belongs, read, whole, -⟩ := others values differ also
    obtain ⟨-, holds'⟩ := familyOf_eq_some.mp belongs
    rw [destroyOf_handles, holds, Option.some.injEq] at holds'
    subst holds'
    rw [destroyOf_families here, Function.update_self, Option.some.injEq] at read
    subst read
    simp [last] at whole

theorem destroyOf_reachable {semaphores : Semaphore.State} {name : Name} {family : Nat} {shared : Family}
    (found : semaphores.familyOf name = some family) (here : semaphores.families family = some shared) :
    Reachable Semaphore.step semaphores (semaphores.destroyOf name family shared) := by
  have decremented : Semaphore.step semaphores (.decrement name) = some (semaphores.decrement name family) := by
    simp [Semaphore.step, found]
  have tested : Semaphore.step (semaphores.decrement name family) (.test name) =
      some ((semaphores.decrement name family).test name family (shared.references - 1)) := by
    simp [Semaphore.step, Semaphore.State.decrement, Semaphore.State.update, here]
  have reached : Reachable Semaphore.step semaphores _ := .tail (.tail .refl trivial decremented) trivial tested
  unfold Semaphore.State.destroyOf
  split_ifs with last
  · refine reached.trans (.tail .refl trivial (show Semaphore.step _ (.remove name) = _ from ?_))
    simp [Semaphore.step, Semaphore.State.test, Semaphore.State.decrement, Semaphore.State.update, here, last]
  · exact reached

theorem step_reachable (inv : Inv state) {op : Op} (taken : step state op = some next) :
    Reachable Semaphore.step state.semaphores next.semaphores := by
  cases op with
  | construct object count kernel =>
      simp only [step] at taken
      split_ifs at taken with ready
      cases taken
      exact .tail .refl trivial (show Semaphore.step _ (.create state.made count kernel) = _ by
        simp [Semaphore.step, inv.shared.free inv.unused, ready.2])
  | copy object source =>
      simp only [step] at taken
      split_ifs at taken with ready
      obtain ⟨handle, target, rfl⟩ := Option.map_eq_some_iff.mp taken
      obtain ⟨family, shared, found, -⟩ := inv.shared.found (inv.live ready.2 target).1
      simp only [State.copy, found]
      exact .tail .refl trivial (show Semaphore.step _ (.duplicate state.made handle) = _ by
        simp [Semaphore.step, Semaphore.State.duplicateOf, inv.shared.free inv.unused, found])
  | assign target source =>
      simp only [step] at taken
      split_ifs at taken
      cases taken
      exact .refl
  | destroy object =>
      obtain ⟨handle, family, shared, -, -, found, here, rfl⟩ := inv.destroyed taken
      exact destroyOf_reachable found here
  | otherCreate kernel | otherRemove kernel =>
      obtain ⟨semaphores, changed, rfl⟩ := Option.map_eq_some_iff.mp taken
      exact .tail .refl trivial changed

/-- The objects do with their handles what any program can do with them. -/
theorem reach_semaphores (reached : Reach step Careful start state) :
    Inv state ∧ Reachable Semaphore.step .start state.semaphores :=
  reached.invariant (fun state => Inv state ∧ Reachable Semaphore.step .start state.semaphores)
    ⟨start_inv, .refl⟩ fun _ _ _ holds careful taken =>
      ⟨step_inv holds.1 careful taken, holds.2.trans (step_reachable holds.1 taken)⟩

/--
A run of the special member functions keeps value semantics throughout if and only if it assigns objects
to themselves only, and its destructions meet no counter that has wrapped around and no set under 0.
-/
theorem valueSemantics_iff_careful (ops : List Op) (run : (exec step start ops).isSome) :
    Throughout step ValueSemantics start ops ↔ Along step Careful start ops := by
  refine throughout_iff_along Inv (fun _ => Inv.valueSemantics) (fun _ _ _ inv careful taken =>
    step_inv inv careful taken) ?_ start_inv run
  intro state op next inv careless taken
  cases op with
  | assign target source => exact inv.assign_broken careless taken
  | destroy object => exact inv.destroy_broken careless taken
  | construct _ _ _ => exact absurd trivial careless
  | copy _ _ => exact absurd trivial careless
  | otherCreate _ => exact absurd trivial careless
  | otherRemove _ => exact absurd trivial careless

/-- Two objects share a set; the one that is made first outlives its copy. -/
def shared : List Op :=
  [.construct 1 2 10, .copy 2 1, .assign 1 1, .destroy 2, .construct 2 1 11, .destroy 1, .destroy 2]

theorem valueSemantics_iff_careful_shared :
    Throughout step ValueSemantics start shared ↔ Along step Careful start shared :=
  valueSemantics_iff_careful shared (by decide)

/-- Behind `b = a` both objects have the handle of `a`, which is destroyed twice; that of `b` is lost. -/
theorem valueSemantics_fails_assigned :
    ¬ ∀ (ops : List Op) (state : State), exec step start ops = some state -> ValueSemantics state := by
  intro always
  let assigned : List Op := [.construct 1 1 10, .construct 2 1 11, .assign 2 1, .destroy 2, .destroy 1]
  obtain ⟨state, run⟩ : ∃ state, exec step start assigned = some state :=
    Option.isSome_iff_exists.mp (by decide)
  have counts : (exec step start assigned).map (fun state =>
      (state.made, state.objects.count 0 + state.destroyed.count 0, state.stale)) = some (2, 2, [0]) := by
    decide
  simp only [run, Option.map_some, Option.some.injEq, Prod.mk.injEq] at counts
  obtain ⟨made, twice, -⟩ := counts
  have once := (always assigned state run).owned 0 (by omega)
  omega

end Inv

end Values

end ZSystem.Semaphore
