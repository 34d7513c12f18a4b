import ZSystem.Shared.Chain

set_option autoImplicit false

/-!
# The request queue of a message loop

The elements between `first` and `last` form a list with a tail pointer. What the list holds is a
sequence of data: `insert` appends to it and `remove` takes its head.
-/

namespace ZSystem.MessageLoop

/-- `struct zs__messageloop_element`. -/
structure Element where
  next : Nat
  data : Nat
  deriving DecidableEq, Repr

/-- `first`, `last` and the memory the elements lie in. -/
structure Queue where
  first : Nat := 0
  last : Nat := 0
  elements : Nat -> Option Element := fun _ => none

/-- `malloc` has given `address` for the new element; an address in use is not given. -/
def Queue.insert (queue : Queue) (address data : Nat) : Option Queue :=
  if address = 0 ∨ (queue.elements address).isSome then none else
    let elements := Function.update queue.elements address (some { next := 0, data := data })
    if queue.last ≠ 0 then
      (elements queue.last).map fun last =>
        { queue with
          last := address
          elements := Function.update elements queue.last (some { last with next := address }) }
    else some { first := address, last := address, elements := elements }

/-- The new queue and `a_element`, which is null for an empty queue. -/
def Queue.remove (queue : Queue) : Option (Queue × Nat) :=
  if queue.first = 0 then some (queue, 0) else
    (queue.elements queue.first).map fun element =>
      ({ queue with first := element.next, last := if element.next = 0 then 0 else queue.last },
        queue.first)

/-- `free(a_element)`. -/
def Queue.free (queue : Queue) (address : Nat) : Queue :=
  { queue with elements := Function.update queue.elements address none }

/-- The elements at `addresses`, in this order, are the queue, and they hold `contents`. -/
structure Represents (queue : Queue) (addresses contents : List Nat) : Prop where
  linked : Chain.Linked queue.elements Element.next queue.first addresses
  last : queue.last = addresses.getLastD 0
  data : addresses.map (fun address => (queue.elements address).map Element.data) = contents.map some

variable {queue after : Queue} {addresses contents : List Nat} {address : Nat}

theorem represents_empty : Represents {} [] [] := ⟨rfl, rfl, rfl⟩

theorem represents_iff_holds : Represents queue addresses contents ↔
    Chain.Holds queue.elements Element.next Element.data queue.first queue.last addresses contents :=
  ⟨fun represents => ⟨represents.linked, represents.last, represents.data⟩,
    fun holds => ⟨holds.linked, holds.last, holds.data⟩⟩

theorem Represents.holds (represents : Represents queue addresses contents) :
    Chain.Holds queue.elements Element.next Element.data queue.first queue.last addresses contents :=
  represents_iff_holds.mp represents

theorem Represents.length (represents : Represents queue addresses contents) :
    addresses.length = contents.length := represents.holds.length

theorem Represents.fresh (represents : Represents queue addresses contents)
    (unused : queue.elements address = none) : address ∉ addresses := represents.holds.unused unused

theorem insert_cases {data : Nat} (inserted : queue.insert address data = some after) :
    address ≠ 0 ∧ queue.elements address = none := by
  unfold Queue.insert at inserted
  split_ifs at inserted with used
  all_goals
    rw [not_or] at used
    simpa using used

theorem Represents.insert (represents : Represents queue addresses contents) {data : Nat}
    (inserted : queue.insert address data = some after) :
    Represents after (addresses ++ [address]) (contents ++ [data]) := by
  obtain ⟨valid, unused⟩ := insert_cases inserted
  unfold Queue.insert at inserted
  rw [if_neg (by simp [valid, unused])] at inserted
  dsimp only at inserted
  refine represents_iff_holds.mpr ?_
  split_ifs at inserted with present
  · obtain ⟨member, element, read⟩ := represents.holds.last_allocated present
    have differ : queue.last ≠ address := fun same => represents.fresh unused (same ▸ member)
    simp only [Function.update_of_ne differ, read, Option.map_some, Option.some.injEq] at inserted
    subst inserted
    exact represents.holds.append present valid unused rfl read rfl rfl
  · cases inserted
    exact represents.holds.start (not_not.mp present) valid rfl

theorem Represents.insert_keeps (represents : Represents queue addresses contents) {data other : Nat}
    {node : Element} (inserted : queue.insert address data = some after) (outside : other ∉ addresses)
    (read : queue.elements other = some node) :
    other ∉ addresses ++ [address] ∧ after.elements other = some node := by
  obtain ⟨valid, unused⟩ := insert_cases inserted
  have differ : other ≠ address := by
    rintro rfl
    simp [unused] at read
  refine ⟨by simp [outside, differ], ?_⟩
  unfold Queue.insert at inserted
  rw [if_neg (by simp [valid, unused])] at inserted
  dsimp only at inserted
  split_ifs at inserted with last
  · -- The old last element is one of the queue.
    have apart : other ≠ queue.last := fun same => outside (same ▸ (represents.holds.last_allocated last).1)
    obtain ⟨_, -, rfl⟩ := Option.map_eq_some_iff.mp inserted
    simp [apart, differ, read]
  · cases inserted
    simp [differ, read]

theorem Represents.remove (represents : Represents queue addresses contents) {element : Nat}
    (removed : queue.remove = some (after, element)) :
    (element = 0 ∧ after = queue ∧ contents = []) ∨
      ∃ rest data waiting node, addresses = element :: rest ∧ contents = data :: waiting ∧
        element ≠ 0 ∧ element ∉ rest ∧ after.elements = queue.elements ∧
        queue.elements element = some node ∧ node.data = data ∧ Represents after rest waiting := by
  cases addresses with
  | nil =>
      have null : queue.first = 0 := represents.linked
      simp only [Queue.remove, null, if_true, Option.some.injEq, Prod.mk.injEq] at removed
      exact Or.inl ⟨removed.2.symm, removed.1.symm,
        List.eq_nil_of_length_eq_zero represents.length.symm⟩
  | cons head rest =>
      right
      have once := Chain.linked_nodup represents.linked
      obtain ⟨start, valid, node, read, remaining⟩ := represents.linked
      cases contents with
      | nil => simpa using represents.length
      | cons data waiting =>
          simp only [Queue.remove, start, valid, if_false, read, Option.map_some, Option.some.injEq,
            Prod.mk.injEq] at removed
          obtain ⟨rfl, rfl⟩ := removed
          have held := represents.data
          simp only [List.map_cons, List.cons.injEq, read, Option.map_some, Option.some.injEq] at held
          refine ⟨rest, data, waiting, node, rfl, rfl, valid, (List.nodup_cons.mp once).1, rfl, read,
            held.1, remaining, ?_, held.2⟩
          cases rest with
          | nil => simp [show node.next = 0 from remaining]
          | cons second others =>
              obtain ⟨points, present, -⟩ := remaining
              simp [points, present, represents.last]

theorem Represents.free (represents : Represents queue addresses contents)
    (outside : address ∉ addresses) : Represents (queue.free address) addresses contents := by
  refine ⟨Chain.segment_update outside represents.linked, represents.last, ?_⟩
  rw [← represents.data]
  refine List.map_congr_left fun other member => ?_
  have differ : other ≠ address := fun same => outside (same ▸ member)
  simp [Queue.free, differ]

theorem Represents.remove_isSome (represents : Represents queue addresses contents) :
    queue.remove.isSome := by
  cases addresses with
  | nil => simp [Queue.remove, show queue.first = 0 from represents.linked]
  | cons head rest =>
      obtain ⟨start, valid, node, read, -⟩ := represents.linked
      simp [Queue.remove, start, valid, read]

/-! ## Memory for another element -/

/-- Only finitely many elements are allocated. -/
def Queue.Finite (queue : Queue) : Prop := ∃ bound, ∀ address, bound ≤ address -> queue.elements address = none

theorem Queue.Finite.update {elements : Nat -> Option Element}
    (finite : ∃ bound, ∀ address, bound ≤ address -> elements address = none) (address : Nat)
    (content : Option Element) :
    ∃ bound, ∀ other, bound ≤ other -> Function.update elements address content other = none := by
  obtain ⟨bound, unused⟩ := finite
  refine ⟨bound + address + 1, fun other above => ?_⟩
  have differ : other ≠ address := by omega
  simpa [differ] using unused other (by omega)

theorem Queue.Finite.insert (finite : queue.Finite) {data : Nat}
    (inserted : queue.insert address data = some after) : after.Finite := by
  unfold Queue.insert at inserted
  have more := Queue.Finite.update finite address (some { next := 0, data := data })
  split_ifs at inserted
  · obtain ⟨last, -, rfl⟩ := Option.map_eq_some_iff.mp inserted
    exact Queue.Finite.update more _ _
  · cases inserted
    exact more

theorem Queue.Finite.remove (finite : queue.Finite) {element : Nat}
    (removed : queue.remove = some (after, element)) : after.Finite := by
  unfold Queue.remove at removed
  split_ifs at removed
  · cases removed
    exact finite
  · obtain ⟨node, -, same⟩ := Option.map_eq_some_iff.mp removed
    cases same
    exact finite

theorem Represents.inserts (represents : Represents queue addresses contents) (finite : queue.Finite)
    (data : Nat) : ∃ address after, queue.insert address data = some after := by
  obtain ⟨bound, unused⟩ := finite
  have fresh := unused (bound + 1) (Nat.le_succ bound)
  refine ⟨bound + 1, ?_⟩
  unfold Queue.insert
  rw [if_neg (by simp [fresh])]
  by_cases present : queue.last = 0
  · simp [present]
  · obtain ⟨-, element, read⟩ := represents.holds.last_allocated present
    have differ : queue.last ≠ bound + 1 := by
      intro same
      simp [← same, read] at fresh
    simp [present, differ, read]

end ZSystem.MessageLoop
