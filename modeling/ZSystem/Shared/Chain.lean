import Mathlib.Data.List.Nodup
import Mathlib.Logic.Function.Basic

set_option autoImplicit false

/-!
# Linked nodes in a memory

A memory maps addresses to nodes. Address `0` is the null pointer and `none` is an address that is
not allocated, either because it never was or because it has been freed.
-/

namespace Chain

variable {ν : Type}

/-- Following `next` from `first` visits exactly `addresses`, all of them allocated, and ends at `stop`. -/
def Segment (memory : Nat -> Option ν) (next : ν -> Nat) : Nat -> List Nat -> Nat -> Prop
  | first, [], stop => first = stop
  | first, address :: rest, stop =>
      first = address ∧ address ≠ 0 ∧
        ∃ node, memory address = some node ∧ Segment memory next (next node) rest stop

abbrev Linked (memory : Nat -> Option ν) (next : ν -> Nat) (first : Nat) (addresses : List Nat) : Prop :=
  Segment memory next first addresses 0

variable {memory : Nat -> Option ν} {next : ν -> Nat}

@[simp] theorem segment_nil (first stop : Nat) :
    Segment memory next first [] stop ↔ first = stop := Iff.rfl

theorem segment_cons (first address stop : Nat) (rest : List Nat) :
    Segment memory next first (address :: rest) stop ↔
      first = address ∧ address ≠ 0 ∧
        ∃ node, memory address = some node ∧ Segment memory next (next node) rest stop := Iff.rfl

theorem segment_append {first stop : Nat} {front back : List Nat} :
    Segment memory next first (front ++ back) stop ↔
      ∃ middle, Segment memory next first front middle ∧ Segment memory next middle back stop := by
  induction front generalizing first with
  | nil => simp
  | cons address rest ih =>
      simp only [List.cons_append, segment_cons, ih]
      constructor
      · rintro ⟨start, valid, node, read, middle, left, right⟩
        exact ⟨middle, ⟨start, valid, node, read, left⟩, right⟩
      · rintro ⟨middle, ⟨start, valid, node, read, left⟩, right⟩
        exact ⟨start, valid, node, read, middle, left, right⟩

theorem segment_frame {other : Nat -> Option ν} {first stop : Nat} {addresses : List Nat}
    (same : ∀ address ∈ addresses, other address = memory address)
    (segment : Segment memory next first addresses stop) :
    Segment other next first addresses stop := by
  induction addresses generalizing first with
  | nil => exact segment
  | cons address rest ih =>
      obtain ⟨start, valid, node, read, remaining⟩ := segment
      refine ⟨start, valid, node, (same address (by simp)).trans read, ?_⟩
      exact ih (fun later member => same later (List.mem_cons_of_mem _ member)) remaining

theorem segment_allocated {first stop address : Nat} {addresses : List Nat}
    (segment : Segment memory next first addresses stop) (member : address ∈ addresses) :
    address ≠ 0 ∧ ∃ node, memory address = some node := by
  induction addresses generalizing first with
  | nil => simp at member
  | cons head rest ih =>
      obtain ⟨-, valid, node, read, remaining⟩ := segment
      rcases List.mem_cons.mp member with rfl | later
      · exact ⟨valid, node, read⟩
      · exact ih remaining later

theorem linked_unique {first : Nat} {left right : List Nat}
    (one : Linked memory next first left) (two : Linked memory next first right) : left = right := by
  induction left generalizing first right with
  | nil =>
      cases right with
      | nil => rfl
      | cons address rest =>
          obtain ⟨start, valid, -⟩ := two
          exact absurd (start.symm.trans one) valid
  | cons address rest ih =>
      obtain ⟨start, valid, node, read, remaining⟩ := one
      cases right with
      | nil => exact absurd (start.symm.trans two) valid
      | cons other others =>
          obtain ⟨start', -, node', read', remaining'⟩ := two
          have sameAddress : address = other := start.symm.trans start'
          subst sameAddress
          have sameNode : node = node' := Option.some.inj (read.symm.trans read')
          subst sameNode
          rw [ih remaining remaining']

theorem linked_nodup {first : Nat} {addresses : List Nat}
    (linked : Linked memory next first addresses) : addresses.Nodup := by
  induction addresses generalizing first with
  | nil => exact List.nodup_nil
  | cons address rest ih =>
      obtain ⟨start, valid, node, read, remaining⟩ := linked
      refine List.nodup_cons.mpr ⟨fun again => ?_, ih remaining⟩
      -- A second visit would make a proper suffix of the chain a chain from the same address.
      obtain ⟨front, back, split⟩ := List.append_of_mem again
      rw [split] at remaining
      obtain ⟨middle, -, suffix⟩ := segment_append.mp remaining
      have whole : Linked memory next address (address :: rest) :=
        ⟨rfl, valid, node, read, split ▸ remaining⟩
      have tail : Linked memory next address (address :: back) := suffix.1 ▸ suffix
      have lengths := congrArg List.length (linked_unique whole tail)
      simp [split] at lengths
      omega

/-- A chain that ends with the null pointer visits every address that the pointers from its first one come to. -/
theorem segment_reaches {first stop : Nat} {front whole : List Nat} (segment : Segment memory next first front stop)
    (linked : Linked memory next first whole) (valid : stop ≠ 0) : stop ∈ whole := by
  induction front generalizing first whole with
  | nil =>
      obtain rfl : first = stop := segment
      cases whole with
      | nil => exact absurd linked valid
      | cons address rest => exact linked.1 ▸ List.mem_cons_self
  | cons address rest ih =>
      obtain ⟨rfl, present, node, read, remaining⟩ := segment
      cases whole with
      | nil => exact absurd linked present
      | cons other others =>
          obtain ⟨rfl, -, content, same, further⟩ := linked
          cases read.symm.trans same
          exact List.mem_cons_of_mem _ (ih remaining further)

theorem segment_update {first stop address : Nat} {addresses : List Nat} {content : Option ν}
    (outside : address ∉ addresses) (segment : Segment memory next first addresses stop) :
    Segment (Function.update memory address content) next first addresses stop := by
  refine segment_frame (fun visited member => ?_) segment
  have differ : visited ≠ address := fun same => outside (same ▸ member)
  simp [differ]

theorem segment_push {first stop address : Nat} {addresses : List Nat} {node : ν}
    (valid : address ≠ 0) (fresh : memory address = none) (points : next node = first)
    (segment : Segment memory next first addresses stop) :
    Segment (Function.update memory address (some node)) next address (address :: addresses) stop := by
  have outside : address ∉ addresses := fun member => by
    obtain ⟨-, content, read⟩ := segment_allocated segment member
    simp [fresh] at read
  exact ⟨rfl, valid, node, by simp, points ▸ segment_update outside segment⟩

theorem linked_snoc {first last address : Nat} {front : List Nat} {node fresh : ν}
    (linked : Linked memory next first (front ++ [last])) (valid : address ≠ 0)
    (unused : memory address = none) (points : next node = address) (ends : next fresh = 0) :
    Linked (Function.update (Function.update memory address (some fresh)) last (some node)) next first
      (front ++ [last] ++ [address]) := by
  have outside : address ∉ front ++ [last] := fun member => by
    obtain ⟨-, content, read⟩ := segment_allocated linked member
    simp [unused] at read
  have once := linked_nodup linked
  obtain ⟨middle, before, start, present, -, -, -⟩ := segment_append.mp linked
  have apart : last ∉ front := fun member =>
    (List.nodup_append.mp once).2.2 last member last (List.mem_singleton_self _) rfl
  have differ : address ≠ last := fun same => outside (by simp [same])
  have kept : Segment (Function.update (Function.update memory address (some fresh)) last (some node))
      next first front middle :=
    segment_update apart
      (segment_update (fun member => outside (List.mem_append_left _ member)) before)
  rw [List.append_assoc]
  refine segment_append.mpr ⟨middle, kept, start, present, node, by simp, points, valid, fresh, ?_, ends⟩
  simp [differ]

/-! ## A chain with a pointer to its last node -/

variable {β : Type} {view : ν -> β}

/-- The nodes at `addresses` are a chain, `last` is its last node, and they hold `contents`. -/
structure Holds (memory : Nat -> Option ν) (next : ν -> Nat) (view : ν -> β) (first last : Nat)
    (addresses : List Nat) (contents : List β) : Prop where
  linked : Linked memory next first addresses
  last : last = addresses.getLastD 0
  data : addresses.map (fun address => (memory address).map view) = contents.map some

section Holds

variable {first last address : Nat} {addresses : List Nat} {contents : List β} {fresh node tail : ν}

theorem Holds.length (holds : Holds memory next view first last addresses contents) :
    addresses.length = contents.length := by
  simpa using congrArg List.length holds.data

theorem Holds.unused (holds : Holds memory next view first last addresses contents)
    (unused : memory address = none) : address ∉ addresses := fun member => by
  obtain ⟨-, node, read⟩ := segment_allocated holds.linked member
  simp [unused] at read

theorem Holds.last_allocated (holds : Holds memory next view first last addresses contents) (present : last ≠ 0) :
    last ∈ addresses ∧ ∃ node, memory last = some node := by
  rcases List.eq_nil_or_concat addresses with rfl | ⟨front, tail, rfl⟩
  · exact absurd holds.last present
  · have points : last = tail := by simpa using holds.last
    have member : last ∈ front ++ [tail] := by simp [points]
    rw [List.concat_eq_append] at holds ⊢
    exact ⟨member, (segment_allocated holds.linked member).2⟩

theorem Holds.start (holds : Holds memory next view first last addresses contents) (empty : last = 0)
    (valid : address ≠ 0) (ends : next fresh = 0) :
    Holds (Function.update memory address (some fresh)) next view address address
      (addresses ++ [address]) (contents ++ [view fresh]) := by
  have nothing : addresses = [] := by
    by_contra filled
    obtain ⟨front, tail, split⟩ := (List.eq_nil_or_concat addresses).resolve_left filled
    have points : tail = 0 := by simpa [split, empty] using holds.last.symm
    exact (segment_allocated holds.linked (by simp [split] : tail ∈ addresses)).1 points
  have hollow : contents = [] := List.eq_nil_of_length_eq_zero (holds.length ▸ nothing ▸ rfl)
  subst nothing hollow
  exact ⟨⟨rfl, valid, fresh, by simp, ends⟩, rfl, by simp⟩

/-- The old last node is made to point to the new one. -/
theorem Holds.append (holds : Holds memory next view first last addresses contents) (present : last ≠ 0)
    (valid : address ≠ 0) (unused : memory address = none) (ends : next fresh = 0)
    (read : memory last = some tail) (points : next node = address) (same : view node = view tail) :
    Holds (Function.update (Function.update memory address (some fresh)) last (some node)) next view
      first address (addresses ++ [address]) (contents ++ [view fresh]) := by
  have outside := holds.unused unused
  have differ : last ≠ address := fun equal => outside (equal ▸ (holds.last_allocated present).1)
  refine ⟨?_, by simp, ?_⟩
  · rcases List.eq_nil_or_concat addresses with rfl | ⟨front, final, rfl⟩
    · exact absurd holds.last present
    · rw [List.concat_eq_append] at holds ⊢
      obtain rfl : last = final := by simpa using holds.last
      exact linked_snoc holds.linked valid unused points ends
  · have kept (other : Nat) (member : other ∈ addresses) :
        (Function.update (Function.update memory address (some fresh)) last (some node) other).map view =
          (memory other).map view := by
      by_cases here : other = last
      · subst here
        simp [read, same]
      · have there : other ≠ address := fun equal => outside (equal ▸ member)
        simp [here, there]
    have before := (List.map_congr_left kept).trans holds.data
    refine List.map_append.trans ((congrArg₂ (· ++ ·) before ?_).trans List.map_append.symm)
    simp [differ.symm]

/--
What a loop over the chain does, with a bound on its rounds: it ends at the null pointer, and else it visits
a node and goes on with the next one.
-/
theorem Holds.loop {motive : Nat -> Nat -> List β -> Prop} (ended : ∀ fuel, motive (fuel + 1) 0 [])
    (visited : ∀ fuel address node rest, address ≠ 0 -> memory address = some node ->
      motive fuel (next node) rest -> motive (fuel + 1) address (view node :: rest))
    (holds : Holds memory next view first last addresses contents) {fuel : Nat} (enough : addresses.length < fuel) :
    motive fuel first contents := by
  obtain ⟨linked, -, data⟩ := holds
  induction addresses generalizing first contents fuel with
  | nil =>
      obtain ⟨rest, rfl⟩ := Nat.exists_eq_succ_of_ne_zero (Nat.ne_of_gt enough)
      obtain rfl : first = 0 := linked
      obtain rfl : contents = [] := by simpa using data.symm
      exact ended rest
  | cons address others ih =>
      obtain ⟨rest, rfl⟩ := Nat.exists_eq_succ_of_ne_zero (Nat.ne_of_gt (Nat.zero_lt_of_lt enough))
      obtain ⟨rfl, valid, node, read, remaining⟩ := linked
      cases contents with
      | nil => simp at data
      | cons content later =>
          simp only [List.map_cons, List.cons.injEq, read, Option.map_some, Option.some.injEq] at data
          obtain ⟨rfl, data⟩ := data
          exact visited rest first node later valid read (ih (Nat.lt_of_succ_lt_succ enough) remaining data)

end Holds

end Chain
