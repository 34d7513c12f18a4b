import Mathlib.Data.Finset.Card

set_option autoImplicit false

/-!
# Holders of shared objects

Finitely many live holders, each of which holds at most one object. Nothing here knows what they are.
-/

structure Holders (η ο : Type) where
  live : Finset η
  target : η -> Option ο

namespace Holders

variable {η ο : Type} {holders : Holders η ο} {holder other : η} {object : ο} {target : Option ο}

def empty : Holders η ο := { live := ∅, target := fun _ => none }

section Updates

variable [DecidableEq η]

def add (holders : Holders η ο) (holder : η) (target : Option ο) : Holders η ο :=
  { live := insert holder holders.live, target := Function.update holders.target holder target }

def remove (holders : Holders η ο) (holder : η) : Holders η ο :=
  { holders with live := holders.live.erase holder }

@[simp] theorem mem_add : other ∈ (holders.add holder target).live ↔ other = holder ∨ other ∈ holders.live :=
  Finset.mem_insert

@[simp] theorem mem_remove :
    other ∈ (holders.remove holder).live ↔ other ≠ holder ∧ other ∈ holders.live :=
  Finset.mem_erase

@[simp] theorem target_add_self : (holders.add holder target).target holder = target :=
  Function.update_self ..

theorem target_add_of_ne (differ : other ≠ holder) :
    (holders.add holder target).target other = holders.target other :=
  Function.update_of_ne differ ..

@[simp] theorem target_remove : (holders.remove holder).target other = holders.target other := rfl

end Updates

section Counts

variable [DecidableEq ο]

def held (holders : Holders η ο) (object : ο) : Finset η :=
  holders.live.filter fun holder => holders.target holder = some object

def count (holders : Holders η ο) (object : ο) : Nat := (holders.held object).card

theorem mem_held :
    holder ∈ holders.held object ↔ holder ∈ holders.live ∧ holders.target holder = some object :=
  Finset.mem_filter

theorem count_pos_iff :
    0 < holders.count object ↔ ∃ holder ∈ holders.live, holders.target holder = some object := by
  rw [count, Finset.card_pos]
  exact exists_congr fun _ => mem_held

end Counts

variable [DecidableEq η] [DecidableEq ο]

theorem held_add (fresh : holder ∉ holders.live) :
    (holders.add holder target).held object =
      if target = some object then insert holder (holders.held object) else holders.held object := by
  ext other
  by_cases same : other = holder
  · subst same
    split_ifs with bound <;> simp [mem_held, fresh, bound]
  · split_ifs <;> simp [mem_held, target_add_of_ne, same]

theorem count_add (target : Option ο) (object : ο) (fresh : holder ∉ holders.live) :
    (holders.add holder target).count object =
      holders.count object + if target = some object then 1 else 0 := by
  rw [count, held_add fresh]
  split_ifs
  · exact Finset.card_insert_of_notMem fun member => fresh (mem_held.mp member).1
  · rfl

theorem held_remove : (holders.remove holder).held object = (holders.held object).erase holder := by
  ext other
  simp [mem_held, and_assoc]

theorem count_remove (object : ο) (member : holder ∈ holders.live) :
    holders.count object =
      (holders.remove holder).count object + if holders.target holder = some object then 1 else 0 := by
  rw [count, count, held_remove]
  split_ifs with same
  · exact (Finset.card_erase_add_one (mem_held.mpr ⟨member, same⟩)).symm
  · rw [Finset.erase_eq_of_notMem fun inside => same (mem_held.mp inside).2, Nat.add_zero]

/-- An object that is held was held before, or is the one that the new holder holds. -/
theorem count_pos_of_add {object new : ο} (fresh : holder ∉ holders.live)
    (some : 0 < (holders.add holder (some new)).count object) : object = new ∨ 0 < holders.count object := by
  rw [count_add _ _ fresh] at some
  split_ifs at some with same
  · exact Or.inl (Option.some.inj same).symm
  · exact Or.inr some

theorem count_pos_of_remove {object : ο} (some : 0 < (holders.remove holder).count object) :
    0 < holders.count object := by
  obtain ⟨other, live, target⟩ := count_pos_iff.mp some
  exact count_pos_iff.mpr ⟨other, (mem_remove.mp live).2, target⟩

end Holders
