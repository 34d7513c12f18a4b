import Mathlib.Data.UInt
import ZSystem.Shared.Holders
import ZSystem.Shared.Transition

set_option autoImplicit false

/-!
# Families of semaphore handles

The handles that come from one `zs__semaphore_create` share a counter and a kernel set. An operation holds
a duplicate of its own while it is under way, and the last destruction removes the set with `IPC_RMID`.
-/

namespace ZSystem.Semaphore

open Transition

/-! ## Handles, families and kernel sets -/

/-- A handle of the program, or the duplicate that an operation holds. -/
inductive Name where
  | user (number : Nat)
  | operation (number : Nat)
  deriving DecidableEq, Repr

/-- What the handles of a family share: `count`, `sem` and `*references`. -/
structure Family where
  count : UInt8
  sem : Int
  references : UInt32
  -- How often the family has issued `IPC_RMID`.
  removals : Nat

/-- Who has made a kernel set. -/
inductive Owner where
  | family (number : Nat)
  | other
  deriving DecidableEq, Repr

structure State where
  families : Nat -> Option Family
  next : Nat
  -- The live handles, and the destructions in front of their test and in front of their `semctl`.
  handles : Holders Name Nat
  testing : Holders Name Nat
  removing : Holders Name Nat
  sets : Int -> Option Owner
  -- Each `IPC_RMID`: the family that has issued it, and whose set it has removed.
  removed : List (Nat × Option Owner)

def State.start : State where
  families _ := none
  next := 0
  handles := .empty
  testing := .empty
  removing := .empty
  sets _ := none
  removed := []

def State.update (state : State) (family : Nat) (change : Family -> Family) : State :=
  { state with families := Function.update state.families family ((state.families family).map change) }

/-! ## `zs__semaphore_*` -/

/-- `kernel` is what `semget` returns. -/
def semaphoreCreate (count : UInt8) (kernel : Int) : Family :=
  { count := count, sem := if count ≠ 0 then kernel else 0, references := 1, removals := 0 }

def State.create (state : State) (name : Name) (count : UInt8) (kernel : Int) : State :=
  { state with
    families := Function.update state.families state.next (some (semaphoreCreate count kernel))
    next := state.next + 1
    handles := state.handles.add name (some state.next)
    sets :=
      if count ≠ 0 ∧ kernel ≠ -1 then Function.update state.sets kernel (some (.family state.next))
      else state.sets }

def State.duplicate (state : State) (name : Name) (family : Nat) : State :=
  { state.update family (fun shared => { shared with references := shared.references + 1 }) with
    handles := state.handles.add name (some family) }

/-- The first part of `zs__semaphore_destroy`. -/
def State.decrement (state : State) (name : Name) (family : Nat) : State :=
  { state.update family (fun shared => { shared with references := shared.references - 1 }) with
    handles := state.handles.remove name
    testing := state.testing.add name (some family) }

/-- The test of the counter in `zs__semaphore_destroy`. -/
def State.test (state : State) (name : Name) (family : Nat) (references : UInt32) : State :=
  { state with
    testing := state.testing.remove name
    removing := if references = 0 then state.removing.add name (some family) else state.removing }

/-- `semctl` with `IPC_RMID`, which fails where no set has the identifier. -/
def State.remove (state : State) (name : Name) (family : Nat) (sem : Int) : State :=
  { state.update family (fun shared => { shared with removals := shared.removals + 1 }) with
    removing := state.removing.remove name
    sets := Function.update state.sets sem none
    removed := state.removed ++ [(family, state.sets sem)] }

/-! ## Programs -/

inductive Op where
  | create (handle : Nat) (count : UInt8) (kernel : Int)
  | duplicate (handle source : Nat)
  /-- `zs__semaphore_op` up to its duplicate; whatever it does with that, it ends with its destruction. -/
  | operate (operation source : Nat)
  | decrement (name : Name)
  | test (name : Name)
  | remove (name : Name)
  /-- Sets of other programs come and go. -/
  | otherCreate (kernel : Int)
  | otherRemove (kernel : Int)
  deriving DecidableEq, Repr

def State.free (state : State) (name : Name) : Prop :=
  name ∉ state.handles.live ∧ name ∉ state.testing.live ∧ name ∉ state.removing.live

instance (state : State) (name : Name) : Decidable (state.free name) :=
  instDecidableAnd

/-- The family of a live handle. -/
def State.familyOf (state : State) (name : Name) : Option Nat :=
  if name ∈ state.handles.live then state.handles.target name else none

def State.duplicateOf (state : State) (name source : Name) : Option State :=
  if state.free name then (state.familyOf source).map fun family => state.duplicate name family else none

/-- An operation is disabled where it uses a handle that is not live or a name that is not free. -/
def step (state : State) : Op -> Option State
  | .create handle count kernel =>
      -- `semget` returns -1 or a new identifier.
      if state.free (.user handle) ∧ (kernel = -1 ∨ (0 ≤ kernel ∧ state.sets kernel = none)) then
        some (state.create (.user handle) count kernel)
      else none
  | .duplicate handle source => state.duplicateOf (.user handle) (.user source)
  | .operate operation source => state.duplicateOf (.operation operation) (.user source)
  | .decrement name => (state.familyOf name).map fun family => state.decrement name family
  | .test name =>
      if name ∈ state.testing.live then
        (state.testing.target name).bind fun family => (state.families family).map fun shared =>
          state.test name family shared.references
      else none
  | .remove name =>
      if name ∈ state.removing.live then
        (state.removing.target name).bind fun family => (state.families family).map fun shared =>
          state.remove name family shared.sem
      else none
  | .otherCreate kernel =>
      if 0 ≤ kernel ∧ state.sets kernel = none then
        some { state with sets := Function.update state.sets kernel (some .other) }
      else none
  | .otherRemove kernel =>
      if state.sets kernel = some .other then
        some { state with sets := Function.update state.sets kernel none }
      else none

/-! ## The law -/

/-- Live handles, destructions in front of their test and destructions in front of their `semctl`. -/
structure Numbers where
  live : Nat
  testing : Nat
  removing : Nat

def State.numbers (state : State) (family : Nat) : Numbers :=
  { live := state.handles.count family
    testing := state.testing.count family
    removing := state.removing.count family }

/--
The counter counts the live handles; `IPC_RMID` is issued at most once, not before the last handle is
gone, and then it is, or a destruction is on its way to it.
-/
structure Kept (family : Family) (numbers : Numbers) : Prop where
  counts : family.references.toNat = numbers.live
  once : family.removals ≤ 1
  late : family.removals = 1 -> numbers.live = 0
  done : numbers.live = 0 -> family.removals = 1 ∨ 0 < numbers.testing + numbers.removing

structure Owned (state : State) : Prop where
  kept : ∀ id family, state.families id = some family -> Kept family (state.numbers id)
  own : ∀ id owner, (id, owner) ∈ state.removed -> owner = none ∨ owner = some (.family id)

/--
A family does not get more live handles than its counter can hold; a destruction decrements the counter to
0 only while no other one of its family is in front of its test; and a family without semaphores issues
`IPC_RMID` only while no kernel set has the identifier 0.
-/
def Careful (state : State) : Op -> Prop
  | .duplicate _ source =>
      ∀ family, state.familyOf (.user source) = some family -> state.handles.count family < 2 ^ 32 - 1
  | .operate _ source =>
      ∀ family, state.familyOf (.user source) = some family -> state.handles.count family < 2 ^ 32 - 1
  | .decrement name =>
      ∀ family, state.familyOf name = some family -> state.handles.count family = 1 ->
        state.testing.count family = 0
  | .remove name =>
      ∀ id family, state.removing.target name = some id -> state.families id = some family ->
        family.count = 0 -> state.sets 0 = none
  | _ => True

end ZSystem.Semaphore
