import ZSystem.Wait.Elements
import ZSystem.Wait.Readers

set_option autoImplicit false

/-!
# `ZSWait`

Objects that make their wait set when they first need one and destroy it at their end. The copy and the
assignment are those of the compiler, which copy `wait_struct`.
-/

namespace ZSystem.ZSWait

open Chain Transition

/-! ## Memory and objects -/

/-- `struct zs__wait` without the memory that its elements lie in. -/
structure Block where
  maxNumber : UInt32
  timerNumber : UInt32
  sec : Int64
  microsec : Int64
  first : Nat
  last : Nat
  deriving DecidableEq, Repr

def Block.on (block : Block) (elements : Nat -> Option WaitNode) : WaitStruct :=
  { maxNumber := block.maxNumber, timerNumber := block.timerNumber, sec := block.sec, microsec := block.microsec,
    first := block.first, last := block.last, elements := elements }

def block (wait : WaitStruct) : Block :=
  { maxNumber := wait.maxNumber, timerNumber := wait.timerNumber, sec := wait.sec, microsec := wait.microsec,
    first := wait.first, last := wait.last }

structure State where
  -- The live objects, each with its `wait_struct`.
  objects : Nat -> Option Nat := fun _ => none
  waits : Nat -> Option Block := fun _ => none
  elements : Nat -> Option WaitNode := fun _ => none

/-- What `malloc` gives, and what it leaves in the fields that `zs__wait_create` does not set. -/
structure Malloc where
  wait : Nat
  element : Nat
  sec : Int64
  microsec : Int64
  deriving DecidableEq, Repr

/-- The loop of `zs__wait_destroy`; `none` where it reads freed memory or needs more tests. -/
def freeElements : Nat -> Nat -> (Nat -> Option WaitNode) -> Option (Nat -> Option WaitNode)
  | 0, _, _ => none
  | tests + 1, address, elements =>
      if address = 0 then some elements else
        (elements address).bind fun element =>
          freeElements tests element.next (Function.update elements address none)

def State.waitDestroy (state : State) (pointer tests : Nat) : Option State :=
  (state.waits pointer).bind fun block => (freeElements tests block.first state.elements).map fun elements =>
    { state with waits := Function.update state.waits pointer none, elements := elements }

/-- A function on the wait set that `pointer` points to. -/
def State.on (state : State) (pointer : Nat) (call : WaitStruct -> Option (UInt32 × WaitStruct)) :
    Option (UInt32 × State) :=
  (state.waits pointer).bind fun before => (call (before.on state.elements)).map fun (number, wait) =>
    (number, { state with
      waits := Function.update state.waits pointer (some (block wait))
      elements := wait.elements })

/-- `if(!wait_struct) wait_struct = zs__wait_create();` -/
def State.ensure (state : State) (object pointer : Nat) (malloc : Malloc) : Option (Nat × State) :=
  if pointer = 0 then
    if malloc.wait = 0 ∨ (state.waits malloc.wait).isSome then none
    else some (malloc.wait,
      { state with
        objects := Function.update state.objects object (some malloc.wait)
        waits := Function.update state.waits malloc.wait
          (some (block (WaitStruct.create malloc.sec malloc.microsec))) })
  else some (pointer, state)

/-! ## The members -/

def State.addTimer (state : State) (object pointer : Nat) (sec microsec : Int64) (malloc : Malloc) :
    Option (UInt32 × State) :=
  (state.ensure object pointer malloc).bind fun (pointer, state) =>
    state.on pointer fun wait => some (wait.addTimer sec microsec)

/-- A reader without a stream is not registered. -/
def State.addStreamReader (state : State) (object pointer : Nat) (stream : Option Readers.StreamReader)
    (malloc : Malloc) : Option (UInt32 × State) :=
  match stream with
  | none => some (0, state)
  | some stream => (state.ensure object pointer malloc).bind fun (pointer, state) =>
      state.on pointer fun wait =>
        match stream.getFdReader with
        | some getFd => wait.addStreamReaderFd malloc.element (getFd.call stream.endpoint)
        | none => some (0, wait)

/-- `operator()`. -/
def State.wait (state : State) (pointer tests : Nat) (answers : List Answer) : Option (UInt32 × State) :=
  if pointer = 0 then some (0, state)
  else state.on pointer fun wait => wait.perform tests (.wait answers)

/-- `~ZSWait`. -/
def State.destroy (state : State) (object pointer tests : Nat) : Option State :=
  (if pointer = 0 then some state else state.waitDestroy pointer tests).map fun state =>
    { state with objects := Function.update state.objects object none }

inductive Op where
  | construct (object : Nat)
  | addTimer (object : Nat) (sec microsec : Int64) (malloc : Malloc)
  | addStreamReader (object : Nat) (stream : Option Readers.StreamReader) (malloc : Malloc)
  | wait (object tests : Nat) (answers : List Answer)
  | copy (object source : Nat)
  | assign (target source : Nat)
  | destroy (object tests : Nat)
  deriving DecidableEq, Repr

/-- A call is not possible where an object is not live, an address is in use or freed memory is read. -/
def step (state : State) : Op -> Option State
  | .construct object =>
      if (state.objects object).isSome then none
      else some { state with objects := Function.update state.objects object (some 0) }
  | .addTimer object sec microsec malloc =>
      (state.objects object).bind fun pointer =>
        (state.addTimer object pointer sec microsec malloc).map Prod.snd
  | .addStreamReader object stream malloc =>
      (state.objects object).bind fun pointer =>
        (state.addStreamReader object pointer stream malloc).map Prod.snd
  | .wait object tests answers =>
      (state.objects object).bind fun pointer => (state.wait pointer tests answers).map Prod.snd
  | .copy object source =>
      if (state.objects object).isSome then none
      else (state.objects source).map fun pointer =>
        { state with objects := Function.update state.objects object (some pointer) }
  | .assign target source =>
      (state.objects target).bind fun _ => (state.objects source).map fun pointer =>
        { state with objects := Function.update state.objects target (some pointer) }
  | .destroy object tests =>
      (state.objects object).bind fun pointer => state.destroy object pointer tests

/-! ## Ownership -/

/-- Each wait set in memory has its elements at `addresses`, and there are no others. -/
structure Listed (waits : Nat -> Option Block) (elements : Nat -> Option WaitNode) (addresses : Nat -> List Nat) :
    Prop where
  holds : ∀ pointer block, waits pointer = some block ->
    ∃ contents, (block.on elements).Holds (addresses pointer) contents
  apart : ∀ one two address, (waits one).isSome -> (waits two).isSome ->
    address ∈ addresses one -> address ∈ addresses two -> one = two
  exact : ∀ address, (elements address).isSome ↔ ∃ pointer, (waits pointer).isSome ∧ address ∈ addresses pointer

/--
Every wait set in memory belongs to one live object, and every element to one of them. So each is freed at
the end of its object and nothing is left when the last object has gone.
-/
structure Owned (state : State) : Prop where
  valid : ∀ object pointer, state.objects object = some pointer -> pointer ≠ 0 -> (state.waits pointer).isSome
  single : ∀ one two pointer, state.objects one = some pointer -> state.objects two = some pointer ->
    pointer ≠ 0 -> one = two
  held : ∀ pointer, (state.waits pointer).isSome -> pointer ≠ 0 ∧ ∃ object, state.objects object = some pointer
  listed : ∃ addresses, Listed state.waits state.elements addresses

/-- Only an object without a wait set is copied, and an assignment changes nothing. -/
def Careful (state : State) : Op -> Prop
  | .copy _ source => state.objects source = some 0
  | .assign target source => state.objects target = state.objects source
  | _ => True

instance (state : State) : (op : Op) -> Decidable (Careful state op)
  | .copy _ source => inferInstanceAs (Decidable (state.objects source = some 0))
  | .assign target source => inferInstanceAs (Decidable (state.objects target = state.objects source))
  | .construct _ | .addTimer .. | .addStreamReader .. | .wait .. | .destroy .. => instDecidableTrue

/-! ## What the functions do to the memory -/

section Memory

variable {elements : Nat -> Option WaitNode} {addresses : List Nat} {first tests address : Nat}

theorem freeElements_spec (linked : Linked elements WaitNode.next first addresses) (enough : addresses.length < tests) :
    freeElements tests first elements = some fun address => if address ∈ addresses then none else elements address := by
  induction addresses generalizing first tests elements with
  | nil =>
      obtain ⟨rest, rfl⟩ := Nat.exists_eq_succ_of_ne_zero (Nat.ne_of_gt enough)
      obtain rfl : first = 0 := linked
      simp [freeElements]
  | cons head others ih =>
      obtain ⟨rest, rfl⟩ := Nat.exists_eq_succ_of_ne_zero (Nat.ne_of_gt (Nat.zero_lt_of_lt enough))
      have outside := (List.nodup_cons.mp (linked_nodup linked)).1
      obtain ⟨rfl, valid, node, read, remaining⟩ := linked
      have apart : Linked (Function.update elements first none) WaitNode.next node.next others :=
        segment_update outside remaining
      have later := ih apart (Nat.lt_of_succ_lt_succ enough)
      simp only [freeElements, valid, if_false, read, Option.bind_some, later, Option.some.injEq]
      funext other
      by_cases same : other = first <;> simp [same]

/-- More tests do not change what the loop does. -/
theorem freeElements_linked (linked : Linked elements WaitNode.next first addresses)
    {freed : Nat -> Option WaitNode} (done : freeElements tests first elements = some freed) :
    freed = fun address => if address ∈ addresses then none else elements address := by
  induction addresses generalizing first tests elements with
  | nil =>
      obtain rfl : first = 0 := linked
      cases tests with
      | zero => cases done
      | succ tests => simpa [freeElements, eq_comm] using done
  | cons head others ih =>
      have outside := (List.nodup_cons.mp (linked_nodup linked)).1
      obtain ⟨rfl, valid, node, read, remaining⟩ := linked
      cases tests with
      | zero => cases done
      | succ tests =>
          simp only [freeElements, valid, if_false, read, Option.bind_some] at done
          rw [ih (segment_update outside remaining) done]
          funext other
          by_cases same : other = first <;> simp [same]

variable {wait after : WaitStruct} {fd : Int} {number : UInt32}

/-- Only the new element and the one that was the last change. -/
theorem addStreamReaderFd_elements (added : wait.addStreamReaderFd address fd = some (number, after)) {other : Nat} :
    (other ≠ address -> other ≠ wait.last -> after.elements other = wait.elements other) ∧
      ((after.elements other).isSome ↔ other = address ∨ (wait.elements other).isSome) := by
  obtain ⟨valid, unused⟩ := WaitStruct.addStreamReaderFd_fresh added
  unfold WaitStruct.addStreamReaderFd at added
  rw [if_neg (by simp [valid, unused])] at added
  dsimp only at added
  split_ifs at added with last
  · obtain ⟨node, read, same⟩ := Option.map_eq_some_iff.mp added
    cases same
    refine ⟨fun fresh old => by simp [fresh, old], ?_⟩
    by_cases tail : other = wait.last
    · by_cases same : wait.last = address
      · simp [tail, same]
      · rw [Function.update_of_ne same] at read
        simp [tail, read]
    · by_cases same : other = address
      · subst same
        simp [tail]
      · simp [same, tail]
  · cases added
    refine ⟨fun fresh _ => by simp [fresh], ?_⟩
    by_cases same : other = address <;> simp [same]

end Memory

section Listed

variable {waits : Nat -> Option Block} {elements freed : Nat -> Option WaitNode} {addresses : Nat -> List Nat}
  {pointer tests address : Nat} {before : Block} {after : WaitStruct} {fd : Int} {number : UInt32}

theorem Listed.create (listed : Listed waits elements addresses) (unused : waits pointer = none) (sec microsec : Int64) :
    Listed (Function.update waits pointer (some (block (WaitStruct.create sec microsec)))) elements
      (Function.update addresses pointer []) := by
  refine ⟨fun other made found => ?_, fun one two address first second here there => ?_, fun address => ?_⟩
  · by_cases same : other = pointer
    · subst same
      obtain rfl : block (WaitStruct.create sec microsec) = made := by simpa using found
      exact ⟨[], by simpa using ⟨rfl, rfl, rfl⟩⟩
    · simpa [same] using listed.holds other made (by simpa [same] using found)
  · have differ {other : Nat} (member : address ∈ Function.update addresses pointer [] other) : other ≠ pointer :=
      fun same => by simp [same] at member
    have left := differ here
    have right := differ there
    simp only [left, right, ne_eq, not_false_eq_true, Function.update_of_ne] at first second here there
    exact listed.apart one two address first second here there
  · rw [listed.exact]
    refine exists_congr fun other => ?_
    by_cases same : other = pointer
    · subst same
      simp [unused]
    · simp [same]

/-- A function that leaves the elements alone. -/
theorem Listed.of_block (listed : Listed waits elements addresses) (known : waits pointer = some before)
    {next : Block} (keeps : ∀ contents, (before.on elements).Holds (addresses pointer) contents ->
      (next.on elements).Holds (addresses pointer) contents) :
    Listed (Function.update waits pointer (some next)) elements addresses := by
  have present (other : Nat) : (Function.update waits pointer (some next) other).isSome ↔ (waits other).isSome := by
    by_cases same : other = pointer
    · subst same
      simp [known]
    · simp [same]
  refine ⟨fun other made found => ?_, ?_, ?_⟩
  · by_cases same : other = pointer
    · subst same
      obtain rfl : next = made := by simpa using found
      obtain ⟨contents, holds⟩ := listed.holds other before known
      exact ⟨contents, keeps contents holds⟩
    · exact listed.holds other made (by simpa [same] using found)
  · simpa only [present] using listed.apart
  · simpa only [present] using listed.exact

/-- A list whose elements have not changed. -/
theorem holds_elsewhere {other : Block} {list : List Nat} {contents : List WaitElement}
    (holds : (other.on elements).Holds list contents) (same : ∀ address ∈ list, freed address = elements address) :
    (other.on freed).Holds list contents :=
  ⟨segment_frame same holds.linked, holds.last,
    (List.map_congr_left fun address member => by
      rw [show (other.on freed).elements = freed from rfl, same address member]
      rfl).trans holds.data⟩

theorem Listed.append (listed : Listed waits elements addresses) (known : waits pointer = some before)
    (added : (before.on elements).addStreamReaderFd address fd = some (number, after)) :
    Listed (Function.update waits pointer (some (block after))) after.elements
      (Function.update addresses pointer (addresses pointer ++ [address])) := by
  obtain ⟨valid, unused⟩ := WaitStruct.addStreamReaderFd_fresh added
  obtain ⟨contents, holds⟩ := listed.holds pointer before known
  obtain ⟨grown, again, held, -⟩ := WaitStruct.addStreamReaderFd_spec holds fd valid unused
  obtain ⟨-, rfl⟩ := Prod.mk.inj (Option.some.inj (added.symm.trans again))
  have kept {other : Nat} := @addStreamReaderFd_elements address _ _ fd number added other
  have new (other : Nat) (present : (waits other).isSome) : address ∉ addresses other := fun member => by
    have allocated := (listed.exact address).mpr ⟨other, present, member⟩
    change elements address = none at unused
    simp [unused] at allocated
  have present (other : Nat) :
      (Function.update waits pointer (some (block after)) other).isSome ↔ (waits other).isSome := by
    by_cases same : other = pointer
    · subst same
      simp [known]
    · simp [same]
  have mine : (waits pointer).isSome := by simp [known]
  have member (other : Nat) (there : (waits other).isSome) (one : Nat) :
      one ∈ Function.update addresses pointer (addresses pointer ++ [address]) other ↔
        one ∈ addresses other ∨ (other = pointer ∧ one = address) := by
    by_cases same : other = pointer
    · subst same
      simp
    · simp [same]
  refine ⟨fun other made found => ?_, fun one two visited first second here there => ?_, fun visited => ?_⟩
  · by_cases same : other = pointer
    · subst same
      obtain rfl : block after = made := by simpa using found
      exact ⟨_, by rw [Function.update_self]; exact held⟩
    · have old : waits other = some made := by simpa [same] using found
      obtain ⟨others, list⟩ := listed.holds other made old
      have there : (waits other).isSome := by simp [old]
      refine ⟨others, ?_⟩
      rw [Function.update_of_ne same]
      refine holds_elsewhere list fun visited inside => kept.1 (fun equal => new other there (equal ▸ inside)) ?_
      -- The last element of this wait set is in no other list.
      intro equal
      have last : before.last ≠ 0 := fun null => (segment_allocated list.linked inside).1 (equal.trans null)
      exact same (listed.apart other pointer visited there mine inside
        (equal ▸ (Chain.Holds.last_allocated holds last).1))
  · rw [present] at first second
    rw [member one first] at here
    rw [member two second] at there
    obtain here | ⟨left, equal⟩ := here <;> obtain there | ⟨right, also⟩ := there
    · exact listed.apart one two visited first second here there
    · exact absurd here (also ▸ new one first)
    · exact absurd there (equal ▸ new two second)
    · exact left.trans right.symm
  · rw [kept.2]
    change visited = address ∨ (elements visited).isSome ↔ _
    rw [listed.exact]
    constructor
    · rintro (rfl | ⟨other, there, inside⟩)
      · exact ⟨pointer, (present _).mpr mine, (member _ mine _).mpr (Or.inr ⟨rfl, rfl⟩)⟩
      · exact ⟨other, (present _).mpr there, (member _ there _).mpr (Or.inl inside)⟩
    · rintro ⟨other, there, inside⟩
      rw [present] at there
      obtain inside | ⟨-, rfl⟩ := (member other there visited).mp inside
      · exact Or.inr ⟨other, there, inside⟩
      · exact Or.inl rfl

theorem Listed.destroy (listed : Listed waits elements addresses) (known : waits pointer = some before)
    (done : freeElements tests before.first elements = some freed) :
    Listed (Function.update waits pointer none) freed addresses := by
  obtain ⟨contents, holds⟩ := listed.holds pointer before known
  obtain rfl := freeElements_linked holds.linked done
  have mine : (waits pointer).isSome := by simp [known]
  have left {other : Nat} (present : (Function.update waits pointer none other).isSome) :
      other ≠ pointer ∧ (waits other).isSome := by
    by_cases same : other = pointer
    · simp [same] at present
    · exact ⟨same, by simpa [same] using present⟩
  refine ⟨fun other made found => ?_, fun one two address first second => ?_, fun address => ?_⟩
  · obtain ⟨differ, there⟩ := left (by simp [found] : (Function.update waits pointer none other).isSome)
    obtain ⟨others, list⟩ := listed.holds other made (by simpa [differ] using found)
    refine ⟨others, holds_elsewhere list fun address inside => if_neg fun also => ?_⟩
    exact differ (listed.apart other pointer address there mine inside also)
  · exact listed.apart one two address (left first).2 (left second).2
  · by_cases inside : address ∈ addresses pointer
    · simp only [inside, if_true, Option.isSome_none, Bool.false_eq_true, false_iff]
      rintro ⟨other, present, also⟩
      obtain ⟨differ, there⟩ := left present
      exact differ (listed.apart other pointer address there mine also inside)
    · simp only [inside, if_false]
      change (elements address).isSome ↔ _
      rw [listed.exact]
      refine exists_congr fun other => ?_
      by_cases same : other = pointer
      · subst same
        simp [inside]
      · simp [same]

end Listed

/-! ## What the members do to the objects -/

section Members

variable {state next : State} {object pointer target : Nat} {number : UInt32} {malloc : Malloc}

theorem on_parts {call : WaitStruct -> Option (UInt32 × WaitStruct)}
    (done : state.on pointer call = some (number, next)) :
    ∃ before wait, state.waits pointer = some before ∧ call (before.on state.elements) = some (number, wait) ∧
      next = { state with
        waits := Function.update state.waits pointer (some (block wait))
        elements := wait.elements } := by
  obtain ⟨before, known, called⟩ := Option.bind_eq_some_iff.mp done
  obtain ⟨⟨result, wait⟩, ran, same⟩ := Option.map_eq_some_iff.mp called
  cases same
  exact ⟨before, wait, known, ran, rfl⟩

/-- A function on a wait set makes and frees none. -/
theorem Owned.of_call (owned : Owned state) {before : Block} {wait : WaitStruct}
    (known : state.waits pointer = some before)
    (listed : ∃ addresses, Listed (Function.update state.waits pointer (some (block wait))) wait.elements addresses) :
    Owned { state with
      waits := Function.update state.waits pointer (some (block wait))
      elements := wait.elements } := by
  have present (other : Nat) :
      (Function.update state.waits pointer (some (block wait)) other).isSome ↔ (state.waits other).isSome := by
    by_cases same : other = pointer
    · subst same
      simp [known]
    · simp [same]
  refine ⟨fun object other points given => (present other).mpr (owned.valid object other points given), owned.single,
    fun other there => owned.held other ((present other).mp there), listed⟩

theorem Owned.addTimer (owned : Owned state) (sec microsec : Int64)
    (done : state.on pointer (fun wait => some (wait.addTimer sec microsec)) = some (number, next)) : Owned next := by
  obtain ⟨before, wait, known, called, rfl⟩ := on_parts done
  obtain ⟨addresses, listed⟩ := owned.listed
  have elements : wait.elements = state.elements := by
    obtain rfl : ((before.on state.elements).addTimer sec microsec).2 = wait := congrArg Prod.snd (Option.some.inj called)
    simp only [WaitStruct.addTimer]
    split_ifs <;> rfl
  refine owned.of_call known ⟨addresses, elements ▸ listed.of_block known fun contents holds => ?_⟩
  have kept := WaitStruct.addTimer_holds holds sec microsec
  rw [show ((before.on state.elements).addTimer sec microsec).2 = wait from congrArg Prod.snd (Option.some.inj called)]
    at kept
  exact elements ▸ kept

theorem Owned.append (owned : Owned state) {address : Nat} {fd : Int}
    (done : state.on pointer (fun wait => wait.addStreamReaderFd address fd) = some (number, next)) : Owned next := by
  obtain ⟨before, wait, known, called, rfl⟩ := on_parts done
  obtain ⟨addresses, listed⟩ := owned.listed
  exact owned.of_call known ⟨_, listed.append known called⟩

/-- A function that returns the wait set as it was. -/
theorem Owned.unchanged (owned : Owned state) {call : WaitStruct -> Option (UInt32 × WaitStruct)}
    (returns : ∀ wait number after, call wait = some (number, after) -> after = wait)
    (done : state.on pointer call = some (number, next)) : Owned next := by
  obtain ⟨before, wait, known, called, rfl⟩ := on_parts done
  obtain rfl := returns _ _ _ called
  obtain ⟨addresses, listed⟩ := owned.listed
  exact owned.of_call known ⟨addresses, listed.of_block known fun _ holds => holds⟩

theorem Owned.ensure (owned : Owned state) (points : state.objects object = some pointer)
    (done : state.ensure object pointer malloc = some (target, next)) : Owned next := by
  unfold State.ensure at done
  split_ifs at done with null used
  · cases done
    rw [not_or, Bool.not_eq_true, Option.isSome_eq_false_iff, Option.isNone_iff_eq_none] at used
    obtain ⟨addresses, listed⟩ := owned.listed
    have nobody (other : Nat) : state.objects other ≠ some malloc.wait := fun same => by
      simpa [used.2] using owned.valid other malloc.wait same used.1
    refine ⟨fun other pointer' same given => ?_, fun one two pointer' first second given => ?_, fun pointer' there => ?_,
      _, listed.create used.2 malloc.sec malloc.microsec⟩
    · by_cases new : pointer' = malloc.wait
      · simp [new]
      · have mine : other ≠ object := fun equal => by
          simp only [equal, Function.update_self, Option.some.injEq] at same
          exact new same.symm
        simpa [new] using owned.valid other pointer' (by simpa [mine] using same) given
    · by_cases left : one = object <;> by_cases right : two = object
      · rw [left, right]
      · simp only [left, right, ne_eq, not_false_eq_true, Function.update_self, Function.update_of_ne,
          Option.some.injEq] at first second
        exact absurd (first ▸ second) (nobody two)
      · simp only [left, right, ne_eq, not_false_eq_true, Function.update_self, Function.update_of_ne,
          Option.some.injEq] at first second
        exact absurd (second ▸ first) (nobody one)
      · simp only [left, right, ne_eq, not_false_eq_true, Function.update_of_ne] at first second
        exact owned.single one two pointer' first second given
    · by_cases new : pointer' = malloc.wait
      · exact ⟨new ▸ used.1, object, by simp [new]⟩
      · obtain ⟨given, other, same⟩ := owned.held pointer' (by simpa [new] using there)
        have mine : other ≠ object := fun equal => given (by
          rw [equal, points, Option.some.injEq] at same
          exact same.symm.trans null)
        exact ⟨given, other, by simp [mine, same]⟩
  · cases done
    exact owned

theorem Owned.destroy (owned : Owned state) {tests : Nat} (points : state.objects object = some pointer)
    (done : state.destroy object pointer tests = some next) : Owned next := by
  obtain ⟨freed, ran, rfl⟩ := Option.map_eq_some_iff.mp done
  have others {other pointer' : Nat} (same : Function.update state.objects object none other = some pointer') :
      other ≠ object ∧ state.objects other = some pointer' := by
    by_cases mine : other = object
    · simp [mine] at same
    · exact ⟨mine, by simpa [mine] using same⟩
  split_ifs at ran with null
  · cases ran
    refine ⟨fun other pointer' same => owned.valid other pointer' (others same).2, fun one two pointer' first second =>
      owned.single one two pointer' (others first).2 (others second).2, fun pointer' there => ?_, owned.listed⟩
    obtain ⟨given, other, same⟩ := owned.held pointer' there
    have mine : other ≠ object := fun equal => given (by
      rw [equal, points, Option.some.injEq] at same
      exact same.symm.trans null)
    exact ⟨given, other, by simp [mine, same]⟩
  · obtain ⟨before, known, freed⟩ := Option.bind_eq_some_iff.mp ran
    obtain ⟨elements, loop, rfl⟩ := Option.map_eq_some_iff.mp freed
    obtain ⟨addresses, listed⟩ := owned.listed
    refine ⟨fun other pointer' same given => ?_, fun one two pointer' first second =>
      owned.single one two pointer' (others first).2 (others second).2, fun pointer' there => ?_,
      addresses, listed.destroy known loop⟩
    · obtain ⟨mine, same⟩ := others same
      have differ : pointer' ≠ pointer := fun equal => mine (owned.single other object pointer (equal ▸ same) points null)
      simpa [differ] using owned.valid other pointer' same given
    · have differ : pointer' ≠ pointer := fun equal => by simp [equal] at there
      obtain ⟨given, other, same⟩ := owned.held pointer' (by simpa [differ] using there)
      have mine : other ≠ object := fun equal => differ (by
        rw [equal, points, Option.some.injEq] at same
        exact same.symm)
      exact ⟨given, other, by simp [mine, same]⟩

/-- One more object without a wait set. -/
theorem Owned.null (owned : Owned state) (fresh : state.objects object = none) :
    Owned { state with objects := Function.update state.objects object (some 0) } := by
  have others {other pointer : Nat} (given : pointer ≠ 0)
      (same : Function.update state.objects object (some 0) other = some pointer) : state.objects other = some pointer := by
    by_cases mine : other = object
    · simp only [mine, Function.update_self, Option.some.injEq] at same
      exact absurd same.symm given
    · simpa [mine] using same
  refine ⟨fun other pointer same given => owned.valid other pointer (others given same) given,
    fun one two pointer first second given => owned.single one two pointer (others given first) (others given second) given,
    fun pointer there => ?_, owned.listed⟩
  obtain ⟨given, other, same⟩ := owned.held pointer there
  have mine : other ≠ object := fun equal => by simp [equal, fresh] at same
  exact ⟨given, other, by simp [mine, same]⟩

end Members

/-! ## Programs -/

section Programs

variable {state next : State} {op : Op}

theorem Owned.start : Owned {} where
  valid _ _ found := by cases found
  single _ _ _ found := by cases found
  held _ found := by cases found
  listed := ⟨fun _ => [], ⟨(fun _ _ found => nomatch found), (fun _ _ _ found => nomatch found), fun _ => by simp⟩⟩

theorem Owned.step (owned : Owned state) (careful : Careful state op) (taken : step state op = some next) :
    Owned next := by
  cases op with
  | construct object =>
      simp only [ZSWait.step] at taken
      split_ifs at taken with live
      cases taken
      exact owned.null (by simpa using live)
  | addTimer object sec microsec malloc =>
      obtain ⟨pointer, points, added⟩ := Option.bind_eq_some_iff.mp taken
      obtain ⟨⟨number, _⟩, called, rfl⟩ := Option.map_eq_some_iff.mp added
      obtain ⟨⟨target, made⟩, ensured, called⟩ := Option.bind_eq_some_iff.mp called
      exact (owned.ensure points ensured).addTimer sec microsec called
  | addStreamReader object stream malloc =>
      obtain ⟨pointer, points, added⟩ := Option.bind_eq_some_iff.mp taken
      obtain ⟨⟨number, _⟩, called, rfl⟩ := Option.map_eq_some_iff.mp added
      cases stream with
      | none =>
          cases called
          exact owned
      | some stream =>
          obtain ⟨⟨target, made⟩, ensured, called⟩ := Option.bind_eq_some_iff.mp called
          have ready := owned.ensure points ensured
          cases function : stream.getFdReader with
          | none =>
              simp only [function] at called
              refine ready.unchanged (fun wait number after same => ?_) called
              cases same
              rfl
          | some getFd =>
              simp only [function] at called
              exact ready.append called
  | wait object tests answers =>
      obtain ⟨pointer, points, waited⟩ := Option.bind_eq_some_iff.mp taken
      obtain ⟨⟨number, _⟩, called, rfl⟩ := Option.map_eq_some_iff.mp waited
      simp only [State.wait] at called
      split_ifs at called
      · cases called
        exact owned
      · exact owned.unchanged (fun _ _ _ performed => WaitStruct.perform_wait performed) called
  | copy object source =>
      simp only [ZSWait.step] at taken
      split_ifs at taken with live
      rw [show state.objects source = some 0 from careful, Option.map_some, Option.some.injEq] at taken
      exact taken ▸ owned.null (by simpa using live)
  | assign target source =>
      obtain ⟨old, before, assigned⟩ := Option.bind_eq_some_iff.mp taken
      obtain ⟨pointer, points, rfl⟩ := Option.map_eq_some_iff.mp assigned
      have same : state.objects target = some pointer := careful.trans points
      rwa [← same, Function.update_eq_self]
  | destroy object tests =>
      obtain ⟨pointer, points, done⟩ := Option.bind_eq_some_iff.mp taken
      exact owned.destroy points done

/-- A wait set that is copied has two owners, and one that is overwritten has none. -/
theorem not_owned (owned : Owned state) (careless : ¬ Careful state op) (taken : step state op = some next) :
    ¬ Owned next := by
  intro after
  cases op with
  | copy object source =>
      simp only [ZSWait.step] at taken
      split_ifs at taken with live
      obtain ⟨pointer, points, rfl⟩ := Option.map_eq_some_iff.mp taken
      have given : pointer ≠ 0 := fun null => careless (points.trans (congrArg some null))
      have apart : source ≠ object := fun same => by simp [← same, points] at live
      exact apart (after.single source object pointer (by simp [apart, points]) (by simp) given)
  | assign target source =>
      obtain ⟨old, before, assigned⟩ := Option.bind_eq_some_iff.mp taken
      obtain ⟨pointer, points, rfl⟩ := Option.map_eq_some_iff.mp assigned
      have differ : old ≠ pointer := fun same => careless (before.trans (same ▸ points.symm))
      have apart : source ≠ target := fun same => differ (by
        rw [same, before, Option.some.injEq] at points
        exact points)
      by_cases null : pointer = 0
      · have given : old ≠ 0 := fun same => differ (same.trans null.symm)
        obtain ⟨-, other, same⟩ := after.held old (owned.valid target old before given)
        change Function.update state.objects target (some pointer) other = some old at same
        by_cases mine : other = target
        · rw [mine, Function.update_self, Option.some.injEq] at same
          exact differ same.symm
        · rw [Function.update_of_ne mine] at same
          exact mine (owned.single other target old same before given)
      · exact apart (after.single source target pointer (by simp [apart, points]) (by simp) null)
  | construct | addTimer | addStreamReader | wait | destroy => exact absurd trivial careless

/--
Every wait set has one owner throughout a program if and only if only objects without one are copied and no
assignment changes anything.
-/
theorem owned_iff_careful (program : List Op) (runs : (exec step {} program).isSome) :
    Throughout step Owned {} program ↔ Along step Careful {} program :=
  throughout_iff_along Owned (fun _ owned => owned) (fun _ _ _ owned careful taken => owned.step careful taken)
    (fun _ _ _ owned careless taken => not_owned owned careless taken) .start runs

/-- Two objects, of which the first gets a timer and two readers and the second is copied before it gets one. -/
def twoObjects : List Op :=
  [.construct 0, .addTimer 0 1 0 { wait := 1, element := 0, sec := 0, microsec := 0 },
    .addStreamReader 0 (some (Readers.createPipe 3 4)) { wait := 0, element := 1, sec := 0, microsec := 0 },
    .addStreamReader 0 (some (Readers.createPipe 5 6)) { wait := 0, element := 2, sec := 0, microsec := 0 },
    .construct 1, .copy 2 1,
    .addStreamReader 1 (some (Readers.createPipe 3 4)) { wait := 2, element := 3, sec := 0, microsec := 0 },
    .wait 0 3 [.failed 4, .ready [5]], .destroy 0 3, .destroy 2 0, .destroy 1 2]

theorem owned_iff_careful_twoObjects : Throughout step Owned {} twoObjects :=
  (owned_iff_careful twoObjects (by decide)).mpr (by decide)

/-- Then every destructor comes to its end, and with the last object the memory is empty. -/
theorem destructor_ends (program : List Op) {state : State} (run : exec step {} program = some state)
    (careful : Along step Careful {} program) :
    (∀ object, (state.objects object).isSome -> ∃ tests, (step state (.destroy object tests)).isSome) ∧
      ((∀ object, state.objects object = none) ->
        ∀ address, state.waits address = none ∧ state.elements address = none) := by
  have throughout := (owned_iff_careful program (by simp [run])).mpr careful
  have owned := throughout_final throughout run
  obtain ⟨addresses, listed⟩ := owned.listed
  refine ⟨fun object live => ?_, fun gone address => ?_⟩
  · obtain ⟨pointer, points⟩ := Option.isSome_iff_exists.mp live
    by_cases null : pointer = 0
    · exact ⟨0, by simp [step, points, State.destroy, null]⟩
    · obtain ⟨before, known⟩ := Option.isSome_iff_exists.mp (owned.valid object pointer points null)
      obtain ⟨contents, holds⟩ := listed.holds pointer before known
      have loop := freeElements_spec holds.linked (Nat.lt_succ_self _)
      refine ⟨(addresses pointer).length + 1, ?_⟩
      change freeElements _ before.first state.elements = _ at loop
      simp [step, points, State.destroy, null, State.waitDestroy, known, loop]
  · have none (pointer : Nat) : state.waits pointer = none := by
      by_contra some
      obtain ⟨-, object, points⟩ := owned.held pointer (Option.isSome_iff_ne_none.mpr some)
      simp [gone] at points
    refine ⟨none address, ?_⟩
    have absent := (listed.exact address).not.mpr (by simp [none])
    simpa using absent

theorem destructor_ends_twoObjects :
    ((exec step {} twoObjects).get (by decide)).waits 2 = none ∧
      ((exec step {} twoObjects).get (by decide)).elements 2 = none :=
  (destructor_ends twoObjects (Option.some_get (by decide)).symm (by decide)).2 (fun object =>
    match object with
    | 0 | 1 | 2 => by decide
    | _ + 3 => rfl) 2

end Programs

end ZSystem.ZSWait
