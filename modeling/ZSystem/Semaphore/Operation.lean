import Mathlib.Logic.Function.Iterate
import ZSystem.Semaphore.Families

set_option autoImplicit false

/-!
# One `zs__semaphore_op`

The operation duplicates its handle, prepares a `struct sembuf` and a timeout, calls `semtimedop` in a
loop and destroys its duplicate. What the kernel answers comes from outside.
-/

namespace ZSystem.Semaphore.Operation

open Transition

/-! ## The code -/

inductive Errno where
  | eintr
  | eagain
  | other (number : Nat)
  deriving DecidableEq, Repr

inductive Outcome where
  | success
  | failed (errno : Errno)
  deriving DecidableEq, Repr

structure Call where
  semId : UInt8
  value : Int32
  sec : UInt64
  nanoSec : UInt64
  deriving DecidableEq, Repr

structure SemBuf where
  semNum : UInt16
  semOp : Int16
  semFlg : Int16
  deriving DecidableEq, Repr

structure Timespec where
  tvSec : Int64
  tvNsec : Int64
  deriving DecidableEq, Repr

inductive PC where
  | duplicate
  | guard
  | reject
  | timeout
  | sembuf
  -- The test of `a_timeout` in the loop, inside `semtimedop`, and the body of the loop.
  | test
  | kernel
  | failed (errno : Errno)
  | destroy
  | returned (result : Int32)
  deriving DecidableEq, Repr

structure Local where
  pc : PC
  shared : Family
  timeoutPtr : Option Timespec
  -- `a_timeout`
  timedOut : Int32
  sb : SemBuf
  -- `none` is the 0 that `last_errno` starts with.
  lastErrno : Option Errno
  -- How many answers the kernel has given.
  answered : Nat

def Local.start (shared : Family) : Local where
  pc := .duplicate
  shared := shared
  timeoutPtr := none
  timedOut := 0
  sb := { semNum := 0, semOp := 0, semFlg := 0 }
  lastErrno := none
  answered := 0

def semaphoreDuplicate (shared : Family) : Family :=
  { shared with references := shared.references + 1 }

def semaphoreDestroy (shared : Family) : Family :=
  { shared with
    references := shared.references - 1
    removals := if shared.references - 1 = 0 then shared.removals + 1 else shared.removals }

def Local.afterError (op : Local) (errno : Errno) : Local :=
  if some errno ≠ op.lastErrno then
    match errno with
    | .eintr => op
    | .eagain => { op with timedOut := -1 }
    | .other _ => { op with lastErrno := some errno }
  else op

/-- A step of the operation itself; inside `semtimedop` it has none. -/
def Local.own (call : Call) (op : Local) : Option Local :=
  match op.pc with
  | .duplicate => some { op with shared := semaphoreDuplicate op.shared, pc := .guard }
  | .guard =>
      some { op with pc := if op.shared.count ≤ call.semId ∨ call.value = 0 then .reject else .timeout }
  | .reject => some { op with shared := semaphoreDestroy op.shared, pc := .returned (-2) }
  | .timeout =>
      some { op with
        timeoutPtr :=
          if call.sec = 0 ∧ call.nanoSec = 0 then none
          else some { tvSec := call.sec.toInt64, tvNsec := call.nanoSec.toInt64 }
        timedOut := 0
        pc := .sembuf }
  | .sembuf =>
      some { op with
        -- A `short` gets the value of an `int`.
        sb := { semNum := call.semId.toUInt16, semOp := call.value.toInt16, semFlg := 0 }
        pc := .test }
  | .test => some { op with pc := if op.timedOut = 0 then .kernel else .destroy }
  | .kernel => none
  | .failed errno => some { op.afterError errno with pc := .test }
  | .destroy => some { op with shared := semaphoreDestroy op.shared, pc := .returned op.timedOut }
  | .returned _ => none

/-- What it hands to `semtimedop`; the last argument there is 0. -/
def Local.request (op : Local) : SemBuf × Option Timespec :=
  (op.sb, none)

/-- Where the loop goes on: behind it, or into its body with -1. -/
def Outcome.place : Outcome -> PC
  | .success => .destroy
  | .failed errno => .failed errno

def Local.answer (op : Local) (outcome : Outcome) : Option Local :=
  if op.pc = .kernel then some { op with answered := op.answered + 1, pc := outcome.place } else none

def Accepted (call : Call) (shared : Family) : Prop :=
  call.semId < shared.count ∧ call.value ≠ 0

instance (call : Call) (shared : Family) : Decidable (Accepted call shared) :=
  instDecidableAnd

/-- The operation in front of its test, as the preparation leaves it. -/
def Local.prepared (call : Call) (shared : Family) : Local where
  pc := .test
  shared := semaphoreDuplicate shared
  timeoutPtr :=
    if call.sec = 0 ∧ call.nanoSec = 0 then none
    else some { tvSec := call.sec.toInt64, tvNsec := call.nanoSec.toInt64 }
  timedOut := 0
  sb := { semNum := call.semId.toUInt16, semOp := call.value.toInt16, semFlg := 0 }
  lastErrno := none
  answered := 0

@[simp] theorem semaphoreDestroy_duplicate (shared : Family) :
    (semaphoreDestroy (semaphoreDuplicate shared)).references = shared.references := by
  simp [semaphoreDestroy, semaphoreDuplicate]

/-! ## Against a kernel whose answers are fixed in advance -/

section Outcomes

variable (call : Call) (shared : Family) (outcomes : Nat -> Outcome)

def advance (op : Local) : Local :=
  ((op.own call).or (op.answer (outcomes op.answered))).getD op

def after (steps : Nat) : Local :=
  (advance call outcomes)^[steps] (.start shared)

def OverEintr (count : Nat) : Prop :=
  ∀ i < count, outcomes i = .failed .eintr

/-- What the comment at the declaration says about the results. -/
def documented : Outcome -> Int32
  | .success => 0
  | .failed .eagain => -1
  | .failed _ => -2

/-- The loop goes on only over `EINTR`, and the call reports the first other answer as documented. -/
structure EndsOnErrors : Prop where
  goesOn : ∀ steps, (after call shared outcomes steps).pc = .kernel ->
    OverEintr outcomes (after call shared outcomes steps).answered
  ends : Accepted call shared -> ∀ count, OverEintr outcomes count -> outcomes count ≠ .failed .eintr ->
    ∃ steps, (after call shared outcomes steps).pc = .returned (documented (outcomes count)) ∧
      (after call shared outcomes steps).answered = count + 1 ∧
      (after call shared outcomes steps).shared.references = shared.references

variable {call shared outcomes}

theorem after_add (more steps : Nat) :
    after call shared outcomes (more + steps) = (advance call outcomes)^[more] (after call shared outcomes steps) :=
  Function.iterate_add_apply _ more steps _

theorem after_prepared (accepted : Accepted call shared) :
    after call shared outcomes 4 = .prepared call shared := by
  have passes : ¬ (shared.count ≤ call.semId ∨ call.value = 0) := by
    rintro (beyond | zero)
    · exact absurd accepted.1 (UInt8.not_lt.mpr beyond)
    · exact accepted.2 zero
  simp [after, advance, Local.own, Local.start, Local.prepared, semaphoreDuplicate, passes]

theorem after_eintr (accepted : Accepted call shared) {count : Nat} (retried : OverEintr outcomes count) :
    after call shared outcomes (3 * count + 4) = { Local.prepared call shared with answered := count } := by
  induction count with
  | zero => exact after_prepared accepted
  | succ count ih =>
      have eintr : outcomes count = .failed .eintr := retried count (Nat.lt_succ_self count)
      have before := ih fun i below => retried i (Nat.lt_succ_of_lt below)
      rw [show 3 * (count + 1) + 4 = 3 + (3 * count + 4) by omega, after_add, before]
      simp [advance, Local.own, Local.answer, Outcome.place, Local.afterError, Local.prepared, eintr]

/-- An operation in front of its test that has met only `EINTR` so far, or that has not met it yet. -/
def Follows (call : Call) (shared : Family) (outcomes : Nat -> Outcome) (op : Local) : Prop :=
  op.shared.count = shared.count ∧ op.lastErrno = none ∧
    match op.pc with
    | .duplicate | .guard => op.answered = 0
    | .timeout | .sembuf => Accepted call shared ∧ op.answered = 0
    | .test => Accepted call shared ∧ (op.timedOut = 0 -> OverEintr outcomes op.answered)
    | .kernel => Accepted call shared ∧ OverEintr outcomes op.answered
    | .failed errno =>
        Accepted call shared ∧ ∃ count, op.answered = count + 1 ∧ outcomes count = .failed errno ∧
          OverEintr outcomes count
    | .reject | .destroy | .returned _ => True

theorem Follows.advance
    (first : Accepted call shared -> ∀ count number, OverEintr outcomes count ->
      outcomes count ≠ .failed (.other number))
    {op : Local} (follows : Follows call shared outcomes op) :
    Follows call shared outcomes (advance call outcomes op) := by
  obtain ⟨pc, family, timeoutPtr, timedOut, sb, lastErrno, answered⟩ := op
  obtain ⟨count, clean, place⟩ := follows
  simp only at count clean place
  cases pc with
  | duplicate => exact ⟨count, clean, place⟩
  | guard =>
      by_cases refused : shared.count ≤ call.semId ∨ call.value = 0
      · simp [Operation.advance, Local.own, Follows, refused, count, clean]
      · obtain ⟨within, nonzero⟩ := not_or.mp refused
        have accepted : Accepted call shared := ⟨UInt8.not_le.mp within, nonzero⟩
        simp [Operation.advance, Local.own, Follows, refused, count, clean, accepted, place]
  | reject => exact ⟨count, clean, trivial⟩
  | timeout => exact ⟨count, clean, place⟩
  | sembuf =>
      obtain ⟨accepted, rfl⟩ := place
      simp [Operation.advance, Local.own, Follows, OverEintr, count, clean, accepted]
  | test =>
      by_cases again : timedOut = 0
      · simpa [Operation.advance, Local.own, Follows, again, count, clean, place.1] using place.2 again
      · simp [Operation.advance, Local.own, Follows, again, count, clean]
  | kernel =>
      cases heard : outcomes answered with
      | success => simp [Operation.advance, Local.own, Local.answer, Outcome.place, Follows, heard, count, clean]
      | failed errno =>
          simp [Operation.advance, Local.own, Local.answer, Outcome.place, Follows, heard, count, clean, place.1, place.2]
  | failed errno =>
      obtain ⟨accepted, before, rfl, heard, retried⟩ := place
      cases errno with
      | eintr =>
          have still : OverEintr outcomes (before + 1) := fun i below => by
            rcases Nat.lt_succ_iff_lt_or_eq.mp below with earlier | rfl
            · exact retried i earlier
            · exact heard
          simp [Operation.advance, Local.own, Local.afterError, Follows, count, clean, accepted, still]
      | eagain => simp [Operation.advance, Local.own, Local.afterError, Follows, count, clean, accepted]
      | other number => exact absurd heard (first accepted before number retried)
  | destroy => exact ⟨count, clean, trivial⟩
  | returned result => exact ⟨count, clean, trivial⟩

theorem follows_after
    (first : Accepted call shared -> ∀ count number, OverEintr outcomes count ->
      outcomes count ≠ .failed (.other number)) (steps : Nat) :
    Follows call shared outcomes (after call shared outcomes steps) := by
  induction steps with
  | zero => exact ⟨rfl, rfl, rfl⟩
  | succ steps ih =>
      rw [Nat.add_comm, after_add]
      exact ih.advance first

theorem semaphoreOp_endsOnErrors_iff (call : Call) (shared : Family) (outcomes : Nat -> Outcome) :
    EndsOnErrors call shared outcomes ↔
      (Accepted call shared -> ∀ count number, OverEintr outcomes count ->
        outcomes count ≠ .failed (.other number)) := by
  constructor
  · intro ends accepted count number retried other
    -- The loop is in front of `semtimedop` again, and it has heard another error.
    have again : after call shared outcomes (4 + (3 * count + 4)) =
        { Local.prepared call shared with
          pc := .kernel, answered := count + 1, lastErrno := some (.other number) } := by
      rw [after_add, after_eintr accepted retried]
      simp [advance, Local.own, Local.answer, Outcome.place, Local.afterError, Local.prepared, other]
    have heard := ends.goesOn _ (congrArg Local.pc again)
    rw [again] at heard
    have eintr := heard count (Nat.lt_succ_self count)
    simp [other] at eintr
  · intro first
    refine ⟨fun steps inside => ?_, fun accepted count retried different => ?_⟩
    · have follows := follows_after first steps
      simp only [Follows, inside] at follows
      exact follows.2.2.2
    · cases heard : outcomes count with
      | success =>
          refine ⟨3 + (3 * count + 4), ?_⟩
          rw [after_add, after_eintr accepted retried]
          simp [advance, Local.own, Local.answer, Outcome.place, Local.prepared, documented, heard]
      | failed errno =>
          cases errno with
          | eintr => exact absurd heard different
          | eagain =>
              refine ⟨5 + (3 * count + 4), ?_⟩
              rw [after_add, after_eintr accepted retried]
              simp [advance, Local.own, Local.answer, Outcome.place, Local.afterError, Local.prepared, documented, heard]
          | other number => exact absurd heard (first accepted count number retried)

end Outcomes

/-- Every `semtimedop` fails with `EIDRM`; the call that waits on the removed set never returns. -/
theorem endsOnErrors_fails :
    ¬ EndsOnErrors { semId := 0, value := -1, sec := 0, nanoSec := 0 }
      { count := 1, sem := 7, references := 1, removals := 0 } (fun _ => .failed (.other 43)) := by
  intro ends
  have heard := ends.goesOn 8 (by decide) 0 (by decide)
  simp at heard

/-! ## Against the semaphore -/

/-- The largest value of a semaphore, `SEMVMX`. -/
def semvmx : Nat :=
  32767

abbrev SemValue :=
  { value : Nat // value ≤ semvmx }

/-- The new value where `semtimedop` can perform the operation at once; else it waits or fails. -/
def performs (semOp : Int16) (value : SemValue) : Option SemValue :=
  if semOp = 0 then
    if value.val = 0 then some value else none
  else if fits : 0 ≤ (value.val : Int) + semOp.toInt ∧ (value.val : Int) + semOp.toInt ≤ semvmx then
    some ⟨((value.val : Int) + semOp.toInt).toNat, by omega⟩
  else none

theorem performs_change {semOp : Int16} {value next : SemValue} (done : performs semOp value = some next) :
    (next.val : Int) = value.val + semOp.toInt := by
  unfold performs at done
  split at done
  case isTrue zero =>
    split at done <;> simp_all
  case isFalse =>
    split at done
    case isTrue fits =>
      cases done
      simp only
      omega
    case isFalse => cases done

structure State where
  op : Local
  value : SemValue
  -- By how much the call has changed the value so far.
  change : Int
  -- In nanoseconds.
  clock : Nat
  -- When the call has entered `semtimedop`, and whether the value has been sufficient since.
  entered : Nat
  sufficed : Bool

def State.start (shared : Family) (value : SemValue) : State where
  op := .start shared
  value := value
  change := 0
  clock := 0
  entered := 0
  sufficed := false

inductive Act where
  | own
  -- The kernel performs the operation.
  | perform
  | fail (errno : Errno)
  -- Others change the value.
  | change (value : SemValue)
  | tick
  deriving DecidableEq, Repr

def Call.suffices (call : Call) (value : SemValue) : Bool :=
  decide (0 ≤ (value.val : Int) + call.value.toInt)

def Timespec.nanoSeconds (timeout : Timespec) : Nat :=
  (timeout.tvSec.toInt * 1000000000 + timeout.tvNsec.toInt).toNat

variable (request : Local -> SemBuf × Option Timespec)

/-- The timeout that the call has given to the kernel is over. -/
def State.elapsed (state : State) : Bool :=
  (request state.op).2.any fun timeout => decide (state.entered + timeout.nanoSeconds ≤ state.clock)

def step (call : Call) (state : State) : Act -> Option State
  | .own => (state.op.own call).map fun op =>
      if op.pc = .kernel then
        { state with op := op, entered := state.clock, sufficed := call.suffices state.value }
      else { state with op := op }
  | .perform =>
      (performs (request state.op).1.semOp state.value).bind fun value =>
        (state.op.answer .success).map fun op =>
          { state with op := op, value := value, change := state.change + (value.val - state.value.val) }
  | .fail errno =>
      if errno = .eagain ∧ ¬ state.elapsed request then none
      else (state.op.answer (.failed errno)).map fun op => { state with op := op }
  | .change value => some { state with value := value, sufficed := state.sufficed || call.suffices value }
  | .tick =>
      -- `semtimedop` does not block beyond the timeout it is given.
      if state.op.pc = .kernel ∧ state.elapsed request then none
      else some { state with clock := state.clock + 1 }

section Step

variable {request} {call : Call} {shared : Family} {state next : State}

/-- The loop has what the preparation has made. -/
structure Local.Ready (call : Call) (shared : Family) (op : Local) : Prop where
  accepted : Accepted call shared
  timeoutPtr : op.timeoutPtr = (Local.prepared call shared).timeoutPtr
  sb : op.sb = (Local.prepared call shared).sb

inductive Settled (call : Call) (change : Int) : Int32 -> Prop where
  | done (exact : change = call.value.toInt16.toInt) (above : -32768 < change) : Settled call change 0
  | timedOut (unchanged : change = 0) : Settled call change (-1)

def Local.At (call : Call) (shared : Family) (change : Int) (op : Local) : Prop :=
  match op.pc with
  | .duplicate | .guard => change = 0
  | .reject => ¬ Accepted call shared
  | .timeout => Accepted call shared ∧ change = 0
  | .sembuf =>
      Accepted call shared ∧ change = 0 ∧ op.timedOut = 0 ∧
        op.timeoutPtr = (Local.prepared call shared).timeoutPtr
  | .test => op.Ready call shared ∧ change = 0 ∧ (op.timedOut = 0 ∨ op.timedOut = -1)
  | .kernel | .failed _ => op.Ready call shared ∧ change = 0 ∧ op.timedOut = 0
  | .destroy => Accepted call shared ∧ Settled call change op.timedOut
  | .returned result =>
      (¬ Accepted call shared ∧ result = -2) ∨ (Accepted call shared ∧ Settled call change result)

theorem Local.At.own {op next : Local} {change : Int} (count : op.shared.count = shared.count)
    (place : op.At call shared change) (taken : op.own call = some next) :
    next.shared.count = shared.count ∧ next.At call shared change := by
  obtain ⟨pc, family, timeoutPtr, timedOut, sb, lastErrno, answered⟩ := op
  simp only at count
  cases pc with
  | duplicate =>
      cases taken
      exact ⟨count, place⟩
  | guard =>
      cases taken
      refine ⟨count, ?_⟩
      by_cases refused : family.count ≤ call.semId ∨ call.value = 0
      · have rejected : ¬ Accepted call shared := by
          rintro ⟨within, nonzero⟩
          rw [← count] at within
          exact refused.elim (fun beyond => UInt8.not_lt.mpr beyond within) nonzero
        simp [Local.At, refused, rejected]
      · obtain ⟨within, nonzero⟩ := not_or.mp refused
        have accepted : Accepted call shared := ⟨count ▸ UInt8.not_le.mp within, nonzero⟩
        simpa [Local.At, refused, accepted] using place
  | reject =>
      cases taken
      exact ⟨count, Or.inl ⟨place, rfl⟩⟩
  | timeout =>
      cases taken
      exact ⟨count, place.1, place.2, rfl, rfl⟩
  | sembuf =>
      cases taken
      obtain ⟨accepted, unchanged, zero, pointer⟩ := place
      exact ⟨count, ⟨accepted, pointer, rfl⟩, unchanged, Or.inl zero⟩
  | test =>
      cases taken
      obtain ⟨ready, unchanged, zero | stored⟩ := place
      · simp only at zero
        subst zero
        exact ⟨count, ⟨ready.accepted, ready.timeoutPtr, ready.sb⟩, unchanged, rfl⟩
      · simp only at stored
        subst stored
        exact ⟨count, ready.accepted, .timedOut unchanged⟩
  | kernel => cases taken
  | failed errno =>
      cases taken
      obtain ⟨ready, unchanged, zero⟩ := place
      simp only at zero
      unfold Local.afterError
      split
      case isTrue =>
        cases errno with
        | eintr => exact ⟨count, ⟨ready.accepted, ready.timeoutPtr, ready.sb⟩, unchanged, Or.inl zero⟩
        | eagain => exact ⟨count, ⟨ready.accepted, ready.timeoutPtr, ready.sb⟩, unchanged, Or.inr rfl⟩
        | other number => exact ⟨count, ⟨ready.accepted, ready.timeoutPtr, ready.sb⟩, unchanged, Or.inl zero⟩
      case isFalse => exact ⟨count, ⟨ready.accepted, ready.timeoutPtr, ready.sb⟩, unchanged, Or.inl zero⟩
  | destroy =>
      cases taken
      exact ⟨count, Or.inr place⟩
  | returned result => cases taken

/-- The operation in `state` is at one of its places, with the set it was called with. -/
def State.Sound (call : Call) (shared : Family) (state : State) : Prop :=
  state.op.shared.count = shared.count ∧ state.op.At call shared state.change

theorem answer_eq_some {op next : Local} {outcome : Outcome} (taken : op.answer outcome = some next) :
    op.pc = .kernel ∧ next = { op with answered := op.answered + 1, pc := outcome.place } := by
  unfold Local.answer at taken
  split at taken
  case isTrue inside => exact ⟨inside, (Option.some.inj taken).symm⟩
  case isFalse => cases taken

theorem step_cases {action : Act} (taken : step request call state action = some next) :
    (∃ op, state.op.own call = some op ∧
      next = if op.pc = .kernel then
          { state with op := op, entered := state.clock, sufficed := call.suffices state.value }
        else { state with op := op }) ∨
    (∃ value, state.op.pc = .kernel ∧ performs (request state.op).1.semOp state.value = some value ∧
      next = { state with
        op := { state.op with answered := state.op.answered + 1, pc := .destroy }
        value := value
        change := state.change + (value.val - state.value.val) }) ∨
    (∃ errno, state.op.pc = .kernel ∧ (errno = .eagain -> state.elapsed request = true) ∧
      next = { state with op := { state.op with answered := state.op.answered + 1, pc := .failed errno } }) ∨
    (∃ value, next = { state with value := value, sufficed := state.sufficed || call.suffices value }) ∨
    ((state.op.pc = .kernel -> state.elapsed request = false) ∧
      next = { state with clock := state.clock + 1 }) := by
  cases action with
  | own =>
      obtain ⟨op, moved, rfl⟩ := Option.map_eq_some_iff.mp taken
      exact Or.inl ⟨op, moved, rfl⟩
  | perform =>
      obtain ⟨value, done, answered⟩ := Option.bind_eq_some_iff.mp taken
      obtain ⟨op, heard, rfl⟩ := Option.map_eq_some_iff.mp answered
      obtain ⟨inside, rfl⟩ := answer_eq_some heard
      exact Or.inr (Or.inl ⟨value, inside, done, rfl⟩)
  | fail errno =>
      by_cases early : errno = .eagain ∧ ¬ state.elapsed request = true
      · simp [step, early] at taken
      · rw [step, if_neg early] at taken
        obtain ⟨op, heard, rfl⟩ := Option.map_eq_some_iff.mp taken
        obtain ⟨inside, rfl⟩ := answer_eq_some heard
        exact Or.inr (Or.inr (Or.inl ⟨errno, inside, fun eagain => by_contra fun not => early ⟨eagain, not⟩, rfl⟩))
  | change value =>
      cases taken
      exact Or.inr (Or.inr (Or.inr (Or.inl ⟨value, rfl⟩)))
  | tick =>
      by_cases elapsed : state.op.pc = .kernel ∧ state.elapsed request = true
      · simp [step, elapsed] at taken
      · rw [step, if_neg elapsed] at taken
        cases taken
        refine Or.inr (Or.inr (Or.inr (Or.inr ⟨fun inside => ?_, rfl⟩)))
        simpa [inside] using elapsed

theorem State.Sound.step (passes : ∀ op, (request op).1 = op.sb) {action : Act}
    (sound : state.Sound call shared) (taken : step request call state action = some next) :
    next.Sound call shared := by
  obtain ⟨count, place⟩ := sound
  obtain ⟨op, moved, rfl⟩ | ⟨value, inside, done, rfl⟩ | ⟨errno, inside, -, rfl⟩ | ⟨value, rfl⟩ | ⟨-, rfl⟩ :=
    step_cases taken
  · have after := place.own count moved
    split <;> exact after
  · simp only [Local.At, inside] at place
    obtain ⟨ready, unchanged, zero⟩ := place
    rw [passes, ready.sb] at done
    have exact := performs_change done
    have least := state.value.2
    simp only [Local.prepared, semvmx] at exact least
    refine ⟨count, ready.accepted, ?_⟩
    simp only [zero]
    exact .done (by omega) (by omega)
  · simp only [Local.At, inside] at place
    obtain ⟨ready, unchanged, zero⟩ := place
    exact ⟨count, ⟨ready.accepted, ready.timeoutPtr, ready.sb⟩, unchanged, zero⟩
  · exact ⟨count, place⟩
  · exact ⟨count, place⟩

theorem sound_of_reachable (passes : ∀ op, (request op).1 = op.sb) {value : SemValue}
    (reached : Reachable (step request call) (.start shared value) state) : state.Sound call shared := by
  have initial : (State.start shared value).Sound call shared := ⟨rfl, rfl⟩
  exact reached.invariant (State.Sound call shared) initial fun _ _ _ sound _ taken => sound.step passes taken

/-- The operation in `semtimedop` for the first time. -/
def State.inside (call : Call) (shared : Family) (value : SemValue) : State where
  op := { Local.prepared call shared with pc := .kernel }
  value := value
  change := 0
  clock := 0
  entered := 0
  sufficed := call.suffices value

theorem inside_reachable (accepted : Accepted call shared) (value : SemValue) :
    Reachable (step request call) (.start shared value) (.inside call shared value) := by
  have passes : ¬ (shared.count ≤ call.semId ∨ call.value = 0) := by
    rintro (beyond | zero)
    · exact absurd accepted.1 (UInt8.not_lt.mpr beyond)
    · exact accepted.2 zero
  refine reachable_of_exec [.own, .own, .own, .own, .own] ?_
  simp [exec, step, Local.own, Local.start, State.start, State.inside, Local.prepared,
    semaphoreDuplicate, passes]

/-! ## The amount -/

/-- A call that returns 0 has changed the value by its amount, and no call waits for zero. -/
structure State.Exact (call : Call) (state : State) : Prop where
  amount : state.op.pc = .returned 0 -> state.change = call.value.toInt
  zero : state.op.pc = .kernel -> state.op.request.1.semOp ≠ 0

theorem Settled.change_of_zero {change : Int} (settled : Settled call change 0) :
    change = call.value.toInt16.toInt ∧ -32768 < change := by
  generalize zero : (0 : Int32) = result at settled
  cases settled with
  | done exact above => exact ⟨exact, above⟩
  | timedOut => simp at zero

theorem exact_of_representable {value : SemValue}
    (represents : Accepted call shared ->
      (-32768 ≤ call.value.toInt ∧ call.value.toInt ≤ 32767) ∨ call.value.toInt % 65536 = 32768)
    (reached : Reachable (step Local.request call) (.start shared value) state) : state.Exact call := by
  obtain ⟨_, place⟩ := sound_of_reachable (fun _ => rfl) reached
  constructor
  · intro returned
    simp only [Local.At, returned] at place
    obtain ⟨_, impossible⟩ | ⟨accepted, settled⟩ := place
    · simp at impossible
    · obtain ⟨exact, above⟩ := settled.change_of_zero
      rw [Int32.toInt_toInt16, Int.bmod_def] at exact
      have := represents accepted
      omega
  · intro inside zero
    simp only [Local.At, inside] at place
    obtain ⟨ready, _, _⟩ := place
    have semOp : call.value.toInt16.toInt = 0 := by
      rw [Local.request, ready.sb] at zero
      exact congrArg Int16.toInt zero
    have nonzero : call.value.toInt ≠ 0 := fun none => ready.accepted.2 (Int32.toInt_inj.mp none)
    rw [Int32.toInt_toInt16, Int.bmod_def] at semOp
    have := represents ready.accepted
    omega

theorem performs_somewhere {semOp : Int16} (nonzero : semOp ≠ 0) (above : -32768 < semOp.toInt) :
    ∃ value next, performs semOp value = some next := by
  have below := semOp.toInt_lt
  have bounded : (-semOp.toInt).toNat ≤ semvmx := by
    unfold semvmx
    omega
  have fits : 0 ≤ (((-semOp.toInt).toNat : Nat) : Int) + semOp.toInt ∧
      (((-semOp.toInt).toNat : Nat) : Int) + semOp.toInt ≤ semvmx := by
    unfold semvmx
    omega
  exact ⟨⟨_, bounded⟩, _, by rw [performs, if_neg nonzero, dif_pos fits]⟩

/-- Others set the value to one at which the operation succeeds; then the call returns 0. -/
theorem returns_after_wrap (accepted : Accepted call shared) (value : SemValue)
    (nonzero : call.value.toInt16 ≠ 0) (above : -32768 < call.value.toInt16.toInt) :
    ∃ state, Reachable (step Local.request call) (.start shared value) state ∧
      state.op.pc = .returned 0 ∧ state.change = call.value.toInt16.toInt := by
  obtain ⟨suited, after, done⟩ := performs_somewhere nonzero above
  have inside : Reachable (step Local.request call) _ _ := inside_reachable accepted value
  obtain ⟨final, run, returned, change⟩ : ∃ final,
      exec (step Local.request call) (.inside call shared value) [.change suited, .perform, .own] = some final ∧
        final.op.pc = .returned 0 ∧ final.change = after.val - suited.val := by
    simp [exec, step, State.inside, Local.request, Local.prepared, Local.answer, Outcome.place, Local.own, done]
  refine ⟨final, inside.trans (reachable_of_exec _ run), returned, ?_⟩
  have moved := performs_change done
  omega

theorem semaphoreOp_exact_iff (call : Call) (shared : Family) (value : SemValue) :
    (∀ state, Reachable (step Local.request call) (.start shared value) state -> state.Exact call) ↔
      (Accepted call shared ->
        (-32768 ≤ call.value.toInt ∧ call.value.toInt ≤ 32767) ∨ call.value.toInt % 65536 = 32768) := by
  refine ⟨fun exact accepted => ?_, fun represents state reached => exact_of_representable represents reached⟩
  have wrapped : call.value.toInt16.toInt = call.value.toInt.bmod (2 ^ 16) := Int32.toInt_toInt16 _
  rw [Int.bmod_def] at wrapped
  by_cases above : -32768 < call.value.toInt16.toInt
  · have nonzero : call.value.toInt16 ≠ 0 := (exact _ (inside_reachable accepted value)).zero rfl
    obtain ⟨state, reached, returned, change⟩ := returns_after_wrap accepted value nonzero above
    have amount := (exact state reached).amount returned
    omega
  · omega

/-- A release of 65535 takes 1 instead, and the call says that it has succeeded. -/
theorem semaphoreOp_wraps :
    ¬ ∀ state, Reachable
      (step Local.request { semId := 0, value := 65535, sec := 0, nanoSec := 0 })
      (.start { count := 1, sem := 7, references := 1, removals := 0 } ⟨1, by decide⟩) state ->
      state.Exact { semId := 0, value := 65535, sec := 0, nanoSec := 0 } := by
  intro exact
  have amount := (exact _ (reachable_of_exec
    [.own, .own, .own, .own, .own, .perform, .own] rfl)).amount rfl
  exact absurd amount (by decide)

/-! ## The timeout -/

def Call.nanoSeconds (call : Call) : Nat :=
  call.sec.toNat * 1000000000 + call.nanoSec.toNat

/-- The calls with a timeout that wait for some amount. -/
structure Timed (call : Call) (shared : Family) : Prop where
  semId : call.semId < shared.count
  negative : call.value.toInt < 0
  short : -32768 ≤ call.value.toInt
  given : ¬ (call.sec = 0 ∧ call.nanoSec = 0)
  nanoSec : call.nanoSec < 1000000000

/-- The time has passed without the value becoming sufficient. -/
def State.Overdue (call : Call) (state : State) : Prop :=
  state.sufficed = false ∧ state.entered + call.nanoSeconds < state.clock

/-- A call whose time has passed is not blocked any more, and it returns -1 and changes nothing. -/
def HonoursTimeout (request : Local -> SemBuf × Option Timespec) (call : Call) (shared : Family)
    (value : SemValue) : Prop :=
  ∀ state, Reachable (step request call) (.start shared value) state -> state.Overdue call ->
    state.op.pc ≠ .kernel ∧ ∀ result, state.op.pc = .returned result -> result = -1 ∧ state.change = 0

theorem Timed.accepted (timed : Timed call shared) : Accepted call shared := by
  refine ⟨timed.semId, fun zero => ?_⟩
  have negative := timed.negative
  rw [zero] at negative
  exact absurd negative (by decide)

theorem ticks_reachable (inside : state.op.pc = .kernel) (count : Nat) :
    Reachable (step Local.request call) state { state with clock := state.clock + count } := by
  induction count with
  | zero => exact .refl
  | succ count ih =>
      have ticks : step Local.request call { state with clock := state.clock + count } .tick =
          some { state with clock := state.clock + (count + 1) } := by
        simp [step, State.elapsed, Local.request, inside, Nat.add_assoc]
      exact ih.tail trivial ticks

theorem semaphoreOp_timeout_never (call : Call) (shared : Family) (value : SemValue)
    (timed : Timed call shared) : ¬ HonoursTimeout Local.request call shared value := by
  intro honours
  have insufficient : call.suffices ⟨0, Nat.zero_le _⟩ = false := by
    have negative := timed.negative
    simp only [Call.suffices, decide_eq_false_iff_not]
    omega
  -- Others take what there is before the call waits, and nothing comes back.
  have taken : step Local.request call (.start shared value) (.change ⟨0, Nat.zero_le _⟩) =
      some (.start shared ⟨0, Nat.zero_le _⟩) := by
    simp [step, State.start, insufficient]
  have inside := Reach.trans (.tail .refl trivial taken) (inside_reachable timed.accepted _)
  have late := inside.trans (ticks_reachable rfl (call.nanoSeconds + 1))
  refine (honours _ late ⟨insufficient, ?_⟩).1 rfl
  simp only [State.inside]
  omega

theorem semaphoreOp_timeout_never_second :
    ¬ HonoursTimeout Local.request { semId := 0, value := -1, sec := 1, nanoSec := 0 }
      { count := 1, sem := 7, references := 1, removals := 0 } ⟨0, by decide⟩ :=
  semaphoreOp_timeout_never _ _ _
    { semId := by decide, negative := by decide, short := by decide, given := by decide, nanoSec := by decide }

/-- Four nanoseconds later a call with a timeout of three is still inside `semtimedop`. -/
theorem semaphoreOp_outlives_timeout :
    ¬ HonoursTimeout Local.request { semId := 0, value := -1, sec := 0, nanoSec := 3 }
      { count := 1, sem := 7, references := 1, removals := 0 } ⟨0, by decide⟩ := by
  intro honours
  have blocked := honours _ (reachable_of_exec
    [.own, .own, .own, .own, .own, .tick, .tick, .tick, .tick] rfl) ⟨by decide, by decide⟩
  exact blocked.1 rfl

theorem own_in_time {op next : Local}
    (holds : op.timedOut = 0 ∧ op.pc ≠ .failed .eagain ∧ op.pc ≠ .returned (-1))
    (moved : op.own call = some next) :
    next.timedOut = 0 ∧ next.pc ≠ .failed .eagain ∧ next.pc ≠ .returned (-1) := by
  obtain ⟨pc, family, timeoutPtr, timedOut, sb, lastErrno, answered⟩ := op
  obtain ⟨zero, silent, -⟩ := holds
  simp only at zero silent
  cases pc with
  | failed errno =>
      cases moved
      have unchanged : ∀ op : Local, op.timedOut = 0 -> (op.afterError errno).timedOut = 0 := by
        intro op before
        cases errno with
        | eagain => exact absurd rfl silent
        | eintr | other number =>
            unfold Local.afterError
            split <;> exact before
      exact ⟨unchanged _ zero, by simp, by simp⟩
  | guard =>
      cases moved
      refine ⟨zero, ?_, ?_⟩ <;> (simp only; split <;> simp)
  | test =>
      cases moved
      simp [zero]
  | kernel | returned result => cases moved
  | duplicate | reject | timeout | sembuf =>
      cases moved
      simp [zero]
  | destroy =>
      cases moved
      simp [zero]

/-- No call times out. -/
theorem never_times_out {value : SemValue}
    (reached : Reachable (step Local.request call) (.start shared value) state) :
    state.op.timedOut = 0 ∧ state.op.pc ≠ .failed .eagain ∧ state.op.pc ≠ .returned (-1) := by
  refine reached.invariant
    (fun state => state.op.timedOut = 0 ∧ state.op.pc ≠ .failed .eagain ∧ state.op.pc ≠ .returned (-1))
    (by simp [State.start, Local.start]) fun state action next holds _ taken => ?_
  obtain ⟨op, moved, rfl⟩ | ⟨value, -, -, rfl⟩ | ⟨errno, -, elapsed, rfl⟩ | ⟨value, rfl⟩ | ⟨-, rfl⟩ :=
    step_cases taken
  · have after := own_in_time holds moved
    split <;> exact after
  · exact ⟨holds.1, by simp, by simp⟩
  · refine ⟨holds.1, fun eagain => ?_, by simp⟩
    simp only [PC.failed.injEq] at eagain
    simpa [State.elapsed, Local.request] using elapsed eagain
  · exact holds
  · exact holds

/-- With the pointer in the place of the 0, as in the line that is commented out. -/
def Local.requestInTime (op : Local) : SemBuf × Option Timespec :=
  (op.sb, op.timeoutPtr)

/-- The time of a blocked call is not over, and a call that succeeds has met a sufficient value. -/
structure State.InTime (call : Call) (state : State) : Prop where
  inside : state.op.pc = .kernel -> state.clock ≤ state.entered + call.nanoSeconds
  seen : state.op.pc = .kernel -> call.suffices state.value = true -> state.sufficed = true
  behind : state.op.pc = .destroy -> state.op.timedOut = 0 -> state.sufficed = true
  returned : state.op.pc = .returned 0 -> state.sufficed = true

omit request in
theorem toInt_toInt64 {number : UInt64} (small : number.toNat < 2 ^ 63) :
    number.toInt64.toInt = number.toNat := by
  have bits : number.toBitVec.toNat = number.toNat := UInt64.toNat_toBitVec number
  rw [Int64.toInt, UInt64.toBitVec_toInt64, BitVec.toInt_eq_toNat_of_lt (by omega), bits]

theorem Timed.nanoSeconds (timed : Timed call shared) (seconds : call.sec.toNat < 2 ^ 63) :
    ∃ timeout, (Local.prepared call shared).timeoutPtr = some timeout ∧
      timeout.nanoSeconds = call.nanoSeconds := by
  refine ⟨_, if_neg timed.given, ?_⟩
  have nanos : call.nanoSec.toNat < 1000000000 := UInt64.lt_iff_toNat_lt.mp timed.nanoSec
  have first := toInt_toInt64 seconds
  have second : call.nanoSec.toInt64.toInt = call.nanoSec.toNat := toInt_toInt64 (by omega)
  simp only [Timespec.nanoSeconds, Call.nanoSeconds, first, second]
  omega

theorem own_result {op next : Local} (moved : op.own call = some next) :
    (next.pc = .destroy -> next.timedOut ≠ 0) ∧
      (next.pc = .returned 0 -> op.pc = .destroy ∧ op.timedOut = 0) := by
  obtain ⟨pc, family, timeoutPtr, timedOut, sb, lastErrno, answered⟩ := op
  cases pc with
  | guard =>
      cases moved
      simp only
      split <;> simp
  | test =>
      cases moved
      by_cases zero : timedOut = 0 <;> simp [zero]
  | kernel | returned result => cases moved
  | duplicate | reject | timeout | sembuf | failed errno | destroy =>
      cases moved
      simp

theorem State.InTime.step (timed : Timed call shared) (seconds : call.sec.toNat < 2 ^ 63) {action : Act}
    (sound : state.Sound call shared) (inTime : state.InTime call)
    (taken : step Local.requestInTime call state action = some next) : next.InTime call := by
  obtain ⟨-, place⟩ := sound
  obtain ⟨op, moved, rfl⟩ | ⟨value, inside, done, rfl⟩ | ⟨errno, inside, -, rfl⟩ | ⟨value, rfl⟩ | ⟨early, rfl⟩ :=
    step_cases taken
  · by_cases enters : op.pc = .kernel
    · rw [if_pos enters]
      exact ⟨fun _ => Nat.le_add_right _ _, fun _ => id, by simp [enters], by simp [enters]⟩
    · rw [if_neg enters]
      obtain ⟨behind, returned⟩ := own_result moved
      refine ⟨fun inside => absurd inside enters, fun inside => absurd inside enters,
        fun here zero => absurd zero (behind here), fun here => ?_⟩
      obtain ⟨before, zero⟩ := returned here
      exact inTime.behind before zero
  · simp only [Local.At, inside] at place
    have exact := performs_change done
    have short : call.value.toInt16.toInt = call.value.toInt := by
      rw [Int32.toInt_toInt16, Int.bmod_def]
      have least := timed.short
      have negative := timed.negative
      omega
    have enough : call.suffices state.value = true := by
      simp only [Local.requestInTime, place.1.sb, Local.prepared, short] at exact
      simp only [Call.suffices, decide_eq_true_eq]
      omega
    exact ⟨by simp, by simp, fun _ _ => inTime.seen inside enough, by simp⟩
  · exact ⟨by simp, by simp, by simp, by simp⟩
  · refine ⟨inTime.inside, fun _ enough => by simp [enough], fun behind zero => ?_, fun returned => ?_⟩
    · simp [inTime.behind behind zero]
    · simp [inTime.returned returned]
  · refine ⟨fun here => ?_, inTime.seen, inTime.behind, inTime.returned⟩
    have inside : state.op.pc = .kernel := here
    obtain ⟨timeout, pointer, same⟩ := timed.nanoSeconds seconds
    have waiting := early inside
    simp only [Local.At, inside] at place
    simp only [State.elapsed, Local.requestInTime, place.1.timeoutPtr, pointer, Option.any_some, same,
      decide_eq_false_iff_not] at waiting
    simp only
    omega

/-- The 0 alone is at fault: with the pointer in its place the timeout is honoured. -/
theorem honoursTimeout_requestInTime {value : SemValue} (timed : Timed call shared)
    (seconds : call.sec.toNat < 2 ^ 63) : HonoursTimeout Local.requestInTime call shared value := by
  intro state reached overdue
  have sound := sound_of_reachable (fun _ => rfl) reached
  have initial : (State.start shared value).InTime call := ⟨by simp [State.start, Local.start],
    by simp [State.start, Local.start], by simp [State.start, Local.start], by simp [State.start, Local.start]⟩
  have both := reached.invariant (fun state => state.Sound call shared ∧ state.InTime call)
    ⟨⟨rfl, rfl⟩, initial⟩ fun _ _ _ holds _ taken =>
      ⟨holds.1.step (fun _ => rfl) taken, holds.2.step timed seconds holds.1 taken⟩
  obtain ⟨insufficient, late⟩ := overdue
  refine ⟨fun inside => absurd (both.2.inside inside) (Nat.not_le.mpr late), fun result returned => ?_⟩
  have place := sound.2
  simp only [Local.At, returned] at place
  obtain ⟨rejected, -⟩ | ⟨-, settled⟩ := place
  · exact absurd timed.accepted rejected
  · cases settled with
    | done =>
        have met := both.2.returned returned
        rw [insufficient] at met
        cases met
    | timedOut unchanged => exact ⟨rfl, unchanged⟩

end Step

end ZSystem.Semaphore.Operation
