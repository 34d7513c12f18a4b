import Mathlib.Data.UInt

set_option autoImplicit false

/-!
# Waiting

A wait set numbers its readers and timers in the order in which they are added, and `zs__wait_do` reports
one number for what `select` returns.
-/

namespace ZSystem

structure WaitElement where
  number : UInt32
  fd : Int
  deriving DecidableEq, Repr

/-- `struct zs__wait`, with the list that `first` and `last` are about. -/
structure Wait where
  maxNumber : UInt32
  timerNumber : UInt32
  sec : Int64
  microsec : Int64
  elements : List WaitElement
  deriving DecidableEq, Repr

/-- `malloc` leaves `sec` and `microsec` as they are. -/
def waitCreate (sec microsec : Int64) : Wait :=
  { maxNumber := 0, timerNumber := 0, sec := sec, microsec := microsec, elements := [] }

def waitAddTimer (wait : Wait) (sec microsec : Int64) : UInt32 × Wait :=
  let number := wait.maxNumber + 1
  if wait.timerNumber = 0 ∨
      (0 < wait.timerNumber ∧ (sec < wait.sec ∨ (sec = wait.sec ∧ microsec < wait.microsec))) then
    (number, { wait with maxNumber := number, timerNumber := number, sec := sec, microsec := microsec })
  else (number, { wait with maxNumber := number })

def waitAddStreamReaderFd (wait : Wait) (fd : Int) : UInt32 × Wait :=
  let number := wait.maxNumber + 1
  (number, { wait with
    maxNumber := number
    elements := wait.elements ++ [{ number := number, fd := fd }] })

inductive SelectOutcome where
  -- -1, with any `errno`.
  | failed
  | ready (fds : List Int)
  deriving DecidableEq, Repr

def Wait.rfds (wait : Wait) : List Int :=
  wait.elements.map WaitElement.fd

/-- The loop that looks for the element that `select` has reported. -/
def scan (fds : List Int) : List WaitElement -> UInt32
  | [] => 0
  | element :: rest =>
      let back := if element.fd ∈ fds then element.number else 0
      if back = 0 then scan fds rest else back

/-- `zs__wait_do` after one more `select`; without a result it calls `select` again. -/
def waitDo (wait : Wait) : SelectOutcome -> Option UInt32
  | .failed => none
  | .ready fds =>
      let back := scan fds wait.elements
      some (if back = 0 ∧ 0 < wait.timerNumber then wait.timerNumber else back)

theorem scan_eq_find (fds : List Int) (elements : List WaitElement)
    (numbered : ∀ element ∈ elements, element.number ≠ 0) :
    scan fds elements = ((elements.find? fun element => element.fd ∈ fds).map WaitElement.number).getD 0 := by
  induction elements with
  | nil => rfl
  | cons element rest ih =>
      have nonzero := numbered element List.mem_cons_self
      have later := ih fun other member => numbered other (List.mem_cons_of_mem _ member)
      by_cases found : element.fd ∈ fds
      · simp [scan, found, nonzero]
      · simp [scan, found, later]

end ZSystem
