import ZSystem.Shared.Transition
import ZSystem.Wait.Select

set_option autoImplicit false

/-!
# The calls of `select`

`zs__wait_do` makes the arguments of `select`, calls it until it does not return -1, and looks for the
element that it has reported.
-/

namespace ZSystem

open Transition

/-! ## `fd_set` -/

def fdSetsize : Int := 1024

def Indexed (fd : Int) : Prop := 0 ≤ fd ∧ fd < fdSetsize

instance (fd : Int) : Decidable (Indexed fd) := inferInstanceAs (Decidable (_ ∧ _))

/-- `FD_SET`; a descriptor without a bit of its own would change other memory. -/
def fdSet (fd : Int) (set : List Int) : Option (List Int) :=
  if Indexed fd then some (fd :: set) else none

/-- `FD_ISSET`. -/
def fdIsset (fd : Int) (set : List Int) : Option Bool :=
  if Indexed fd then some (fd ∈ set) else none

/-! ## The arguments -/

structure SelectCall where
  nfds : Int
  rfds : List Int
  timeout : Option (Int64 × Int64)
  deriving DecidableEq, Repr

/-- The loop over the elements, with `a_max_filediscriptor` and `rfds`. -/
def setReaders : List WaitElement -> Int × List Int -> Option (Int × List Int)
  | [], sets => some sets
  | element :: rest, (maxFd, rfds) =>
      (fdSet element.fd rfds).bind fun rfds =>
        setReaders rest (if maxFd < element.fd then element.fd else maxFd, rfds)

def Wait.timeout (wait : Wait) : Option (Int64 × Int64) :=
  if 0 < wait.timerNumber then some (wait.sec, wait.microsec) else none

def Wait.prepare (wait : Wait) : Option SelectCall :=
  (setReaders wait.elements (-1, [])).map fun (maxFd, rfds) =>
    { nfds := maxFd + 1, rfds := rfds, timeout := wait.timeout }

theorem setReaders_spec {elements : List WaitElement} {sets after : Int × List Int}
    (set : setReaders elements sets = some after) :
    after.2 = (elements.map WaitElement.fd).reverse ++ sets.2 ∧ sets.1 ≤ after.1 ∧
      ∀ element ∈ elements, Indexed element.fd ∧ element.fd ≤ after.1 := by
  induction elements generalizing sets with
  | nil =>
      cases set
      exact ⟨rfl, le_refl _, by simp⟩
  | cons element rest ih =>
      obtain ⟨rfds, written, remaining⟩ := Option.bind_eq_some_iff.mp set
      obtain ⟨collected, largest, all⟩ := ih remaining
      unfold fdSet at written
      split_ifs at written with indexed
      cases written
      have above : element.fd ≤ after.1 ∧ sets.1 ≤ after.1 := by
        split_ifs at largest <;> omega
      refine ⟨by simp [collected], above.2, fun other member => ?_⟩
      rcases List.mem_cons.mp member with rfl | later
      · exact ⟨indexed, above.1⟩
      · exact all other later

theorem setReaders_isSome {elements : List WaitElement} {sets : Int × List Int} :
    (setReaders elements sets).isSome ↔ ∀ element ∈ elements, Indexed element.fd := by
  induction elements generalizing sets with
  | nil => simp [setReaders]
  | cons element rest ih =>
      by_cases indexed : Indexed element.fd
      · simp [setReaders, fdSet, indexed, ih]
      · simp [setReaders, fdSet, indexed]

namespace Wait

variable {wait : Wait} {call : SelectCall} {fds : List Int}

theorem prepare_isSome : wait.prepare.isSome ↔ ∀ fd ∈ wait.rfds, Indexed fd := by
  rw [prepare, Option.isSome_map, setReaders_isSome, rfds, List.forall_mem_map]

theorem prepare_spec (prepared : wait.prepare = some call) :
    (∀ fd, fd ∈ call.rfds ↔ fd ∈ wait.rfds) ∧ (∀ fd ∈ wait.rfds, Indexed fd ∧ fd < call.nfds) ∧
      call.timeout = wait.timeout := by
  obtain ⟨⟨maxFd, rfds⟩, set, rfl⟩ := Option.map_eq_some_iff.mp prepared
  obtain ⟨collected, -, all⟩ := setReaders_spec set
  refine ⟨fun fd => by simp [show rfds = _ from collected, Wait.rfds], ?_, rfl⟩
  rw [Wait.rfds, List.forall_mem_map]
  intro element member
  exact ⟨(all element member).1, Int.lt_add_one_of_le (all element member).2⟩

end Wait

/-! ## The result -/

/-- The loop with `back`, which is left as soon as an element is found. -/
def findReady (fds : List Int) : List WaitElement -> UInt32 -> Option UInt32
  | [], back => some back
  | element :: rest, back =>
      if back ≠ 0 then some back
      else (fdIsset element.fd fds).bind fun set => findReady fds rest (if set then element.number else back)

def Wait.report (wait : Wait) (fds : List Int) : Option UInt32 :=
  (findReady fds wait.elements 0).map fun back =>
    if back = 0 ∧ 0 < wait.timerNumber then wait.timerNumber else back

theorem findReady_of_ne {fds : List Int} {elements : List WaitElement} {back : UInt32} (found : back ≠ 0) :
    findReady fds elements back = some back := by
  cases elements with
  | nil => rfl
  | cons element rest => simp [findReady, found]

theorem findReady_eq_scan {fds : List Int} {elements : List WaitElement}
    (indexed : ∀ element ∈ elements, Indexed element.fd) : findReady fds elements 0 = some (scan fds elements) := by
  induction elements with
  | nil => rfl
  | cons element rest ih =>
      have later := ih fun other member => indexed other (List.mem_cons_of_mem _ member)
      have here := indexed element List.mem_cons_self
      by_cases ready : element.fd ∈ fds
      · by_cases zero : element.number = 0
        · simp [findReady, scan, fdIsset, here, ready, zero, later]
        · simp [findReady, scan, fdIsset, here, ready, zero, findReady_of_ne]
      · simp [findReady, scan, fdIsset, here, ready, later]

theorem Wait.report_eq_waitDo {wait : Wait} (indexed : ∀ fd ∈ wait.rfds, Indexed fd) (fds : List Int) :
    wait.report fds = waitDo wait (.ready fds) := by
  rw [Wait.rfds, List.forall_mem_map] at indexed
  simp [Wait.report, waitDo, findReady_eq_scan indexed]

theorem Wait.report_eq_find {wait : Wait} (indexed : ∀ fd ∈ wait.rfds, Indexed fd)
    (numbered : ∀ element ∈ wait.elements, element.number ≠ 0) (fds : List Int) :
    wait.report fds =
      some (((wait.elements.find? fun element => element.fd ∈ fds).map WaitElement.number).getD wait.timerNumber) := by
  rw [Wait.report_eq_waitDo indexed, waitDo, scan_eq_find fds wait.elements numbered]
  cases found : wait.elements.find? fun element => element.fd ∈ fds with
  | none =>
      by_cases none : wait.timerNumber = 0
      · simp [none]
      · simp [none, UInt32.pos_iff_ne_zero]
  | some element => simp [numbered element (List.mem_of_find?_eq_some found)]

/-! ## The loop around `select` -/

inductive Answer where
  | failed (errno : Int)
  | ready (fds : List Int)
  deriving DecidableEq, Repr

def eintr : Int := 4

inductive Progress where
  -- In front of the next `select`, with the calls that have failed and those of `perror`.
  | calling (lastErrno : Int) (failures reports : Nat)
  | returned (number : UInt32)
  deriving DecidableEq, Repr

def answered (report : List Int -> Option UInt32) : Progress -> Answer -> Option Progress
  | .calling lastErrno failures reports, .failed errno =>
      if errno ≠ lastErrno then
        if errno = eintr then some (.calling lastErrno (failures + 1) reports)
        else some (.calling errno (failures + 1) (reports + 1))
      else some (.calling lastErrno (failures + 1) reports)
  | .calling .., .ready fds => (report fds).map .returned
  | .returned _, _ => none

/-- `zs__wait_do` up to its first answers. -/
def Wait.doWith (wait : Wait) (answers : List Answer) : Option Progress :=
  wait.prepare.bind fun _ => exec (answered wait.report) (.calling 0 0 0) answers

def failures (errnos : Nat -> Int) (count : Nat) : List Answer :=
  (List.range count).map fun call => .failed (errnos call)

theorem answered_failed (report : List Int -> Option UInt32) (lastErrno errno : Int) (failures reports : Nat) :
    ∃ lastErrno' reports', answered report (.calling lastErrno failures reports) (.failed errno) =
      some (.calling lastErrno' (failures + 1) reports') := by
  simp only [answered]
  split_ifs
  · exact ⟨_, _, rfl⟩
  · exact ⟨_, _, rfl⟩
  · exact ⟨_, _, rfl⟩

theorem exec_failed (report : List Int -> Option UInt32) (errnos : List Int) (lastErrno : Int)
    (failures reports : Nat) :
    ∃ lastErrno' reports', exec (answered report) (.calling lastErrno failures reports) (errnos.map .failed) =
      some (.calling lastErrno' (failures + errnos.length) reports') := by
  induction errnos generalizing lastErrno failures reports with
  | nil => exact ⟨lastErrno, reports, rfl⟩
  | cons errno rest ih =>
      obtain ⟨lastErrno', reports', failed⟩ := answered_failed report lastErrno errno failures reports
      obtain ⟨lastErrno'', reports'', run⟩ := ih lastErrno' (failures + 1) reports'
      refine ⟨lastErrno'', reports'', Option.bind_eq_some_iff.mpr ⟨_, failed, ?_⟩⟩
      rw [run, List.length_cons, Nat.add_right_comm, Nat.add_assoc]

theorem exec_ready (report : List Int -> Option UInt32) (errnos : List Int) (fds : List Int) :
    exec (answered report) (.calling 0 0 0) (errnos.map .failed ++ [.ready fds]) = (report fds).map .returned := by
  obtain ⟨lastErrno, reports, run⟩ := exec_failed report errnos 0 0 0
  rw [exec_append, run, Option.bind_some]
  cases found : report fds with
  | none => simp [exec, answered, found]
  | some number => simp [exec, answered, found]

namespace Wait

variable {wait : Wait} {errnos : Nat -> Int}

theorem doWith_ready {call : SelectCall} (prepared : wait.prepare = some call) (fds : List Int) :
    wait.doWith [.ready fds] = (wait.report fds).map .returned := by
  rw [doWith, prepared]
  exact exec_ready wait.report [] fds

theorem do_failures {count : Nat} {number : UInt32} :
    wait.doWith (failures errnos count) ≠ some (.returned number) := by
  intro ended
  obtain ⟨call, -, run⟩ := Option.bind_eq_some_iff.mp ended
  obtain ⟨lastErrno, reports, still⟩ :=
    exec_failed wait.report ((List.range count).map errnos) 0 0 0
  rw [List.map_map] at still
  have same := run.symm.trans still
  simp at same

/-- After finitely many calls of `select`, all of which fail, `zs__wait_do` returns 0. -/
def EndsFailing (wait : Wait) (errnos : Nat -> Int) : Prop :=
  ∃ count, wait.doWith (failures errnos count) = some (.returned 0)

theorem never_endsFailing (wait : Wait) (errnos : Nat -> Int) : ¬ wait.EndsFailing errnos := by
  rintro ⟨count, ended⟩
  exact do_failures ended

/-- A timer of -1 seconds, and `EINVAL` (22) for it. -/
theorem never_endsFailing_fails :
    ¬ ∀ (wait : Wait) (errnos : Nat -> Int), (∀ call, errnos call ≠ eintr) -> wait.EndsFailing errnos := by
  intro always
  obtain ⟨count, ended⟩ := always (waitAddTimer (waitCreate 0 0) (-1) 0).2 (fun _ => 22) (fun _ => by decide)
  exact do_failures ended

end Wait

end ZSystem
