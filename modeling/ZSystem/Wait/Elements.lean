import ZSystem.Shared.Chain
import ZSystem.Wait.Retry

set_option autoImplicit false

/-!
# The elements of a wait set

`struct zs__wait` keeps its readers as a list in memory, and timers and readers take their numbers from
one counter.
-/

namespace ZSystem

open Transition

/-- `struct zs__wait_element`. -/
structure WaitNode extends WaitElement where
  next : Nat
  deriving DecidableEq, Repr

/-- `struct zs__wait`, and the memory its elements lie in. -/
structure WaitStruct where
  maxNumber : UInt32
  timerNumber : UInt32
  sec : Int64
  microsec : Int64
  first : Nat
  last : Nat
  elements : Nat -> Option WaitNode

namespace WaitStruct

/-! ## The functions -/

/-- `zs__wait_create`; `malloc` leaves `sec` and `microsec` as they are. -/
def create (sec microsec : Int64) : WaitStruct :=
  { maxNumber := 0, timerNumber := 0, sec := sec, microsec := microsec, first := 0, last := 0,
    elements := fun _ => none }

def addTimer (wait : WaitStruct) (sec microsec : Int64) : UInt32 × WaitStruct :=
  let wait := { wait with maxNumber := wait.maxNumber + 1 }
  if wait.timerNumber = 0 ∨
      (0 < wait.timerNumber ∧ (sec < wait.sec ∨ (sec = wait.sec ∧ microsec < wait.microsec))) then
    (wait.maxNumber, { wait with timerNumber := wait.maxNumber, sec := sec, microsec := microsec })
  else (wait.maxNumber, wait)

/-- `malloc` has given `address` for the new element; an address in use is not given. -/
def addStreamReaderFd (wait : WaitStruct) (address : Nat) (fd : Int) : Option (UInt32 × WaitStruct) :=
  if address = 0 ∨ (wait.elements address).isSome then none else
    let wait := { wait with maxNumber := wait.maxNumber + 1 }
    let elements := Function.update wait.elements address (some { number := wait.maxNumber, fd := fd, next := 0 })
    if wait.last ≠ 0 then
      (elements wait.last).map fun last =>
        (wait.maxNumber,
          { wait with
            last := address
            elements := Function.update elements wait.last (some { last with next := address }) })
    else some (wait.maxNumber, { wait with first := address, last := address, elements := elements })

/-- The loops of `zs__wait_do` over the elements; `none` where `fuel` is not enough for them. -/
def setReaders (elements : Nat -> Option WaitNode) : Nat -> Nat -> Int × List Int -> Option (Int × List Int)
  | 0, _, _ => none
  | fuel + 1, address, (maxFd, rfds) =>
      if address = 0 then some (maxFd, rfds) else
        (elements address).bind fun element =>
          (fdSet element.fd rfds).bind fun rfds =>
            setReaders elements fuel element.next (if maxFd < element.fd then element.fd else maxFd, rfds)

def findReady (elements : Nat -> Option WaitNode) (fds : List Int) : Nat -> Nat -> UInt32 -> Option UInt32
  | 0, _, _ => none
  | fuel + 1, address, back =>
      if address = 0 ∨ back ≠ 0 then some back else
        (elements address).bind fun element =>
          (fdIsset element.fd fds).bind fun set =>
            findReady elements fds fuel element.next (if set then element.number else back)

def prepare (fuel : Nat) (wait : WaitStruct) : Option SelectCall :=
  (setReaders wait.elements fuel wait.first (-1, [])).map fun (maxFd, rfds) =>
    { nfds := maxFd + 1
      rfds := rfds
      timeout := if 0 < wait.timerNumber then some (wait.sec, wait.microsec) else none }

def report (fuel : Nat) (wait : WaitStruct) (fds : List Int) : Option UInt32 :=
  (findReady wait.elements fds fuel wait.first 0).map fun back =>
    if back = 0 ∧ 0 < wait.timerNumber then wait.timerNumber else back

/-- `zs__wait_do`, with the answers of `select`. -/
def doWith (fuel : Nat) (wait : WaitStruct) (answers : List Answer) : Option (Progress × WaitStruct) :=
  (wait.prepare fuel).bind fun _ =>
    (exec (answered (wait.report fuel)) (.calling 0 0 0) answers).map fun progress => (progress, wait)

/-! ## The elements as a list -/

/-- The wait set without its memory. -/
def list (wait : WaitStruct) (elements : List WaitElement) : Wait :=
  { maxNumber := wait.maxNumber, timerNumber := wait.timerNumber, sec := wait.sec, microsec := wait.microsec,
    elements := elements }

/-- `first`, `next` and `last` form the list of `elements`. -/
def Holds (wait : WaitStruct) (addresses : List Nat) (elements : List WaitElement) : Prop :=
  Chain.Holds wait.elements WaitNode.next WaitNode.toWaitElement wait.first wait.last addresses elements

variable {wait after : WaitStruct} {addresses : List Nat} {elements : List WaitElement} {address fuel : Nat}

theorem holds_create (sec microsec : Int64) : (create sec microsec).Holds [] [] := ⟨rfl, rfl, rfl⟩

theorem list_create (sec microsec : Int64) : (create sec microsec).list [] = waitCreate sec microsec := rfl

theorem addTimer_list (sec microsec : Int64) :
    (wait.addTimer sec microsec).1 = (waitAddTimer (wait.list elements) sec microsec).1 ∧
      (wait.addTimer sec microsec).2.list elements = (waitAddTimer (wait.list elements) sec microsec).2 := by
  by_cases earlier : wait.timerNumber = 0 ∨
      (0 < wait.timerNumber ∧ (sec < wait.sec ∨ (sec = wait.sec ∧ microsec < wait.microsec)))
  · simp only [addTimer, waitAddTimer, list, earlier, if_true, and_self]
  · simp only [addTimer, waitAddTimer, list, earlier, if_false, and_self]

theorem addTimer_holds (holds : wait.Holds addresses elements) (sec microsec : Int64) :
    (wait.addTimer sec microsec).2.Holds addresses elements := by
  unfold addTimer
  dsimp only
  split_ifs
  · exact holds
  · exact holds

theorem addStreamReaderFd_spec (holds : wait.Holds addresses elements) (fd : Int) (valid : address ≠ 0)
    (unused : wait.elements address = none) :
    ∃ after, wait.addStreamReaderFd address fd = some (wait.maxNumber + 1, after) ∧
      after.Holds (addresses ++ [address]) (elements ++ [{ number := wait.maxNumber + 1, fd := fd }]) ∧
      after.list (elements ++ [{ number := wait.maxNumber + 1, fd := fd }]) =
        (waitAddStreamReaderFd (wait.list elements) fd).2 := by
  unfold addStreamReaderFd
  rw [if_neg (by simp [valid, unused])]
  dsimp only
  by_cases empty : wait.last = 0
  · rw [if_neg (not_not.mpr empty)]
    exact ⟨_, rfl, Chain.Holds.start holds empty valid rfl, rfl⟩
  · obtain ⟨member, last, read⟩ := Chain.Holds.last_allocated holds empty
    have differ : wait.last ≠ address := fun same => Chain.Holds.unused holds unused (same ▸ member)
    simp only [ne_eq, empty, not_false_eq_true, if_true, Function.update_of_ne differ, read, Option.map_some]
    exact ⟨_, rfl, Chain.Holds.append holds empty valid unused rfl read rfl rfl, rfl⟩

theorem setReaders_list (holds : wait.Holds addresses elements) (enough : addresses.length < fuel)
    (sets : Int × List Int) : setReaders wait.elements fuel wait.first sets = ZSystem.setReaders elements sets := by
  refine Chain.Holds.loop (motive := fun fuel first elements =>
    ∀ sets, setReaders wait.elements fuel first sets = ZSystem.setReaders elements sets) ?_ ?_ holds enough sets
  · intro fuel sets
    rfl
  · intro fuel address node rest valid read later sets
    simp [setReaders, ZSystem.setReaders, valid, read, later]

theorem findReady_list (holds : wait.Holds addresses elements) (enough : addresses.length < fuel)
    (fds : List Int) (back : UInt32) :
    findReady wait.elements fds fuel wait.first back = ZSystem.findReady fds elements back := by
  refine Chain.Holds.loop (motive := fun fuel first elements =>
    ∀ back, findReady wait.elements fds fuel first back = ZSystem.findReady fds elements back) ?_ ?_ holds enough back
  · intro fuel back
    simp [findReady, ZSystem.findReady]
  · intro fuel address node rest valid read later back
    by_cases found : back = 0
    · simp [findReady, ZSystem.findReady, valid, read, found, later]
    · simp [findReady, ZSystem.findReady, found]

theorem prepare_list (holds : wait.Holds addresses elements) (enough : addresses.length < fuel) :
    wait.prepare fuel = (wait.list elements).prepare := by
  unfold prepare Wait.prepare
  rw [setReaders_list holds enough]
  rfl

theorem report_list (holds : wait.Holds addresses elements) (enough : addresses.length < fuel) (fds : List Int) :
    wait.report fuel fds = (wait.list elements).report fds := by
  unfold report Wait.report
  rw [findReady_list holds enough]
  rfl

theorem doWith_list (holds : wait.Holds addresses elements) (enough : addresses.length < fuel)
    (answers : List Answer) :
    wait.doWith fuel answers = ((wait.list elements).doWith answers).map fun progress => (progress, wait) := by
  have reports : wait.report fuel = (wait.list elements).report := funext (report_list holds enough)
  unfold doWith Wait.doWith
  rw [prepare_list holds enough, reports]
  cases (wait.list elements).prepare with
  | none => rfl
  | some call => rfl

/-! ## Any number of calls -/

inductive Op where
  | addTimer (sec microsec : Int64)
  | addStreamReader (address : Nat) (fd : Int)
  | wait (answers : List Answer)
  deriving DecidableEq, Repr

def Op.adds : Op -> Bool
  | .addTimer .. | .addStreamReader .. => true
  | .wait _ => false

def Op.Valid : Op -> Prop
  | .addStreamReader _ fd => Indexed fd
  | .addTimer .. | .wait _ => True

/-- The address that `malloc` gives is not in use. -/
def Op.Fresh (wait : WaitStruct) : Op -> Prop
  | .addStreamReader address _ => address ≠ 0 ∧ wait.elements address = none
  | .addTimer .. | .wait _ => True

/-- A call, with what it returns. -/
def perform (fuel : Nat) (wait : WaitStruct) : Op -> Option (UInt32 × WaitStruct)
  | .addTimer sec microsec => some (wait.addTimer sec microsec)
  | .addStreamReader address fd => wait.addStreamReaderFd address fd
  | .wait answers =>
      (wait.doWith fuel answers).bind fun
        | (.returned number, wait) => some (number, wait)
        | (.calling .., _) => none

def step (fuel : Nat) (wait : WaitStruct) (op : Op) : Option WaitStruct :=
  (wait.perform fuel op).map Prod.snd

def additions (ops : List Op) : Nat := ops.countP Op.adds

/-- The readers in the order of their calls, each with the position of its call among the additions. -/
def registered : Nat -> List Op -> List WaitElement
  | _, [] => []
  | count, .addTimer .. :: rest => registered (count + 1) rest
  | count, .addStreamReader _ fd :: rest =>
      { number := UInt32.ofNat (count + 1), fd := fd } :: registered (count + 1) rest
  | count, .wait _ :: rest => registered count rest

theorem registered_length (count : Nat) (ops : List Op) : (registered count ops).length ≤ ops.length := by
  induction ops generalizing count with
  | nil => simp [registered]
  | cons op rest ih =>
      cases op with
      | addTimer sec microsec => exact Nat.le_succ_of_le (ih (count + 1))
      | addStreamReader address fd => exact Nat.succ_le_succ (ih (count + 1))
      | wait answers => exact Nat.le_succ_of_le (ih count)

theorem registered_spec {count : Nat} {ops : List Op} (few : count + additions ops < 2 ^ 32)
    (valid : ∀ op ∈ ops, op.Valid) :
    ∀ element ∈ registered count ops, element.number ≠ 0 ∧ Indexed element.fd := by
  induction ops generalizing count with
  | nil => simp [registered]
  | cons op rest ih =>
      have later : ∀ other ∈ rest, other.Valid := fun other member => valid other (List.mem_cons_of_mem _ member)
      cases op with
      | addTimer sec microsec =>
          simp only [additions, List.countP_cons, Op.adds, if_true] at few
          exact ih (by simp only [additions]; omega) later
      | addStreamReader address fd =>
          simp only [additions, List.countP_cons, Op.adds, if_true] at few
          have nonzero : UInt32.ofNat (count + 1) ≠ 0 := by
            intro zero
            have wrapped := congrArg UInt32.toNat zero
            simp only [UInt32.toNat_ofNat', UInt32.toNat_ofNat, Nat.zero_mod] at wrapped
            omega
          have remaining : ∀ element ∈ registered (count + 1) rest, element.number ≠ 0 ∧ Indexed element.fd :=
            ih (by simp only [additions]; omega) later
          simp only [registered, List.forall_mem_cons]
          exact ⟨⟨nonzero, valid _ List.mem_cons_self⟩, remaining⟩
      | wait answers =>
          simp only [additions, List.countP_cons, Op.adds, Bool.false_eq_true, if_false, Nat.add_zero] at few
          exact ih few later

theorem perform_adds (fuel : Nat) {op : Op} (holds : wait.Holds addresses elements) (fresh : op.Fresh wait)
    (adds : op.adds) : ∃ after, wait.perform fuel op = some (wait.maxNumber + 1, after) := by
  cases op with
  | addTimer sec microsec =>
      refine ⟨(wait.addTimer sec microsec).2, ?_⟩
      simp only [perform, addTimer]
      split_ifs
      · rfl
      · rfl
  | addStreamReader address fd =>
      obtain ⟨after, added, -⟩ := addStreamReaderFd_spec holds fd fresh.1 fresh.2
      exact ⟨after, added⟩
  | wait answers => simp [Op.adds] at adds

theorem addStreamReaderFd_fresh {fd : Int} {result : UInt32 × WaitStruct}
    (added : wait.addStreamReaderFd address fd = some result) : address ≠ 0 ∧ wait.elements address = none := by
  unfold addStreamReaderFd at added
  split_ifs at added with used
  all_goals
    rw [not_or] at used
    simpa using used

theorem perform_wait {answers : List Answer} {number : UInt32}
    (performed : wait.perform fuel (.wait answers) = some (number, after)) : after = wait := by
  obtain ⟨⟨progress, _⟩, done, returned⟩ := Option.bind_eq_some_iff.mp performed
  obtain ⟨call, -, run⟩ := Option.bind_eq_some_iff.mp done
  obtain ⟨_, -, same⟩ := Option.map_eq_some_iff.mp run
  cases same
  cases progress with
  | calling lastErrno failures reports => cases returned
  | returned found =>
      cases returned
      rfl

theorem exec_holds {ops : List Op} {count : Nat} (holds : wait.Holds addresses elements)
    (counted : wait.maxNumber = UInt32.ofNat count) (run : exec (step fuel) wait ops = some after) :
    (∃ addresses, after.Holds addresses (elements ++ registered count ops)) ∧
      after.maxNumber = UInt32.ofNat (count + additions ops) := by
  induction ops generalizing wait addresses elements count with
  | nil =>
      cases run
      exact ⟨⟨addresses, by simpa [registered] using holds⟩, by simpa [additions] using counted⟩
  | cons op rest ih =>
      obtain ⟨middle, taken, remaining⟩ := Option.bind_eq_some_iff.mp run
      obtain ⟨⟨number, _⟩, performed, rfl⟩ := Option.map_eq_some_iff.mp taken
      have succ : wait.maxNumber + 1 = UInt32.ofNat (count + 1) := by
        rw [counted, UInt32.ofNat_add]
        rfl
      cases op with
      | addTimer sec microsec =>
          have next : (wait.addTimer sec microsec).2.maxNumber = wait.maxNumber + 1 := by
            simp only [addTimer]
            split_ifs <;> rfl
          obtain rfl : (wait.addTimer sec microsec).2 = _ := congrArg Prod.snd (Option.some.inj performed)
          have later := ih (addTimer_holds holds sec microsec) (next.trans succ) remaining
          simpa [registered, additions, Op.adds, List.countP_cons, Nat.add_assoc, Nat.add_comm 1] using later
      | addStreamReader address fd =>
          obtain ⟨valid, unused⟩ := addStreamReaderFd_fresh performed
          obtain ⟨grown, added, held, listed⟩ := addStreamReaderFd_spec holds fd valid unused
          obtain ⟨-, same⟩ := Prod.mk.inj (Option.some.inj (performed.symm.trans added))
          subst same
          have next := congrArg Wait.maxNumber listed
          have later := ih held (next.trans succ) remaining
          simpa [registered, succ, additions, Op.adds, List.countP_cons, Nat.add_assoc, Nat.add_comm 1] using later
      | wait answers =>
          obtain rfl := perform_wait performed
          simpa [registered, additions, Op.adds, List.countP_cons] using ih holds counted remaining

theorem perform_ready (holds : wait.Holds addresses elements) (enough : addresses.length < fuel)
    (known : ∀ element ∈ elements, element.number ≠ 0 ∧ Indexed element.fd) (errnos : List Int) (fds : List Int) :
    wait.perform fuel (.wait (errnos.map .failed ++ [.ready fds])) =
      some (((elements.find? fun element => element.fd ∈ fds).map WaitElement.number).getD wait.timerNumber, wait) := by
  have indexed : ∀ fd ∈ (wait.list elements).rfds, Indexed fd := by
    rw [Wait.rfds, List.forall_mem_map]
    exact fun element member => (known element member).2
  obtain ⟨call, prepared⟩ := Option.isSome_iff_exists.mp (Wait.prepare_isSome.mpr indexed)
  have found := Wait.report_eq_find indexed (fun element member => (known element member).1) fds
  simp only [perform, doWith_list holds enough, Wait.doWith, prepared, Option.bind_some, exec_ready, found,
    Option.map_some]
  rfl

theorem wait_reports (sec microsec : Int64) (fuel : Nat) (ops : List Op) (wait : WaitStruct)
    (run : exec (step fuel) (create sec microsec) ops = some wait) (few : additions ops < 2 ^ 32)
    (valid : ∀ op ∈ ops, op.Valid) (enough : ops.length < fuel) :
    (∃ addresses, wait.Holds addresses (registered 0 ops)) ∧
      (∀ op, op.adds -> op.Fresh wait -> additions ops + 1 < 2 ^ 32 ->
        ∃ number after, wait.perform fuel op = some (number, after) ∧ number.toNat = additions ops + 1) ∧
      ∀ errnos fds : List Int, wait.perform fuel (.wait (errnos.map .failed ++ [.ready fds])) =
        some ((((registered 0 ops).find? fun element => element.fd ∈ fds).map WaitElement.number).getD
          wait.timerNumber, wait) := by
  have start : (create sec microsec).maxNumber = UInt32.ofNat 0 := rfl
  obtain ⟨⟨addresses, holds⟩, counted⟩ := exec_holds (holds_create sec microsec) start run
  rw [List.nil_append] at holds
  rw [Nat.zero_add] at counted
  have short : addresses.length < fuel :=
    Nat.lt_of_le_of_lt (holds.length.trans_le (registered_length 0 ops)) enough
  refine ⟨⟨addresses, holds⟩, fun op adds fresh more => ?_, fun errnos fds => ?_⟩
  · obtain ⟨after, performed⟩ := perform_adds fuel holds fresh adds
    refine ⟨_, after, performed, ?_⟩
    simp only [counted, UInt32.toNat_add, UInt32.toNat_ofNat', UInt32.toNat_one]
    omega
  · exact perform_ready holds short (registered_spec (by omega) valid) errnos fds

/-- A reader, a timer and another reader of the same descriptor, with a wait between them. -/
theorem wait_reports_sameDescriptor :
    ∃ wait, exec (step 5) (create 0 0) [.addStreamReader 1 3, .addTimer 1 0, .wait [.failed 4, .ready [3]],
        .addStreamReader 2 3] = some wait ∧
      (∃ addresses, wait.Holds addresses [{ number := 1, fd := 3 }, { number := 3, fd := 3 }]) ∧
      ∀ errnos : List Int, wait.perform 5 (.wait (errnos.map .failed ++ [.ready [3]])) = some (1, wait) := by
  refine ⟨_, rfl, ?_⟩
  obtain ⟨list, -, reports⟩ := wait_reports 0 0 5 [.addStreamReader 1 3, .addTimer 1 0,
    .wait [.failed 4, .ready [3]], .addStreamReader 2 3] _ rfl (by decide)
    (by simp [Op.Valid, Indexed, fdSetsize]) (by decide)
  exact ⟨list, fun errnos => reports errnos [3]⟩

end WaitStruct

end ZSystem
