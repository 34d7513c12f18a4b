import ZSystem.Wait.Readers

set_option autoImplicit false

/-!
# Waiting and reading

`zs__wait_do` asks the kernel for the descriptors of `get_fd_reader`, and `zs__stream_read` reads through
another pointer.
-/

namespace ZSystem.Readers

open ZSystem.Stream
open ZSystem.Timer (Room)

/-! ## The kernel -/

inductive FileKind where
  -- A pipe, a terminal or a file.
  | bytes
  | streamSocket
  | datagramSocket
  deriving DecidableEq, Repr

/-- What is behind a descriptor: the bytes that the next read can return, and whether it returns without them. -/
structure File where
  kind : FileKind
  bytes : Nat
  ended : Bool
  deriving DecidableEq, Repr

def File.readable (file : File) : Bool := decide (0 < file.bytes) || file.ended

/-- What `read`, or `recv` with `MSG_WAITALL`, returns; `none` while it waits. -/
def File.transfer (file : File) (call : Syscall) (size : Nat) : Option Int :=
  match call, file.kind with
  | .recv, .bytes => some (-1)
  | .recv, .streamSocket =>
      if size ≤ file.bytes ∨ file.ended = true then some (min size file.bytes) else none
  | _, _ => if file.readable = true then some (min size file.bytes) else none

structure Kernel where
  files : Int -> Option File
  opened : ∀ fd, (files fd).isSome -> 0 ≤ fd

namespace Kernel

variable (kernel : Kernel)

def readable (fd : Int) : Bool := (kernel.files fd).any File.readable

def transfer (call : Syscall) (fd : Int) (size : Nat) : Option Int :=
  match kernel.files fd with
  | some file => file.transfer call size
  | none => some (-1)

/-- `zs__stream_read`; `none` while it waits. -/
def read (endpoint : Endpoint) (size : UInt32) : Option UInt32 :=
  match endpoint with
  | .descriptor stream =>
      if size = 0 then some 0 else
        let back := match stream.read with
          | .pipe => kernel.transfer .read stream.reader size.toNat
          | .socket => kernel.transfer .recv stream.socket size.toNat
        back.map fun back =>
          (streamRead stream size { interrupted := 0, transferred := back, revents := fun _ => 0, name := none }).2
  | .datagram stream => (stream.read size).map fun (bytes, _, _) => UInt32.ofNat bytes.length

def ebadf : Int := 9

def einval : Int := 22

def negative (timeout : Int64 × Int64) : Bool := timeout.1 < 0 || timeout.2 < 0

/-- `select`; `none` while it waits. -/
def select (call : SelectCall) : Option ZSystem.Answer :=
  if ∃ fd ∈ call.rfds, fd < call.nfds ∧ kernel.files fd = none then some (.failed ebadf)
  else if call.timeout.any negative then some (.failed einval)
  else
    let fds := call.rfds.filter fun fd => fd < call.nfds && kernel.readable fd
    if fds ≠ [] ∨ call.timeout = some (0, 0) then some (.ready fds) else none

/-- What `zs__wait_do` returns without waiting; `none` also where `select` fails, as it does again then. -/
def waitDo (wait : Wait) : Option UInt32 :=
  wait.prepare.bind fun call =>
    (kernel.select call).bind fun answer =>
      match wait.doWith [answer] with
      | some (.returned number) => some number
      | _ => none

/-- The same descriptors, with nothing to read behind them. -/
def silent : Kernel where
  files fd := (kernel.files fd).map fun file => { file with bytes := 0, ended := false }
  opened fd opened := kernel.opened fd (by simpa using opened)

end Kernel

/-! ## Agreement -/

def StreamReader.isDgram (stream : StreamReader) : Bool :=
  match stream.endpoint with
  | .descriptor _ => false
  | .datagram _ => true

/-- Some read returns a byte at least, without waiting. -/
def Gives (kernel : Kernel) (stream : StreamReader) : Prop :=
  ∃ size back, kernel.read stream.endpoint size = some back ∧ 0 < back

/-- A read of a byte does not wait. -/
def CanRead (kernel : Kernel) (stream : StreamReader) : Prop := (kernel.read stream.endpoint 1).isSome

structure Agreement (kernel : Kernel) (state : State) : Prop where
  reports : (∃ call ∈ state.streams, Gives kernel call.stream) ->
    ∃ call ∈ state.streams, kernel.waitDo state.wait = some call.number ∧ CanRead kernel call.stream
  -- A datagram that is reported would be reported too with nothing to read behind any descriptor.
  own : ∀ call ∈ state.streams, call.stream.isDgram = true -> kernel.waitDo state.wait = some call.number ->
    kernel.silent.waitDo state.wait = some call.number

/-- `select` does not fail. -/
def Selects (kernel : Kernel) (wait : Wait) : Prop :=
  (∀ fd ∈ wait.rfds, Indexed fd ∧ (kernel.files fd).isSome) ∧
    ∀ sec microsec, wait.timeout = some (sec, microsec) -> 0 ≤ sec ∧ 0 ≤ microsec

/-- The first stream with a descriptor that can be read is not a datagram; without one, no datagram has bytes left. -/
def Fits (kernel : Kernel) (state : State) : Prop :=
  (Selects kernel state.wait ->
    match state.streams.find? fun call => kernel.readable call.stream.fd with
    | some call => call.stream.isDgram = false
    | none => ∀ call ∈ state.streams, call.stream.isDgram = true -> ¬ Gives kernel call.stream) ∧
  (¬ Selects kernel state.wait -> ∀ call ∈ state.streams, ¬ Gives kernel call.stream)

/-! ## Reading -/

section Reading

variable {kernel : Kernel} {stream : StreamReader} {file : File}

theorem transfer_positive {call : Syscall} {size : Nat} {back : Int} (done : file.transfer call size = some back)
    (some : 0 < back) : file.readable = true := by
  have positive : 0 < file.bytes := by
    unfold File.transfer at done
    split at done
    · cases done
      omega
    · split_ifs at done
      cases done
      omega
    · split_ifs at done
      cases done
      omega
  simp [File.readable, positive]

theorem transfer_one {call : Syscall} (readable : file.readable = true) : (file.transfer call 1).isSome := by
  have either : 1 ≤ file.bytes ∨ file.ended = true := by
    simpa [File.readable, Nat.succ_le_iff] using readable
  unfold File.transfer
  split
  · rfl
  · rw [if_pos either]
    rfl
  · rw [if_pos readable]
    rfl

theorem Made.source {struct : Struct} (made : Made stream) (descriptor : stream.endpoint = .descriptor struct) :
    stream.fd = match struct.read with
      | .pipe => struct.reader
      | .socket => struct.socket := by
  have paired := made.paired
  obtain ⟨endpoint, getFdReader⟩ := stream
  cases descriptor
  cases read : struct.read with
  | pipe => simp_all [StreamReader.Paired, StreamReader.fd, GetFd.call]
  | socket => simp_all [StreamReader.Paired, StreamReader.fd, GetFd.call]

theorem kernelTransfer_positive {call : Syscall} {fd : Int} {size : Nat} {back : Int}
    (done : kernel.transfer call fd size = some back) (some : 0 < back) : kernel.readable fd = true := by
  unfold Kernel.transfer at done
  cases opened : kernel.files fd with
  | none =>
      rw [opened] at done
      cases done
      omega
  | some file =>
      rw [opened] at done
      simpa [Kernel.readable, opened] using transfer_positive done some

theorem kernelTransfer_one {call : Syscall} {fd : Int} (readable : kernel.readable fd = true) :
    (kernel.transfer call fd 1).isSome := by
  unfold Kernel.transfer
  cases opened : kernel.files fd with
  | none => rfl
  | some file => exact transfer_one (by simpa [Kernel.readable, opened] using readable)

theorem read_positive {struct : Struct} {size : UInt32} {back : Int}
    (some : 0 < (streamRead struct size
      { interrupted := 0, transferred := back, revents := fun _ => 0, name := none }).2) :
    0 < back := by
  by_contra nothing
  have none (descriptor : Int) : (Stream.Answer.back
      { interrupted := 0, transferred := back, revents := fun _ => 0, name := none } descriptor size).toNat = 0 := by
    unfold Stream.Answer.back
    dsimp only
    split_ifs <;> omega
  unfold streamRead at some
  split_ifs at some
  · exact absurd some (by decide)
  · cases read : struct.read with
    | pipe =>
        simp only [read, Struct.readPipe, none] at some
        split_ifs at some <;> exact absurd some (by decide)
    | socket =>
        simp only [read, Struct.readSocket, none] at some
        split_ifs at some <;> exact absurd some (by decide)

theorem Made.readable_of_gives (made : Made stream) (descriptor : stream.isDgram = false)
    (gives : Gives kernel stream) : kernel.readable stream.fd = true := by
  obtain ⟨size, back, done, some⟩ := gives
  cases endpoint : stream.endpoint with
  | datagram dgram => simp [StreamReader.isDgram, endpoint] at descriptor
  | descriptor struct =>
      rw [made.source endpoint]
      simp only [Kernel.read, endpoint] at done
      split_ifs at done with zero
      · cases done
        exact absurd some (by decide)
      · obtain ⟨transferred, moved, rfl⟩ := Option.map_eq_some_iff.mp done
        have positive := read_positive some
        cases read : struct.read with
        | pipe =>
            rw [read] at moved
            exact kernelTransfer_positive moved positive
        | socket =>
            rw [read] at moved
            exact kernelTransfer_positive moved positive

theorem Made.canRead (made : Made stream) (descriptor : stream.isDgram = false)
    (readable : kernel.readable stream.fd = true) : CanRead kernel stream := by
  cases endpoint : stream.endpoint with
  | datagram dgram => simp [StreamReader.isDgram, endpoint] at descriptor
  | descriptor struct =>
      rw [made.source endpoint] at readable
      unfold CanRead Kernel.read
      rw [endpoint]
      cases read : struct.read with
      | pipe =>
          rw [read] at readable
          simpa [read] using kernelTransfer_one readable
      | socket =>
          rw [read] at readable
          simpa [read] using kernelTransfer_one readable

end Reading

/-! ## The result of waiting -/

section Waiting

variable {kernel : Kernel} {wait : Wait} {call : SelectCall}

theorem select_of_selects (prepared : wait.prepare = some call) (selects : Selects kernel wait) :
    kernel.select call =
      if (∃ fd ∈ wait.rfds, kernel.readable fd = true) ∨ wait.timeout = some (0, 0) then
        some (.ready (call.rfds.filter fun fd => fd < call.nfds && kernel.readable fd))
      else none := by
  obtain ⟨members, inside, timeout⟩ := Wait.prepare_spec prepared
  have present : ¬ ∃ fd ∈ call.rfds, fd < call.nfds ∧ kernel.files fd = none := by
    rintro ⟨fd, member, -, closed⟩
    have opened := (selects.1 fd ((members fd).mp member)).2
    simp [closed] at opened
  have valid : ¬ wait.timeout.any Kernel.negative = true := by
    rw [Option.any_eq_true]
    rintro ⟨⟨sec, microsec⟩, same, negative⟩
    have bounds := selects.2 sec microsec same
    simp only [Kernel.negative, Bool.or_eq_true, decide_eq_true_eq] at negative
    rcases negative with negative | negative
    · exact absurd bounds.1 (Int64.not_le.mpr negative)
    · exact absurd bounds.2 (Int64.not_le.mpr negative)
  have some_ready : (call.rfds.filter fun fd => fd < call.nfds && kernel.readable fd) ≠ [] ↔
      ∃ fd ∈ wait.rfds, kernel.readable fd = true := by
    simp only [ne_eq, List.filter_eq_nil_iff, not_forall, not_not, Bool.and_eq_true, decide_eq_true_eq]
    constructor
    · rintro ⟨fd, member, -, readable⟩
      exact ⟨fd, (members fd).mp member, readable⟩
    · rintro ⟨fd, member, readable⟩
      exact ⟨fd, (members fd).mpr member, (inside fd member).2, readable⟩
  simp only [Kernel.select, present, if_false, some_ready, timeout, valid, Bool.false_eq_true]

theorem find?_congr {α : Type} {list : List α} {one two : α -> Bool}
    (same : ∀ element ∈ list, one element = two element) : list.find? one = list.find? two := by
  induction list with
  | nil => rfl
  | cons element rest ih =>
      have later := ih fun other member => same other (List.mem_cons_of_mem _ member)
      simp only [List.find?_cons, same element List.mem_cons_self, later]

theorem waitDo_of_selects (selects : Selects kernel wait)
    (numbered : ∀ element ∈ wait.elements, element.number ≠ 0) :
    kernel.waitDo wait =
      match wait.elements.find? fun element => kernel.readable element.fd with
      | some element => some element.number
      | none => if wait.timeout = some (0, 0) then some wait.timerNumber else none := by
  have indexed : ∀ fd ∈ wait.rfds, Indexed fd := fun fd member => (selects.1 fd member).1
  obtain ⟨call, prepared⟩ := Option.isSome_iff_exists.mp (Wait.prepare_isSome.mpr indexed)
  obtain ⟨members, inside, -⟩ := Wait.prepare_spec prepared
  have ready : ∀ element ∈ wait.elements,
      decide (element.fd ∈ call.rfds.filter fun fd => fd < call.nfds && kernel.readable fd) =
        kernel.readable element.fd := by
    intro element member
    have present : element.fd ∈ wait.rfds := List.mem_map_of_mem member
    simp [(members element.fd).mpr present, (inside element.fd present).2]
  have reported := Wait.report_eq_find indexed numbered
    (call.rfds.filter fun fd => fd < call.nfds && kernel.readable fd)
  rw [find?_congr ready] at reported
  simp only [Kernel.waitDo, prepared, Option.bind_some, select_of_selects prepared selects]
  cases found : wait.elements.find? fun element => kernel.readable element.fd with
  | none =>
      rw [found] at reported
      have nothing : ¬ ∃ fd ∈ wait.rfds, kernel.readable fd = true := by
        rintro ⟨fd, member, readable⟩
        obtain ⟨element, present, rfl⟩ := List.mem_map.mp member
        exact List.find?_eq_none.mp found element present readable
      by_cases expired : wait.timeout = some (0, 0)
      · simp [expired, Wait.doWith_ready prepared, reported]
      · simp [expired, nothing]
  | some element =>
      rw [found] at reported
      have readable := List.find?_some found
      have something : ∃ fd ∈ wait.rfds, kernel.readable fd = true :=
        ⟨element.fd, List.mem_map_of_mem (List.mem_of_find?_eq_some found), readable⟩
      simp [something, Wait.doWith_ready prepared, reported]

theorem waitDo_of_not_selects (fails : ¬ Selects kernel wait) : kernel.waitDo wait = none := by
  cases prepared : wait.prepare with
  | none => simp [Kernel.waitDo, prepared]
  | some call =>
      obtain ⟨members, inside, timeout⟩ := Wait.prepare_spec prepared
      have failed : ∃ errno, kernel.select call = some (.failed errno) := by
        unfold Kernel.select
        split_ifs with closed invalid
        · exact ⟨_, rfl⟩
        · exact ⟨_, rfl⟩
        all_goals
          refine absurd ⟨fun fd member => ⟨(inside fd member).1, ?_⟩, fun sec microsec same => ?_⟩ fails
          · by_contra missing
            exact closed ⟨fd, (members fd).mpr member, (inside fd member).2, by simpa using missing⟩
          · have valid : Kernel.negative (sec, microsec) = false := by
              simpa [timeout, same] using invalid
            simp only [Kernel.negative, Bool.or_eq_false_iff, decide_eq_false_iff_not] at valid
            exact ⟨Int64.not_lt.mp valid.1, Int64.not_lt.mp valid.2⟩
      obtain ⟨errno, failed⟩ := failed
      obtain ⟨lastErrno, reports, calling⟩ := answered_failed wait.report 0 errno 0 0
      simp [Kernel.waitDo, prepared, failed, Wait.doWith, Transition.exec, calling]

end Waiting

/-! ## The streams of a wait set -/

/-- The elements are those of the streams, and no two calls have got the same number. -/
structure Consistent (state : State) (count : Nat) : Prop where
  room : Room state.wait count
  elements : state.wait.elements = state.streams.map fun call => { number := call.number, fd := call.stream.fd }
  made : ∀ call ∈ state.streams, Made call.stream
  numbers : ∀ number ∈ state.streams.map Registered.number,
    number ≠ 0 ∧ number.toNat ≤ state.wait.maxNumber.toNat ∧ number ≠ state.wait.timerNumber
  apart : (state.streams.map Registered.number).Nodup

section Consistent

variable {state : State} {count : Nat}

theorem Consistent.change (consistent : Consistent state count) {change : StreamReader -> StreamReader}
    (fd : ∀ stream, (change stream).fd = stream.fd) (made : ∀ stream, Made stream -> Made (change stream))
    (numbers : List UInt32) : Consistent (state.change numbers change) count := by
  have same : (state.change numbers change).streams.map Registered.number = state.streams.map Registered.number :=
    map_change Registered.number fun _ => rfl
  refine ⟨consistent.room, ?_, fun call member => ?_, ?_, ?_⟩
  · rw [map_change]
    · exact consistent.elements
    · exact fun call => by rw [fd]
  · obtain ⟨old, present, -, stays | changed⟩ := mem_change member
    · exact stays ▸ consistent.made old present
    · exact changed ▸ made _ (consistent.made old present)
  · rw [same]
    exact consistent.numbers
  · rw [same]
    exact consistent.apart

theorem Consistent.timer (consistent : Consistent state (count + 1)) (sec microsec : Int64) :
    Consistent (state.after (.timer sec microsec)) count := by
  have succ := consistent.room.succ
  obtain ⟨elements, counter, number⟩ := Timer.addTimer_frame state.wait sec microsec
  refine ⟨consistent.room.addTimer sec microsec, elements.trans consistent.elements, consistent.made,
    fun old member => ?_, consistent.apart⟩
  obtain ⟨nonzero, below, other⟩ := consistent.numbers old member
  refine ⟨nonzero, ?_, ?_⟩
  · simp only [State.after, counter, succ]
    omega
  · simp only [State.after]
    rcases number with new | same
    · rw [new]
      exact (consistent.room.apart below).symm
    · rw [same]
      exact other

theorem Consistent.reader (consistent : Consistent state (count + 1)) {stream : StreamReader} (made : Made stream) :
    Consistent (state.after (.reader stream made)) count := by
  have succ := consistent.room.succ
  simp only [State.after, made.add]
  refine ⟨consistent.room.addStreamReaderFd stream.fd, ?_, ?_, ?_, ?_⟩
  · simp [waitAddStreamReaderFd, consistent.elements]
  · rw [List.forall_mem_append]
    exact ⟨consistent.made, by simpa using made⟩
  · rw [List.map_append, List.forall_mem_append]
    refine ⟨fun number member => ?_, ?_⟩
    · obtain ⟨nonzero, below, other⟩ := consistent.numbers number member
      exact ⟨nonzero, by simp only [waitAddStreamReaderFd, succ]; omega, other⟩
    · simp only [waitAddStreamReaderFd, List.map_cons, List.map_nil, List.mem_singleton, forall_eq]
      exact ⟨consistent.room.ne_zero, le_refl _, consistent.room.apart consistent.room.1⟩
  · rw [List.map_append, List.nodup_append]
    refine ⟨consistent.apart, by simp, ?_⟩
    intro number member other new same
    rw [List.map_singleton, List.mem_singleton] at new
    exact consistent.room.apart (consistent.numbers number member).2.1 (new.symm.trans same.symm)

/-- The calls that take a number. -/
def Op.adds : Op -> Bool
  | .timer .. | .reader .. => true
  | .close .. | .read .. => false

theorem Consistent.run {ops : List Op} (consistent : Consistent state (ops.countP Op.adds)) :
    Consistent (ops.foldl State.after state) 0 := by
  induction ops generalizing state with
  | nil => exact consistent
  | cons op rest ih =>
      cases op with
      | timer sec microsec => exact ih (Consistent.timer (by simpa [List.countP_cons, Op.adds] using consistent) _ _)
      | reader stream made => exact ih (Consistent.reader (by simpa [List.countP_cons, Op.adds] using consistent) made)
      | close numbers direction =>
          refine ih (Consistent.change ?_ (fun stream => close_fd stream direction) (fun _ made => made.close direction)
            numbers)
          simpa [List.countP_cons, Op.adds] using consistent
      | read numbers size =>
          refine ih (Consistent.change ?_ (fun stream => getD_read_fd stream size) (fun _ made => made.getD_read size)
            numbers)
          simpa [List.countP_cons, Op.adds] using consistent

theorem consistent_fresh {sec microsec : Int64} (few : count < 2 ^ 32) : Consistent (fresh sec microsec) count :=
  ⟨⟨le_refl _, by simpa [fresh, waitCreate] using few⟩, rfl, by simp [fresh], by simp [fresh], by simp [fresh]⟩

variable {kernel : Kernel}

/-- What `zs__wait_do` returns without a descriptor that can be read. -/
def quiet (wait : Wait) : Option UInt32 := if wait.timeout = some (0, 0) then some wait.timerNumber else none

theorem Consistent.quiet_ne (consistent : Consistent state count) {call : Registered}
    (member : call ∈ state.streams) : quiet state.wait ≠ some call.number := by
  unfold quiet
  have other := (consistent.numbers call.number (List.mem_map_of_mem member)).2.2
  split_ifs with expired
  · exact fun same => other (Option.some.inj same).symm
  · simp

theorem Consistent.waitDo (consistent : Consistent state count) (selects : Selects kernel state.wait) :
    kernel.waitDo state.wait =
      match state.streams.find? fun call => kernel.readable call.stream.fd with
      | some call => some call.number
      | none => quiet state.wait := by
  have numbered : ∀ element ∈ state.wait.elements, element.number ≠ 0 := by
    rw [consistent.elements, List.forall_mem_map]
    exact fun call member => (consistent.numbers call.number (List.mem_map_of_mem member)).1
  rw [waitDo_of_selects selects numbered, consistent.elements, List.find?_map]
  simp only [Function.comp_def]
  cases state.streams.find? fun call => kernel.readable call.stream.fd with
  | none => rfl
  | some call => rfl

theorem silent_readable (kernel : Kernel) (fd : Int) : kernel.silent.readable fd = false := by
  cases opened : kernel.files fd with
  | none => simp [Kernel.readable, Kernel.silent, opened]
  | some file => simp [Kernel.readable, Kernel.silent, opened, File.readable]

theorem Consistent.waitDo_silent (consistent : Consistent state count) (selects : Selects kernel state.wait) :
    kernel.silent.waitDo state.wait = quiet state.wait := by
  have silent : Selects kernel.silent state.wait :=
    ⟨fun fd member => ⟨(selects.1 fd member).1, by simpa [Kernel.silent] using (selects.1 fd member).2⟩,
      selects.2⟩
  have nothing : (state.streams.find? fun call => kernel.silent.readable call.stream.fd) = none :=
    List.find?_eq_none.mpr fun call _ => by simp [silent_readable]
  rw [consistent.waitDo silent, nothing]

theorem Consistent.agreement_iff (consistent : Consistent state count) :
    Agreement kernel state ↔ Fits kernel state := by
  by_cases selects : Selects kernel state.wait
  · have silent := consistent.waitDo_silent selects
    have done := consistent.waitDo selects
    unfold Fits
    simp only [selects, not_true_eq_false, false_implies, and_true, forall_const]
    cases found : state.streams.find? fun call => kernel.readable call.stream.fd with
    | some first =>
        have member := List.mem_of_find?_eq_some found
        have readable := List.find?_some found
        simp only [found] at done
        refine ⟨fun agreement => ?_, fun descriptor => ⟨fun _ => ?_, fun call present dgram same => ?_⟩⟩
        · by_contra dgram
          have own := agreement.own first member (by simpa using dgram) done
          exact consistent.quiet_ne member (silent.symm.trans own)
        · exact ⟨first, member, done, (consistent.made first member).canRead descriptor readable⟩
        · have equal : call = first := List.inj_on_of_nodup_map consistent.apart present member
            (Option.some.inj (same.symm.trans done))
          simp [equal, descriptor] at dgram
    | none =>
        simp only [found] at done
        refine ⟨fun agreement call present dgram gives => ?_, fun fits => ⟨?_, fun call present _ same => ?_⟩⟩
        · obtain ⟨other, member, same, -⟩ := agreement.reports ⟨call, present, gives⟩
          exact consistent.quiet_ne member (done.symm.trans same)
        · rintro ⟨call, present, gives⟩
          cases dgram : call.stream.isDgram with
          | true => exact absurd gives (fits call present dgram)
          | false =>
              have readable := (consistent.made call present).readable_of_gives dgram gives
              exact absurd readable (List.find?_eq_none.mp found call present)
        · exact absurd (done.symm.trans same) (consistent.quiet_ne present)
  · have done : kernel.waitDo state.wait = none := waitDo_of_not_selects selects
    unfold Fits
    simp only [selects, false_implies, not_false_eq_true, forall_const, true_and]
    refine ⟨fun agreement call present gives => ?_, fun nothing => ⟨?_, fun call present _ same => ?_⟩⟩
    · obtain ⟨other, -, same, -⟩ := agreement.reports ⟨call, present, gives⟩
      simp [done] at same
    · rintro ⟨call, present, gives⟩
      exact absurd gives (nothing call present)
    · simp [done] at same

end Consistent

theorem waiting_agrees_iff (kernel : Kernel) (sec microsec : Int64) (ops : List Op)
    (few : ops.countP Op.adds < 2 ^ 32) :
    Agreement kernel (ops.foldl State.after (fresh sec microsec)) ↔
      Fits kernel (ops.foldl State.after (fresh sec microsec)) :=
  (consistent_fresh few).run.agreement_iff

def kernelWith (fd : Nat) (file : File) : Kernel where
  files other := if other = fd then some file else none
  opened other opened := by
    split_ifs at opened with same
    · omega
    · cases opened

theorem waiting_agrees_iff_pipe :
    Agreement (kernelWith 4 { kind := .bytes, bytes := 2, ended := false })
      ([.timer 1 0, .reader (createPipe 4 5) (.pipe 4 5)].foldl State.after (fresh 0 0)) := by
  refine (waiting_agrees_iff _ 0 0 [.timer 1 0, .reader (createPipe 4 5) (.pipe 4 5)] (by decide)).mpr
    ⟨fun _ => rfl, ?_⟩
  refine fun fails => absurd ⟨?_, ?_⟩ fails
  · intro fd member
    obtain rfl : fd = 4 := List.mem_singleton.mp member
    exact ⟨by decide, by decide⟩
  · rintro sec microsec ⟨⟩
    decide

/-- A datagram of three bytes, while the socket 3 of its server has nothing to read. -/
theorem waiting_agrees_iff_fails : ∃ (made : Made (createDgram Server.threeBytes)),
    ¬ Agreement (kernelWith 3 { kind := .datagramSocket, bytes := 0, ended := false })
      ([.reader (createDgram Server.threeBytes) made].foldl State.after (fresh 0 0)) := by
  have made : Made (createDgram Server.threeBytes) := .dgram
    { socketType := .dgram, stream := streamCreatePipe 4 5, socket := 3 }
    (.datagram [1, 2, 3] { address := (127, 0, 0, 1), port := (19, 136) }) rfl
  refine ⟨made, fun agreement => ?_⟩
  obtain ⟨call, -, done, -⟩ := agreement.reports ⟨_, List.mem_singleton_self _, 1, 1, by decide, by decide⟩
  have waits : (kernelWith 3 { kind := .datagramSocket, bytes := 0, ended := false }).waitDo
      ([.reader (createDgram Server.threeBytes) made].foldl State.after (fresh 0 0)).wait = none := rfl
  exact absurd (waits.symm.trans done) (by simp)

end ZSystem.Readers
