import ZSystem.Server.Datagram
import ZSystem.Stream.Descriptors

set_option autoImplicit false

/-!
# When a direction is reported as closed

`IsClosed` of `ZSReader` and `ZSWriter` asks one of three functions for the state of the stream. Each of them
looks at `closed` first, and at what `poll` reports only in some cases.
-/

namespace ZSystem.Stream

open ZSystem.Server (Dgram serverStateDgram)

inductive Endpoint where
  | descriptor (stream : Struct)
  | datagram (stream : Dgram)
  deriving DecidableEq, Repr

def Endpoint.closed : Endpoint -> UInt8
  | .descriptor stream => stream.closed
  | .datagram stream => stream.closed

def Endpoint.isShut (endpoint : Endpoint) (direction : Direction) : Prop :=
  endpoint.closed &&& direction.bit ≠ 0

instance (endpoint : Endpoint) (direction : Direction) : Decidable (endpoint.isShut direction) :=
  inferInstanceAs (Decidable (_ ≠ _))

/-- What `poll` stores in `revents`; a datagram stream and a socket are polled once. -/
abbrev Polled := Direction -> UInt32

/-- `zs__stream_state`. -/
def Endpoint.state (polled : Polled) : Endpoint -> UInt32
  | .descriptor stream => (streamState stream { interrupted := 0, transferred := 0, revents := polled, name := none }).2
  | .datagram stream => serverStateDgram stream (polled .reader)

def Direction.flag : Direction -> UInt32
  | .reader => readerClosed
  | .writer => writerClosed

/-- `ZSReader::IsClosed` and `ZSWriter::IsClosed`. -/
def Endpoint.isClosed (endpoint : Endpoint) (direction : Direction) (polled : Polled) : Bool :=
  endpoint.state polled &&& direction.flag ≠ 0

/-- The state function calls `poll` for a direction that is not closed. -/
def Endpoint.polls : Endpoint -> Bool
  | .descriptor stream => stream.state = .pipe ∨ stream.closed &&& 0x03 = 0
  | .datagram stream => stream.closed &&& 0x03 = 0

theorem flag_or (flags more flag : UInt32) :
    (flags ||| more) &&& flag ≠ 0 ↔ flags &&& flag ≠ 0 ∨ more &&& flag ≠ 0 := by
  have split : (flags ||| more) &&& flag = 0 ↔ flags &&& flag = 0 ∧ more &&& flag = 0 := by
    simp only [← UInt32.toBitVec_inj, UInt32.toBitVec_and, UInt32.toBitVec_or, BitVec.and_or_distrib_right]
    exact BitVec.or_eq_zero_iff
  rw [ne_eq, split, not_and_or]

theorem mask_or (revents one two : UInt32) :
    revents &&& (one ||| two) ≠ 0 ↔ revents &&& one ≠ 0 ∨ revents &&& two ≠ 0 := by
  simpa only [UInt32.and_comm revents] using flag_or one two revents

def hangup : UInt32 := pollErr ||| pollHup ||| pollNval

section Reports

variable {stream : Struct} {dgram : Dgram} {direction : Direction} {polled : Polled}

theorem flags_apart :
    readerClosed &&& readerClosed ≠ 0 ∧ writerClosed &&& writerClosed ≠ 0 ∧ readerClosed &&& writerClosed = 0 ∧
      writerClosed &&& readerClosed = 0 ∧ readerEof &&& readerClosed = 0 ∧ readerEof &&& writerClosed = 0 ∧
      (0 : UInt32) &&& readerClosed = 0 ∧ (0 : UInt32) &&& writerClosed = 0 := by
  decide

theorem isClosed_pipe (pipe : stream.state = .pipe) :
    (Endpoint.descriptor stream).isClosed direction polled = true ↔
      (Endpoint.descriptor stream).isShut direction ∨ polled direction &&& hangup ≠ 0 := by
  obtain ⟨reader, writer, readerWriter, writerReader, eofReader, eofWriter, noReader, noWriter⟩ := flags_apart
  simp only [Endpoint.isClosed, Endpoint.state, streamState, pipe, Struct.statePipe, decide_eq_true_eq,
    Endpoint.isShut, Endpoint.closed]
  cases direction <;> simp only [Direction.flag, Direction.bit, flag_or, readerFlags, writerFlags, hangup] <;>
    split_ifs <;> simp_all

theorem isClosed_socket (socket : stream.state = .socket) :
    (Endpoint.descriptor stream).isClosed direction polled = true ↔
      (Endpoint.descriptor stream).isShut direction ∨ stream.closed &&& 0x03 = 0 ∧
        (polled .reader &&& (pollErr ||| pollNval) ≠ 0 ∨
          polled .reader &&& pollHup ≠ 0 ∧ (direction = .writer ∨ polled .reader &&& pollPri = 0)) := by
  obtain ⟨reader, writer, readerWriter, writerReader, eofReader, eofWriter, noReader, noWriter⟩ := flags_apart
  simp only [Endpoint.isClosed, Endpoint.state, streamState, socket, Struct.stateSocket, decide_eq_true_eq,
    Endpoint.isShut, Endpoint.closed]
  by_cases opened : stream.closed &&& 0x03 = 0
  · simp only [opened, if_true]
    cases direction <;> simp only [Direction.flag, Direction.bit, flag_or, socketFlags] <;>
      split_ifs <;> simp_all [flag_or]
  · simp only [opened, if_false]
    cases direction <;> simp only [Direction.flag, Direction.bit, flag_or] <;>
      split_ifs <;> simp_all

theorem isClosed_datagram :
    (Endpoint.datagram dgram).isClosed direction polled = true ↔
      (Endpoint.datagram dgram).isShut direction ∨
        direction = .writer ∧ dgram.closed &&& 0x03 = 0 ∧
          polled .reader &&& (pollErr ||| pollNval ||| pollHup) ≠ 0 := by
  obtain ⟨reader, writer, readerWriter, writerReader, eofReader, eofWriter, noReader, noWriter⟩ := flags_apart
  simp only [Endpoint.isClosed, Endpoint.state, serverStateDgram, Endpoint.isShut, Endpoint.closed]
  cases direction <;> simp only [Direction.flag, Direction.bit, flag_or] <;>
    split_ifs <;> simp_all

theorem isClosed_of_shut {endpoint : Endpoint} (shut : endpoint.isShut direction) (polled : Polled) :
    endpoint.isClosed direction polled = true := by
  cases endpoint with
  | descriptor stream =>
      cases state : stream.state with
      | pipe => exact (isClosed_pipe state).mpr (Or.inl shut)
      | socket => exact (isClosed_socket state).mpr (Or.inl shut)
  | datagram stream => exact isClosed_datagram.mpr (Or.inl shut)

end Reports

end ZSystem.Stream
