import Mathlib.Data.UInt
import Mathlib.Data.List.Basic

set_option autoImplicit false

/-!
# Streams over a kernel pipe

A pipe is a FIFO of bytes. A stream reads from one pipe and writes to another one, or to the same one
when `zs__stream_create_pipe` has made it.
-/

namespace ZSystem.Stream

/-! ## The kernel -/

/-- A pipe: the bytes written and not yet read, and the number of its open ends. -/
structure Pipe where
  unread : List UInt8 := []
  writers : Nat
  readers : Nat
  deriving DecidableEq, Repr

def pollIn : UInt32 := 0x001
def pollPri : UInt32 := 0x002
def pollErr : UInt32 := 0x008
def pollHup : UInt32 := 0x010
def pollNval : UInt32 := 0x020

def Pipe.pollReader (pipe : Pipe) : UInt32 :=
  (if pipe.unread = [] then 0 else pollIn) ||| (if pipe.writers = 0 then pollHup else 0)

/-- `poll` on a write end, without a request for `POLLOUT`. -/
def Pipe.pollWriter (pipe : Pipe) : UInt32 := if pipe.readers = 0 then pollErr else 0

/-- `read` on a read end; `none` while it has to wait. -/
def Pipe.read (pipe : Pipe) (size : Nat) : Option (List UInt8 × Pipe) :=
  if pipe.unread = [] ∧ pipe.writers ≠ 0 then none
  else some (pipe.unread.take size, { pipe with unread := pipe.unread.drop size })

def Pipe.write (pipe : Pipe) (bytes : List UInt8) : Pipe :=
  { pipe with unread := pipe.unread ++ bytes }

def Pipe.openWriter (pipe : Pipe) : Pipe := { pipe with writers := pipe.writers + 1 }

def Pipe.closeWriter (pipe : Pipe) : Pipe := { pipe with writers := pipe.writers - 1 }

/-! ## `zs__stream_*_pipe` -/

def readerClosed : UInt32 := 0x0001
def readerEof : UInt32 := 0x0002
def writerClosed : UInt32 := 0x0004

/--
`struct zs__stream` for pipes: what it reads from, what it writes to and which ends it has closed.
Where `writer` is `none` it writes to the pipe that it reads from.
-/
structure PipeStream where
  reader : Pipe
  writer : Option Pipe
  closed : UInt8
  deriving DecidableEq, Repr

def PipeStream.output (stream : PipeStream) : Pipe := stream.writer.getD stream.reader

/-- The part of `zs__stream_state_pipe` about the reader. -/
def PipeStream.readerState (stream : PipeStream) : UInt32 :=
  if stream.closed &&& 0x01 ≠ 0 then readerClosed else
    let revents := stream.reader.pollReader
    if revents &&& (pollErr ||| pollHup ||| pollNval) ≠ 0 then readerClosed
    else if revents &&& (pollIn ||| pollPri) = 0 then readerEof
    else 0

def PipeStream.writerState (stream : PipeStream) : UInt32 :=
  if stream.closed &&& 0x02 ≠ 0 then writerClosed
  else if stream.output.pollWriter &&& (pollErr ||| pollHup ||| pollNval) ≠ 0 then writerClosed
  else 0

/-- `zs__stream_state_pipe` on a stream that is not null. -/
def statePipe (stream : PipeStream) : UInt32 := stream.readerState ||| stream.writerState

/--
`zs__stream_read` with `zs__stream_read_pipe` on a stream that is not null: the bytes put into the
buffer, none at the end of the input; the length of the list is what it returns.
-/
def readPipe (stream : PipeStream) (size : Nat) : Option (List UInt8 × PipeStream) :=
  if size = 0 then some ([], stream)
  else (stream.reader.read size).map fun (bytes, pipe) => (bytes, { stream with reader := pipe })

/-- `zs__stream_close_writer_pipe`. -/
def closeWriterPipe (stream : PipeStream) : PipeStream :=
  if stream.closed &&& 0x02 = 0 then
    match stream.writer with
    | none => { stream with reader := stream.reader.closeWriter, closed := stream.closed ||| 0x02 }
    | some pipe => { stream with writer := some pipe.closeWriter, closed := stream.closed ||| 0x02 }
  else stream

/-- `ZSReader::IsClosed` on a reader with a stream. -/
def isClosed (stream : PipeStream) : Bool := statePipe stream &&& readerClosed ≠ 0

theorem pollReader_hangup (pipe : Pipe) :
    pipe.pollReader &&& (pollErr ||| pollHup ||| pollNval) ≠ 0 ↔ pipe.writers = 0 := by
  unfold Pipe.pollReader
  split_ifs with empty alone alone <;> simp only [alone, iff_true, iff_false] <;> decide

theorem writerState_cases (stream : PipeStream) :
    stream.writerState = writerClosed ∨ stream.writerState = 0 := by
  unfold PipeStream.writerState
  split_ifs
  · exact Or.inl rfl
  · exact Or.inl rfl
  · exact Or.inr rfl

theorem readerState_cases (stream : PipeStream) :
    stream.readerState = readerClosed ∨ stream.readerState = readerEof ∨ stream.readerState = 0 := by
  simp only [PipeStream.readerState]
  split_ifs
  · exact Or.inl rfl
  · exact Or.inl rfl
  · exact Or.inr (Or.inl rfl)
  · exact Or.inr (Or.inr rfl)

theorem isClosed_iff {stream : PipeStream} (here : stream.closed &&& 0x01 = 0) :
    isClosed stream = true ↔ stream.reader.writers = 0 := by
  have writer := writerState_cases stream
  have hangup := pollReader_hangup stream.reader
  rw [isClosed, statePipe]
  by_cases alone : stream.reader.writers = 0
  · have closed : stream.readerState = readerClosed := by
      simp only [PipeStream.readerState, here, ne_eq, not_true_eq_false, if_false,
        hangup.mpr alone, not_false_eq_true, if_true]
    rcases writer with writer | writer <;> simp only [closed, writer, alone, iff_true] <;> decide
  · have opened : stream.readerState = readerEof ∨ stream.readerState = 0 := by
      have quiet := not_not.mp fun polled => alone (hangup.mp polled)
      simp only [PipeStream.readerState, here, quiet, ne_eq, not_true_eq_false, if_false]
      split_ifs
      · exact Or.inl rfl
      · exact Or.inr rfl
    rcases opened with eof | ready
    · rcases writer with writer | writer <;> simp only [eof, writer, alone, iff_false] <;> decide
    · rcases writer with writer | writer <;> simp only [ready, writer, alone, iff_false] <;> decide

theorem closeWriterPipe_reader_open {stream : PipeStream} (here : stream.closed &&& 0x01 = 0) :
    (closeWriterPipe stream).closed &&& 0x01 = 0 := by
  have bits : (stream.closed ||| 0x02) &&& 0x01 = 0 := by
    have same := UInt8.toBitVec_inj.mpr here
    apply UInt8.toBitVec_inj.mp
    rw [UInt8.toBitVec_and] at same ⊢
    rw [UInt8.toBitVec_or, BitVec.and_or_distrib_right, same]
    decide
  unfold closeWriterPipe
  split_ifs
  · cases stream.writer with
    | none => exact bits
    | some pipe => exact bits
  · exact here

end ZSystem.Stream
