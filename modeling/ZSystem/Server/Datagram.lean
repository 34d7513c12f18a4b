import ZSystem.Server.Run

set_option autoImplicit false

/-!
# The stream of a datagram

`zs__server_run_dgram` keeps what it has received in a buffer of the stream, and a read takes it from there.
-/

namespace ZSystem.Server

open Transition
open ZSystem.Stream (Direction bits_or pollErr pollHup pollNval readerClosed writerClosed)

/-! ## `zs__server_*` on a stream -/

/-- A buffer of no bytes stands for a null pointer. The number is that of the buffers that are freed. -/
def serverCloseReaderBuffer (stream : Dgram) : Dgram × Nat :=
  if stream.closed &&& 0x01 = 0 then
    let stream := { stream with closed := stream.closed ||| 0x01 }
    if stream.readBuffer ≠ [] then
      ({ stream with readBuffer := [], readBufferCur := 0, readBufferLength := 0 }, 1)
    else (stream, 0)
  else (stream, 0)

def serverCloseWriter (stream : Dgram) : Dgram :=
  if stream.closed &&& 0x02 = 0 then { stream with closed := stream.closed ||| 0x02 } else stream

/-- `none` where `memcpy` would leave the buffer. -/
def serverReadBuffer (stream : Dgram) (size : UInt32) : Option (List UInt8 × Dgram × Nat) :=
  let left := stream.readBufferLength - stream.readBufferCur
  let size := if left < size then left else size
  if stream.readBufferCur.toNat + size.toNat ≤ stream.readBuffer.length then
    let bytes := (stream.readBuffer.drop stream.readBufferCur.toNat).take size.toNat
    let stream := { stream with readBufferCur := stream.readBufferCur + size }
    if stream.readBufferCur = stream.readBufferLength then
      let (stream, freed) := serverCloseReaderBuffer stream
      some (bytes, stream, freed)
    else some (bytes, stream, 0)
  else none

/-- `htons`, with the conversion of an `int` to its argument. -/
def htons (port : Int) : UInt8 × UInt8 :=
  (UInt8.ofInt (port / 256), UInt8.ofInt port)

/-- A call of `sendto` with an address of the family `AF_INET`. -/
structure SendTo where
  socket : Int
  size : UInt32
  remoteHost : SockAddrIn
  deriving DecidableEq, Repr

/-- `back` is what `sendto` returns. -/
def serverWriteDgram (stream : Dgram) (size : UInt32) (back : Int) : SendTo × UInt32 :=
  ({ socket := stream.socket
     size := size
     remoteHost := { address := stream.remoteIpv4Address, port := htons stream.remotePort } },
    if back < 0 then 0 else UInt32.ofNat back.toNat)

/-- `revents` is what `poll` stores if it is called. -/
def serverStateDgram (stream : Dgram) (revents : UInt32) : UInt32 :=
  (if stream.closed &&& 0x01 ≠ 0 then readerClosed else 0) |||
  (if stream.closed &&& 0x02 ≠ 0 then writerClosed else 0) |||
  (if stream.closed &&& 0x03 = 0 then
    if revents &&& (pollErr ||| pollNval ||| pollHup) ≠ 0 then writerClosed else 0
  else 0)

def serverGetFdDgram (stream : Dgram) : Int := stream.socket

/-- `zs__stream_read`. -/
def Dgram.read (stream : Dgram) (size : UInt32) : Option (List UInt8 × Dgram × Nat) :=
  if 0 < size then serverReadBuffer stream size else some ([], stream, 0)

/-- `zs__stream_destroy`, and how many buffers it frees. -/
def Dgram.destroy (stream : Dgram) : Dgram × Nat :=
  let (stream, freed) := serverCloseReaderBuffer stream
  (serverCloseWriter stream, freed)

/-! ## A stream in use -/

inductive DgramOp where
  | read (size : UInt32)
  -- `zs__stream_write`, for which `sendto` returns `back`.
  | write (size : UInt32) (back : Int)
  | state (revents : UInt32)
  | closeReader
  | closeWriter
  deriving DecidableEq, Repr

structure DgramSession where
  stream : Dgram
  -- All bytes that the reads have put into their buffers.
  returned : List UInt8
  frees : Nat
  deriving DecidableEq, Repr

def DgramSession.step (session : DgramSession) : DgramOp -> Option DgramSession
  | .read size =>
      (session.stream.read size).map fun (bytes, stream, freed) =>
        { stream := stream, returned := session.returned ++ bytes, frees := session.frees + freed }
  | .write _ _ | .state _ => some session
  | .closeReader =>
      let (stream, freed) := serverCloseReaderBuffer session.stream
      some { session with stream := stream, frees := session.frees + freed }
  | .closeWriter => some { session with stream := serverCloseWriter session.stream }

def Dgram.session (stream : Dgram) : DgramSession := { stream := stream, returned := [], frees := 0 }

/-- What the reads ask for until the reader is closed explicitly. -/
def requested : List DgramOp -> Nat
  | [] => 0
  | .read size :: rest => size.toNat + requested rest
  | .closeReader :: _ => 0
  | .write _ _ :: rest | .state _ :: rest | .closeWriter :: rest => requested rest

def Dgram.isShut (stream : Dgram) : Prop := stream.closed &&& 0x01 ≠ 0

/-- After `ops` on a fresh stream that holds `bytes`. -/
structure Delivers (bytes : List UInt8) (ops : List DgramOp) (session : DgramSession) : Prop where
  returned : session.returned = bytes.take (min bytes.length (requested ops))
  inside : session.stream.readBufferCur ≤ session.stream.readBufferLength
  shut : session.stream.isShut ↔ session.returned = bytes ∨ .closeReader ∈ ops
  silent : session.stream.isShut -> ∀ size, session.stream.read size = some ([], session.stream, 0)
  freed : session.frees + session.stream.destroy.2 = 1

/-! ## Every session -/

structure Filled (bytes : List UInt8) (session : DgramSession) : Prop where
  shut : session.stream.closed &&& 0x01 = 0
  buffer : session.stream.readBuffer = bytes
  length : session.stream.readBufferLength.toNat = bytes.length
  cur : session.stream.readBufferCur.toNat = session.returned.length
  returned : session.returned = bytes.take session.returned.length
  more : session.returned.length < bytes.length
  frees : session.frees = 0

structure Emptied (session : DgramSession) : Prop where
  shut : session.stream.closed &&& 0x01 ≠ 0
  buffer : session.stream.readBuffer = []
  length : session.stream.readBufferLength = 0
  cur : session.stream.readBufferCur = 0
  frees : session.frees = 1

section Session

variable {bytes : List UInt8} {session : DgramSession} {stream : Dgram}

theorem reader_shut (closed : UInt8) : (closed ||| 0x01) &&& 0x01 ≠ 0 := fun none =>
  ((bits_or closed .reader .reader).mp none).1 rfl

theorem reader_of_writer (closed : UInt8) : (closed ||| 0x02) &&& 0x01 = 0 ↔ closed &&& 0x01 = 0 := by
  have apart : Direction.reader ≠ .writer := by decide
  exact (bits_or closed .writer .reader).trans (and_iff_right apart)

theorem closeReader_filled (opened : stream.closed &&& 0x01 = 0) (filled : stream.readBuffer ≠ []) :
    serverCloseReaderBuffer stream =
      ({ stream with closed := stream.closed ||| 0x01, readBuffer := [], readBufferCur := 0, readBufferLength := 0 },
        1) := by
  simp [serverCloseReaderBuffer, opened, filled]

theorem closeReader_again (shut : stream.closed &&& 0x01 ≠ 0) : serverCloseReaderBuffer stream = (stream, 0) := by
  simp [serverCloseReaderBuffer, shut]

theorem Emptied.read (emptied : Emptied session) (size : UInt32) :
    session.stream.read size = some ([], session.stream, 0) := by
  obtain ⟨⟨buffer, cur, length, type, address, port, socket, closed⟩, returned, frees⟩ := session
  obtain ⟨shut, rfl, rfl, rfl, -⟩ := emptied
  by_cases some : 0 < size
  · simp [Dgram.read, some, serverReadBuffer, closeReader_again shut]
  · simp [Dgram.read, some]

theorem clip_toNat (size left : UInt32) :
    (if left < size then left else size).toNat = min size.toNat left.toNat := by
  split_ifs with beyond
  · rw [UInt32.lt_iff_toNat_lt] at beyond
    omega
  · rw [UInt32.lt_iff_toNat_lt] at beyond
    omega

theorem Filled.left (filled : Filled bytes session) :
    (session.stream.readBufferLength - session.stream.readBufferCur).toNat =
      bytes.length - session.returned.length := by
  have fits : session.stream.readBufferCur ≤ session.stream.readBufferLength := by
    rw [UInt32.le_iff_toNat_le, filled.cur, filled.length]
    exact filled.more.le
  rw [UInt32.toNat_sub_of_le _ _ fits, filled.cur, filled.length]

/-- A read takes what it asks for, or what is left of the buffer. -/
theorem Filled.read (filled : Filled bytes session) (size : UInt32) :
    ∃ next, session.step (.read size) = some next ∧
      next.returned = bytes.take (min bytes.length (session.returned.length + size.toNat)) ∧
      (Filled bytes next ∨ Emptied next ∧ next.returned = bytes) := by
  by_cases asked : 0 < size
  · have more := filled.more
    have small := session.stream.readBufferLength.toNat_lt
    have total := filled.length
    generalize clipped : (if session.stream.readBufferLength - session.stream.readBufferCur < size
      then session.stream.readBufferLength - session.stream.readBufferCur else size) = count
    have amount := clip_toNat size (session.stream.readBufferLength - session.stream.readBufferCur)
    rw [clipped, filled.left] at amount
    have ahead : (session.stream.readBufferCur + count).toNat = session.returned.length + count.toNat := by
      rw [UInt32.toNat_add, filled.cur, Nat.mod_eq_of_lt (by omega)]
    have inside : session.stream.readBufferCur.toNat + count.toNat ≤ session.stream.readBuffer.length := by
      rw [filled.cur, filled.buffer]
      omega
    have taken : session.returned ++
        (session.stream.readBuffer.drop session.stream.readBufferCur.toNat).take count.toNat =
          bytes.take (session.returned.length + count.toNat) := by
      rw [List.take_add, ← filled.returned, filled.buffer, filled.cur]
    have much : session.returned.length + count.toNat =
        min bytes.length (session.returned.length + size.toNat) := by omega
    have length : (bytes.take (session.returned.length + count.toNat)).length =
        session.returned.length + count.toNat := by
      rw [List.length_take]
      omega
    have nonempty : bytes ≠ [] := List.ne_nil_of_length_pos (by omega)
    simp only [DgramSession.step, Dgram.read, if_pos asked, serverReadBuffer, clipped, if_pos inside]
    by_cases last : session.stream.readBufferCur + count = session.stream.readBufferLength
    · have all : session.returned.length + count.toNat = bytes.length := by rw [← ahead, last, total]
      have whole : bytes.take (session.returned.length + count.toNat) = bytes := by rw [all, List.take_length]
      have closes := @closeReader_filled
        { session.stream with readBufferCur := session.stream.readBufferCur + count }
        filled.shut (by simpa [filled.buffer] using nonempty)
      rw [if_pos last, closes]
      refine ⟨_, rfl, ?_, Or.inr ⟨⟨reader_shut _, rfl, rfl, rfl, by simp [filled.frees]⟩, ?_⟩⟩
      · simp only [taken, much]
      · simp only [taken, whole]
    · have unfinished : session.returned.length + count.toNat < bytes.length := by
        rcases Nat.lt_or_ge (session.returned.length + count.toNat) bytes.length with less | all
        · exact less
        · exact absurd (UInt32.toNat_inj.mp (by omega)) last
      rw [if_neg last]
      refine ⟨_, rfl, ?_, Or.inl ⟨filled.shut, filled.buffer, filled.length, ?_, ?_, ?_, by simp [filled.frees]⟩⟩
      · simp only [taken, much]
      · simp only [taken, length, ahead]
      · simp only [taken, length]
      · simpa only [taken, length] using unfinished
  · have none : size.toNat = 0 := by
      rw [UInt32.lt_iff_toNat_lt] at asked
      simpa using asked
    refine ⟨session, by simp [DgramSession.step, Dgram.read, asked], ?_, Or.inl filled⟩
    rw [none, Nat.add_zero, min_eq_right filled.more.le]
    exact filled.returned

theorem closeWriter_writes (stream : Dgram) :
    ∃ closed, serverCloseWriter stream = { stream with closed := closed } ∧
      (closed &&& 0x01 = 0 ↔ stream.closed &&& 0x01 = 0) := by
  unfold serverCloseWriter
  split_ifs
  · exact ⟨_, rfl, reader_of_writer _⟩
  · exact ⟨_, rfl, Iff.rfl⟩

theorem Emptied.step (emptied : Emptied session) (op : DgramOp) :
    ∃ next, session.step op = some next ∧ Emptied next ∧ next.returned = session.returned := by
  cases op with
  | read size => exact ⟨session, by simp [DgramSession.step, emptied.read], emptied, rfl⟩
  | write | state => exact ⟨session, rfl, emptied, rfl⟩
  | closeReader => exact ⟨session, by simp [DgramSession.step, closeReader_again emptied.shut], emptied, rfl⟩
  | closeWriter =>
      obtain ⟨closed, written, same⟩ := closeWriter_writes session.stream
      refine ⟨_, rfl, ?_, rfl⟩
      rw [written]
      exact ⟨fun none => emptied.shut (same.mp none), emptied.buffer, emptied.length, emptied.cur, emptied.frees⟩

theorem Filled.step (filled : Filled bytes session) (op : DgramOp) :
    ∃ next, session.step op = some next ∧
      next.returned = bytes.take (min bytes.length (session.returned.length + requested [op])) ∧
      (Filled bytes next ∧ op ≠ .closeReader ∨
        Emptied next ∧ (next.returned = bytes ∨ op = .closeReader)) := by
  have kept : session.returned = bytes.take (min bytes.length (session.returned.length + 0)) := by
    rw [Nat.add_zero, min_eq_right filled.more.le]
    exact filled.returned
  cases op with
  | read size =>
      obtain ⟨next, taken, returned, after⟩ := filled.read size
      refine ⟨next, taken, by simpa [requested] using returned, ?_⟩
      exact after.imp (fun still => ⟨still, by simp⟩) fun done => ⟨done.1, Or.inl done.2⟩
  | write | state => exact ⟨session, rfl, kept, Or.inl ⟨filled, by simp⟩⟩
  | closeReader =>
      have nonempty : session.stream.readBuffer ≠ [] :=
        filled.buffer ▸ List.ne_nil_of_length_pos (Nat.zero_lt_of_lt filled.more)
      simp only [DgramSession.step, closeReader_filled filled.shut nonempty]
      exact ⟨_, rfl, kept, Or.inr ⟨⟨reader_shut _, rfl, rfl, rfl, by simp [filled.frees]⟩, Or.inr trivial⟩⟩
  | closeWriter =>
      obtain ⟨closed, written, same⟩ := closeWriter_writes session.stream
      refine ⟨_, rfl, kept, Or.inl ⟨?_, by simp⟩⟩
      rw [written]
      exact ⟨same.mpr filled.shut, filled.buffer, filled.length, filled.cur, filled.returned, filled.more,
        filled.frees⟩

theorem Emptied.run (emptied : Emptied session) (ops : List DgramOp) :
    ∃ final, exec DgramSession.step session ops = some final ∧ Emptied final ∧
      final.returned = session.returned := by
  induction ops generalizing session with
  | nil => exact ⟨session, rfl, emptied, rfl⟩
  | cons op rest ih =>
      obtain ⟨next, taken, still, returned⟩ := emptied.step op
      obtain ⟨final, run, ended, same⟩ := ih still
      exact ⟨final, Option.bind_eq_some_iff.mpr ⟨next, taken, run⟩, ended, same.trans returned⟩

theorem requested_cons (op : DgramOp) (rest : List DgramOp) :
    requested (op :: rest) = if op = .closeReader then 0 else requested [op] + requested rest := by
  cases op <;> simp [requested]

theorem Filled.run (filled : Filled bytes session) (ops : List DgramOp) :
    ∃ final, exec DgramSession.step session ops = some final ∧
      final.returned = bytes.take (min bytes.length (session.returned.length + requested ops)) ∧
      (Filled bytes final ∧ .closeReader ∉ ops ∨
        Emptied final ∧ (final.returned = bytes ∨ .closeReader ∈ ops)) := by
  induction ops generalizing session with
  | nil =>
      refine ⟨session, rfl, ?_, Or.inl ⟨filled, by simp⟩⟩
      rw [requested, Nat.add_zero, min_eq_right filled.more.le]
      exact filled.returned
  | cons op rest ih =>
      obtain ⟨next, taken, returned, ⟨still, other⟩ | ⟨emptied, why⟩⟩ := filled.step op
      · obtain ⟨final, run, all, after⟩ := ih still
        refine ⟨final, Option.bind_eq_some_iff.mpr ⟨next, taken, run⟩, ?_, ?_⟩
        · have length := congrArg List.length returned
          rw [List.length_take] at length
          rw [all, requested_cons, if_neg other]
          congr 1
          omega
        · have elsewhere : DgramOp.closeReader ∈ op :: rest ↔ .closeReader ∈ rest := by simp [Ne.symm other]
          rwa [elsewhere]
      · obtain ⟨final, run, ended, same⟩ := emptied.run rest
        refine ⟨final, Option.bind_eq_some_iff.mpr ⟨next, taken, run⟩, ?_, Or.inr ⟨ended, ?_⟩⟩
        · rw [same, requested_cons]
          rcases why with all | rfl
          · rw [all] at returned ⊢
            have enough := congrArg List.length returned
            rw [List.length_take] at enough
            split_ifs with explicit
            · subst explicit
              exact returned
            · rw [List.take_of_length_le (by omega)]
          · simpa [requested] using returned
        · exact why.imp same.trans fun explicit => List.mem_cons.mpr (Or.inl explicit.symm)

theorem filled_of_made {server : Server} {remoteHost : SockAddrIn} (fits : bytes.length ≤ 2048)
    (made : server.connection (.datagram bytes remoteHost) = some (.dgram stream)) : Filled bytes stream.session := by
  simp only [connection] at made
  split_ifs at made with nothing
  cases made
  have length : bytes.length.toUInt32.toNat = bytes.length := by
    rw [Nat.toUInt32, UInt32.toNat_ofNat', Nat.mod_eq_of_lt (by omega)]
  exact ⟨by simp [Dgram.session], rfl, length, rfl, rfl, List.length_pos_of_ne_nil nothing, rfl⟩

end Session

theorem dgram_delivers (server : Server) (bytes : List UInt8) (remoteHost : SockAddrIn) (stream : Dgram)
    (fits : bytes.length ≤ 2048)
    (made : server.connection (.datagram bytes remoteHost) = some (.dgram stream)) (ops : List DgramOp) :
    ∃ session, exec DgramSession.step stream.session ops = some session ∧ Delivers bytes ops session := by
  have filled := filled_of_made fits made
  obtain ⟨final, run, returned, ⟨still, kept⟩ | ⟨emptied, why⟩⟩ := filled.run ops
  · have unfinished : final.returned ≠ bytes := fun all => absurd still.more (by rw [all]; exact lt_irrefl _)
    have nonempty : final.stream.readBuffer ≠ [] :=
      still.buffer ▸ List.ne_nil_of_length_pos (Nat.zero_lt_of_lt still.more)
    refine ⟨final, run, by simpa [Dgram.session] using returned, ?_, ?_, fun shut => absurd still.shut shut, ?_⟩
    · rw [UInt32.le_iff_toNat_le, still.cur, still.length]
      exact still.more.le
    · simp [Dgram.isShut, still.shut, unfinished, kept]
    · simp [Dgram.destroy, closeReader_filled still.shut nonempty, still.frees]
  · refine ⟨final, run, by simpa [Dgram.session] using returned, ?_, ?_, fun _ => emptied.read, ?_⟩
    · rw [emptied.cur, emptied.length]
      exact UInt32.le_refl 0
    · exact ⟨fun _ => why, fun _ => emptied.shut⟩
    · simp [Dgram.destroy, closeReader_again emptied.shut, emptied.frees]

/-- The server reads three bytes; the second read asks for more than is left. -/
def threeBytes : Dgram where
  readBuffer := [1, 2, 3]
  readBufferCur := 0
  readBufferLength := 3
  streamType := .inet
  remoteIpv4Address := (127, 0, 0, 1)
  remotePort := 5000
  socket := 3
  closed := 0x00

theorem dgram_delivers_threeBytes :
    ∃ session, exec DgramSession.step threeBytes.session [.read 2, .state 0, .read 4, .read 1] = some session ∧
      Delivers [1, 2, 3] [.read 2, .state 0, .read 4, .read 1] session :=
  dgram_delivers { socketType := .dgram, stream := ZSystem.Stream.streamCreatePipe 4 5, socket := 3 } [1, 2, 3]
    { address := (127, 0, 0, 1), port := (19, 136) } threeBytes (by decide) rfl _

end ZSystem.Server
