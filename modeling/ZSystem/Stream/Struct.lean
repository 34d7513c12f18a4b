import ZSystem.Stream.Pipe

set_option autoImplicit false

/-!
# Streams over descriptors

`struct zs__stream` with the functions that it points to, and the system calls that each of them makes.
-/

namespace ZSystem.Stream

/-! ## `struct zs__stream` -/

inductive StreamType where
  | unknown
  | inet
  | localSocket
  | socket
  | pipe
  deriving DecidableEq, Repr

/-- Which of its two implementations a function pointer of the stream points to. -/
inductive Backend where
  | pipe
  | socket
  deriving DecidableEq, Repr

structure Struct where
  read : Backend
  write : Backend
  state : Backend
  closeReader : Backend
  closeWriter : Backend
  streamType : StreamType := .unknown
  closed : UInt8 := 0
  reader : Int := 0
  writer : Int := 0
  socket : Int := 0
  deriving DecidableEq, Repr

inductive Direction where
  | reader
  | writer
  deriving DecidableEq, Repr

def Direction.bit : Direction -> UInt8
  | .reader => 0x01
  | .writer => 0x02

def Direction.other : Direction -> Direction
  | .reader => .writer
  | .writer => .reader

def Struct.isShut (stream : Struct) (direction : Direction) : Bool := stream.closed &&& direction.bit ≠ 0

/-- The field for a direction; a stream with socket functions does not look at it. -/
def Struct.field (stream : Struct) : Direction -> Int
  | .reader => stream.reader
  | .writer => stream.writer

/-! ## Making a stream -/

def streamCreate (read write state closeReader closeWriter : Backend) : Struct :=
  { read := read, write := write, state := state, closeReader := closeReader, closeWriter := closeWriter }

def streamCreatePipe (reader writer : Int) : Struct :=
  { streamCreate .pipe .pipe .pipe .pipe .pipe with
    reader := reader
    writer := writer
    streamType := .pipe
    closed := 0x00 }

/-- `sa_family` of a remote host. -/
inductive Family where
  | inet
  | unix
  | other
  deriving DecidableEq, Repr

def streamCreateSocket (socket : Int) (remoteHost : Option Family) : Struct :=
  { streamCreate .socket .socket .socket .socket .socket with
    streamType :=
      match remoteHost with
      | some .inet => .inet
      | some .unix => .localSocket
      | some .other | none => .socket
    socket := socket
    closed := 0x00 }

def streamCreateSystem (reader writer : Int) : Option Struct :=
  if reader = -1 ∧ writer = -1 then none
  else if reader = writer then some
    { streamCreate .pipe .pipe .socket .socket .socket with
      streamType := .socket
      closed := 0x00
      socket := writer
      reader := reader
      writer := writer }
  else some
    { streamCreate .pipe .pipe .pipe .pipe .pipe with
      streamType := .pipe
      closed := if reader = -1 then 0x01 else if writer = -1 then 0x02 else 0x00
      reader := reader
      writer := writer }

/-! ## Closing -/

/-- The stream after a close of a direction, and the descriptors that it passes to `close`. -/
abbrev Closing := Struct × List Int

def closePipe (direction : Direction) (stream : Struct) : Closing :=
  if stream.closed &&& direction.bit = 0 then
    ({ stream with closed := stream.closed ||| direction.bit }, [stream.field direction])
  else (stream, [])

def closeSocket (direction : Direction) (stream : Struct) : Closing :=
  if stream.closed &&& direction.bit = 0 then
    let closed := stream.closed ||| direction.bit
    ({ stream with closed := closed }, if closed &&& 0x03 = 0x03 then [stream.socket] else [])
  else (stream, [])

def Struct.closeReaderPipe : Struct -> Closing := closePipe .reader

def Struct.closeWriterPipe : Struct -> Closing := closePipe .writer

def Struct.closeReaderSocket : Struct -> Closing := closeSocket .reader

def Struct.closeWriterSocket : Struct -> Closing := closeSocket .writer

def streamCloseReader (stream : Struct) : Closing :=
  match stream.closeReader with
  | .pipe => stream.closeReaderPipe
  | .socket => stream.closeReaderSocket

def streamCloseWriter (stream : Struct) : Closing :=
  match stream.closeWriter with
  | .pipe => stream.closeWriterPipe
  | .socket => stream.closeWriterSocket

def Struct.close (stream : Struct) : Direction -> Closing
  | .reader => streamCloseReader stream
  | .writer => streamCloseWriter stream

/-- The descriptors that a list of closes passes to `close`, and the stream that is left. -/
def Struct.closeAll (stream : Struct) : List Direction -> Closing
  | [] => (stream, [])
  | direction :: rest =>
      let (next, first) := stream.close direction
      let (final, later) := next.closeAll rest
      (final, first ++ later)

def streamDestroy (stream : Struct) : List Int := (stream.closeAll [.reader, .writer]).2

/-! ## Where a stream comes from -/

/-- A call that has made a stream, with the descriptors that it was given. -/
inductive Origin where
  | pipe (reader writer : Int) (opened : 0 ≤ reader ∧ 0 ≤ writer ∧ reader ≠ writer)
  | socket (fd : Int) (remoteHost : Option Family) (opened : 0 ≤ fd)
  | system (reader writer : Int) (valid : -1 ≤ reader ∧ -1 ≤ writer)
      (made : (streamCreateSystem reader writer).isSome)

def Origin.stream : Origin -> Struct
  | .pipe reader writer _ => streamCreatePipe reader writer
  | .socket fd remoteHost _ => streamCreateSocket fd remoteHost
  | .system reader writer _ made => (streamCreateSystem reader writer).get made

/-- The descriptor that serves a direction; -1 where there is none. -/
def Origin.descriptor : Origin -> Direction -> Int
  | .pipe reader _ _, .reader => reader
  | .pipe _ writer _, .writer => writer
  | .socket fd _ _, _ => fd
  | .system reader _ _ _, .reader => reader
  | .system _ writer _ _, .writer => writer

/-! ## The bits of `closed` -/

theorem masks (closed : UInt8) :
    (closed &&& 0x03 = 0x03 ↔ closed &&& 0x01 ≠ 0 ∧ closed &&& 0x02 ≠ 0) ∧
      (closed &&& 0x03 = 0 ↔ closed &&& 0x01 = 0 ∧ closed &&& 0x02 = 0) := by
  have each : ∀ bits : Fin 256,
      ((UInt8.ofFin bits) &&& 0x03 = 0x03 ↔ (UInt8.ofFin bits) &&& 0x01 ≠ 0 ∧ (UInt8.ofFin bits) &&& 0x02 ≠ 0) ∧
        ((UInt8.ofFin bits) &&& 0x03 = 0 ↔ (UInt8.ofFin bits) &&& 0x01 = 0 ∧ (UInt8.ofFin bits) &&& 0x02 = 0) := by
    decide +kernel
  exact each closed.toFin

theorem bits_or (closed : UInt8) (one two : Direction) :
    (closed ||| one.bit) &&& two.bit = 0 ↔ two ≠ one ∧ closed &&& two.bit = 0 := by
  have split : (closed ||| one.bit) &&& two.bit = 0 ↔ closed &&& two.bit = 0 ∧ one.bit &&& two.bit = 0 := by
    simp only [← UInt8.toBitVec_inj, UInt8.toBitVec_and, UInt8.toBitVec_or, BitVec.and_or_distrib_right]
    exact BitVec.or_eq_zero_iff
  have apart : one.bit &&& two.bit = 0 ↔ two ≠ one := by cases one <;> cases two <;> decide
  rw [split, apart, and_comm]

section Bits

variable {stream : Struct} {direction other : Direction}

theorem isShut_iff : stream.isShut direction = true ↔ stream.closed &&& direction.bit ≠ 0 := by
  simp [Struct.isShut]

theorem isShut_eq_false : stream.isShut direction = false ↔ stream.closed &&& direction.bit = 0 := by
  simp [Struct.isShut]

theorem isShut_or :
    { stream with closed := stream.closed ||| direction.bit }.isShut other = true ↔
      other = direction ∨ stream.isShut other = true := by
  rw [isShut_iff, isShut_iff, ne_eq, bits_or, not_and_or, not_not]

theorem all_shut_iff : stream.closed &&& 0x03 = 0x03 ↔ ∀ direction, stream.isShut direction = true := by
  refine (masks stream.closed).1.trans ⟨fun both direction => ?_, fun all => ⟨?_, ?_⟩⟩
  · cases direction with
    | reader => exact isShut_iff.mpr both.1
    | writer => exact isShut_iff.mpr both.2
  · exact isShut_iff.mp (all .reader)
  · exact isShut_iff.mp (all .writer)

theorem none_shut_iff : stream.closed &&& 0x03 = 0 ↔ ∀ direction, stream.isShut direction = false := by
  refine (masks stream.closed).2.trans ⟨fun both direction => ?_, fun none => ⟨?_, ?_⟩⟩
  · cases direction with
    | reader => exact isShut_eq_false.mpr both.1
    | writer => exact isShut_eq_false.mpr both.2
  · exact isShut_eq_false.mp (none .reader)
  · exact isShut_eq_false.mp (none .writer)

theorem close_struct : (stream.close direction).1 =
    if stream.isShut direction = true then stream
    else { stream with closed := stream.closed ||| direction.bit } := by
  have pipe : (closePipe direction stream).1 = if stream.isShut direction = true then stream
      else { stream with closed := stream.closed ||| direction.bit } := by
    simp only [closePipe, isShut_iff]
    split_ifs <;> first | rfl | contradiction
  have socket : (closeSocket direction stream).1 = (closePipe direction stream).1 := by
    simp only [closePipe, closeSocket]
    split_ifs <;> rfl
  rw [← pipe]
  cases direction with
  | reader =>
      simp only [Struct.close, streamCloseReader]
      cases stream.closeReader with
      | pipe => rfl
      | socket => exact socket
  | writer =>
      simp only [Struct.close, streamCloseWriter]
      cases stream.closeWriter with
      | pipe => rfl
      | socket => exact socket

theorem close_isShut : (stream.close direction).1.isShut other = true ↔
    other = direction ∨ stream.isShut other = true := by
  rw [close_struct]
  split_ifs with already
  · exact ⟨Or.inr, fun either => either.elim (fun equal => equal ▸ already) id⟩
  · exact isShut_or

end Bits

/-! ## What has been closed -/

def Origin.Given (origin : Origin) (descriptor : Int) : Prop :=
  descriptor ≠ -1 ∧ (origin.descriptor .reader = descriptor ∨ origin.descriptor .writer = descriptor)

instance (origin : Origin) (descriptor : Int) : Decidable (origin.Given descriptor) :=
  instDecidableAnd

/-- Every direction that the descriptor serves is closed. -/
def Origin.Settled (origin : Origin) (stream : Struct) (descriptor : Int) : Prop :=
  origin.Given descriptor ∧
    ∀ direction, origin.descriptor direction = descriptor -> stream.isShut direction = true

/-- `shut` lists the descriptors that the stream has passed to `close`. -/
structure Ledger (origin : Origin) (stream : Struct) (shut : List Int) : Prop where
  same : stream = { origin.stream with closed := stream.closed }
  missing : ∀ direction, origin.descriptor direction = -1 -> stream.isShut direction = true
  once : shut.Nodup
  settled : ∀ descriptor, descriptor ∈ shut ↔ origin.Settled stream descriptor

section Ledger

variable {origin : Origin} {stream : Struct} {shut : List Int}

/-- Either each direction has a descriptor of its own, or both share one. -/
theorem Ledger.rules (ledger : Ledger origin stream shut) (direction : Direction) :
    (stream.close direction = closePipe direction stream ∧
      (∀ other, stream.field other = origin.descriptor other) ∧
      origin.descriptor direction ≠ origin.descriptor direction.other) ∨
    (stream.close direction = closeSocket direction stream ∧
      (∀ other, origin.descriptor other = stream.socket) ∧ stream.socket ≠ -1) := by
  rw [ledger.same]
  cases origin with
  | pipe reader writer opened =>
      refine Or.inl ⟨by cases direction <;> rfl, fun other => by cases other <;> rfl, ?_⟩
      cases direction with
      | reader => exact opened.2.2
      | writer => exact opened.2.2.symm
  | socket fd remoteHost opened =>
      refine Or.inr ⟨by cases direction <;> rfl, fun other => by cases other <;> rfl, ?_⟩
      change fd ≠ -1
      omega
  | system reader writer valid made =>
      by_cases shared : reader = writer
      · subst shared
        have given : reader ≠ -1 := by
          rintro rfl
          simp [streamCreateSystem] at made
        refine Or.inr ⟨?_, fun other => ?_, ?_⟩
        · cases direction <;> simp [Origin.stream, streamCreateSystem, given, Struct.close, streamCloseReader,
            streamCloseWriter, streamCreate, Struct.closeReaderSocket, Struct.closeWriterSocket]
        · cases other <;> simp [Origin.stream, Origin.descriptor, streamCreateSystem, given]
        · simp [Origin.stream, streamCreateSystem, given]
      · have some : ¬ (reader = -1 ∧ writer = -1) := fun both => shared (both.1.trans both.2.symm)
        refine Or.inl ⟨?_, fun other => ?_, ?_⟩
        · cases direction <;> simp [Origin.stream, streamCreateSystem, some, shared, Struct.close,
            streamCloseReader, streamCloseWriter, streamCreate, Struct.closeReaderPipe, Struct.closeWriterPipe]
        · cases other <;>
            simp [Origin.stream, Origin.descriptor, streamCreateSystem, some, shared, Struct.field]
        · cases direction with
          | reader => exact shared
          | writer => exact Ne.symm shared

theorem Origin.given_descriptor (direction : Direction) (valid : origin.descriptor direction ≠ -1) :
    origin.Given (origin.descriptor direction) := by
  refine ⟨valid, ?_⟩
  cases direction with
  | reader => exact Or.inl rfl
  | writer => exact Or.inr rfl

theorem Origin.Given.serves {descriptor : Int} (given : origin.Given descriptor) :
    ∃ direction, origin.descriptor direction = descriptor :=
  given.2.elim (fun same => ⟨_, same⟩) fun same => ⟨_, same⟩

theorem Ledger.closed_again (ledger : Ledger origin stream shut) {direction : Direction}
    (already : stream.isShut direction = true) : stream.close direction = (stream, []) := by
  have bit := isShut_iff.mp already
  obtain ⟨rule, -⟩ | ⟨rule, -⟩ := ledger.rules direction
  · rw [rule, closePipe, if_neg bit]
  · rw [rule, closeSocket, if_neg bit]

theorem Ledger.closed_first (ledger : Ledger origin stream shut) {direction : Direction}
    (opened : stream.isShut direction = false) :
    (stream.close direction).1 = { stream with closed := stream.closed ||| direction.bit } ∧
      (stream.close direction).2 =
        if origin.descriptor direction.other = origin.descriptor direction ∧
          stream.isShut direction.other = false then [] else [origin.descriptor direction] := by
  have bit := isShut_eq_false.mp opened
  obtain ⟨rule, fields, apart⟩ | ⟨rule, shared, -⟩ := ledger.rules direction
  · rw [rule, closePipe, if_pos bit, fields, if_neg fun both => apart both.1.symm]
    exact ⟨rfl, rfl⟩
  · rw [rule, closeSocket, if_pos bit]
    refine ⟨rfl, ?_⟩
    have both : (stream.closed ||| direction.bit) &&& 0x03 = 0x03 ↔
        stream.isShut direction.other = true := by
      refine (@all_shut_iff { stream with closed := stream.closed ||| direction.bit }).trans ?_
      simp only [isShut_or]
      refine ⟨fun all => (all direction.other).resolve_left (by cases direction <;> simp [Direction.other]),
        fun other which => ?_⟩
      by_cases same : which = direction
      · exact Or.inl same
      · refine Or.inr ?_
        have : which = direction.other := by cases which <;> cases direction <;> simp_all [Direction.other]
        exact this ▸ other
    simp only [both, shared, true_and]
    cases stream.isShut direction.other <;> rfl

theorem Ledger.close (ledger : Ledger origin stream shut) (direction : Direction) :
    Ledger origin (stream.close direction).1 (shut ++ (stream.close direction).2) := by
  have shuts (other : Direction) : (stream.close direction).1.isShut other = true ↔
      other = direction ∨ stream.isShut other = true := close_isShut
  cases opened : stream.isShut direction with
  | true => simpa [ledger.closed_again opened] using ledger
  | false =>
      obtain ⟨next, closes⟩ := ledger.closed_first opened
      have given : origin.descriptor direction ≠ -1 := fun none => by
        simp [ledger.missing direction none] at opened
      -- Whoever is served by the direction has not been settled yet.
      have fresh : origin.descriptor direction ∉ shut := fun member => by
        simp [((ledger.settled _).mp member).2 direction rfl] at opened
      have which (other : Direction) : other = direction ∨ other = direction.other := by
        cases other <;> cases direction <;> simp [Direction.other]
      have missing (other : Direction) (none : origin.descriptor other = -1) := (shuts other).mpr
        (Or.inr (ledger.missing other none))
      refine ⟨?_, missing, ?_, fun descriptor => ?_⟩
      · rw [next]
        conv_lhs => rw [ledger.same]
      · rw [closes]
        split_ifs
        · simpa using ledger.once
        · exact List.nodup_append.mpr ⟨ledger.once, by simp, fun _ member _ only same =>
            fresh (List.mem_singleton.mp only ▸ same ▸ member)⟩
      · rw [List.mem_append, ledger.settled, closes]
        by_cases mine : descriptor = origin.descriptor direction
        · subst mine
          have before : ¬ origin.Settled stream (origin.descriptor direction) := fun settled => by
            simp [settled.2 direction rfl] at opened
          have after : origin.Settled (stream.close direction).1 (origin.descriptor direction) ↔
              ¬ (origin.descriptor direction.other = origin.descriptor direction ∧
                stream.isShut direction.other = false) := by
            refine ⟨fun settled both => ?_, fun apart => ⟨origin.given_descriptor direction given,
              fun other same => ?_⟩⟩
            · have := (shuts _).mp (settled.2 direction.other both.1)
              cases direction <;> simp_all [Direction.other]
            · rcases which other with rfl | rfl
              · exact (shuts _).mpr (Or.inl rfl)
              · exact (shuts _).mpr (Or.inr (by simpa [same] using apart))
          rw [after]
          split_ifs with both <;> simp [before, both]
        · have kept : origin.Settled (stream.close direction).1 descriptor ↔ origin.Settled stream descriptor := by
            refine and_congr_right fun _ => forall_congr' fun other => imp_congr_right fun same => ?_
            have differ : other ≠ direction := fun equal => mine (equal ▸ same.symm)
            simp [shuts, differ]
          rw [kept]
          split_ifs <;> simp [mine]

theorem Origin.shut_iff (origin : Origin) (direction : Direction) :
    origin.stream.isShut direction = true ↔ origin.descriptor direction = -1 := by
  cases origin with
  | pipe reader writer opened =>
      have differ : reader ≠ -1 ∧ writer ≠ -1 := by omega
      cases direction <;> simp [Origin.stream, Origin.descriptor, streamCreatePipe, Struct.isShut, differ]
  | socket fd remoteHost opened =>
      have differ : fd ≠ -1 := by omega
      simp [Origin.stream, Origin.descriptor, streamCreateSocket, Struct.isShut, differ]
  | system reader writer valid made =>
      by_cases shared : reader = writer
      · subst shared
        have given : reader ≠ -1 := by
          rintro rfl
          simp [streamCreateSystem] at made
        cases direction <;> simp [Origin.stream, Origin.descriptor, streamCreateSystem, Struct.isShut, given]
      · have some : ¬ (reader = -1 ∧ writer = -1) := fun both => shared (both.1.trans both.2.symm)
        simp only [Origin.stream, streamCreateSystem, some, shared, if_false, Option.get_some, isShut_iff]
        by_cases noReader : reader = -1
        · have given : writer ≠ -1 := fun none => some ⟨noReader, none⟩
          cases direction with
          | reader => simp [Origin.descriptor, noReader, Direction.bit]
          | writer =>
              simp only [Origin.descriptor, noReader, given, if_true, iff_false, not_not]
              rfl
        · by_cases noWriter : writer = -1
          · cases direction with
            | reader =>
                simp only [Origin.descriptor, noReader, noWriter, if_false, if_true, iff_false, not_not]
                rfl
            | writer => simp [Origin.descriptor, noReader, noWriter, Direction.bit]
          · cases direction <;> simp [Origin.descriptor, noReader, noWriter]

theorem Origin.ledger (origin : Origin) : Ledger origin origin.stream [] := by
  refine ⟨rfl, fun direction => (origin.shut_iff direction).mpr, List.nodup_nil, fun descriptor => ?_⟩
  simp only [List.not_mem_nil, false_iff]
  rintro ⟨given, settled⟩
  obtain ⟨direction, rfl⟩ := given.serves
  exact given.1 ((origin.shut_iff direction).mp (settled direction rfl))

theorem Ledger.closeAll (ledger : Ledger origin stream shut) (sequence : List Direction) :
    Ledger origin (stream.closeAll sequence).1 (shut ++ (stream.closeAll sequence).2) ∧
      ∀ direction, (stream.closeAll sequence).1.isShut direction = true ↔
        direction ∈ sequence ∨ stream.isShut direction = true := by
  induction sequence generalizing stream shut with
  | nil => simpa [Struct.closeAll] using ledger
  | cons first rest ih =>
      obtain ⟨after, shuts⟩ := ih (ledger.close first)
      refine ⟨by simpa only [Struct.closeAll, List.append_assoc] using after, fun direction => ?_⟩
      simp only [Struct.closeAll, shuts, close_isShut, List.mem_cons]
      tauto

end Ledger

end ZSystem.Stream
