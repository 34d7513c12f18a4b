import ZSystem.Shared.Decimal
import ZSystem.Stream.Drain

set_option autoImplicit false

/-!
# Typed values over a pipe

`operator<<` of `ZSWriter` writes a value as text, and `operator>>` of `ZSReader` reads a line of text.
-/

namespace ZSystem.Stream.Typed

open Transition

inductive Value where
  | string (bytes : List UInt8)
  | int (value : Int32)
  | unsigned (value : UInt32)
  | bool (value : Bool)
  deriving DecidableEq, Repr

inductive Kind where
  | string
  | int
  | unsigned
  | bool
  deriving DecidableEq, Repr

def Value.kind : Value -> Kind
  | .string _ => .string
  | .int _ => .int
  | .unsigned _ => .unsigned
  | .bool _ => .bool

/-! ## `ZSWriter` -/

/-- `a_data` and `a_length` of a loop that writes. -/
structure Buffer where
  data : List UInt8
  length : UInt32
  inside : length.toNat ≤ data.length

/-- `a_length` is an `unsigned int`, whatever the size of the data is. -/
def Buffer.of (data : List UInt8) : Buffer where
  data := data
  length := UInt32.ofNat data.length
  inside := by
    rw [UInt32.toNat_ofNat']
    exact Nat.mod_le _ _

/-- The bytes of a C string, without its NUL. -/
def cString (bytes : List UInt8) : List UInt8 := bytes.takeWhile (· != 0)

/-- `operator<<(const char*)`. -/
def writeCString (bytes : List UInt8) : Buffer := .of (cString bytes)

/-- `operator<<(const std::string&)`. -/
def writeString (bytes : List UInt8) : Buffer := .of bytes

/-- `operator<<(int)`; `sprintf` ends what it prints with a NUL. -/
def writeInt (value : Int32) : Buffer := .of (cString (Decimal.printInt value.toInt ++ [0]))

/-- `operator<<(unsigned int)`. -/
def writeUnsigned (value : UInt32) : Buffer := .of (cString (Decimal.printNat value.toNat ++ [0]))

-- "true" and "false"
def trueText : List UInt8 := [116, 114, 117, 101]

def falseText : List UInt8 := [102, 97, 108, 115, 101]

/-- `operator<<(bool)`. -/
def writeBool (value : Bool) : Buffer := if value then ⟨trueText, 4, by decide⟩ else ⟨falseText, 5, by decide⟩

def Value.write : Value -> Buffer
  | .string bytes => writeString bytes
  | .int value => writeInt value
  | .unsigned value => writeUnsigned value
  | .bool value => writeBool value

/-- `a_writer << value << "\n"`. -/
def Value.writeLine (value : Value) : List Buffer := [value.write, writeCString [newline, 0]]

def Buffer.advance (buffer : Buffer) (back : Nat) (fits : back ≤ buffer.length.toNat) : Buffer where
  data := buffer.data.drop back
  length := buffer.length - UInt32.ofNat back
  inside := by
    have inside := buffer.inside
    have small := buffer.length.toNat_lt
    have exact' : (UInt32.ofNat back).toNat = back := by
      rw [UInt32.toNat_ofNat', Nat.mod_eq_of_lt (by omega)]
    rw [UInt32.toNat_sub_of_le _ _ (by rw [UInt32.le_iff_toNat_le, exact']; exact fits), exact', List.length_drop]
    omega

/-! ## `ZSReader` -/

/-- What `operator>>` leaves in its argument, which was `old` before, after the bytes of a line. -/
def Value.read (old : Value) (line : List UInt8) : Value :=
  match old with
  | .string _ => .string line
  | .int value => .int (((Decimal.scanInt (cString line)).map Int32.ofInt).getD value)
  | .unsigned value => .unsigned (((Decimal.scanInt (cString line)).map UInt32.ofInt).getD value)
  | .bool _ => .bool (line == trueText)

/-! ## The system -/

/-- `ZSWriter::IsClosed` on a writer with a stream. -/
def isWriterClosed (stream : PipeStream) : Bool := statePipe stream &&& writerClosed ≠ 0

def writePipe (stream : PipeStream) (bytes : List UInt8) : PipeStream :=
  match stream.writer with
  | none => { stream with reader := stream.reader.write bytes }
  | some pipe => { stream with writer := some (pipe.write bytes) }

/-- A thread that writes and a thread that reads, at both ends of one stream. -/
structure State where
  stream : PipeStream
  -- The bytes that the pipe can hold.
  capacity : Nat
  -- How many transfers are still going to move nothing.
  idle : Nat
  -- The writer is past the test of its loop.
  writing : Bool
  -- The calls of `operator<<` that are not finished.
  buffers : List Buffer
  -- The reader is past the test of its loop.
  reading : Bool
  -- `a_string` of the call of `operator>>`.
  line : List UInt8
  -- The arguments of the calls of `operator>>` that are not finished.
  arguments : List Value
  results : List Value

/-- A step of one of the threads; the kernel decides how much a transfer moves. -/
inductive Action where
  | writer (count : Nat)
  | reader (count : Nat)
  deriving DecidableEq, Repr

def State.write (state : State) (count : Nat) (buffer : Buffer) (rest : List Buffer) : Option State :=
  if fits : count ≤ buffer.length.toNat then
    if state.stream.output.unread.length + count ≤ state.capacity ∧ (count = 0 -> 0 < state.idle) then
      some { state with
        stream := writePipe state.stream (buffer.data.take count)
        idle := if count = 0 then state.idle - 1 else state.idle
        writing := false
        buffers := buffer.advance count fits :: rest }
    else none
  else none

def State.writerStep (state : State) (count : Nat) : Option State :=
  match state.buffers with
  | [] => none
  | buffer :: rest =>
      if state.writing then state.write count buffer rest
      else if !isWriterClosed state.stream && decide (0 < buffer.length) then some { state with writing := true }
      else some { state with buffers := rest }

def State.finish (state : State) (argument : Value) (rest : List Value) : State :=
  { state with
    reading := false
    line := []
    arguments := rest
    results := state.results ++ [argument.read state.line] }

/-- A read of one byte, which a signal can end before it has got it. -/
def State.read (state : State) (count : Nat) (argument : Value) (rest : List Value) : Option State :=
  if count = 0 then
    if 0 < state.idle then some { state with idle := state.idle - 1, reading := false } else none
  else (readPipe state.stream 1).map fun (bytes, stream) =>
    let after := { state with stream := stream, reading := false }
    if bytes = [newline] then after.finish argument rest else { after with line := state.line ++ bytes }

def State.readerStep (state : State) (count : Nat) : Option State :=
  match state.arguments with
  | [] => none
  | argument :: rest =>
      if state.reading then state.read count argument rest
      else if isClosed state.stream then some (state.finish argument rest)
      else some { state with reading := true }

def step (state : State) : Action -> Option State
  | .writer count => state.writerStep count
  | .reader count => state.readerStep count

/-- The stream of `zs__stream_create_pipe`, with both ends open. -/
structure Joined (stream : PipeStream) : Prop where
  one : stream.writer = none
  closed : stream.closed = 0
  writers : stream.reader.writers ≠ 0
  readers : stream.reader.readers ≠ 0

/-- `values` are going to be written, each as a line, and to be read into arguments of the same types. -/
structure Start (values : List Value) (state : State) : Prop where
  joined : Joined state.stream
  empty : state.stream.reader.unread = []
  room : 0 < state.capacity
  writing : state.writing = false
  buffers : state.buffers = values.flatMap Value.writeLine
  reading : state.reading = false
  line : state.line = []
  arguments : state.arguments.map Value.kind = values.map Value.kind
  results : state.results = []

/-- Every run ends, and with these results. -/
structure Yields (start : State) (results : List Value) : Prop where
  bound : ∃ bound, ∀ actions final, exec step start actions = some final -> actions.length ≤ bound
  inOrder : ∀ state, Reachable step start state -> state.results <+: results
  ended : ∀ state, Reachable step start state -> (∀ action, step state action = none) -> state.results = results

/-! ## What a call writes and reads -/

def Buffer.sent (buffer : Buffer) : List UInt8 := buffer.data.take buffer.length.toNat

/-- What arrives of a value. -/
def Value.stored : Value -> Value
  | .string bytes => .string (bytes.take (bytes.length % 2 ^ 32))
  | value => value

def Value.Plain : Value -> Prop
  | .string bytes => newline ∉ bytes
  | _ => True

def Value.encode (value : Value) : List UInt8 := value.write.sent ++ [newline]

section Values

theorem sent_of (data : List UInt8) : (Buffer.of data).sent = data.take (data.length % 2 ^ 32) := by
  rw [Buffer.sent, Buffer.of, UInt32.toNat_ofNat']

theorem sent_of_short {data : List UInt8} (short : data.length < 2 ^ 32) : (Buffer.of data).sent = data := by
  rw [sent_of, Nat.mod_eq_of_lt short, List.take_length]

theorem cString_append {bytes : List UInt8} (text : ∀ byte ∈ bytes, byte ≠ 0) :
    cString (bytes ++ [0]) = bytes := by
  rw [cString, List.takeWhile_append_of_pos (by simpa using text)]
  simp

theorem cString_text {bytes : List UInt8} (text : ∀ byte ∈ bytes, byte ≠ 0) : cString bytes = bytes :=
  List.takeWhile_eq_self_iff.mpr (by simpa using text)

theorem printNat_text {value : Nat} {byte : UInt8} (member : byte ∈ Decimal.printNat value) :
    byte ≠ 0 ∧ byte ≠ newline := by
  have digit := Decimal.isDigit_iff.mp (Decimal.isDigit_of_mem_printNat member)
  refine ⟨?_, ?_⟩
  · rintro rfl
    simp at digit
  · rintro rfl
    simp [newline] at digit

theorem printInt_text {value : Int} {byte : UInt8} (member : byte ∈ Decimal.printInt value) :
    byte ≠ 0 ∧ byte ≠ newline := by
  unfold Decimal.printInt at member
  split_ifs at member
  · rcases List.mem_cons.mp member with rfl | digit
    · decide
    · exact printNat_text digit
  · exact printNat_text member

theorem writeInt_sent (value : Int32) : (writeInt value).sent = Decimal.printInt value.toInt := by
  have small : value.toInt.natAbs < 10 ^ 10 := by
    have low := value.le_toInt
    have high := value.toInt_lt
    omega
  have short : (Decimal.printInt value.toInt).length < 2 ^ 32 := by
    have digits := Decimal.length_printNat (by omega) small
    unfold Decimal.printInt
    split_ifs
    · rw [List.length_cons]
      omega
    · omega
  rw [writeInt, cString_append fun _ member => (printInt_text member).1, sent_of_short short]

theorem writeUnsigned_sent (value : UInt32) : (writeUnsigned value).sent = Decimal.printNat value.toNat := by
  have small : value.toNat < 10 ^ 10 := by
    have high := value.toNat_lt
    omega
  have digits := Decimal.length_printNat (by omega) small
  rw [writeUnsigned, cString_append fun _ member => (printNat_text member).1, sent_of_short (by omega)]

theorem writeBool_sent (value : Bool) : (writeBool value).sent = if value then trueText else falseText := by
  cases value <;> rfl

theorem newline_not_mem_sent {value : Value} (plain : value.Plain) : newline ∉ value.write.sent := by
  cases value with
  | string bytes => exact fun member => plain (List.mem_of_mem_take member)
  | int value => exact writeInt_sent value ▸ fun member => (printInt_text member).2 rfl
  | unsigned value => exact writeUnsigned_sent value ▸ fun member => (printNat_text member).2 rfl
  | bool value =>
      rw [Value.write, writeBool_sent]
      cases value <;> decide

theorem scanInt_printNat (value : Nat) : Decimal.scanInt (Decimal.printNat value) = some (value : Int) := by
  have printed := Decimal.scanInt_printInt (value : Int)
  rwa [Decimal.printInt, if_neg (by omega), Int.natAbs_natCast] at printed

theorem read_sent {old value : Value} (same : old.kind = value.kind) :
    old.read value.write.sent = value.stored := by
  cases value with
  | string bytes =>
      cases old <;> cases same
      rw [Value.read, Value.write, writeString, sent_of, Value.stored]
  | int value =>
      cases old <;> cases same
      rw [Value.read, Value.write, writeInt_sent, cString_text fun _ member => (printInt_text member).1,
        Decimal.scanInt_printInt, Option.map_some, Option.getD_some, Int32.ofInt_toInt]
      rfl
  | unsigned value =>
      cases old <;> cases same
      have back : UInt32.ofInt (value.toNat : Int) = value := by
        have small := value.toNat_lt
        rw [UInt32.ofInt, Int.emod_eq_of_lt (by omega) (by omega), Int.toNat_natCast, UInt32.ofNat_toNat]
      rw [Value.read, Value.write, writeUnsigned_sent, cString_text fun _ member => (printNat_text member).1,
        scanInt_printNat, Option.map_some, Option.getD_some, back]
      rfl
  | bool value =>
      cases old <;> cases same
      rw [Value.read, Value.write, writeBool_sent]
      cases value <;> decide

theorem sent_writeLine (values : List Value) :
    (values.flatMap Value.writeLine).flatMap Buffer.sent = values.flatMap Value.encode := by
  have line (value : Value) : value.writeLine.flatMap Buffer.sent = value.encode := by
    simp [Value.writeLine, Value.encode, writeCString, show cString [newline, 0] = [newline] by decide, sent_of]
  rw [List.flatMap_assoc]
  exact List.flatMap_congr fun value _ => line value

theorem sent_advance (buffer : Buffer) (back : Nat) (fits : back ≤ buffer.length.toNat) :
    buffer.data.take back ++ (buffer.advance back fits).sent = buffer.sent ∧
      (buffer.advance back fits).length.toNat = buffer.length.toNat - back := by
  have small := buffer.length.toNat_lt
  have same : (UInt32.ofNat back).toNat = back := by
    rw [UInt32.toNat_ofNat', Nat.mod_eq_of_lt (by omega)]
  have less : (buffer.length - UInt32.ofNat back).toNat = buffer.length.toNat - back := by
    rw [UInt32.toNat_sub_of_le _ _ (by rw [UInt32.le_iff_toNat_le, same]; exact fits), same]
  refine ⟨?_, less⟩
  rw [Buffer.sent, Buffer.advance, less, Buffer.sent]
  conv_rhs => rw [← Nat.add_sub_of_le fits, List.take_add]

end Values

/-! ## What a step does -/

def State.take (state : State) (unread : List UInt8) : State :=
  { state with
    stream := { state.stream with reader := { state.stream.reader with unread := unread } }
    reading := false }

inductive Move (state : State) : State -> Prop where
  | tested (buffer : Buffer) (rest : List Buffer) (first : state.buffers = buffer :: rest)
      (outside : state.writing = false) (more : 0 < buffer.length.toNat) :
      Move state { state with writing := true }
  | done (buffer : Buffer) (rest : List Buffer) (first : state.buffers = buffer :: rest)
      (outside : state.writing = false) (nothing : buffer.length.toNat = 0) :
      Move state { state with writing := false, buffers := rest }
  | wrote (buffer : Buffer) (rest : List Buffer) (count : Nat) (first : state.buffers = buffer :: rest)
      (fits : count ≤ buffer.length.toNat) (idle : count = 0 -> 0 < state.idle) :
      Move state { state with
        stream := { state.stream with reader := state.stream.reader.write (buffer.data.take count) }
        idle := if count = 0 then state.idle - 1 else state.idle
        writing := false
        buffers := buffer.advance count fits :: rest }
  | entered (outside : state.reading = false) : Move state { state with reading := true }
  | interrupted (idle : 0 < state.idle) :
      Move state { state with idle := state.idle - 1, reading := false }
  | received (byte : UInt8) (unread : List UInt8) (waiting : state.arguments ≠ []) (other : byte ≠ newline)
      (first : state.stream.reader.unread = byte :: unread) :
      Move state { state.take unread with line := state.line ++ [byte] }
  | finished (argument : Value) (rest : List Value) (unread : List UInt8)
      (next : state.arguments = argument :: rest) (first : state.stream.reader.unread = newline :: unread) :
      Move state ((state.take unread).finish argument rest)

theorem Joined.isClosed {stream : PipeStream} (joined : Joined stream) : isClosed stream = false := by
  rw [Bool.eq_false_iff]
  intro closed
  exact joined.writers ((isClosed_iff (by rw [joined.closed]; rfl)).mp closed)

theorem Joined.output {stream : PipeStream} (joined : Joined stream) : stream.output = stream.reader := by
  rw [PipeStream.output, joined.one, Option.getD_none]

theorem Joined.isWriterClosed {stream : PipeStream} (joined : Joined stream) :
    isWriterClosed stream = false := by
  have writer : stream.writerState = 0 := by
    rw [PipeStream.writerState, joined.closed, joined.output, Pipe.pollWriter, if_neg joined.readers]
    rfl
  rw [Typed.isWriterClosed, statePipe, writer]
  rcases readerState_cases stream with reader | reader | reader <;> rw [reader] <;> decide

theorem Joined.replace {stream : PipeStream} (joined : Joined stream) (unread : List UInt8) :
    Joined { stream with reader := { stream.reader with unread := unread } } :=
  ⟨joined.one, joined.closed, joined.writers, joined.readers⟩

theorem Joined.writePipe {stream : PipeStream} (joined : Joined stream) (bytes : List UInt8) :
    writePipe stream bytes = { stream with reader := stream.reader.write bytes } := by
  rw [Typed.writePipe, joined.one]

theorem writerStep_move {state next : State} {count : Nat} (joined : Joined state.stream)
    (taken : state.writerStep count = some next) : Move state next := by
  unfold State.writerStep at taken
  split at taken
  case h_1 => cases taken
  case h_2 buffer rest buffers =>
    by_cases writing : state.writing = true
    · rw [if_pos writing, State.write] at taken
      split at taken
      case isTrue fits =>
        split at taken
        case isTrue room =>
          cases taken
          rw [joined.writePipe]
          exact .wrote buffer rest count buffers fits room.2
        case isFalse => cases taken
      case isFalse => cases taken
    · have outside := Bool.eq_false_iff.mpr writing
      simp only [outside, joined.isWriterClosed, Bool.not_false, Bool.true_and, decide_eq_true_eq,
        Bool.false_eq_true, if_false] at taken
      split at taken
      case isTrue more =>
        cases taken
        exact .tested buffer rest buffers outside (UInt32.lt_iff_toNat_lt.mp more)
      case isFalse nothing =>
        cases taken
        rw [UInt32.lt_iff_toNat_lt, UInt32.toNat_zero] at nothing
        exact .done buffer rest buffers outside (Nat.eq_zero_of_not_pos nothing)

theorem readerStep_move {state next : State} {count : Nat} (joined : Joined state.stream)
    (taken : state.readerStep count = some next) : Move state next := by
  unfold State.readerStep at taken
  split at taken
  case h_1 => cases taken
  case h_2 argument rest arguments =>
    rw [joined.isClosed] at taken
    by_cases reading : state.reading = true
    · rw [if_pos reading, State.read] at taken
      split at taken
      case isTrue =>
        split at taken
        case isTrue idle =>
          cases taken
          exact .interrupted idle
        case isFalse => cases taken
      case isFalse =>
        obtain ⟨⟨bytes, stream⟩, gave, rfl⟩ := Option.map_eq_some_iff.mp taken
        obtain ⟨rfl, rfl⟩ := readPipe_eq_some gave
        cases unread : state.stream.reader.unread with
        | nil => simp [readPipe, Pipe.read, unread, joined.writers] at gave
        | cons byte tail =>
            by_cases ends : byte = newline
            · subst ends
              exact .finished argument rest tail arguments unread
            · have other : [byte] ≠ [newline] := by simpa using ends
              simp only [List.take_succ_cons, List.take_zero, List.drop_succ_cons, List.drop_zero, if_neg other]
              exact .received byte tail (by simp [arguments]) ends unread
    · rw [if_neg reading] at taken
      cases taken
      exact .entered (Bool.eq_false_iff.mpr reading)

theorem step_move {state next : State} {action : Action} (joined : Joined state.stream)
    (taken : step state action = some next) : Move state next := by
  cases action with
  | writer count => exact writerStep_move joined taken
  | reader count => exact readerStep_move joined taken

/-! ## The invariant and the measure -/

/-- The values of `finished` have been read, and the bytes of `remaining` are on their way, or are going to be. -/
structure Carries (finished remaining : List Value) (state : State) : Prop where
  joined : Joined state.stream
  room : 0 < state.capacity
  results : state.results = finished.map Value.stored
  kinds : state.arguments.map Value.kind = remaining.map Value.kind
  plain : ∀ value ∈ remaining, value.Plain
  unfinished : newline ∉ state.line
  bytes : state.line ++ (state.stream.reader.unread ++ state.buffers.flatMap Buffer.sent) =
    remaining.flatMap Value.encode
  writing : state.writing = true -> ∃ buffer rest, state.buffers = buffer :: rest ∧ 0 < buffer.length.toNat

def Carried (values : List Value) (state : State) : Prop :=
  ∃ finished remaining, finished ++ remaining = values ∧ Carries finished remaining state

-- What is left of a turn in a loop: the transfer, and maybe the test before it.
def turn (tested : Bool) : Nat := if tested then 1 else 2

def measure (state : State) : Nat :=
  2 * state.idle + (state.buffers.map fun buffer => 4 * buffer.length.toNat + 2).sum +
    2 * state.stream.reader.unread.length + turn state.writing + turn state.reading

theorem turn_bounds (tested : Bool) : turn false = 2 ∧ turn true = 1 ∧ 1 ≤ turn tested := by
  cases tested <;> decide

section Step

variable {finished remaining values : List Value} {state next : State} {action : Action}

theorem split_unique {α : Type} {stop : α} {first second tail rest : List α} (one : stop ∉ first)
    (two : stop ∉ second) (same : first ++ stop :: tail = second ++ stop :: rest) :
    first = second ∧ tail = rest := by
  induction first generalizing second with
  | nil =>
      cases second with
      | nil => exact ⟨rfl, List.tail_eq_of_cons_eq same⟩
      | cons _ _ => exact absurd (by simp [List.head_eq_of_cons_eq same]) two
  | cons element first ih =>
      cases second with
      | nil => exact absurd (by simp [List.head_eq_of_cons_eq same]) one
      | cons _ second =>
          obtain ⟨rfl, tails⟩ := List.cons_eq_cons.mp same
          obtain ⟨rfl, rfl⟩ := ih (fun member => one (List.mem_cons_of_mem _ member))
            (fun member => two (List.mem_cons_of_mem _ member)) tails
          exact ⟨rfl, rfl⟩

theorem Carries.finish (carries : Carries finished remaining state) {argument : Value} {rest : List Value}
    {unread : List UInt8} (waiting : state.arguments = argument :: rest)
    (first : state.stream.reader.unread = newline :: unread) :
    ∃ value others, remaining = value :: others ∧
      Carries (finished ++ [value]) others ((state.take unread).finish argument rest) := by
  have kinds := carries.kinds
  rw [waiting, List.map_cons] at kinds
  obtain ⟨value, others, rfl, kind, otherKinds⟩ := List.map_eq_cons_iff.mp kinds.symm
  have plain := newline_not_mem_sent (carries.plain value (by simp))
  have bytes := carries.bytes
  rw [first, List.flatMap_cons, Value.encode, List.append_assoc, List.cons_append, List.singleton_append] at bytes
  obtain ⟨line, rest⟩ := split_unique carries.unfinished plain bytes
  refine ⟨value, others, rfl, ?_⟩
  exact
    { joined := carries.joined.replace unread
      room := carries.room
      results := by
        simp only [State.finish, State.take, List.map_append, List.map_singleton, carries.results, line,
          read_sent kind.symm]
      kinds := otherKinds.symm
      plain := fun other member => carries.plain other (List.mem_cons_of_mem _ member)
      unfinished := by simp [State.finish]
      bytes := rest
      writing := carries.writing }

theorem Carries.moved (carries : Carries finished remaining state) (move : Move state next) :
    Carries finished remaining next ∨
      ∃ value others, remaining = value :: others ∧ Carries (finished ++ [value]) others next := by
  cases move with
  | tested buffer rest first outside more =>
      exact Or.inl { carries with writing := fun _ => ⟨buffer, rest, first, more⟩ }
  | done buffer rest first outside nothing =>
      have bytes : state.line ++ (state.stream.reader.unread ++ rest.flatMap Buffer.sent) =
          remaining.flatMap Value.encode := by
        have sent : buffer.sent = [] := by rw [Buffer.sent, nothing, List.take_zero]
        have bytes := carries.bytes
        rwa [first, List.flatMap_cons, sent, List.nil_append] at bytes
      exact Or.inl { carries with bytes := bytes, writing := fun writing => nomatch writing }
  | wrote buffer rest count first fits idle =>
      have bytes : state.line ++ (state.stream.reader.unread ++ buffer.data.take count ++
          (buffer.advance count fits :: rest).flatMap Buffer.sent) = remaining.flatMap Value.encode := by
        rw [List.flatMap_cons, List.append_assoc, ← List.append_assoc (buffer.data.take count),
          (sent_advance buffer count fits).1, ← carries.bytes, first, List.flatMap_cons]
      exact Or.inl
        { carries with
          joined := carries.joined.replace _
          bytes := bytes
          writing := fun writing => nomatch writing }
  | entered outside => exact Or.inl { carries with }
  | interrupted idle => exact Or.inl { carries with }
  | received byte unread waiting other first =>
      have bytes : state.line ++ [byte] ++ (unread ++ state.buffers.flatMap Buffer.sent) =
          remaining.flatMap Value.encode := by
        rw [← carries.bytes, first, List.append_assoc]
        rfl
      exact Or.inl
        { carries with
          joined := carries.joined.replace _
          unfinished := by simp [carries.unfinished, Ne.symm other]
          bytes := bytes }
  | finished argument rest unread waiting first => exact Or.inr (carries.finish waiting first)

theorem Move.smaller (move : Move state next) : measure next < measure state := by
  have writing := turn_bounds state.writing
  have reading := turn_bounds state.reading
  cases move with
  | tested buffer rest first outside more =>
      simp only [measure, outside]
      omega
  | done buffer rest first outside nothing =>
      simp only [measure, first, outside, List.map_cons, List.sum_cons]
      omega
  | wrote buffer rest count first fits idle =>
      have taken : (buffer.data.take count).length = count :=
        List.length_take_of_le (Nat.le_trans fits buffer.inside)
      simp only [measure, Pipe.write, List.length_append, taken, first, List.map_cons, List.sum_cons,
        (sent_advance buffer count fits).2]
      split_ifs <;> omega
  | entered outside =>
      simp only [measure, outside]
      omega
  | interrupted idle =>
      simp only [measure]
      omega
  | received byte unread waiting other first =>
      simp only [measure, State.take, first, List.length_cons]
      omega
  | finished argument rest unread waiting first =>
      simp only [measure, State.take, State.finish, first, List.length_cons]
      omega

theorem carried_descends : Descends step (Carried values) measure where
  kept state action next := by
    rintro ⟨finished, remaining, rfl, carries⟩ taken
    rcases carries.moved (step_move carries.joined taken) with same | ⟨value, others, rfl, later⟩
    · exact ⟨finished, remaining, rfl, same⟩
    · exact ⟨finished ++ [value], others, by simp, later⟩
  smaller state action next := by
    rintro ⟨finished, remaining, _, carries⟩ taken
    exact (step_move carries.joined taken).smaller

/-- Somebody can go on while there is something to be read. -/
theorem Carries.finished_of_stuck (carries : Carries finished remaining state)
    (stuck : ∀ action, step state action = none) : remaining = [] := by
  by_contra some_remain
  obtain ⟨value, others, rfl⟩ := List.exists_cons_of_ne_nil some_remain
  obtain ⟨argument, rest, waiting, -⟩ := List.map_eq_cons_iff.mp carries.kinds
  have reader := stuck (.reader 1)
  simp only [step, State.readerStep, waiting, carries.joined.isClosed, State.read, Nat.one_ne_zero,
    if_false] at reader
  split_ifs at reader with reading
  have empty := readPipe_eq_none (Option.map_eq_none_iff.mp reader)
  -- The newline of `value` is not in `line`, so that a buffer has it.
  cases buffers : state.buffers with
  | nil =>
      have bytes := carries.bytes
      rw [empty, buffers, List.flatMap_nil, List.append_nil, List.append_nil] at bytes
      refine carries.unfinished ?_
      simp [bytes, Value.encode]
  | cons buffer more =>
      have writer := stuck (.writer 1)
      simp only [step, State.writerStep, buffers, State.write, carries.joined.output, empty] at writer
      split_ifs at writer with writing fits room
      · exact room ⟨carries.room, fun none => none.elim⟩
      · obtain ⟨first, tail, same, positive⟩ := carries.writing writing
        rw [buffers, List.cons.injEq] at same
        exact fits (same.1 ▸ positive)

theorem Start.carried (begun : Start values state) (plain : ∀ value ∈ values, value.Plain) :
    Carried values state := by
  refine ⟨[], values, rfl, ?_⟩
  exact
    { joined := begun.joined
      room := begun.room
      results := begun.results
      kinds := begun.arguments
      plain := plain
      unfinished := by simp [begun.line]
      bytes := by rw [begun.line, begun.empty, begun.buffers, sent_writeLine, List.nil_append, List.nil_append]
      writing := fun writing => by simp [begun.writing] at writing }

theorem yields_stored (begun : Start values state) (plain : ∀ value ∈ values, value.Plain) :
    Yields state (values.map Value.stored) := by
  have carried {later : State} (reached : Reachable step state later) : Carried values later :=
    reached.invariant _ (begun.carried plain) fun _ _ _ carried _ taken =>
      carried_descends.kept _ _ _ carried taken
  refine ⟨⟨measure state, fun actions final run => carried_descends.bound (begun.carried plain) run⟩, ?_, ?_⟩
  · intro later reached
    obtain ⟨finished, remaining, rfl, carries⟩ := carried reached
    rw [carries.results, List.map_append]
    exact List.prefix_append _ _
  · intro later reached stuck
    obtain ⟨finished, remaining, rfl, carries⟩ := carried reached
    rw [carries.results, carries.finished_of_stuck stuck, List.append_nil]

theorem Yields.unique {first second : List Value} (begun : Start values state)
    (plain : ∀ value ∈ values, value.Plain) (one : Yields state first) (two : Yields state second) :
    first = second := by
  obtain ⟨final, reached, stuck⟩ := carried_descends.ends (begun.carried plain)
  rw [← one.ended final reached stuck, two.ended final reached stuck]

theorem map_stored_eq_self : values.map Value.stored = values ↔
    ∀ bytes, Value.string bytes ∈ values -> bytes.length < 2 ^ 32 := by
  have each : values.map Value.stored = values ↔ ∀ value ∈ values, value.stored = value := by
    conv_lhs => rhs; rw [← List.map_id values]
    exact List.map_inj_left
  rw [each]
  constructor
  · intro same bytes member
    have all := congrArg List.length (Value.string.inj (same _ member))
    rw [List.length_take, Nat.min_eq_left (Nat.mod_le _ _)] at all
    rw [← all]
    exact Nat.mod_lt _ (by decide)
  · intro short value member
    cases value with
    | string bytes => rw [Value.stored, Nat.mod_eq_of_lt (short bytes member), List.take_length]
    | int | unsigned | bool => rfl

theorem plain_of_strings (strings : ∀ bytes, Value.string bytes ∈ values -> newline ∉ bytes) :
    ∀ value ∈ values, value.Plain := by
  intro value member
  cases value with
  | string bytes => exact strings bytes member
  | int | unsigned | bool => trivial

/-- What is written is what is read, for strings whose size an `unsigned int` can hold. -/
theorem round_trip_iff (strings : ∀ bytes, Value.string bytes ∈ values -> newline ∉ bytes)
    (begun : Start values state) :
    Yields state values ↔ ∀ bytes, Value.string bytes ∈ values -> bytes.length < 2 ^ 32 := by
  have plain := plain_of_strings strings
  rw [← map_stored_eq_self]
  constructor
  · intro yields
    exact (yields_stored begun plain).unique begun plain yields
  · intro short
    rw [← short]
    exact yields_stored begun plain

end Step

/-- A new pipe that holds `capacity + 1` bytes, where no transfer is empty. -/
def initial (capacity : Nat) (values : List Value) : State where
  stream := { reader := { writers := 1, readers := 1 }, writer := none, closed := 0 }
  capacity := capacity + 1
  idle := 0
  writing := false
  buffers := values.flatMap Value.writeLine
  reading := false
  line := []
  arguments := values
  results := []

theorem start_initial (capacity : Nat) (values : List Value) : Start values (initial capacity values) where
  joined := ⟨rfl, rfl, Nat.one_ne_zero, Nat.one_ne_zero⟩
  empty := rfl
  room := Nat.succ_pos capacity
  writing := rfl
  buffers := rfl
  reading := rfl
  line := rfl
  arguments := rfl
  results := rfl

def mixed : List Value := [.string [], .int (-5), .unsigned 7, .string [0, 65], .bool true]

theorem round_trip_iff_mixed : Yields (initial 4095 mixed) mixed ↔
    ∀ bytes, Value.string bytes ∈ mixed -> bytes.length < 2 ^ 32 := by
  refine round_trip_iff ?_ (start_initial 4095 mixed)
  intro bytes member
  simp only [mixed, List.mem_cons, Value.string.injEq, reduceCtorEq, List.not_mem_nil, false_or,
    or_false] at member
  rcases member with rfl | rfl <;> decide

theorem long_string_lost {bytes : List UInt8} (long : bytes.length = 2 ^ 32) (plain : newline ∉ bytes)
    (capacity : Nat) : ¬ Yields (initial capacity [.string bytes]) [.string bytes] := by
  intro yields
  have every : ∀ value ∈ [Value.string bytes], value.Plain := by
    intro value member
    rw [List.mem_singleton.mp member]
    exact plain
  have begun := start_initial capacity [.string bytes]
  have same := (yields_stored begun every).unique begun every yields
  have short := map_stored_eq_self.mp same bytes (List.mem_singleton.mpr rfl)
  exact absurd long (Nat.ne_of_lt short)

theorem round_trip_fails : ¬ ∀ values : List Value, (∀ bytes, Value.string bytes ∈ values -> newline ∉ bytes) ->
    ∀ state, Start values state -> Yields state values := by
  intro round_trips
  have plain : newline ∉ List.replicate (2 ^ 32) (65 : UInt8) := by
    intro member
    exact absurd (List.eq_of_mem_replicate member) (by decide)
  have strings : ∀ bytes, Value.string bytes ∈ [Value.string (List.replicate (2 ^ 32) 65)] -> newline ∉ bytes := by
    intro bytes member
    rw [Value.string.inj (List.mem_singleton.mp member)]
    exact plain
  exact long_string_lost List.length_replicate plain 0 (round_trips _ strings _ (start_initial 0 _))

end ZSystem.Stream.Typed
