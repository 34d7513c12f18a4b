import ZSystem.Stream.Drain
import ZSystem.Stream.Report

set_option autoImplicit false

/-!
# Reading until the end of the input

`operator>>` of `ZSReader` reads one byte after the other until it has what it needs, or until `IsClosed`.
-/

namespace ZSystem.Stream.Extract

open Transition
open ZSystem.Server (Dgram DgramOp DgramSession Filled Emptied SockAddrIn filled_of_made)

/-! ## The kernel -/

inductive Source where
  | pipe
  | localSocket
  | tcpSocket
  | file
  deriving DecidableEq, Repr

/-- At the end of the input `poll` reports `POLLHUP`. -/
def Source.hangsUp : Source -> Bool
  | .pipe | .localSocket => true
  | .tcpSocket | .file => false

/-- The bytes that can be read, and those that are going to arrive before the peer closes. -/
structure Input where
  source : Source
  unread : List UInt8
  coming : List UInt8
  ended : Bool
  complete : ended = true -> coming = []
  file : source = .file -> ended = true
  deriving DecidableEq

def Input.revents (input : Input) : UInt32 :=
  (if input.unread ≠ [] ∨ input.ended = true ∧ input.source ≠ .pipe then pollIn else 0) |||
  (if input.ended = true ∧ input.source.hangsUp = true then pollHup else 0)

def Input.deliver (input : Input) (count : Nat) : Option Input :=
  if 0 < count ∧ count ≤ input.coming.length then
    some { input with
      unread := input.unread ++ input.coming.take count
      coming := input.coming.drop count
      complete := fun ended => by simp [input.complete ended] }
  else none

def Input.finish (input : Input) : Option Input :=
  if all : input.ended = false ∧ input.coming = [] then
    some { input with ended := true, complete := fun _ => all.2, file := fun _ => rfl }
  else none

/-- A read of one byte: what it returns, and the byte; `none` while it has to wait. -/
def Input.read (input : Input) : Option (Int × List UInt8 × Input) :=
  match input.unread with
  | byte :: rest => some (1, [byte], { input with unread := rest })
  | [] => if input.ended then some (0, [], input) else none

/-! ## `ZSReader` -/

inductive Reader where
  | descriptor (stream : Struct) (input : Input)
  | datagram (stream : Dgram)

def Reader.endpoint : Reader -> Endpoint
  | .descriptor stream _ => .descriptor stream
  | .datagram stream => .datagram stream

/-- `writer` is what `poll` reports for the other direction. -/
def Reader.isClosed (reader : Reader) (writer : UInt32) : Bool :=
  reader.endpoint.isClosed .reader fun direction =>
    match direction, reader with
    | .reader, .descriptor _ input => input.revents
    | _, _ => writer

/-- The byte that `Read(&a_char, 1)` stores if it returns 1. -/
def Reader.read : Reader -> Option (Option UInt8 × Reader)
  | .descriptor stream input =>
      input.read.map fun (back, bytes, input) =>
        let answer : Answer := { interrupted := 0, transferred := back, revents := fun _ => 0, name := none }
        (if (streamRead stream 1 answer).2 = 1 then bytes.head? else none, .descriptor stream input)
  | .datagram stream => (stream.read 1).map fun (bytes, stream, _) => (bytes.head?, .datagram stream)

/-- `operator>>` for `char`, and for strings and numbers, which read a line. -/
inductive Extraction where
  | char
  | line
  deriving DecidableEq, Repr

inductive PC where
  | test
  | receive
  | returned
  deriving DecidableEq, Repr

structure State where
  reader : Reader
  call : Extraction
  pc : PC
  -- The byte of a `char`, or `a_string`.
  text : List UInt8
  -- How many signals are still going to end a read that waits.
  signals : Nat

inductive Action where
  | deliver (count : Nat)
  -- The peer closes.
  | finish
  | signal
  | own (writer : UInt32)
  deriving DecidableEq, Repr

def State.received (state : State) : Option UInt8 -> State
  | none => { state with pc := .test }
  | some byte =>
      match state.call with
      | .char => { state with pc := .returned, text := [byte] }
      | .line =>
          if byte = newline then { state with pc := .returned }
          else { state with pc := .test, text := state.text ++ [byte] }

def step (state : State) : Action -> Option State
  | .deliver count =>
      match state.reader with
      | .descriptor stream input =>
          (input.deliver count).map fun input => { state with reader := .descriptor stream input }
      | .datagram _ => none
  | .finish =>
      match state.reader with
      | .descriptor stream input => input.finish.map fun input => { state with reader := .descriptor stream input }
      | .datagram _ => none
  | .signal =>
      if 0 < state.signals ∧ state.pc = .receive ∧ state.reader.read.isNone then
        match state.reader.endpoint with
        -- `read` returns -1, and `recv` is repeated.
        | .descriptor stream =>
            match stream.read with
            | .pipe => some { state.received none with signals := state.signals - 1 }
            | .socket => some { state with signals := state.signals - 1 }
        | .datagram _ => none
      else none
  | .own writer =>
      match state.pc with
      | .test => some { state with pc := if state.reader.isClosed writer then .returned else .receive }
      | .receive => state.reader.read.map fun (byte, reader) => { state with reader := reader }.received byte
      | .returned => none

def start (reader : Reader) (call : Extraction) (signals : Nat) : State :=
  { reader := reader, call := call, pc := .test, text := [], signals := signals }

/-- A stream that has been made and used, with any input. -/
inductive Reader.Possible : Reader -> Prop where
  | descriptor (origin : Origin) (closes : List Direction) (input : Input) :
      Possible (.descriptor (origin.stream.closeAll closes).1 input)
  | datagram (server : Server) (bytes : List UInt8) (remoteHost : SockAddrIn) (stream : Dgram)
      (fits : bytes.length ≤ 2048)
      (made : server.connection (.datagram bytes remoteHost) = some (.dgram stream)) (ops : List DgramOp)
      (session : DgramSession) (run : exec DgramSession.step stream.session ops = some session) :
      Possible (.datagram session.stream)

/-! ## The condition -/

def Reader.unread : Reader -> List UInt8
  | .descriptor _ input => input.unread
  | .datagram stream => stream.readBuffer.drop stream.readBufferCur.toNat

def Reader.coming : Reader -> List UInt8
  | .descriptor _ input => input.coming
  | .datagram _ => []

def Reader.content (reader : Reader) : List UInt8 := reader.unread ++ reader.coming

def Extraction.Satisfied (bytes : List UInt8) : Extraction -> Prop
  | .char => bytes ≠ []
  | .line => newline ∈ bytes

/-- `IsClosed` is true at the end of the input. -/
def Reader.Notices : Reader -> Prop
  | .descriptor stream input =>
      (Endpoint.descriptor stream).isShut .reader ∨
        input.source.hangsUp = true ∧ (Endpoint.descriptor stream).polls = true
  | .datagram _ => True

/-! ## What the reader finds -/

def Reader.ended : Reader -> Bool
  | .descriptor _ input => input.ended
  | .datagram _ => true

inductive Reader.Sound : Reader -> Prop where
  | descriptor {stream : Struct} {input : Input}
      (usable : (Endpoint.descriptor stream).isShut .reader ∨ 0 ≤ stream.served stream.read .reader) :
      Sound (.descriptor stream input)
  | datagram {bytes : List UInt8} {session : DgramSession} (held : Filled bytes session ∨ Emptied session) :
      Sound (.datagram session.stream)

def Reader.Open : Reader -> Prop
  | .descriptor stream _ => 0 ≤ stream.served stream.read .reader
  | .datagram _ => True

section Reader

variable {reader : Reader} {stream : Struct} {input : Input} {writer : UInt32}

theorem revents_bits (input : Input) :
    (input.revents &&& (pollErr ||| pollNval) = 0 ∧ input.revents &&& pollPri = 0) ∧
      (input.revents &&& pollHup ≠ 0 ↔ input.ended = true ∧ input.source.hangsUp = true) ∧
      (input.revents &&& hangup ≠ 0 ↔ input.ended = true ∧ input.source.hangsUp = true) := by
  unfold Input.revents
  split_ifs with readable hung hung <;> simp only [hung, iff_false] <;> decide

theorem isClosed_descriptor : (Reader.descriptor stream input).isClosed writer = true ↔
    (Endpoint.descriptor stream).isShut .reader ∨
      (Endpoint.descriptor stream).polls = true ∧ input.ended = true ∧ input.source.hangsUp = true := by
  obtain ⟨⟨quiet, pri⟩, hup, hang⟩ := revents_bits input
  cases state : stream.state with
  | pipe =>
      refine (isClosed_pipe state).trans (or_congr_right ?_)
      simp [Endpoint.polls, state, hang]
  | socket =>
      refine (isClosed_socket state).trans (or_congr_right ?_)
      simp [Endpoint.polls, state, quiet, pri, hup]

theorem Reader.Notices.of_closed (sound : reader.Sound) (closed : reader.isClosed writer = true) :
    reader.Notices := by
  cases sound with
  | descriptor => exact (isClosed_descriptor.mp closed).imp_right fun hung => ⟨hung.2.2, hung.1⟩
  | datagram => trivial

theorem Reader.Notices.closed (sound : reader.Sound) (notices : reader.Notices) (ended : reader.ended = true)
    (empty : reader.unread = []) : reader.isClosed writer = true := by
  cases sound with
  | descriptor => exact isClosed_descriptor.mpr (notices.imp_right fun hung => ⟨hung.2, ended, hung.1⟩)
  | @datagram bytes session held =>
      refine isClosed_datagram.mpr (Or.inl ?_)
      rcases held with filled | emptied
      · have more := filled.more
        have none := congrArg List.length empty
        simp only [Reader.unread, filled.buffer, filled.cur, List.length_drop, List.length_nil] at none
        omega
      · exact emptied.shut

theorem Reader.Sound.opened (sound : reader.Sound) (closed : reader.isClosed writer = false) : reader.Open := by
  cases sound with
  | descriptor usable =>
      refine usable.resolve_left fun shut => ?_
      rw [isClosed_descriptor.mpr (Or.inl shut)] at closed
      cases closed
  | datagram => trivial

inductive Reads (reader : Reader) : Option (Option UInt8 × Reader) -> Prop where
  | byte (byte : UInt8) (next : Reader) (sound : next.Sound) (taken : reader.unread = byte :: next.unread)
      (coming : next.coming = reader.coming) (ended : next.ended = reader.ended)
      (notices : next.Notices ↔ reader.Notices) : Reads reader (some (some byte, next))
  | nothing (empty : reader.unread = []) (ended : reader.ended = true) : Reads reader (some (none, reader))
  | waits (empty : reader.unread = []) (going : reader.ended = false) : Reads reader none

theorem reads_one (served : 0 ≤ stream.served stream.read .reader) (back : Int) (few : back = 0 ∨ back = 1) :
    (streamRead stream 1 { interrupted := 0, transferred := back, revents := fun _ => 0, name := none }).2 =
      UInt32.ofNat back.toNat := by
  rw [(streamRead_transfers 1 _).amount, if_neg (by decide)]
  simp only [Answer.back, if_neg (not_lt.mpr served)]
  rcases few with rfl | rfl <;> rfl

theorem filled_reads {bytes : List UInt8} {session : DgramSession} (filled : Filled bytes session) :
    Reads (.datagram session.stream) (Reader.datagram session.stream).read := by
  obtain ⟨next, taken, returned, after⟩ := filled.read 1
  simp only [DgramSession.step, Option.map_eq_some_iff] at taken
  obtain ⟨⟨chunk, stream, freed⟩, got, rfl⟩ := taken
  have more := filled.more
  have front : bytes.drop session.returned.length =
      bytes[session.returned.length] :: bytes.drop (session.returned.length + 1) := List.drop_eq_getElem_cons more
  have size : min bytes.length (session.returned.length + (1 : UInt32).toNat) = session.returned.length + 1 := by
    rw [show (1 : UInt32).toNat = 1 from rfl]
    omega
  have one : chunk = [bytes[session.returned.length]] := by
    rw [size, List.take_add, ← filled.returned, front] at returned
    exact List.append_cancel_left returned
  subst one
  have unread : (Reader.datagram session.stream).unread = bytes.drop session.returned.length := by
    simp only [Reader.unread, filled.buffer, filled.cur]
  simp only [Reader.read, got, Option.map_some, List.head?_cons]
  refine .byte _ _ ?_ (unread.trans (front.trans ?_)) rfl rfl Iff.rfl
  · exact @Reader.Sound.datagram _ { stream := stream, returned := _, frees := _ } (after.imp_right And.left)
  · congr 1
    rcases after with still | ⟨emptied, all⟩
    · have buffer := still.buffer
      have cur := still.cur
      simp only [List.length_append, List.length_singleton] at buffer cur
      simp only [Reader.unread, buffer, cur]
    · have length := congrArg List.length all
      simp only [List.length_append, List.length_singleton] at length
      have buffer := emptied.buffer
      simp only at buffer
      simp [Reader.unread, buffer, length]

theorem Reader.Sound.reads (sound : reader.Sound) (opened : reader.Open) : Reads reader reader.read := by
  cases sound with
  | @descriptor stream input usable =>
      have got := reads_one opened
      cases unread : input.unread with
      | cons byte rest =>
          have one : (UInt32.ofNat (1 : Int).toNat) = 1 := rfl
          simp only [Reader.read, Input.read, unread, Option.map_some, got 1 (Or.inr rfl), one, if_true, List.head?_cons]
          exact .byte byte _ (.descriptor usable) unread rfl rfl Iff.rfl
      | nil =>
          cases ended : input.ended with
          | true =>
              have zero : ¬ (UInt32.ofNat (0 : Int).toNat) = 1 := by decide
              simp only [Reader.read, Input.read, unread, ended, if_true, Option.map_some, got 0 (Or.inl rfl), zero,
                if_false]
              exact .nothing unread ended
          | false =>
              simp only [Reader.read, Input.read, unread, ended, Bool.false_eq_true, if_false, Option.map_none]
              exact .waits unread ended
  | @datagram bytes session held =>
      rcases held with filled | emptied
      · exact filled_reads filled
      · simp only [Reader.read, emptied.read, Option.map_some]
        exact .nothing (by simp [Reader.unread, emptied.buffer]) rfl

end Reader

/-! ## What a step does -/

/-- The kernel changes the input of the same stream. -/
structure Same (before after : Reader) : Prop where
  sound : before.Sound -> after.Sound
  opened : before.Open -> after.Open
  notices : after.Notices ↔ before.Notices
  content : after.content = before.content

inductive Move (state : State) : State -> Prop where
  | deliver (reader : Reader) (same : Same state.reader reader) (going : reader.ended = false)
      (more : state.reader.unread.length < reader.unread.length) (was : state.reader.ended = false) :
      Move state { state with reader := reader }
  | finish (reader : Reader) (same : Same state.reader reader) (unread : reader.unread = state.reader.unread)
      (ended : reader.ended = true) (was : state.reader.ended = false) : Move state { state with reader := reader }
  | signal (pc : PC) (here : state.pc = .receive) (after : pc = .test ∨ pc = .receive) (some : 0 < state.signals) :
      Move state { state with pc := pc, signals := state.signals - 1 }
  | report (writer : UInt32) (here : state.pc = .test) (closed : state.reader.isClosed writer = true) :
      Move state { state with pc := .returned }
  | tested (writer : UInt32) (here : state.pc = .test) (opened : state.reader.isClosed writer = false) :
      Move state { state with pc := .receive }
  | read (here : state.pc = .receive) (byte : Option UInt8) (reader : Reader)
      (reads : state.reader.read = some (byte, reader)) :
      Move state ({ state with reader := reader }.received byte)

variable {state next : State} {action : Action} {call : Extraction} {stream : Struct} {input after : Input}

theorem same_of_deliver {count : Nat} (delivered : input.deliver count = some after) :
    Same (.descriptor stream input) (.descriptor stream after) ∧ input.ended = false ∧ after.ended = false ∧
      input.unread.length < after.unread.length := by
  unfold Input.deliver at delivered
  split_ifs at delivered with few
  cases delivered
  have going : input.ended = false := by
    by_contra ended
    have none := input.complete (by simpa using ended)
    simp only [none, List.length_nil] at few
    omega
  refine ⟨⟨fun sound => ?_, id, Iff.rfl, ?_⟩, going, going, ?_⟩
  · cases sound with
    | descriptor usable => exact .descriptor usable
  · simp [Reader.content, Reader.unread, Reader.coming]
  · simp only [List.length_append, List.length_take]
    omega

theorem same_of_finish (finished : input.finish = some after) :
    Same (.descriptor stream input) (.descriptor stream after) ∧ input.ended = false ∧ after.ended = true ∧
      after.unread = input.unread := by
  unfold Input.finish at finished
  split_ifs at finished with all
  cases finished
  refine ⟨⟨fun sound => ?_, id, Iff.rfl, rfl⟩, all.1, rfl, rfl⟩
  cases sound with
  | descriptor usable => exact .descriptor usable

theorem step_move (taken : step state action = some next) : Move state next := by
  obtain ⟨reader, call, pc, text, signals⟩ := state
  cases action with
  | deliver count =>
      cases reader with
      | datagram => cases taken
      | descriptor stream input =>
          obtain ⟨after, delivered, rfl⟩ := Option.map_eq_some_iff.mp taken
          obtain ⟨same, was, going, more⟩ := same_of_deliver delivered
          exact .deliver _ same going more was
  | finish =>
      cases reader with
      | datagram => cases taken
      | descriptor stream input =>
          obtain ⟨after, finished, rfl⟩ := Option.map_eq_some_iff.mp taken
          obtain ⟨same, was, ended, unread⟩ := same_of_finish finished
          exact .finish _ same unread ended was
  | signal =>
      simp only [step] at taken
      split_ifs at taken with waits
      obtain ⟨some, rfl, -⟩ := waits
      cases reader with
      | datagram => cases taken
      | descriptor stream input =>
          simp only [Reader.endpoint] at taken
          cases backend : stream.read with
          | pipe =>
              simp only [backend, Option.some.injEq] at taken
              subst taken
              exact .signal .test rfl (Or.inl rfl) some
          | socket =>
              simp only [backend, Option.some.injEq] at taken
              subst taken
              exact .signal .receive rfl (Or.inr rfl) some
  | own writer =>
      cases pc with
      | test =>
          cases taken
          cases closed : reader.isClosed writer with
          | true => exact .report writer rfl closed
          | false => exact .tested writer rfl closed
      | receive =>
          obtain ⟨⟨byte, after⟩, reads, rfl⟩ := Option.map_eq_some_iff.mp taken
          exact .read rfl byte after reads
      | returned => cases taken

theorem received_cases (state : State) (byte : Option UInt8) :
    ((state.received byte).reader = state.reader ∧ (state.received byte).call = state.call ∧
      (state.received byte).signals = state.signals) ∧
    ((state.received byte).pc = .test ∧ (∀ char ∈ byte, state.call = .line ∧ char ≠ newline) ∨
      (state.received byte).pc = .returned ∧ ∃ char ∈ byte, state.call.Satisfied [char]) := by
  obtain ⟨reader, call, pc, text, signals⟩ := state
  cases byte with
  | none => exact ⟨⟨rfl, rfl, rfl⟩, Or.inl ⟨rfl, by simp⟩⟩
  | some char =>
      cases call with
      | char => exact ⟨⟨rfl, rfl, rfl⟩, Or.inr ⟨rfl, char, rfl, by simp [Extraction.Satisfied]⟩⟩
      | line =>
          simp only [State.received]
          split_ifs with ends
          · exact ⟨⟨rfl, rfl, rfl⟩, Or.inr ⟨rfl, char, rfl, by simp [Extraction.Satisfied, ends]⟩⟩
          · exact ⟨⟨rfl, rfl, rfl⟩, Or.inl ⟨rfl, by simp [ends]⟩⟩

/-! ## Every run -/

structure Steady (state : State) : Prop where
  sound : state.reader.Sound
  opened : state.pc = .receive -> state.reader.Open

theorem Steady.reads (steady : Steady state) (here : state.pc = .receive) : Reads state.reader state.reader.read :=
  steady.sound.reads (steady.opened here)

theorem Steady.move (steady : Steady state) (move : Move state next) : Steady next := by
  cases move with
  | deliver reader same | finish reader same =>
      exact ⟨same.sound steady.sound, fun here => same.opened (steady.opened here)⟩
  | signal pc here => exact ⟨steady.sound, fun _ => steady.opened here⟩
  | report => exact ⟨steady.sound, by simp⟩
  | tested writer here opened => exact ⟨steady.sound, fun _ => steady.sound.opened opened⟩
  | read here byte reader reads =>
      obtain ⟨⟨same, -, -⟩, after⟩ := received_cases { state with reader := reader } byte
      have sound : reader.Sound := by
        have found := steady.reads here
        rw [reads] at found
        cases found with
        | byte _ _ sound => exact sound
        | nothing => exact steady.sound
      refine ⟨same ▸ sound, fun again => ?_⟩
      rcases after with ⟨test, -⟩ | ⟨returned, -⟩ <;> simp_all

theorem arrives (going : input.ended = false) : (input.deliver 1).isSome ∨ input.finish.isSome := by
  cases coming : input.coming with
  | nil => exact Or.inr (by simp [Input.finish, going, coming])
  | cons byte rest => exact Or.inl (by simp [Input.deliver, coming])

theorem Steady.acts (steady : Steady state) (going : state.pc ≠ .returned) :
    ∃ action, (step state action).isSome := by
  obtain ⟨reader, call, pc, text, signals⟩ := state
  cases pc with
  | returned => exact absurd rfl going
  | test => exact ⟨.own 0, rfl⟩
  | receive =>
      have found := steady.reads rfl
      cases reads : reader.read with
      | some outcome => exact ⟨.own 0, by simp [step, reads]⟩
      | none =>
          rw [reads] at found
          cases found with
          | waits empty waiting =>
              cases reader with
              | datagram => cases waiting
              | descriptor stream input =>
                  rcases arrives waiting with more | ends
                  · exact ⟨.deliver 1, by simpa [step] using more⟩
                  · exact ⟨.finish, by simpa [step] using ends⟩

/-- The call gets what it needs, or sees the end of the input. -/
structure Ready (state : State) : Prop extends Steady state where
  why : state.pc = .returned ∨ state.reader.Notices ∨ state.call.Satisfied state.reader.content

def PC.weight (reader : Reader) : PC -> Nat
  | .test => 2
  | .receive => if reader.ended = true ∧ reader.unread = [] then 3 else 1
  | .returned => 0

def State.measure (state : State) : Nat :=
  3 * state.reader.unread.length + 4 * state.reader.coming.length + (if state.reader.ended then 0 else 3) +
    3 * state.signals + state.pc.weight state.reader

theorem weight_running {reader : Reader} (going : reader.ended = false) : PC.weight reader .receive = 1 := by
  simp [PC.weight, going]

theorem weight_most (reader : Reader) (pc : PC) : pc.weight reader ≤ 3 := by
  cases pc with
  | receive =>
      simp only [PC.weight]
      split_ifs <;> omega
  | test | returned => simp [PC.weight]

theorem satisfied_cons {char : UInt8} {rest : List UInt8} (line : call = .line) (differ : char ≠ newline) :
    call.Satisfied (char :: rest) ↔ call.Satisfied rest := by
  subst line
  simp [Extraction.Satisfied, Ne.symm differ]

theorem Ready.move (ready : Ready state) (move : Move state next) : Ready next := by
  have steady := ready.toSteady.move move
  refine ⟨steady, ?_⟩
  cases move with
  | deliver reader same | finish reader same =>
      simpa only [same.content, same.notices] using ready.why
  | signal pc here => exact Or.inr (ready.why.resolve_left (by simp [here]))
  | report => exact Or.inl rfl
  | tested writer here => exact Or.inr (ready.why.resolve_left (by simp [here]))
  | read here byte reader reads =>
      have found := ready.toSteady.reads here
      have why := ready.why.resolve_left (by simp [here])
      obtain ⟨⟨same, call, -⟩, ⟨test, other⟩ | ⟨returned, -⟩⟩ :=
        received_cases { state with reader := reader } byte
      · rw [reads] at found
        refine Or.inr ?_
        rw [same, call]
        cases found with
        | byte char _ sound taken coming ended notices =>
            refine why.imp notices.mpr fun satisfied => ?_
            obtain ⟨line, differ⟩ := other char rfl
            rw [Reader.content, taken, ← coming] at satisfied
            exact (satisfied_cons line differ).mp satisfied
        | nothing => exact why
      · exact Or.inl returned

theorem coming_of_ended {reader : Reader} (ended : reader.ended = true) : reader.coming = [] := by
  cases reader with
  | descriptor stream input => exact input.complete ended
  | datagram => rfl

theorem measure_received (state : State) (byte : Option UInt8) :
    (state.received byte).measure ≤ 3 * state.reader.unread.length + 4 * state.reader.coming.length +
      (if state.reader.ended then 0 else 3) + 3 * state.signals + 2 := by
  obtain ⟨⟨same, -, signals⟩, ⟨pc, -⟩ | ⟨pc, -⟩⟩ := received_cases state byte <;>
    simp [State.measure, same, signals, pc, PC.weight]

theorem Ready.smaller (ready : Ready state) (move : Move state next) : next.measure < state.measure := by
  cases move with
  | deliver reader same going more was =>
      have length := congrArg List.length same.content
      simp only [Reader.content, List.length_append] at length
      have weight : state.pc.weight reader = state.pc.weight state.reader := by
        cases pc : state.pc <;> simp [PC.weight, going, was]
      simp only [State.measure, weight, going, was]
      omega
  | finish reader same unread ended was =>
      have content := same.content
      rw [Reader.content, Reader.content, unread, List.append_cancel_left_eq] at content
      have weight : state.pc.weight reader ≤ state.pc.weight state.reader + 2 := by
        cases pc : state.pc with
        | receive =>
            rw [weight_running was]
            exact weight_most reader .receive
        | test | returned => simp [PC.weight]
      simp only [State.measure, unread, content, ended, was, if_true, Bool.false_eq_true, if_false]
      omega
  | signal pc here after some =>
      have weight : pc.weight state.reader ≤ state.pc.weight state.reader + 1 := by
        rcases after with rfl | rfl
        · rw [here]
          simp only [PC.weight]
          split_ifs <;> omega
        · rw [here]
          omega
      simp only [State.measure]
      omega
  | report writer here =>
      simp only [State.measure, here, PC.weight]
      omega
  | tested writer here opened =>
      have more : ¬ (state.reader.ended = true ∧ state.reader.unread = []) := by
        rintro ⟨ended, empty⟩
        rcases ready.why.resolve_left (by simp [here]) with notices | satisfied
        · rw [notices.closed ready.sound ended empty] at opened
          cases opened
        · rw [Reader.content, empty, coming_of_ended ended] at satisfied
          cases call : state.call <;> simp [call, Extraction.Satisfied] at satisfied
      simp only [State.measure, here, PC.weight, if_neg more]
      omega
  | read here byte reader reads =>
      have found := ready.toSteady.reads here
      rw [reads] at found
      refine (measure_received { state with reader := reader } byte).trans_lt ?_
      simp only [State.measure, here]
      cases found with
      | byte char _ sound taken coming ended =>
          have before : 1 ≤ PC.weight state.reader .receive := by
            simp only [PC.weight]
            split_ifs <;> omega
          rw [taken, coming, ended, List.length_cons]
          omega
      | nothing empty ended =>
          have before : PC.weight state.reader .receive = 3 := if_pos ⟨ended, empty⟩
          omega

/-- The end of the input is not noticed, and what the call needs is not there. -/
structure Blind (state : State) : Prop extends Steady state where
  going : state.pc ≠ .returned
  unnoticed : ¬ state.reader.Notices
  missing : ¬ state.call.Satisfied state.reader.content

theorem satisfied_head {char : UInt8} {rest : List UInt8} (satisfied : call.Satisfied [char]) :
    call.Satisfied (char :: rest) := by
  cases call with
  | char => simp [Extraction.Satisfied]
  | line => exact List.mem_cons.mpr (Or.inl (List.mem_singleton.mp satisfied))

theorem Blind.move (blind : Blind state) (move : Move state next) : Blind next := by
  have steady := blind.toSteady.move move
  suffices rest : next.pc ≠ .returned ∧ ¬ next.reader.Notices ∧ ¬ next.call.Satisfied next.reader.content from
    ⟨steady, rest.1, rest.2.1, rest.2.2⟩
  cases move with
  | deliver reader same | finish reader same =>
      exact ⟨blind.going, by simpa only [same.notices] using blind.unnoticed,
        by simpa only [same.content] using blind.missing⟩
  | signal pc here after => exact ⟨by rcases after with rfl | rfl <;> simp, blind.unnoticed, blind.missing⟩
  | report writer here closed => exact absurd (Reader.Notices.of_closed blind.sound closed) blind.unnoticed
  | tested => exact ⟨by simp, blind.unnoticed, blind.missing⟩
  | read here byte reader reads =>
      have found := blind.toSteady.reads here
      rw [reads] at found
      cases found with
      | byte char _ sound taken coming ended notices =>
          have content : state.reader.content = char :: reader.content := by
            rw [Reader.content, Reader.content, taken, coming, List.cons_append]
          have missing : ¬ state.call.Satisfied (char :: reader.content) := content ▸ blind.missing
          obtain ⟨⟨same, call, -⟩, after⟩ := received_cases { state with reader := reader } (some char)
          rcases after with ⟨test, other⟩ | ⟨-, _, got, satisfied⟩
          · obtain ⟨line, differ⟩ := other char rfl
            rw [same, call, test]
            exact ⟨by simp, fun noticed => blind.unnoticed (notices.mp noticed),
              fun satisfied => missing ((satisfied_cons line differ).mpr satisfied)⟩
          · cases got
            exact absurd (satisfied_head satisfied) missing
      | nothing => exact ⟨by simp [State.received], blind.unnoticed, blind.missing⟩

theorem Reader.Possible.sound {reader : Reader} (possible : reader.Possible) : reader.Sound := by
  cases possible with
  | descriptor origin closes input =>
      obtain ⟨ledger, -⟩ := origin.ledger.closeAll closes
      refine .descriptor ?_
      rw [ledger.served.1]
      by_cases none : origin.descriptor .reader = -1
      · exact Or.inl (isShut_iff.mp (ledger.missing .reader none))
      · have valid := origin.descriptor_valid .reader
        exact Or.inr (by omega)
  | datagram server bytes remoteHost stream fits made ops session run =>
      obtain ⟨final, ran, -, after⟩ := (filled_of_made fits made).run ops
      cases ran.symm.trans run
      exact .datagram (after.imp And.left And.left)

theorem Ready.ends (ready : Ready state) : Terminates step (fun state => state.pc = .returned) state := by
  have descends : Descends step Ready State.measure :=
    ⟨fun _ _ _ ready taken => ready.move (step_move taken), fun _ _ _ ready taken => ready.smaller (step_move taken)⟩
  refine descends.terminates ready fun state ready stuck => ?_
  by_contra going
  obtain ⟨action, acts⟩ := ready.toSteady.acts going
  simp [stuck action] at acts

theorem Blind.endless (blind : Blind state) : ¬ Terminates step (fun state => state.pc = .returned) state :=
  not_terminates Blind (fun _ _ _ blind taken => blind.move (step_move taken))
    (fun _ blind => blind.toSteady.acts blind.going) blind

theorem extract_ends_iff (reader : Reader) (possible : reader.Possible) (call : Extraction) (signals : Nat) :
    Terminates step (fun state => state.pc = .returned) (start reader call signals) ↔
      reader.Notices ∨ call.Satisfied reader.content := by
  have steady : Steady (start reader call signals) := ⟨possible.sound, by simp [start]⟩
  constructor
  · intro terminates
    by_contra lacking
    obtain ⟨unnoticed, missing⟩ := not_or.mp lacking
    have blind : Blind (start reader call signals) := ⟨steady, by simp [start], unnoticed, missing⟩
    exact blind.endless terminates
  · intro why
    have ready : Ready (start reader call signals) := ⟨steady, Or.inr why⟩
    exact ready.ends

/-- A stream of `zs__stream_create_socket` with two bytes to be read; then the peer has closed its end. -/
def greeting (source : Source) (remoteHost : Family) : Reader :=
  .descriptor (streamCreateSocket 3 (some remoteHost))
    { source := source, unread := [104, 105], coming := [], ended := true, complete := fun _ => rfl, file := fun _ => rfl }

theorem greeting_possible (source : Source) (remoteHost : Family) : (greeting source remoteHost).Possible :=
  .descriptor (.socket 3 (some remoteHost) (by decide)) [] _

theorem extract_ends_iff_localSocket :
    Terminates step (fun state => state.pc = .returned) (start (greeting .localSocket .unix) .line 0) :=
  (extract_ends_iff (greeting .localSocket .unix) (greeting_possible .localSocket .unix) .line 0).mpr
    (Or.inl (Or.inr (by decide)))

/-- A connection of which the other end has been closed is only reported as readable. -/
theorem extract_ends_fails :
    (greeting .tcpSocket .inet).Possible ∧
      ¬ Terminates step (fun state => state.pc = .returned) (start (greeting .tcpSocket .inet) .line 0) := by
  have possible := greeting_possible .tcpSocket .inet
  have blind : Blind (start (greeting .tcpSocket .inet) .line 0) :=
    { sound := possible.sound
      opened := by simp [start]
      going := by simp [start]
      unnoticed := by
        rintro (shut | ⟨hangsUp, -⟩)
        · revert shut
          decide
        · cases hangsUp
      missing := by
        change newline ∉ [104, 105]
        decide }
  exact ⟨possible, blind.endless⟩

end ZSystem.Stream.Extract
