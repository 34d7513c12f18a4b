import ZSystem.Abort.Owners
import ZSystem.Stream.Struct
import ZSystem.Wait.Select

set_option autoImplicit false

/-!
# Servers

`zs__server_create_*` opens a socket and a pipe, and `zs__server_run` and `zs__server_run_dgram` wait for
both of them until a byte of `zs__server_abort` is in the pipe.
-/

open Transition
open ZSystem.Abort (SocketType)
open ZSystem.Stream (Struct Family StreamType streamCreatePipe streamCreateSocket)

/-- `struct zs__server`, with the function that its thread runs. -/
structure ZSystem.Server where
  socketType : SocketType
  stream : Struct
  socket : Int
  deriving DecidableEq, Repr

namespace ZSystem.Server

/-! ## Creation -/

/-- What the system calls of a creation return, and what `pipe` has stored. -/
structure SystemCalls where
  socket : Int
  setsockopt : Int
  bind : Int
  listen : Int
  pipe : Int × Int
  deriving DecidableEq, Repr

def serverCreateLocal (calls : SystemCalls) : Option Server :=
  if calls.socket < 0 ∨ calls.bind < 0 ∨ calls.listen = -1 then none
  else some { socketType := .stream, stream := streamCreatePipe calls.pipe.1 calls.pipe.2, socket := calls.socket }

def serverCreateTcpIpv4 (calls : SystemCalls) : Option Server :=
  if calls.socket = -1 ∨ calls.setsockopt = -1 ∨ calls.bind = -1 ∨ calls.listen = -1 then none
  else some { socketType := .stream, stream := streamCreatePipe calls.pipe.1 calls.pipe.2, socket := calls.socket }

def serverCreateUdpIpv4 (calls : SystemCalls) : Option Server :=
  if calls.socket = -1 ∨ calls.setsockopt = -1 ∨ calls.bind = -1 then none
  else some { socketType := .dgram, stream := streamCreatePipe calls.pipe.1 calls.pipe.2, socket := calls.socket }

inductive Protocol where
  | localSocket
  | tcpIpv4
  | udpIpv4
  deriving DecidableEq, Repr

def serverCreate : Protocol -> SystemCalls -> Option Server
  | .localSocket => serverCreateLocal
  | .tcpIpv4 => serverCreateTcpIpv4
  | .udpIpv4 => serverCreateUdpIpv4

/-- A creation that has succeeded; `opened` are its descriptors and `before` are those of the program. -/
structure Creation where
  protocol : Protocol
  calls : SystemCalls
  server : Server
  created : serverCreate protocol calls = some server
  before : List Int
  opened : (calls.socket :: calls.pipe.1 :: calls.pipe.2 :: before).Nodup

/-! ## Connections -/

structure SockAddrIn where
  address : UInt8 × UInt8 × UInt8 × UInt8
  -- In network byte order.
  port : UInt8 × UInt8
  deriving DecidableEq, Repr

def ntohs (port : UInt8 × UInt8) : Int :=
  port.1.toNat * 256 + port.2.toNat

/-- What `accept` or `recvfrom` returns. -/
inductive Outcome where
  | failed
  | accepted (socket : Int) (remoteHost : Family)
  | datagram (bytes : List UInt8) (remoteHost : SockAddrIn)
  deriving DecidableEq, Repr

structure Dgram where
  readBuffer : List UInt8
  readBufferCur : UInt32
  readBufferLength : UInt32
  streamType : StreamType
  remoteIpv4Address : UInt8 × UInt8 × UInt8 × UInt8
  remotePort : Int
  socket : Int
  closed : UInt8
  deriving DecidableEq, Repr

inductive Connection where
  | socket (stream : Struct)
  | dgram (stream : Dgram)
  deriving DecidableEq, Repr

/-- The body of the loop; without a connection it continues with the next wait. -/
def connection (server : Server) : Outcome -> Option Connection
  | .failed => none
  | .accepted socket remoteHost => some (.socket (streamCreateSocket socket (some remoteHost)))
  | .datagram bytes remoteHost =>
      if bytes = [] then none
      else some (.dgram {
        readBuffer := bytes
        readBufferCur := 0
        readBufferLength := bytes.length.toUInt32
        streamType := .inet
        remoteIpv4Address := remoteHost.address
        remotePort := ntohs remoteHost.port
        socket := server.socket
        closed := 0x00 })

/-! ## `zs__server_run` and `zs__server_run_dgram` -/

inductive PC where
  | waitCreate
  | addSocket
  | addStream
  -- In `select`, and in `accept` or `recvfrom`.
  | select
  | receive
  -- In front of `on_connect`, with the stream that has been made as the number `id`.
  | connect (id : Nat) (stream : Connection)
  | waitDestroy
  | closeReader
  | closeWriter
  | free
  | finished
  deriving DecidableEq, Repr

/-- Whom a descriptor belongs to. -/
inductive Owner where
  | creation
  | accepted
  -- A stream that has been handed to `on_connect`.
  | connection
  | other
  deriving DecidableEq, Repr

inductive Event where
  -- `zs__wait_do` returns after `select` has reported these descriptors.
  | waited (fds : List Int)
  -- `accept` or `recvfrom` returns.
  | received (outcome : Outcome)
  | connected (id : Nat) (stream : Connection)
  -- The loop is left.
  | left
  deriving DecidableEq, Repr

structure State where
  pc : PC
  server : Server
  wait : Wait
  abortVal : UInt32
  -- How many streams have been made for connections.
  made : Nat
  -- In the abort pipe.
  bytes : Nat
  table : Int -> Option Owner
  -- The latest event first.
  trace : List Event
  -- With a byte in the pipe: waits that have not ended the loop, and calls of `on_connect`.
  missed : Nat
  late : Nat

inductive Act where
  | own
  | select (outcome : SelectOutcome)
  | receive (outcome : Outcome)
  -- `zs__server_abort` writes its byte.
  | abort
  -- The rest of the program opens and closes descriptors.
  | openFd (fd : Int)
  | closeFd (fd : Int)
  deriving DecidableEq, Repr

def closeFds (table : Int -> Option Owner) (fds : List Int) : Int -> Option Owner :=
  fds.foldl (fun table fd => Function.update table fd none) table

def Connection.owns : Connection -> List Int
  | .socket stream => [stream.socket]
  | .dgram _ => []

/-- `accept` returns a descriptor that was not open, and `recvfrom` fills at most the buffer. -/
def Outcome.possible (table : Int -> Option Owner) : SocketType -> Outcome -> Bool
  | _, .failed => true
  | .stream, .accepted socket _ => decide (0 ≤ socket) && (table socket).isNone
  | .dgram, .datagram bytes _ => decide (bytes.length ≤ 2048)
  | _, _ => false

/-- `select` has no timeout here: it reports one of its descriptors at least, and no other ones. -/
def reports (wait : Wait) (fds : List Int) : Bool :=
  decide (fds ≠ []) && fds.all fun fd => decide (fd ∈ wait.rfds)

def step (state : State) : Act -> Option State
  | .own =>
      match state.pc with
      | .waitCreate => some { state with wait := waitCreate 0 0, pc := .addSocket }
      | .addSocket => some
          { state with wait := (waitAddStreamReaderFd state.wait state.server.socket).2, pc := .addStream }
      | .addStream =>
          let (number, wait) := waitAddStreamReaderFd state.wait state.server.stream.reader
          some { state with wait := wait, abortVal := number, pc := .select }
      | .connect id stream => some
          { state with
            pc := .select
            trace := .connected id stream :: state.trace
            table := stream.owns.foldl (fun table fd => Function.update table fd (some .connection)) state.table
            late := if 0 < state.bytes then state.late + 1 else state.late }
      | .waitDestroy => some { state with pc := .closeReader, trace := .left :: state.trace }
      -- zs__stream_destroy
      | .closeReader =>
          let (stream, fds) := state.server.stream.close .reader
          some { state with
            pc := .closeWriter
            server := { state.server with stream := stream }
            table := closeFds state.table fds }
      | .closeWriter =>
          let (stream, fds) := state.server.stream.close .writer
          some { state with
            pc := .free
            server := { state.server with stream := stream }
            table := closeFds state.table fds }
      | .free => some { state with pc := .finished }
      | .select | .receive | .finished => none
  | .select outcome =>
      if state.pc = .select then
        match outcome with
        | .failed => some state
        | .ready fds =>
            if reports state.wait fds then
              (waitDo state.wait (.ready fds)).map fun number =>
                { state with
                  pc := if state.abortVal ≠ number then .receive else .waitDestroy
                  trace := .waited fds :: state.trace
                  missed := if 0 < state.bytes ∧ state.abortVal ≠ number then state.missed + 1 else state.missed }
            else none
      else none
  | .receive outcome =>
      if state.pc = .receive ∧ outcome.possible state.table state.server.socketType then
        match state.server.connection outcome with
        | none => some { state with pc := .select, trace := .received outcome :: state.trace }
        | some stream => some
            { state with
              pc := .connect state.made stream
              trace := .received outcome :: state.trace
              made := state.made + 1
              table := stream.owns.foldl (fun table fd => Function.update table fd (some .accepted)) state.table }
      else none
  | .abort =>
      if state.server.stream.isShut .writer then none else some { state with bytes := state.bytes + 1 }
  | .openFd fd =>
      if state.table fd = none then some { state with table := Function.update state.table fd (some .other) }
      else none
  | .closeFd fd =>
      if state.table fd = some .other ∨ state.table fd = some .connection then
        some { state with table := Function.update state.table fd none }
      else none

def Creation.table (creation : Creation) : Int -> Option Owner := fun fd =>
  if fd ∈ [creation.calls.socket, creation.calls.pipe.1, creation.calls.pipe.2] then some .creation
  else if fd ∈ creation.before then some .other
  else none

def Creation.start (creation : Creation) : State where
  pc := .waitCreate
  server := creation.server
  wait := waitCreate 0 0
  abortVal := 0
  made := 0
  bytes := 0
  table := creation.table
  trace := []
  missed := 0
  late := 0

/-- Whatever the protocol, the server has what the system calls have opened. -/
theorem Creation.server_eq (creation : Creation) :
    creation.server.socket = creation.calls.socket ∧
      creation.server.stream = streamCreatePipe creation.calls.pipe.1 creation.calls.pipe.2 := by
  have created := creation.created
  cases kind : creation.protocol <;>
    simp only [kind, serverCreate, serverCreateLocal, serverCreateTcpIpv4, serverCreateUdpIpv4] at created <;>
    split_ifs at created <;> rw [← Option.some.inj created] <;> exact ⟨rfl, rfl⟩

/-! ## What one step does -/

inductive Move (state : State) : Act -> State -> Prop where
  | waitCreate (here : state.pc = .waitCreate) :
      Move state .own { state with wait := ZSystem.waitCreate 0 0, pc := .addSocket }
  | addSocket (here : state.pc = .addSocket) :
      Move state .own
        { state with wait := (waitAddStreamReaderFd state.wait state.server.socket).2, pc := .addStream }
  | addStream (here : state.pc = .addStream) :
      Move state .own { state with
        wait := (waitAddStreamReaderFd state.wait state.server.stream.reader).2
        abortVal := (waitAddStreamReaderFd state.wait state.server.stream.reader).1
        pc := .select }
  | retry (here : state.pc = .select) : Move state (.select .failed) state
  | serve {fds : List Int} {number : UInt32} (here : state.pc = .select) (reported : reports state.wait fds = true)
      (result : waitDo state.wait (.ready fds) = some number) (other : state.abortVal ≠ number) :
      Move state (.select (.ready fds)) { state with
        pc := .receive
        trace := .waited fds :: state.trace
        missed := if 0 < state.bytes then state.missed + 1 else state.missed }
  | leave {fds : List Int} {number : UInt32} (here : state.pc = .select) (reported : reports state.wait fds = true)
      (result : waitDo state.wait (.ready fds) = some number) (same : state.abortVal = number) :
      Move state (.select (.ready fds)) { state with pc := .waitDestroy, trace := .waited fds :: state.trace }
  | drop {outcome : Outcome} (here : state.pc = .receive) (none : state.server.connection outcome = none) :
      Move state (.receive outcome) { state with pc := .select, trace := .received outcome :: state.trace }
  | make {outcome : Outcome} {stream : Connection} (here : state.pc = .receive)
      (possible : outcome.possible state.table state.server.socketType = true)
      (made : state.server.connection outcome = some stream) :
      Move state (.receive outcome) { state with
        pc := .connect state.made stream
        trace := .received outcome :: state.trace
        made := state.made + 1
        table := stream.owns.foldl (fun table fd => Function.update table fd (some .accepted)) state.table }
  | connect {id : Nat} {stream : Connection} (here : state.pc = .connect id stream) :
      Move state .own { state with
        pc := .select
        trace := .connected id stream :: state.trace
        table := stream.owns.foldl (fun table fd => Function.update table fd (some .connection)) state.table
        late := if 0 < state.bytes then state.late + 1 else state.late }
  | waitDestroy (here : state.pc = .waitDestroy) :
      Move state .own { state with pc := .closeReader, trace := .left :: state.trace }
  | closeReader (here : state.pc = .closeReader) :
      Move state .own { state with
        pc := .closeWriter
        server := { state.server with stream := (state.server.stream.close .reader).1 }
        table := closeFds state.table (state.server.stream.close .reader).2 }
  | closeWriter (here : state.pc = .closeWriter) :
      Move state .own { state with
        pc := .free
        server := { state.server with stream := (state.server.stream.close .writer).1 }
        table := closeFds state.table (state.server.stream.close .writer).2 }
  | free (here : state.pc = .free) : Move state .own { state with pc := .finished }
  | abort : Move state .abort { state with bytes := state.bytes + 1 }
  | openFd {fd : Int} (fresh : state.table fd = none) :
      Move state (.openFd fd) { state with table := Function.update state.table fd (some .other) }
  | closeFd {fd : Int} (owned : state.table fd = some .other ∨ state.table fd = some .connection) :
      Move state (.closeFd fd) { state with table := Function.update state.table fd none }

theorem move_of_step {state next : State} {action : Act} (taken : step state action = some next) :
    Move state action next := by
  cases action with
  | own =>
      simp only [step] at taken
      split at taken
      case h_1 here => cases taken; exact .waitCreate here
      case h_2 here => cases taken; exact .addSocket here
      case h_3 here => cases taken; exact .addStream here
      case h_4 here => cases taken; exact .connect here
      case h_5 here => cases taken; exact .waitDestroy here
      case h_6 here => cases taken; exact .closeReader here
      case h_7 here => cases taken; exact .closeWriter here
      case h_8 here => cases taken; exact .free here
      all_goals cases taken
  | select outcome =>
      simp only [step] at taken
      split_ifs at taken with here
      cases outcome with
      | failed =>
          cases taken
          exact .retry here
      | ready fds =>
          simp only at taken
          split_ifs at taken with reported
          obtain ⟨number, result, rfl⟩ := Option.map_eq_some_iff.mp taken
          by_cases same : state.abortVal = number
          · simpa [same] using Move.leave here reported result same
          · simpa [same] using Move.serve here reported result same
  | receive outcome =>
      simp only [step] at taken
      split_ifs at taken with here
      cases made : state.server.connection outcome with
      | none =>
          rw [made] at taken
          cases taken
          exact .drop here.1 made
      | some stream =>
          rw [made] at taken
          cases taken
          exact .make here.1 here.2 made
  | abort =>
      simp only [step] at taken
      split_ifs at taken
      cases taken
      exact .abort
  | openFd fd =>
      simp only [step] at taken
      split_ifs at taken with fresh
      cases taken
      exact .openFd fresh
  | closeFd fd =>
      simp only [step] at taken
      split_ifs at taken with owned
      cases taken
      exact .closeFd owned

/-! ## The wait set -/

/-- The socket has the number 1, and the abort pipe the number 2. -/
def fullWait (socket reader : Int) : Wait where
  maxNumber := 2
  timerNumber := 0
  sec := 0
  microsec := 0
  elements := [{ number := 1, fd := socket }, { number := 2, fd := reader }]

theorem waitDo_full (socket reader : Int) (fds : List Int) :
    waitDo (fullWait socket reader) (.ready fds) =
      some (if socket ∈ fds then 1 else if reader ∈ fds then 2 else 0) := by
  have found : scan fds (fullWait socket reader).elements =
      if socket ∈ fds then 1 else if reader ∈ fds then 2 else 0 := by
    rw [scan_eq_find fds _ (by simp [fullWait])]
    by_cases first : socket ∈ fds <;> by_cases second : reader ∈ fds <;> simp [fullWait, first, second]
  have timer : (fullWait socket reader).timerNumber = 0 := rfl
  simp [waitDo, found, timer]

theorem reports_full {socket reader : Int} {fds : List Int}
    (reported : reports (fullWait socket reader) fds = true) : socket ∈ fds ∨ reader ∈ fds := by
  simp only [reports, Wait.rfds, fullWait, List.map_cons, List.map_nil, Bool.and_eq_true, decide_eq_true_eq,
    List.all_eq_true, List.mem_cons, List.not_mem_nil, or_false] at reported
  obtain ⟨fd, member⟩ := List.exists_mem_of_ne_nil fds reported.1
  rcases reported.2 fd member with rfl | rfl
  · exact Or.inl member
  · exact Or.inr member

structure Setup (creation : Creation) (state : State) : Prop where
  socketType : state.server.socketType = creation.server.socketType
  socket : state.server.socket = creation.calls.socket
  reader : state.server.stream.reader = creation.calls.pipe.1
  wait :
    match state.pc with
    | .waitCreate => True
    | .addSocket => state.wait = ZSystem.waitCreate 0 0
    | .addStream => state.wait = (waitAddStreamReaderFd (ZSystem.waitCreate 0 0) creation.calls.socket).2
    | _ => state.wait = fullWait creation.calls.socket creation.calls.pipe.1 ∧ state.abortVal = 2

section Setup

variable {creation : Creation} {state next : State} {action : Act}

theorem close_reader (stream : Struct) (direction : ZSystem.Stream.Direction) :
    (stream.close direction).1.reader = stream.reader := by
  rw [ZSystem.Stream.close_struct]
  split_ifs <;> rfl

theorem Setup.move (setup : Setup creation state) (move : Move state action next) : Setup creation next := by
  obtain ⟨socketType, socket, reader, wait⟩ := setup
  cases move with
  | waitCreate here => exact ⟨socketType, socket, reader, rfl⟩
  | addSocket here =>
      rw [here] at wait
      exact ⟨socketType, socket, reader, by simp only [wait, socket]⟩
  | addStream here =>
      rw [here] at wait
      refine ⟨socketType, socket, reader, ?_⟩
      simp only [wait, reader]
      exact ⟨rfl, rfl⟩
  | closeReader here | closeWriter here =>
      rw [here] at wait
      exact ⟨socketType, socket, (close_reader ..).trans reader, wait⟩
  | retry here => exact ⟨socketType, socket, reader, wait⟩
  | serve here | leave here | drop here | make here | connect here | waitDestroy here | free here =>
      rw [here] at wait
      exact ⟨socketType, socket, reader, wait⟩
  | abort | openFd | closeFd => exact ⟨socketType, socket, reader, wait⟩

theorem setup_of_reachable (reached : Reachable step creation.start state) : Setup creation state := by
  have start : Setup creation creation.start :=
    ⟨rfl, creation.server_eq.1, by simp [Creation.start, creation.server_eq.2, streamCreatePipe], trivial⟩
  exact reached.invariant (Setup creation) start fun _ _ _ setup _ taken => setup.move (move_of_step taken)

theorem Setup.waited (setup : Setup creation state) (here : state.pc = .select) {fds : List Int} {number : UInt32}
    (result : waitDo state.wait (.ready fds) = some number) :
    (state.abortVal = number ↔ creation.calls.socket ∉ fds ∧ creation.calls.pipe.1 ∈ fds) := by
  have wait := setup.wait
  rw [here] at wait
  rw [wait.1, waitDo_full, Option.some.injEq] at result
  rw [wait.2, ← result]
  by_cases socket : creation.calls.socket ∈ fds <;> by_cases reader : creation.calls.pipe.1 ∈ fds <;>
    simp [socket, reader]

theorem Setup.reported (setup : Setup creation state) (here : state.pc = .select) {fds : List Int}
    (reported : reports state.wait fds = true) : creation.calls.socket ∈ fds ∨ creation.calls.pipe.1 ∈ fds := by
  have wait := setup.wait
  rw [here] at wait
  rw [wait.1] at reported
  exact reports_full reported

end Setup

end ZSystem.Server
