import ZSystem.Stream.Report
import ZSystem.Wait.Timer

set_option autoImplicit false

/-!
# Streams in a wait set

`zs__wait_add_stream_reader` asks a stream for its descriptor through `get_fd_reader`, and the descriptor is
an index into the `fd_set` of `zs__wait_do`.
-/

namespace ZSystem.Readers

open Transition
open ZSystem.Server (Dgram serverCloseReaderBuffer serverCloseWriter serverReadBuffer serverGetFdDgram)
open ZSystem.Stream
open ZSystem.Timer (Room)

/-! ## `get_fd_reader` -/

inductive GetFd where
  | pipe
  | socket
  | dgram
  deriving DecidableEq, Repr

structure StreamReader where
  endpoint : Endpoint
  getFdReader : Option GetFd
  deriving DecidableEq, Repr

/-- A field that a constructor has not set is 0. -/
def GetFd.call : GetFd -> Endpoint -> Int
  | .pipe, .descriptor stream => stream.reader
  | .pipe, .datagram _ => 0
  | .socket, .descriptor stream | .dgram, .descriptor stream => stream.socket
  | .socket, .datagram stream | .dgram, .datagram stream => serverGetFdDgram stream

def createPipe (reader writer : Int) : StreamReader :=
  { endpoint := .descriptor (streamCreatePipe reader writer), getFdReader := some .pipe }

def createSocket (socket : Int) (remoteHost : Option Family) : StreamReader :=
  { endpoint := .descriptor (streamCreateSocket socket remoteHost), getFdReader := some .socket }

def createSystem (reader writer : Int) : Option StreamReader :=
  (streamCreateSystem reader writer).map fun stream =>
    { endpoint := .descriptor stream, getFdReader := some .pipe }

/-- The stream that `zs__server_run_dgram` makes. -/
def createDgram (stream : Dgram) : StreamReader :=
  { endpoint := .datagram stream, getFdReader := some .dgram }

def StreamReader.close (stream : StreamReader) (direction : Direction) : StreamReader :=
  { stream with
    endpoint :=
      match stream.endpoint, direction with
      | .descriptor struct, direction => .descriptor (struct.close direction).1
      | .datagram dgram, .reader => .datagram (serverCloseReaderBuffer dgram).1
      | .datagram dgram, .writer => .datagram (serverCloseWriter dgram) }

/-- What a read leaves of the stream. -/
def StreamReader.read (stream : StreamReader) (size : UInt32) : Option StreamReader :=
  match stream.endpoint with
  | .descriptor _ => some stream
  | .datagram dgram => (dgram.read size).map fun (_, dgram, _) => { stream with endpoint := .datagram dgram }

/-- The streams of all constructors, in any state. -/
inductive Made : StreamReader -> Prop where
  | pipe (reader writer : Int) : Made (createPipe reader writer)
  | socket (socket : Int) (remoteHost : Option Family) : Made (createSocket socket remoteHost)
  | system (reader writer : Int) {stream : StreamReader} (made : createSystem reader writer = some stream) :
      Made stream
  | dgram (server : Server) (outcome : Server.Outcome) {stream : Dgram}
      (made : server.connection outcome = some (.dgram stream)) : Made (createDgram stream)
  | close {stream : StreamReader} (direction : Direction) (made : Made stream) : Made (stream.close direction)
  | read {stream next : StreamReader} {size : UInt32} (made : Made stream) (done : stream.read size = some next) :
      Made next

/-! ## `zs__wait_add_stream_reader` -/

def waitAddStreamReader (wait : Wait) (stream : StreamReader) : UInt32 × Wait :=
  match stream.getFdReader with
  | some getFd => waitAddStreamReaderFd wait (getFd.call stream.endpoint)
  | none => (0, wait)

inductive Op where
  | timer (sec microsec : Int64)
  | reader (stream : StreamReader) (made : Made stream)
  -- A stream is closed or read; `numbers` are those under which it was added.
  | close (numbers : List UInt32) (direction : Direction)
  | read (numbers : List UInt32) (size : UInt32)

structure Registered where
  number : UInt32
  stream : StreamReader
  deriving DecidableEq, Repr

structure State where
  wait : Wait
  streams : List Registered
  deriving DecidableEq, Repr

def fresh (sec microsec : Int64) : State := { wait := waitCreate sec microsec, streams := [] }

def State.change (state : State) (numbers : List UInt32) (change : StreamReader -> StreamReader) : State :=
  { state with
    streams := state.streams.map fun call =>
      if call.number ∈ numbers then { call with stream := change call.stream } else call }

def State.after (state : State) : Op -> State
  | .timer sec microsec => { state with wait := (waitAddTimer state.wait sec microsec).2 }
  | .reader stream _ =>
      let (number, wait) := waitAddStreamReader state.wait stream
      { wait := wait, streams := state.streams ++ [{ number := number, stream := stream }] }
  | .close numbers direction => state.change numbers fun stream => stream.close direction
  | .read numbers size => state.change numbers fun stream => (stream.read size).getD stream

def step (state : State) (op : Op) : Option State := some (state.after op)

/-- 0 where there is no function to ask. -/
def StreamReader.fd (stream : StreamReader) : Int :=
  (stream.getFdReader.map fun getFd => getFd.call stream.endpoint).getD 0

/-- The pointers `read` and `get_fd_reader` go together. -/
def StreamReader.Paired (stream : StreamReader) : Prop :=
  stream.getFdReader = some (match stream.endpoint with
    | .descriptor struct => match struct.read with
      | .pipe => .pipe
      | .socket => .socket
    | .datagram _ => .dgram)

theorem closeReaderBuffer_socket (stream : Dgram) : (serverCloseReaderBuffer stream).1.socket = stream.socket := by
  unfold serverCloseReaderBuffer
  dsimp only
  split_ifs <;> rfl

theorem dgramRead_socket {stream after : Dgram} {size : UInt32} {bytes : List UInt8} {freed : Nat}
    (read : stream.read size = some (bytes, after, freed)) : after.socket = stream.socket := by
  unfold Dgram.read serverReadBuffer at read
  dsimp only at read
  split_ifs at read
  all_goals
    cases read
    first
      | rfl
      | exact closeReaderBuffer_socket _

theorem createSystem_read {reader writer : Int} {stream : Struct}
    (created : streamCreateSystem reader writer = some stream) : stream.read = .pipe := by
  unfold streamCreateSystem at created
  split_ifs at created
  all_goals
    cases created
    rfl

theorem Made.paired {stream : StreamReader} (made : Made stream) : stream.Paired := by
  induction made with
  | pipe reader writer => rfl
  | socket socket remoteHost => rfl
  | system reader writer made =>
      obtain ⟨struct, created, rfl⟩ := Option.map_eq_some_iff.mp made
      simp [StreamReader.Paired, createSystem_read created]
  | dgram server outcome made => rfl
  | @close stream direction made ih =>
      obtain ⟨endpoint, getFdReader⟩ := stream
      cases endpoint with
      | descriptor struct =>
          have same : (struct.close direction).1.read = struct.read := by
            rw [close_struct]
            split_ifs <;> rfl
          simpa [StreamReader.Paired, StreamReader.close, same] using ih
      | datagram dgram => cases direction <;> exact ih
  | @read stream next size made done ih =>
      obtain ⟨endpoint, getFdReader⟩ := stream
      cases endpoint with
      | descriptor struct =>
          cases done
          exact ih
      | datagram dgram =>
          obtain ⟨result, -, rfl⟩ := Option.map_eq_some_iff.mp done
          exact ih

theorem close_fd (stream : StreamReader) (direction : Direction) : (stream.close direction).fd = stream.fd := by
  obtain ⟨endpoint, getFdReader⟩ := stream
  have same (getFd : GetFd) : getFd.call (StreamReader.close ⟨endpoint, getFdReader⟩ direction).endpoint =
      getFd.call endpoint := by
    cases endpoint with
    | descriptor struct =>
        cases getFd <;> simp only [StreamReader.close, GetFd.call, close_struct] <;> split_ifs <;> rfl
    | datagram dgram =>
        have writer : (serverCloseWriter dgram).socket = dgram.socket := by
          unfold serverCloseWriter
          split_ifs <;> rfl
        cases direction <;> cases getFd <;>
          simp [StreamReader.close, GetFd.call, serverGetFdDgram, closeReaderBuffer_socket, writer]
  cases getFdReader with
  | none => rfl
  | some getFd => exact same getFd

theorem read_fd {stream next : StreamReader} {size : UInt32} (done : stream.read size = some next) :
    next.fd = stream.fd := by
  obtain ⟨endpoint, getFdReader⟩ := stream
  cases endpoint with
  | descriptor struct =>
      cases done
      rfl
  | datagram dgram =>
      obtain ⟨⟨bytes, after, freed⟩, read, rfl⟩ := Option.map_eq_some_iff.mp done
      have same := dgramRead_socket read
      cases getFdReader with
      | none => rfl
      | some getFd => cases getFd <;> simp [StreamReader.fd, GetFd.call, serverGetFdDgram, same]

theorem getD_read_fd (stream : StreamReader) (size : UInt32) : ((stream.read size).getD stream).fd = stream.fd := by
  cases done : stream.read size with
  | none => rfl
  | some next => exact read_fd done

theorem Made.getD_read {stream : StreamReader} (made : Made stream) (size : UInt32) :
    Made ((stream.read size).getD stream) := by
  cases done : stream.read size with
  | none => exact made
  | some next => exact made.read done

section Change

variable {state : State} {numbers : List UInt32} {change : StreamReader -> StreamReader} {call : Registered}

theorem mem_change (member : call ∈ (state.change numbers change).streams) :
    ∃ old ∈ state.streams, call.number = old.number ∧
      (call.stream = old.stream ∨ call.stream = change old.stream) := by
  obtain ⟨old, present, rfl⟩ := List.mem_map.mp member
  refine ⟨old, present, ?_⟩
  split_ifs
  · exact ⟨rfl, Or.inr rfl⟩
  · exact ⟨rfl, Or.inl rfl⟩

theorem map_change {β : Type} (view : Registered -> β)
    (same : ∀ call : Registered, view { call with stream := change call.stream } = view call) :
    (state.change numbers change).streams.map view = state.streams.map view := by
  simp only [State.change, List.map_map]
  refine List.map_congr_left fun call _ => ?_
  simp only [Function.comp_apply]
  split_ifs
  · exact same call
  · rfl

end Change

theorem Made.add {stream : StreamReader} (made : Made stream) (wait : Wait) :
    waitAddStreamReader wait stream = waitAddStreamReaderFd wait stream.fd := by
  simp only [waitAddStreamReader, StreamReader.fd, show stream.getFdReader = _ from made.paired, Option.map_some,
    Option.getD_some]

/-! ## Descriptors as indices -/

/--
Every `FD_SET` and `FD_ISSET` of `zs__wait_do` gets a descriptor that has a bit, and a stream with another
descriptor has been rejected.
-/
structure InBounds (state : State) : Prop where
  sets : state.wait.prepare.isSome
  isset : ∀ fds, (state.wait.report fds).isSome
  rejected : ∀ call ∈ state.streams, ¬ Indexed call.stream.fd -> call.number = 0

def InRange (_ : State) : Op -> Prop
  | .timer .. | .close .. | .read .. => True
  | .reader stream _ => Indexed stream.fd

/-- The descriptors of the elements and of the streams, all of which have bits. -/
structure Bits (state : State) : Prop where
  elements : ∀ fd ∈ state.wait.rfds, Indexed fd
  streams : ∀ call ∈ state.streams, Indexed call.stream.fd

theorem Bits.inBounds {state : State} (bits : Bits state) : InBounds state where
  sets := Wait.prepare_isSome.mpr bits.elements
  isset fds := by
    rw [Wait.report_eq_waitDo bits.elements]
    rfl
  rejected call member beyond := absurd (bits.streams call member) beyond

theorem rfds_addTimer (wait : Wait) (sec microsec : Int64) :
    (waitAddTimer wait sec microsec).2.rfds = wait.rfds := by
  rw [Wait.rfds, (Timer.addTimer_frame wait sec microsec).1, Wait.rfds]

theorem rfds_addStreamReaderFd (wait : Wait) (fd : Int) :
    (waitAddStreamReaderFd wait fd).2.rfds = wait.rfds ++ [fd] := by
  simp [waitAddStreamReaderFd, Wait.rfds]

theorem Bits.change {state : State} (bits : Bits state) {change : StreamReader -> StreamReader}
    (same : ∀ stream, (change stream).fd = stream.fd) (numbers : List UInt32) :
    Bits (state.change numbers change) := by
  refine ⟨bits.elements, fun call member => ?_⟩
  obtain ⟨old, present, -, stays | changed⟩ := mem_change member
  · rw [stays]
    exact bits.streams old present
  · rw [changed, same]
    exact bits.streams old present

theorem bits_step (state : State) (op : Op) (next : State) (bits : Bits state)
    (inside : InRange state op) (taken : step state op = some next) : Bits next := by
  obtain rfl := Option.some.inj taken
  cases op with
  | timer sec microsec =>
      exact ⟨by rw [State.after, rfds_addTimer]; exact bits.elements, bits.streams⟩
  | reader stream made =>
      have indexed : Indexed stream.fd := inside
      simp only [State.after, made.add]
      refine ⟨?_, ?_⟩
      · rw [rfds_addStreamReaderFd, List.forall_mem_append]
        exact ⟨bits.elements, by simpa using indexed⟩
      · rw [List.forall_mem_append]
        exact ⟨bits.streams, by simpa using indexed⟩
  | close numbers direction => exact bits.change (fun stream => close_fd stream direction) numbers
  | read numbers size => exact bits.change (fun stream => getD_read_fd stream size) numbers

theorem not_inBounds_step (state : State) (op : Op) (next : State)
    (outside : ¬ InRange state op) (taken : step state op = some next) : ¬ InBounds next := by
  obtain rfl := Option.some.inj taken
  cases op with
  | timer sec microsec => exact absurd trivial outside
  | reader stream made =>
      simp only [State.after, made.add]
      intro inBounds
      have indexed := Wait.prepare_isSome.mp inBounds.sets
      rw [rfds_addStreamReaderFd] at indexed
      exact outside (indexed stream.fd (by simp))
  | close numbers direction => exact absurd trivial outside
  | read numbers size => exact absurd trivial outside

theorem inBounds_iff (sec microsec : Int64) (ops : List Op) :
    Throughout step InBounds (fresh sec microsec) ops ↔ Along step InRange (fresh sec microsec) ops := by
  have total : (exec step (fresh sec microsec) ops).isSome := exec_isSome (fun _ _ => rfl) _ _
  have empty : Bits (fresh sec microsec) := ⟨by simp [fresh, waitCreate, Wait.rfds], by simp [fresh]⟩
  exact throughout_iff_along Bits (fun _ => Bits.inBounds) bits_step
    (fun state op next _ => not_inBounds_step state op next) empty total

/-- `zs__stream_create_system` without a reader. -/
theorem inBounds_iff_fails : ∃ (stream : StreamReader) (made : Made stream), createSystem (-1) 1 = some stream ∧
    ¬ Throughout step InBounds (fresh 0 0) [.reader stream made] := by
  refine ⟨_, .system (-1) 1 rfl, rfl, fun throughout => ?_⟩
  exact absurd (throughout_final throughout rfl).sets (by decide)

end ZSystem.Readers
