import ZSystem.Server.Run

set_option autoImplicit false

/-!
# What a server passes on, and when it stops

Every connection goes through one wait, one `accept` or `recvfrom` and one `on_connect`, in this order.
-/

namespace ZSystem.Server

open Transition

/-! ## Dispatch -/

def Outcome.successful : Outcome -> Bool
  | .failed => false
  | .accepted _ _ => true
  | .datagram bytes _ => decide (bytes ≠ [])

/-- The bytes that the reader of the stream still gets. -/
def Dgram.unread (stream : Dgram) : List UInt8 :=
  (stream.readBuffer.take stream.readBufferLength.toNat).drop stream.readBufferCur.toNat

/-- The stream is bound to the accepted socket, or holds the bytes of the datagram; nothing of it is closed. -/
def Connection.Serves : Connection -> Outcome -> Prop
  | .socket stream, .accepted fd _ => stream.socket = fd ∧ stream.closed = 0
  | .dgram stream, .datagram bytes _ => stream.unread = bytes ∧ stream.closed = 0
  | _, _ => False

/-- The event may come directly after the earlier ones. -/
def Legit (socket pipe : Int) : Event -> List Event -> Prop
  | .waited _, [] => True
  | .waited _, .received outcome :: _ => outcome.successful = false
  | .waited _, .connected _ _ :: _ => True
  | .received _, .waited fds :: _ => socket ∈ fds
  | .connected _ stream, .received outcome :: _ => outcome.successful = true ∧ stream.Serves outcome
  | .left, .waited fds :: _ => pipe ∈ fds
  | _, _ => False

/-- Every event of the trace, the latest of which is the first, is legit. -/
def Dispatch (socket pipe : Int) : List Event -> Prop
  | [] => True
  | event :: earlier => Legit socket pipe event earlier ∧ Dispatch socket pipe earlier

def connections : List Event -> List Connection :=
  List.filterMap fun
    | .connected _ stream => some stream
    | _ => none

def successes : List Event -> List Outcome :=
  List.filterMap fun
    | .received outcome => if outcome.successful then some outcome else none
    | _ => none

def numbers : List Event -> List Nat :=
  List.filterMap fun
    | .connected id _ => some id
    | _ => none

def PC.pending : PC -> List Connection
  | .connect _ stream => [stream]
  | _ => []

def PC.pendingNumber : PC -> List Nat
  | .connect id _ => [id]
  | _ => []

/--
The events are in order, each success has led to one connection in its turn, and no stream is passed on
twice.
-/
structure Dispatched (socket pipe : Int) (state : State) : Prop where
  order : Dispatch socket pipe state.trace
  once : List.Forall₂ Connection.Serves (state.pc.pending ++ connections state.trace) (successes state.trace)
  fresh : (numbers state.trace).Nodup

def Ready (socket pipe : Int) (trace : List Event) : PC -> Prop
  | .waitCreate | .addSocket | .addStream => trace = []
  | .select => ∀ fds, Legit socket pipe (.waited fds) trace
  | .receive => ∀ outcome, Legit socket pipe (.received outcome) trace
  | .connect id stream => Legit socket pipe (.connected id stream) trace
  | .waitDestroy => Legit socket pipe .left trace
  | .closeReader | .closeWriter | .free | .finished => True

structure Track (creation : Creation) (state : State) : Prop where
  order : Dispatch creation.calls.socket creation.calls.pipe.1 state.trace
  ready : Ready creation.calls.socket creation.calls.pipe.1 state.trace state.pc
  once : List.Forall₂ Connection.Serves (state.pc.pending ++ connections state.trace) (successes state.trace)
  fresh : state.pc.pendingNumber ++ numbers state.trace = (List.range state.made).reverse

section Track

variable {creation : Creation} {state next : State} {action : Act}

theorem connection_none {server : Server} {outcome : Outcome} (none : server.connection outcome = none) :
    outcome.successful = false := by
  cases outcome with
  | failed => rfl
  | accepted fd remoteHost => cases none
  | datagram bytes remoteHost =>
      by_cases empty : bytes = []
      · simp [Outcome.successful, empty]
      · simp [connection, empty] at none

theorem connection_serves {server : Server} {outcome : Outcome} {stream : Connection}
    {table : Int -> Option Owner} (possible : outcome.possible table server.socketType = true)
    (made : server.connection outcome = some stream) : outcome.successful = true ∧ stream.Serves outcome := by
  cases outcome with
  | failed => cases made
  | accepted fd remoteHost =>
      cases made
      exact ⟨rfl, rfl, rfl⟩
  | datagram bytes remoteHost =>
      have short : bytes.length ≤ 2048 := by
        cases kind : server.socketType with
        | stream => simp [kind, Outcome.possible] at possible
        | dgram => simpa [kind, Outcome.possible] using possible
      have length : (UInt32.ofNat bytes.length).toNat = bytes.length :=
        UInt32.toNat_ofNat_of_lt' (by simp only [UInt32.size]; omega)
      by_cases empty : bytes = []
      · simp [connection, empty] at made
      · simp only [connection, empty, if_false, Option.some.injEq] at made
        subst made
        simp [Outcome.successful, Connection.Serves, Dgram.unread, empty, length]

theorem Track.move (setup : Setup creation state) (track : Track creation state)
    (move : Move state action next) : Track creation next := by
  obtain ⟨order, ready, once, fresh⟩ := track
  cases move with
  | waitCreate here | addSocket here =>
      rw [here] at ready once fresh
      exact ⟨order, ready, once, fresh⟩
  | addStream here =>
      rw [here] at ready once fresh
      simp only [Ready] at ready
      exact ⟨order, fun fds => by simp [ready, Legit], once, fresh⟩
  | retry here => exact ⟨order, ready, once, fresh⟩
  | serve here reported result other =>
      rw [here] at ready once fresh
      have socket := (setup.reported here reported).elim id fun reader => by
        by_contra silent
        exact other ((setup.waited here result).mpr ⟨silent, reader⟩)
      exact ⟨⟨ready _, order⟩, fun outcome => socket, once, fresh⟩
  | leave here reported result same =>
      rw [here] at ready once fresh
      exact ⟨⟨ready _, order⟩, ((setup.waited here result).mp same).2, once, fresh⟩
  | @drop outcome here none =>
      rw [here] at ready once fresh
      have failed := connection_none none
      refine ⟨⟨ready _, order⟩, fun fds => failed, ?_, fresh⟩
      simpa [successes, failed, connections, PC.pending] using once
  | @make outcome stream here possible made =>
      rw [here] at ready once fresh
      have serves := connection_serves possible made
      refine ⟨⟨ready _, order⟩, serves, ?_, ?_⟩
      · simpa [successes, serves.1, connections, PC.pending] using ⟨serves.2, once⟩
      · simp only [PC.pendingNumber, List.nil_append] at fresh
        simp [PC.pendingNumber, numbers, List.range_succ, ← fresh]
  | connect here =>
      rw [here] at ready once fresh
      exact ⟨⟨ready, order⟩, fun fds => trivial, once, fresh⟩
  | waitDestroy here =>
      rw [here] at ready once fresh
      exact ⟨⟨ready, order⟩, trivial, once, fresh⟩
  | closeReader here | closeWriter here | free here =>
      rw [here] at ready once fresh
      exact ⟨order, trivial, once, fresh⟩
  | abort | openFd | closeFd => exact ⟨order, ready, once, fresh⟩

theorem track_of_reachable (reached : Reachable step creation.start state) : Track creation state := by
  have start : Setup creation creation.start ∧ Track creation creation.start :=
    ⟨setup_of_reachable .refl, trivial, rfl, .nil, rfl⟩
  exact (reached.invariant (fun state => Setup creation state ∧ Track creation state) start
    fun _ _ _ holds _ taken =>
      ⟨holds.1.move (move_of_step taken), holds.2.move holds.1 (move_of_step taken)⟩).2

end Track

theorem server_dispatches (creation : Creation) (state : State) (reached : Reachable step creation.start state) :
    Dispatched creation.calls.socket creation.calls.pipe.1 state := by
  obtain ⟨order, -, once, fresh⟩ := track_of_reachable reached
  refine ⟨order, once, ?_⟩
  have all : (state.pc.pendingNumber ++ numbers state.trace).Nodup := by
    rw [fresh, List.nodup_reverse]
    exact List.nodup_range
  exact all.of_append_right

/-- A server with the socket 3 and the pipe 4 and 5. -/
def threeFourFive : Creation where
  protocol := .tcpIpv4
  calls := { socket := 3, setsockopt := 0, bind := 0, listen := 0, pipe := (4, 5) }
  server := { socketType := .stream, stream := ZSystem.Stream.streamCreatePipe 4 5, socket := 3 }
  created := rfl
  before := [0, 1, 2]
  opened := by decide

/-- A failed `accept`, one that succeeds, and the end. -/
def served : List Act :=
  [.own, .own, .own, .select (.ready [3]), .receive .failed, .select .failed, .select (.ready [3]),
    .receive (.accepted 6 .inet), .own, .abort, .select (.ready [4]), .own, .own, .own, .own]

theorem server_dispatches_threeFourFive :
    ∃ state, Reachable step threeFourFive.start state ∧ state.pc = .finished ∧
      (connections state.trace).length = 1 ∧ Dispatched 3 4 state :=
  ⟨_, reachable_of_exec served rfl, rfl, rfl, server_dispatches threeFourFive _ (reachable_of_exec served rfl)⟩

/-! ## The end of the loop -/

/-- With a byte in the pipe every wait has ended the loop, and one connection at most has been passed on. -/
structure Stops (state : State) : Prop where
  missed : state.missed = 0
  late : state.late ≤ 1

/-- With a byte in the pipe `select` does not report the socket. -/
def Quiet (state : State) : Act -> Prop
  | .select (.ready fds) => 0 < state.bytes -> state.server.socket ∉ fds
  | _ => True

instance (state : State) : ∀ action, Decidable (Quiet state action)
  | .select (.ready fds) => inferInstanceAs (Decidable (0 < state.bytes -> state.server.socket ∉ fds))
  | .select .failed | .own | .receive _ | .abort | .openFd _ | .closeFd _ => isTrue trivial

def PC.serving : PC -> Bool
  | .receive | .connect _ _ => true
  | _ => false

structure Punctual (state : State) : Prop where
  stops : Stops state
  idle : state.bytes = 0 -> state.late = 0
  busy : state.pc.serving = true -> state.late = 0

section Stops

variable {creation : Creation} {state next : State} {action : Act}

theorem Punctual.move (setup : Setup creation state) (punctual : Punctual state) (quiet : Quiet state action)
    (move : Move state action next) : Punctual next := by
  obtain ⟨⟨missed, late⟩, idle, busy⟩ := punctual
  cases move with
  | @serve fds number here reported result other =>
      have empty : state.bytes = 0 := by
        by_contra some
        have silent := quiet (Nat.pos_of_ne_zero some)
        rw [setup.socket] at silent
        have reader := (setup.reported here reported).resolve_left silent
        exact other ((setup.waited here result).mpr ⟨silent, reader⟩)
      exact ⟨⟨by simp [empty, missed], late⟩, idle, fun _ => idle empty⟩
  | @connect id stream here =>
      have none : state.late = 0 := busy (by simp [here, PC.serving])
      by_cases empty : state.bytes = 0
      · exact ⟨⟨missed, by simp [empty, late]⟩, fun _ => by simp [empty, none], by simp [PC.serving]⟩
      · exact ⟨⟨missed, by simp [Nat.pos_of_ne_zero empty, none]⟩, fun none => absurd none empty,
          by simp [PC.serving]⟩
  | @make outcome stream here =>
      exact ⟨⟨missed, late⟩, idle, fun _ => busy (by simp [here, PC.serving])⟩
  | abort => exact ⟨⟨missed, late⟩, by simp, busy⟩
  | retry | openFd | closeFd => exact ⟨⟨missed, late⟩, idle, busy⟩
  | waitCreate | addSocket | addStream | leave | drop | waitDestroy | closeReader | closeWriter | free =>
      exact ⟨⟨missed, late⟩, idle, by simp [PC.serving]⟩

/-- The socket comes first, so a wait that reports it does not end the loop. -/
theorem not_stops (setup : Setup creation state) (loud : ¬ Quiet state action)
    (move : Move state action next) : ¬ Stops next := by
  cases move with
  | @serve fds number here reported result other =>
      simp only [Quiet, not_forall, not_not] at loud
      intro stops
      simpa [loud.1] using stops.missed
  | @leave fds number here reported result same =>
      simp only [Quiet, not_forall, not_not, setup.socket] at loud
      exact absurd loud.2 ((setup.waited here result).mp same).1
  | _ => exact absurd trivial loud

end Stops

theorem server_stops_iff (creation : Creation) (actions : List Act)
    (runs : (exec step creation.start actions).isSome) :
    Throughout step Stops creation.start actions ↔ Along step Quiet creation.start actions := by
  have start : Setup creation creation.start ∧ Punctual creation.start :=
    ⟨setup_of_reachable .refl, ⟨rfl, Nat.zero_le _⟩, fun _ => rfl, fun _ => rfl⟩
  refine throughout_iff_along (fun state => Setup creation state ∧ Punctual state)
    (fun _ holds => holds.2.stops) (fun state action next holds quiet taken => ?_)
    (fun state action next holds loud taken => ?_) start runs
  · have move := move_of_step taken
    exact ⟨holds.1.move move, holds.2.move holds.1 quiet move⟩
  · exact not_stops holds.1 loud (move_of_step taken)

/-- The byte comes while a connection is handled, and then the socket is silent. -/
theorem server_stops_iff_threeFourFive :
    Throughout step Stops threeFourFive.start
      [.own, .own, .own, .select (.ready [3]), .receive (.accepted 6 .inet), .abort, .own, .select (.ready [4])] :=
  (server_stops_iff threeFourFive _ rfl).mpr (by decide)

/-- Clients keep coming: two more are served after the byte is in the pipe. -/
theorem server_stops_fails :
    ¬ ∀ state, Reachable step threeFourFive.start state -> Stops state := by
  intro stops
  have served := stops _ (reachable_of_exec
    [.own, .own, .own, .abort, .select (.ready [3, 4]), .receive (.accepted 6 .inet), .own,
      .select (.ready [3, 4]), .receive (.accepted 7 .inet), .own] rfl)
  exact absurd served.late (by decide)

end ZSystem.Server
