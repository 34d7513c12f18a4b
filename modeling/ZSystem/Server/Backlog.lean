import ZSystem.Server.Dispatch

set_option autoImplicit false

/-!
# A server and what waits at its socket

Clients and datagrams come to the socket of a server at any time, and the kernel keeps them in order until
`accept` or `recvfrom` takes the next one. Here `select` reports what there is.
-/

namespace ZSystem.Server.Backlog

open Transition
open ZSystem.Abort (SocketType)
open ZSystem.Stream (Family)

/-! ## The kernel -/

inductive Arrival where
  | connection (remoteHost : Family)
  | datagram (bytes : List UInt8) (remoteHost : SockAddrIn)

def Arrival.fits : Arrival -> SocketType -> Bool
  | .connection _, .stream => true
  | .datagram .., .dgram => true
  | _, _ => false

/-- What `accept` returns for it, or `recvfrom` with the 2048 bytes of its buffer. -/
def Arrival.outcome (descriptor : Int) : Arrival -> Outcome
  | .connection remoteHost => .accepted descriptor remoteHost
  | .datagram bytes remoteHost => .datagram (bytes.take 2048) remoteHost

structure State where
  server : Server.State
  backlog : List Arrival := []
  -- History: all that has come, what has been taken with which descriptor, and what has come after the loop.
  arrived : List Arrival := []
  taken : List (Arrival × Int) := []
  late : List Arrival := []

inductive Act where
  | arrive (arrival : Arrival)
  | own
  | select
  -- `select` returns -1.
  | interrupt
  | receive (descriptor : Int)
  -- `accept` or `recvfrom` returns -1 and takes nothing.
  | fail
  | abort
  | openFd (fd : Int)
  | closeFd (fd : Int)

/-- The loop has been left. -/
def left : PC -> Bool
  | .waitDestroy | .closeReader | .closeWriter | .free | .finished => true
  | _ => false

/-- The descriptors of the wait set that `select` reports. -/
def State.readable (state : State) : List Int :=
  (if state.backlog = [] then [] else [state.server.server.socket]) ++
    if state.server.bytes = 0 then [] else [state.server.server.stream.reader]

def State.lift (state : State) (action : Server.Act) : Option State :=
  (Server.step state.server action).map fun server => { state with server := server }

/-- `select` sleeps where it has nothing to report, and `accept` where nothing waits. -/
def step (state : State) : Act -> Option State
  | .arrive arrival =>
      if arrival.fits state.server.server.socketType then
        some { state with
          backlog := state.backlog ++ [arrival]
          arrived := state.arrived ++ [arrival]
          late := if left state.server.pc then state.late ++ [arrival] else state.late }
      else none
  | .own => state.lift .own
  | .select => state.lift (.select (.ready state.readable))
  | .interrupt => state.lift (.select .failed)
  | .receive descriptor =>
      match state.backlog with
      | [] => none
      | arrival :: rest =>
          (Server.step state.server (.receive (arrival.outcome descriptor))).map fun server =>
            { state with server := server, backlog := rest, taken := state.taken ++ [(arrival, descriptor)] }
  | .fail => state.lift (.receive .failed)
  | .abort => state.lift .abort
  | .openFd fd => state.lift (.openFd fd)
  | .closeFd fd => state.lift (.closeFd fd)

/-- The turns of the server where nothing fails. -/
def Act.turn : Act -> Bool
  | .own | .select | .receive _ => true
  | _ => false

def start (creation : Creation) : State := { server := creation.start }

/-! ## The account -/

/-- What `on_connect` has been called with and is about to be called with, in this order. -/
def handed (server : Server.State) : List Connection :=
  (server.pc.pending ++ connections server.trace).reverse

/--
All that has come has been taken in its order or still waits; the server hands over what it has taken, once,
in this order; it does not sleep in `accept`; and it leaves its loop only when nothing waits.
-/
structure Accounted (creation : Creation) (state : State) : Prop where
  arrived : state.arrived = state.taken.map Prod.fst ++ state.backlog
  handed : handed state.server =
    state.taken.filterMap fun taken => creation.server.connection (taken.1.outcome taken.2)
  ready : state.server.pc = .receive -> state.backlog ≠ []
  behind : left state.server.pc = true -> state.backlog = state.late

structure Inv (creation : Creation) (state : State) : Prop extends Accounted creation state where
  server : Reachable Server.step creation.start state.server
  early : left state.server.pc = false -> state.late = []
  aborted : left state.server.pc = true -> state.server.bytes ≠ 0
  typed : ∀ arrival ∈ state.backlog, arrival.fits creation.server.socketType = true
  -- There are free descriptors.
  room : ∃ bound, ∀ fd, bound ≤ fd -> state.server.table fd = none

section Moves

variable {before after : Server.State} {action : Server.Act}

theorem handed_move (move : Move before action after) :
    handed after = handed before ∨ ∃ outcome stream, action = .receive outcome ∧
      before.server.connection outcome = some stream ∧ handed after = handed before ++ [stream] := by
  cases move with
  | make here possible made =>
      exact Or.inr ⟨_, _, rfl, made, by simp [handed, here, PC.pending, connections]⟩
  | connect here | serve here | leave here | drop here =>
      exact Or.inl (by simp [handed, here, PC.pending, connections])
  | waitCreate here | addSocket here | addStream here | waitDestroy here | closeReader here | closeWriter here
  | free here => exact Or.inl (by simp [handed, here, PC.pending, connections])
  | retry | abort | openFd | closeFd => exact Or.inl rfl

theorem bytes_move (move : Move before action after) : before.bytes ≤ after.bytes := by
  cases move with
  | abort => exact Nat.le_succ _
  | _ => exact le_rfl

theorem left_move (move : Move before action after) (gone : left before.pc = true) : left after.pc = true := by
  cases move with
  | waitCreate here | addSocket here | addStream here | serve here | drop here | make here | connect here =>
      rw [here] at gone
      cases gone
  | leave | waitDestroy | closeReader | closeWriter | free => rfl
  | retry | abort | openFd | closeFd => exact gone

theorem room_update {table : Int -> Option Owner} (room : ∃ bound, ∀ fd, bound ≤ fd -> table fd = none) (fd : Int)
    (owner : Option Owner) : ∃ bound, ∀ other, bound ≤ other -> Function.update table fd owner other = none := by
  obtain ⟨bound, free⟩ := room
  refine ⟨max bound (fd + 1), fun other above => ?_⟩
  have differ : other ≠ fd := by omega
  rw [Function.update_of_ne differ]
  exact free other (by omega)

theorem room_foldl {table : Int -> Option Owner} (room : ∃ bound, ∀ fd, bound ≤ fd -> table fd = none)
    (owner : Option Owner) (fds : List Int) : ∃ bound, ∀ other, bound ≤ other ->
      fds.foldl (fun table fd => Function.update table fd owner) table other = none := by
  induction fds generalizing table with
  | nil => exact room
  | cons fd rest ih => exact ih (room_update room fd owner)

theorem room_move (move : Move before action after) (room : ∃ bound, ∀ fd, bound ≤ fd -> before.table fd = none) :
    ∃ bound, ∀ fd, bound ≤ fd -> after.table fd = none := by
  cases move with
  | make | connect => exact room_foldl room _ _
  | closeReader | closeWriter => exact room_foldl room none _
  | openFd | closeFd => exact room_update room _ _
  | _ => exact room

end Moves

section Steps

variable {creation : Creation} {state next : State} {action : Act}

theorem Inv.setup (inv : Inv creation state) : Setup creation state.server :=
  setup_of_reachable inv.server

/-- A step of the server that takes nothing. -/
theorem Inv.lifted (inv : Inv creation state) {act : Server.Act} {server : Server.State}
    (taken : Server.step state.server act = some server) (same : Backlog.handed server = Backlog.handed state.server)
    (ready : server.pc = .receive -> state.backlog ≠ [])
    (leaves : left server.pc = true -> left state.server.pc = true ∨ state.backlog = [] ∧ state.server.bytes ≠ 0) :
    Inv creation { state with server := server } := by
  have move := move_of_step taken
  refine ⟨⟨inv.arrived, same.trans inv.handed, ready, fun gone => ?_⟩, .tail inv.server trivial taken, fun stays => ?_,
    fun gone => ?_, inv.typed, room_move move inv.room⟩
  · rcases leaves gone with before | ⟨empty, -⟩
    · exact inv.behind before
    · cases here : left state.server.pc with
      | true => exact inv.behind here
      | false => exact empty.trans (inv.early here).symm
  · refine inv.early (Bool.eq_false_iff.mpr fun before => ?_)
    rw [left_move move before] at stays
    cases stays
  · have more := bytes_move move
    rcases leaves gone with before | ⟨-, some⟩
    · have some := inv.aborted before
      simp only
      omega
    · simp only
      omega

theorem mem_readable (inv : Inv creation state) : (creation.calls.socket ∈ state.readable ↔ state.backlog ≠ []) ∧
    (creation.calls.pipe.1 ∈ state.readable ↔ state.server.bytes ≠ 0) := by
  have differ : creation.calls.socket ≠ creation.calls.pipe.1 := fun same => by
    have opened := creation.opened
    simp [same] at opened
  rw [State.readable, inv.setup.socket, inv.setup.reader]
  constructor <;> split_ifs <;> simp_all [differ.symm]

theorem Inv.arrive (inv : Inv creation state) {arrival : Arrival}
    (fits : arrival.fits state.server.server.socketType = true) :
    Inv creation { state with
      backlog := state.backlog ++ [arrival]
      arrived := state.arrived ++ [arrival]
      late := if left state.server.pc then state.late ++ [arrival] else state.late } := by
  refine ⟨⟨?_, inv.handed, fun _ => by simp, fun gone => ?_⟩, inv.server, fun stays => ?_, inv.aborted, ?_, inv.room⟩
  · rw [inv.arrived, List.append_assoc]
  · simp only [gone, if_true, inv.behind gone]
  · simpa [stays] using inv.early stays
  · intro other member
    rcases List.mem_append.mp member with before | new
    · exact inv.typed other before
    · rw [List.mem_singleton.mp new, ← inv.setup.socketType]
      exact fits

theorem Inv.select (inv : Inv creation state) {server : Server.State}
    (taken : Server.step state.server (.select (.ready state.readable)) = some server) :
    Inv creation { state with server := server } := by
  obtain ⟨socket, reader⟩ := mem_readable inv
  have same : Backlog.handed server = Backlog.handed state.server :=
    (handed_move (move_of_step taken)).resolve_right fun made => by
      obtain ⟨_, _, other, -⟩ := made
      cases other
  cases move_of_step taken with
  | serve here reported result other =>
      refine inv.lifted taken same (fun _ => socket.mp ?_) fun gone => by cases gone
      by_contra silent
      have ready := (inv.setup.reported here reported).resolve_left silent
      exact other ((inv.setup.waited here result).mpr ⟨silent, ready⟩)
  | leave here reported result abort =>
      obtain ⟨silent, ready⟩ := (inv.setup.waited here result).mp abort
      refine inv.lifted taken same (fun wrong => by cases wrong) fun _ => Or.inr ⟨?_, reader.mp ready⟩
      by_contra waits
      exact silent (socket.mpr waits)

theorem Inv.receive (inv : Inv creation state) {descriptor : Int} {arrival : Arrival} {rest : List Arrival}
    (waits : state.backlog = arrival :: rest) {server : Server.State}
    (taken : Server.step state.server (.receive (arrival.outcome descriptor)) = some server) :
    Inv creation { state with
      server := server, backlog := rest, taken := state.taken ++ [(arrival, descriptor)] } := by
  have move := move_of_step taken
  have arrived : state.arrived = (state.taken ++ [(arrival, descriptor)]).map Prod.fst ++ rest := by
    rw [inv.arrived, waits, List.map_append, List.append_assoc]
    rfl
  have connection (outcome : Outcome) : state.server.server.connection outcome = creation.server.connection outcome := by
    have socket : state.server.server.socket = creation.server.socket :=
      inv.setup.socket.trans creation.server_eq.1.symm
    cases outcome <;> simp only [Server.connection, socket]
  have typed : ∀ other ∈ rest, other.fits creation.server.socketType = true := fun other member =>
    inv.typed other (waits ▸ List.mem_cons_of_mem _ member)
  have begun : left state.server.pc = false := by
    cases move with
    | drop here | make here => rw [here]; rfl
  have early := inv.early begun
  have stays : left server.pc = false := by cases move <;> rfl
  refine ⟨⟨arrived, ?_, ?_, fun gone => by simp [stays] at gone⟩, .tail inv.server trivial taken, fun _ => early,
    fun gone => by simp [stays] at gone, typed, room_move move inv.room⟩
  · rw [List.filterMap_append, ← inv.handed]
    cases move with
    | drop here none =>
        rw [connection] at none
        simp [none, Backlog.handed, here, PC.pending, connections]
    | make here possible made =>
        rw [connection] at made
        simp [made, Backlog.handed, here, PC.pending, connections]
  · intro again
    cases move <;> cases again

theorem step_inv (inv : Inv creation state) (taken : step state action = some next) : Inv creation next := by
  have quiet {act : Server.Act} {server : Server.State} (done : Server.step state.server act = some server)
      (nothing : ∀ outcome, act ≠ .receive outcome) : Backlog.handed server = Backlog.handed state.server :=
    (handed_move (move_of_step done)).resolve_right fun ⟨outcome, _, other, _⟩ => nothing outcome other
  cases action with
  | arrive arrival =>
      by_cases fits : arrival.fits state.server.server.socketType = true
      · simp only [step, fits, if_true] at taken
        exact Option.some.inj taken ▸ inv.arrive fits
      · simp [step, fits] at taken
  | own =>
      obtain ⟨server, done, rfl⟩ := Option.map_eq_some_iff.mp taken
      refine inv.lifted done (quiet done fun _ other => by cases other) ?_ ?_
      · intro receives
        cases move_of_step done <;> cases receives
      · intro gone
        cases move_of_step done <;> simp_all [left]
  | select =>
      obtain ⟨server, done, rfl⟩ := Option.map_eq_some_iff.mp taken
      exact inv.select done
  | interrupt =>
      obtain ⟨server, done, rfl⟩ := Option.map_eq_some_iff.mp taken
      cases move_of_step done with
      | retry => exact inv
  | receive descriptor =>
      cases waits : state.backlog with
      | nil => simp [step, waits] at taken
      | cons arrival rest =>
          simp only [step, waits] at taken
          obtain ⟨server, done, rfl⟩ := Option.map_eq_some_iff.mp taken
          exact inv.receive waits done
  | fail =>
      obtain ⟨server, done, rfl⟩ := Option.map_eq_some_iff.mp taken
      cases move_of_step done with
      | drop here none =>
          refine inv.lifted done ?_ (fun wrong => by cases wrong) fun wrong => by cases wrong
          simp [Backlog.handed, here, PC.pending, connections]
      | make here possible made => cases made
  | abort | openFd fd | closeFd fd =>
      obtain ⟨server, done, rfl⟩ := Option.map_eq_some_iff.mp taken
      refine inv.lifted done (quiet done fun _ other => by cases other) (fun receives => inv.ready ?_) fun gone => Or.inl ?_
      · cases move_of_step done
        exact receives
      · cases move_of_step done
        exact gone

theorem exists_above (fds : List Int) : ∃ bound, ∀ fd ∈ fds, fd < bound := by
  induction fds with
  | nil => exact ⟨0, fun _ none => absurd none List.not_mem_nil⟩
  | cons first rest ih =>
      obtain ⟨bound, above⟩ := ih
      refine ⟨max bound (first + 1), fun fd member => ?_⟩
      rcases List.mem_cons.mp member with rfl | later
      · omega
      · have := above fd later
        omega

theorem start_inv (creation : Creation) : Inv creation (start creation) := by
  have begins : (start creation).server.pc = .waitCreate := rfl
  refine ⟨⟨rfl, rfl, ?_, ?_⟩, .refl, fun _ => rfl, ?_, fun _ none => absurd none List.not_mem_nil, ?_⟩
  · simp [begins]
  · simp [begins, left]
  · simp [begins, left]
  · obtain ⟨bound, above⟩ := exists_above
      (creation.calls.socket :: creation.calls.pipe.1 :: creation.calls.pipe.2 :: creation.before)
    refine ⟨bound, fun fd beyond => ?_⟩
    have absent : fd ∉ creation.calls.socket :: creation.calls.pipe.1 :: creation.calls.pipe.2 :: creation.before :=
      fun member => absurd (above fd member) (not_lt.mpr beyond)
    simp only [List.mem_cons, not_or] at absent
    simp [start, Creation.start, Creation.table, absent]

theorem inv_of_reachable (reached : Reachable step (start creation) state) : Inv creation state :=
  reached.invariant (Inv creation) (start_inv creation) fun _ _ _ inv _ taken => step_inv inv taken

/-! ## The turns of the server -/

def rank : PC -> Nat
  | .waitCreate => 8
  | .addSocket => 7
  | .addStream | .connect _ _ => 6
  | .select => 5
  | .receive | .waitDestroy => 4
  | .closeReader => 3
  | .closeWriter => 2
  | .free => 1
  | .finished => 0

def State.load (state : State) : Nat :=
  3 * state.backlog.length + rank state.server.pc

/--
The server sleeps in `select` or has come to its end when its byte is in the pipe, and has handed over
everything that has come before.
-/
structure Settled (creation : Creation) (state : State) : Prop where
  place : state.server.pc = if state.server.bytes = 0 then .select else .finished
  all : state.arrived = state.taken.map Prod.fst ++ state.late
  handed : handed state.server =
    state.taken.filterMap fun taken => creation.server.connection (taken.1.outcome taken.2)

theorem turn_smaller (taken : restrict step Act.turn state action = some next) : next.load < state.load := by
  obtain ⟨turn, taken⟩ := restrict_eq_some.mp taken
  cases action with
  | own =>
      obtain ⟨server, done, rfl⟩ := Option.map_eq_some_iff.mp taken
      cases move_of_step done <;> simp [State.load, rank, *]
  | select =>
      obtain ⟨server, done, rfl⟩ := Option.map_eq_some_iff.mp taken
      cases move_of_step done <;> simp [State.load, rank, *]
  | receive descriptor =>
      cases waits : state.backlog with
      | nil => simp [step, waits] at taken
      | cons arrival rest =>
          simp only [step, waits] at taken
          obtain ⟨server, done, rfl⟩ := Option.map_eq_some_iff.mp taken
          cases move_of_step done <;> simp only [State.load, rank, List.length_cons, *] <;> omega
  | arrive | interrupt | fail | abort | openFd | closeFd => cases turn

theorem turns_descend (creation : Creation) : Descends (restrict step Act.turn) (Inv creation) State.load where
  kept _ _ _ inv taken := step_inv inv (restrict_eq_some.mp taken).2
  smaller _ _ _ _ taken := turn_smaller taken

theorem Inv.select_acts (inv : Inv creation state) (here : state.server.pc = .select)
    (some : state.backlog ≠ [] ∨ state.server.bytes ≠ 0) : (step state .select).isSome := by
  obtain ⟨socket, reader⟩ := mem_readable inv
  have wait := inv.setup.wait
  rw [here] at wait
  have nonempty : state.readable ≠ [] := by
    rcases some with waits | bytes
    · exact List.ne_nil_of_mem (socket.mpr waits)
    · exact List.ne_nil_of_mem (reader.mpr bytes)
  have known : ∀ fd ∈ state.readable, fd ∈ [creation.calls.socket, creation.calls.pipe.1] := by
    simp only [State.readable, inv.setup.socket, inv.setup.reader]
    split_ifs <;> simp
  have reported : reports (fullWait creation.calls.socket creation.calls.pipe.1) state.readable = true := by
    simpa [reports, nonempty, Wait.rfds, fullWait] using known
  simp [step, State.lift, Server.step, here, wait.1, reported, waitDo_full]

theorem Inv.receive_acts (inv : Inv creation state) (here : state.server.pc = .receive) :
    ∃ descriptor, (step state (.receive descriptor)).isSome := by
  obtain ⟨arrival, rest, waits⟩ := List.exists_cons_of_ne_nil (inv.ready here)
  obtain ⟨bound, free⟩ := inv.room
  have fits := inv.typed arrival (waits ▸ List.mem_cons_self)
  rw [← inv.setup.socketType] at fits
  have possible : (arrival.outcome (max bound 0)).possible state.server.table state.server.server.socketType = true := by
    cases kind : state.server.server.socketType <;> cases arrival <;>
      simp_all [Arrival.fits, Arrival.outcome, Outcome.possible]
  refine ⟨max bound 0, ?_⟩
  simp only [step, waits, Server.step, here, possible, and_self, if_true, Option.isSome_map]
  split <;> rfl

/-- Where no turn is left the server sleeps in `select` or has ended. -/
theorem Inv.settled (inv : Inv creation state) (rests : ∀ action, restrict step Act.turn state action = none) :
    Settled creation state := by
  have stuck (action : Act) (turn : action.turn = true) : step state action = none := by
    simpa [restrict, turn] using rests action
  have own := stuck .own rfl
  suffices done : (state.server.pc = .select ∧ state.backlog = [] ∧ state.server.bytes = 0) ∨
      state.server.pc = .finished by
    rcases done with ⟨here, empty, bytes⟩ | here
    · have none := inv.early (by rw [here]; rfl)
      exact ⟨by rw [here, bytes, if_pos rfl], by rw [inv.arrived, empty, none], inv.handed⟩
    · have gone : left state.server.pc = true := by rw [here]; rfl
      exact ⟨by rw [here, if_neg (inv.aborted gone)], by rw [inv.arrived, inv.behind gone], inv.handed⟩
  cases here : state.server.pc with
  | select =>
      by_contra busy
      have some : state.backlog ≠ [] ∨ state.server.bytes ≠ 0 := by
        by_contra idle
        simp only [not_or, not_not] at idle
        exact busy (Or.inl ⟨rfl, idle⟩)
      have acts := inv.select_acts here some
      rw [stuck .select rfl] at acts
      cases acts
  | receive =>
      obtain ⟨descriptor, acts⟩ := inv.receive_acts here
      rw [stuck (.receive descriptor) rfl] at acts
      cases acts
  | finished => exact Or.inr rfl
  | waitCreate | addSocket | addStream | connect id stream | waitDestroy | closeReader | closeWriter | free =>
      simp [step, State.lift, Server.step, here] at own

end Steps

theorem backlog_accounted (creation : Creation) {state : State} (reached : Reachable step (start creation) state) :
    Accounted creation state :=
  (inv_of_reachable reached).toAccounted

/-- Two clients come before the byte of `zs__server_abort` is noticed, and one when the loop has been left. -/
def threeClients : List Act :=
  [.own, .own, .own, .arrive (.connection .inet), .select, .arrive (.connection .unix), .abort, .receive 6, .own,
    .select, .receive 7, .own, .select, .arrive (.connection .inet)]

theorem backlog_accounted_threeClients : ∃ state, exec step (start threeFourFive) threeClients = some state ∧
    (handed state.server).length = 2 ∧ state.late.length = 1 ∧ Accounted threeFourFive state := by
  have ran : (exec step (start threeFourFive) threeClients).map (fun state =>
      ((handed state.server).length, state.late.length)) = some (2, 1) := by decide +kernel
  obtain ⟨state, run, same⟩ := Option.map_eq_some_iff.mp ran
  simp only [Prod.mk.injEq] at same
  exact ⟨state, run, same.1, same.2, backlog_accounted threeFourFive (reachable_of_exec threeClients run)⟩

/--
Whatever has come and whenever the server is aborted, it comes to rest after finitely many turns of its own,
unless something fails or somebody else comes.
-/
theorem backlog_drains (creation : Creation) {state : State} (reached : Reachable step (start creation) state) :
    Terminates (restrict step Act.turn) (Settled creation) state :=
  (turns_descend creation).terminates (inv_of_reachable reached) fun _ inv rests => inv.settled rests

theorem backlog_drains_threeClients : ∃ state, exec step (start threeFourFive) (threeClients.take 7) = some state ∧
    state.backlog.length = 2 ∧ Terminates (restrict step Act.turn) (Settled threeFourFive) state := by
  have ran : (exec step (start threeFourFive) (threeClients.take 7)).map (fun state => state.backlog.length) =
      some 2 := by decide +kernel
  obtain ⟨state, run, waiting⟩ := Option.map_eq_some_iff.mp ran
  exact ⟨state, run, waiting, backlog_drains threeFourFive (reachable_of_exec _ run)⟩

end ZSystem.Server.Backlog
