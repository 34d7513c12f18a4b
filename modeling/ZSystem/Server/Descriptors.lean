import ZSystem.Server.Dispatch

set_option autoImplicit false

/-!
# The descriptors that a server leaves behind

The pipe is closed with its stream and every accepted socket goes to `on_connect`, but nothing closes the
socket of the server itself.
-/

namespace ZSystem.Server

open Transition
open ZSystem.Stream (Struct streamCreatePipe streamCreateSocket)

/-- Nothing that the creation has opened is open, and what the run has opened belongs to `on_connect`. -/
structure Clean (creation : Creation) (state : State) : Prop where
  closed : ∀ fd ∈ [creation.calls.socket, creation.calls.pipe.1, creation.calls.pipe.2],
    state.table fd ≠ some .creation
  handed : ∀ fd, state.table fd ≠ some .accepted

/-! ## Who owns what at which place -/

/-- What is still open of the creation. -/
def Creation.remaining (creation : Creation) : PC -> List Int
  | .closeWriter => [creation.calls.socket, creation.calls.pipe.2]
  | .free | .finished => [creation.calls.socket]
  | _ => [creation.calls.socket, creation.calls.pipe.1, creation.calls.pipe.2]

theorem pipe_closes (reader writer : Int) :
    ((streamCreatePipe reader writer).close .reader).2 = [reader] ∧
      (((streamCreatePipe reader writer).close .reader).1.close .writer).2 = [writer] := by
  have apart : (1 : UInt8) &&& 2 = 0 := by decide
  constructor <;>
    simp [apart, streamCreatePipe, ZSystem.Stream.streamCreate, Struct.close, ZSystem.Stream.streamCloseReader,
      ZSystem.Stream.streamCloseWriter, Struct.closeReaderPipe, Struct.closeWriterPipe,
      ZSystem.Stream.closePipe, ZSystem.Stream.Direction.bit, Struct.field]

def Creation.stream (creation : Creation) : PC -> Struct
  | .closeWriter => ((streamCreatePipe creation.calls.pipe.1 creation.calls.pipe.2).close .reader).1
  | .free | .finished =>
      (((streamCreatePipe creation.calls.pipe.1 creation.calls.pipe.2).close .reader).1.close .writer).1
  | _ => streamCreatePipe creation.calls.pipe.1 creation.calls.pipe.2

/-- Accepted, and not yet passed on. -/
def PC.holds : PC -> List Int
  | .connect _ stream => stream.owns
  | _ => []

structure Owned (creation : Creation) (state : State) : Prop where
  stream : state.server.stream = creation.stream state.pc
  creation : ∀ fd, state.table fd = some .creation ↔ fd ∈ creation.remaining state.pc
  accepted : ∀ fd, state.table fd = some .accepted ↔ fd ∈ state.pc.holds

section Owned

variable {creation : Creation} {state next : State} {action : Act}

/-- One descriptor changes hands, and the thread goes to a place that accounts for it. -/
theorem Owned.update (owned : Owned creation state) (after : State) {fd : Int} {value : Option Owner}
    (table : after.table = Function.update state.table fd value)
    (stream : after.server.stream = creation.stream after.pc)
    (remaining : ∀ other, other ∈ creation.remaining after.pc ↔
      if other = fd then value = some .creation else other ∈ creation.remaining state.pc)
    (holds : ∀ other, other ∈ after.pc.holds ↔
      if other = fd then value = some .accepted else other ∈ state.pc.holds) : Owned creation after := by
  refine ⟨stream, fun other => ?_, fun other => ?_⟩
  · rw [table, remaining, ← owned.creation]
    by_cases same : other = fd <;> simp [same]
  · rw [table, holds, ← owned.accepted]
    by_cases same : other = fd <;> simp [same]

theorem Owned.place (owned : Owned creation state) (after : State)
    (table : after.table = state.table) (stream : after.server.stream = creation.stream after.pc)
    (remaining : creation.remaining after.pc = creation.remaining state.pc)
    (holds : after.pc.holds = state.pc.holds) : Owned creation after := by
  refine ⟨stream, fun fd => ?_, fun fd => ?_⟩
  · rw [table, remaining, owned.creation]
  · rw [table, holds, owned.accepted]

/-- A descriptor that does not belong to the server changes hands. -/
theorem Owned.foreign (owned : Owned creation state) {fd : Int} {value : Option Owner}
    (before : state.table fd ≠ some .creation ∧ state.table fd ≠ some .accepted)
    (later : value ≠ some .creation ∧ value ≠ some .accepted) :
    Owned creation { state with table := Function.update state.table fd value } := by
  rw [ne_eq, ne_eq, owned.creation, owned.accepted] at before
  refine owned.update _ rfl owned.stream (fun other => ?_) fun other => ?_
  · by_cases same : other = fd <;> simp [same, before.1, later.1]
  · by_cases same : other = fd <;> simp [same, before.2, later.2]

theorem remaining_kept {pc place : PC} {fd : Int} {owner : Owner} (unused : fd ∉ creation.remaining pc)
    (same : creation.remaining place = creation.remaining pc) (other : owner ≠ .creation) (descriptor : Int) :
    descriptor ∈ creation.remaining place ↔
      if descriptor = fd then some owner = some .creation else descriptor ∈ creation.remaining pc := by
  by_cases equal : descriptor = fd
  · simp [equal, same, unused, other]
  · simp [equal, same]

theorem Owned.make (owned : Owned creation state) {outcome : Outcome} {stream : Connection}
    (here : state.pc = .receive)
    (possible : outcome.possible state.table state.server.socketType = true)
    (made : state.server.connection outcome = some stream) :
    Owned creation { state with
      pc := .connect state.made stream
      trace := .received outcome :: state.trace
      made := state.made + 1
      table := stream.owns.foldl (fun table fd => Function.update table fd (some .accepted)) state.table } := by
  have pipe := owned.stream
  rw [here] at pipe
  cases outcome with
  | failed => cases made
  | accepted socket remoteHost =>
      cases made
      have fresh : state.table socket = none := by
        cases kind : state.server.socketType with
        | stream =>
            simp only [kind, Outcome.possible, Bool.and_eq_true, Option.isNone_iff_eq_none] at possible
            exact possible.2
        | dgram => simp [kind, Outcome.possible] at possible
      have unused : socket ∉ creation.remaining state.pc := by
        rw [← owned.creation, fresh]
        simp
      refine owned.update _ rfl pipe (remaining_kept unused (by rw [here]; rfl) (by simp)) fun other => ?_
      by_cases same : other = socket <;> simp [same, here, PC.holds, Connection.owns, streamCreateSocket]
  | datagram bytes remoteHost =>
      simp only [connection] at made
      split_ifs at made with empty
      cases made
      exact owned.place _ rfl pipe (by rw [here]; rfl) (by rw [here]; rfl)

theorem Owned.connect (owned : Owned creation state) {id : Nat} {stream : Connection}
    (here : state.pc = .connect id stream) :
    Owned creation { state with
      pc := .select
      trace := .connected id stream :: state.trace
      table := stream.owns.foldl (fun table fd => Function.update table fd (some .connection)) state.table
      late := if 0 < state.bytes then state.late + 1 else state.late } := by
  have pipe := owned.stream
  rw [here] at pipe
  cases stream with
  | dgram stream => exact owned.place _ rfl pipe (by rw [here]; rfl) (by rw [here]; rfl)
  | socket stream =>
      have unused : stream.socket ∉ creation.remaining state.pc := by
        rw [← owned.creation, (owned.accepted stream.socket).mpr (by simp [here, PC.holds, Connection.owns])]
        simp
      refine owned.update _ rfl pipe (remaining_kept unused (by rw [here]; rfl) (by simp)) fun other => ?_
      by_cases same : other = stream.socket <;> simp [same, here, PC.holds, Connection.owns]

theorem Owned.close (owned : Owned creation state) (after : State) (fd : Int)
    (stream : after.server.stream = creation.stream after.pc)
    (table : after.table = Function.update state.table fd none)
    (remaining : (creation.remaining state.pc).Perm (fd :: creation.remaining after.pc))
    (once : (creation.remaining state.pc).Nodup)
    (holds : state.pc.holds = [] ∧ after.pc.holds = []) : Owned creation after := by
  have apart := (List.nodup_cons.mp (remaining.nodup_iff.mp once)).1
  refine owned.update after table stream (fun other => ?_) fun other => by simp [holds.1, holds.2]
  rw [remaining.mem_iff]
  by_cases same : other = fd <;> simp [same, apart]

theorem Owned.move (owned : Owned creation state) (move : Move state action next) : Owned creation next := by
  have pipe := owned.stream
  have distinct := creation.opened
  simp only [List.nodup_cons, List.mem_cons, not_or] at distinct
  cases move with
  | make here possible made => exact owned.make here possible made
  | connect here => exact owned.connect here
  | closeReader here =>
      rw [here] at pipe
      refine owned.close _ creation.calls.pipe.1 ?_ ?_ ?_ ?_ (by rw [here]; exact ⟨rfl, rfl⟩)
      · rw [pipe]; rfl
      · rw [pipe]
        exact congrArg _ (pipe_closes ..).1
      · rw [here]; exact .swap ..
      · rw [here]
        simp [Creation.remaining, distinct]
  | closeWriter here =>
      rw [here] at pipe
      refine owned.close _ creation.calls.pipe.2 ?_ ?_ ?_ ?_ (by rw [here]; exact ⟨rfl, rfl⟩)
      · rw [pipe]; rfl
      · rw [pipe]
        exact congrArg _ (pipe_closes ..).2
      · rw [here]; exact .swap ..
      · rw [here]
        simp [Creation.remaining, distinct]
  | openFd fresh => exact owned.foreign (by simp [fresh]) (by simp)
  | closeFd other =>
      refine owned.foreign ?_ (by simp)
      rcases other with other | other <;> simp [other]
  | retry => exact owned
  | abort => exact owned.place _ rfl pipe rfl rfl
  | waitCreate here | addSocket here | addStream here | serve here | leave here | drop here | waitDestroy here
  | free here =>
      rw [here] at pipe
      exact owned.place _ rfl pipe (by rw [here]; rfl) (by rw [here]; rfl)

theorem owned_of_reachable (reached : Reachable step creation.start state) : Owned creation state := by
  have start : Owned creation creation.start := by
    refine ⟨creation.server_eq.2, fun fd => ?_, fun fd => ?_⟩
    · change creation.table fd = _ ↔ fd ∈ [_, _, _]
      unfold Creation.table
      split_ifs <;> simp_all
    · change creation.table fd = _ ↔ fd ∈ []
      unfold Creation.table
      split_ifs <;> simp
  exact reached.invariant (Owned creation) start fun _ _ _ owned _ taken => owned.move (move_of_step taken)

end Owned

/-! ## At the end -/

/-- Of all that the creation and the run have opened the socket alone is still open, and it always is. -/
theorem server_leaves_socket (creation : Creation) (state : State)
    (reached : Reachable step creation.start state) (ended : state.pc = .finished) :
    ¬ Clean creation state ∧
      ∀ fd, state.table fd = some .creation ∨ state.table fd = some .accepted ↔ fd = creation.calls.socket := by
  have owned := owned_of_reachable reached
  have left : ∀ fd, state.table fd = some .creation ↔ fd = creation.calls.socket := fun fd => by
    rw [owned.creation, ended]
    exact List.mem_singleton
  have handed : ∀ fd, state.table fd ≠ some .accepted := fun fd => by
    rw [ne_eq, owned.accepted, ended]
    exact List.not_mem_nil
  refine ⟨fun clean => ?_, fun fd => ?_⟩
  · exact clean.closed creation.calls.socket List.mem_cons_self ((left _).mpr rfl)
  · rw [left, or_iff_left (handed fd)]

theorem server_leaves_socket_threeFourFive :
    ∃ state, Reachable step threeFourFive.start state ∧ state.pc = .finished ∧ ¬ Clean threeFourFive state :=
  ⟨_, reachable_of_exec served rfl, rfl,
    (server_leaves_socket threeFourFive _ (reachable_of_exec served rfl) rfl).1⟩

/-- The server is aborted before the first connection. -/
theorem server_clean_fails :
    ¬ ∀ (creation : Creation) (state : State), Reachable step creation.start state -> state.pc = .finished ->
      Clean creation state := by
  intro clean
  have ended := clean threeFourFive _ (reachable_of_exec
    [.own, .own, .own, .abort, .select (.ready [4]), .own, .own, .own, .own] rfl) rfl
  exact ended.closed 3 (by decide) rfl

end ZSystem.Server
