import ZSystem.Stream.Pipe
import ZSystem.Shared.Transition

set_option autoImplicit false

/-!
# Reading a pipe until it is closed

One `ZSReader` reads while write ends of its pipe are used, opened and closed elsewhere.
-/

namespace ZSystem.Stream

open Transition

/-! ## The system -/

/-- The calls of `ZSReader`; `operator>>` for a string and for the numbers read a `line`. -/
inductive Call where
  | isClosed
  | read (size : Nat)
  | char
  | line
  deriving DecidableEq, Repr

def Call.size : Call -> Nat
  | .isClosed => 0
  | .read size => size
  | .char => 1
  | .line => 1

/-- The reader is in front of the call's `IsClosed`, or of its read. -/
inductive PC where
  | outside
  | test (call : Call)
  | receive (call : Call)
  | stopped
  deriving DecidableEq, Repr

def Call.tested (closed : Bool) : Call -> PC
  | .isClosed => if closed then .stopped else .outside
  | call => if closed then .outside else .receive call

def newline : UInt8 := 10

def Call.received (bytes : List UInt8) : Call -> PC
  | .char => if bytes.length = 1 then .outside else .test .char
  | .line => if bytes = [newline] then .outside else .test .line
  | _ => .outside

structure State where
  stream : PipeStream
  pc : PC
  -- All bytes ever written to the pipe.
  written : List UInt8
  -- All bytes that the reads gave.
  received : List UInt8
  -- `IsClosed` was true while bytes were unread.
  lost : Bool
  deriving DecidableEq, Repr

inductive Action where
  | write (bytes : List UInt8)
  | openWriter
  | closeWriter
  -- `zs__stream_close_writer` on the reader's own stream.
  | closeOwnWriter
  -- Read ends of the pipe that the stream writes to come or go elsewhere.
  | peer (readers : Nat)
  | call (call : Call)
  | step
  -- A signal ends a read that waits.
  | signal
  deriving DecidableEq, Repr

/-- The write ends of the reader's pipe that belong to its own stream. -/
def PipeStream.held (stream : PipeStream) : Nat :=
  if stream.writer = none ∧ stream.closed &&& 0x02 = 0 then 1 else 0

def PipeStream.peer (stream : PipeStream) (readers : Nat) : PipeStream :=
  match stream.writer with
  | none => { stream with reader := { stream.reader with readers := readers + 1 } }
  | some pipe => { stream with writer := some { pipe with readers := readers } }

def State.readerStep (state : State) : Option State :=
  match state.pc with
  | .test call =>
      let closed := isClosed state.stream
      some { state with
        pc := call.tested closed
        lost := state.lost || closed && state.stream.reader.unread ≠ [] }
  | .receive call =>
      (readPipe state.stream call.size).map fun (bytes, stream) =>
        { state with stream := stream, pc := call.received bytes, received := state.received ++ bytes }
  | _ => none

def step (state : State) : Action -> Option State
  | .write bytes =>
      if state.stream.reader.writers = 0 then none
      else some { state with
        stream := { state.stream with reader := state.stream.reader.write bytes }
        written := state.written ++ bytes }
  | .openWriter =>
      if state.stream.reader.writers = 0 then none
      else some { state with
        stream := { state.stream with reader := state.stream.reader.openWriter } }
  | .closeWriter =>
      if state.stream.held < state.stream.reader.writers then
        some { state with stream := { state.stream with reader := state.stream.reader.closeWriter } }
      else none
  | .closeOwnWriter => some { state with stream := closeWriterPipe state.stream }
  | .peer readers => some { state with stream := state.stream.peer readers }
  | .call call => if state.pc = .outside then some { state with pc := .test call } else none
  | .step => state.readerStep
  | .signal =>
      match state.pc with
      | .receive call =>
          if (readPipe state.stream call.size).isNone then
            some { state with pc := call.received [] }
          else none
      | _ => none

/-- A stream whose reader is open and whose pipe still has a write end somewhere. -/
structure Opened where
  stream : PipeStream
  here : stream.closed &&& 0x01 = 0
  connected : stream.reader.writers ≠ 0

def initial (opened : Opened) : State where
  stream := opened.stream
  pc := .outside
  written := opened.stream.reader.unread
  received := []
  lost := false

/-! ## The property and its condition -/

/-- No report of a closed reader comes too early, and who has stopped has everything, in order. -/
def Good (state : State) : Prop :=
  state.lost = false ∧ (state.pc = .stopped -> state.received = state.written)

/-- What the read in progress may take. -/
def PC.pending : PC -> Nat
  | .receive call => call.size
  | _ => 0

def State.hangsUp (state : State) : Action -> Bool
  | .closeWriter => state.stream.reader.writers = 1
  | .closeOwnWriter => state.stream.held = 1 ∧ state.stream.reader.writers = 1
  | _ => false

/-- The last write end is closed only when the read in progress takes all that is unread. -/
def ClosesDrained (state : State) (action : Action) : Prop :=
  state.hangsUp action = true -> state.stream.reader.unread.length ≤ state.pc.pending

instance : DecidableRel ClosesDrained := fun state action =>
  inferInstanceAs (Decidable (state.hangsUp action = true -> _))

/-- The pipe is hung up and the read in progress will leave bytes behind. -/
def HungUp (state : State) : Prop :=
  state.stream.reader.writers = 0 ∧ state.pc.pending < state.stream.reader.unread.length

/-! ## What a step does -/

inductive Move (state : State) : Action -> State -> Prop where
  | elsewhere {action : Action} (stream : PipeStream) (bytes : List UInt8)
      (reader_open : state.stream.closed &&& 0x01 = 0 -> stream.closed &&& 0x01 = 0)
      (appended : stream.reader.unread = state.stream.reader.unread ++ bytes)
      (connected : stream.reader.writers = 0 -> bytes = [])
      (writers : stream.reader.writers = 0 ↔
        state.stream.reader.writers = 0 ∨ state.hangsUp action = true) :
      Move state action { state with stream := stream, written := state.written ++ bytes }
  | call (call : Call) (outside : state.pc = .outside) :
      Move state (.call call) { state with pc := .test call }
  | report (call : Call) (testing : state.pc = .test call) (closed : isClosed state.stream = true) :
      Move state .step { state with
        pc := call.tested true
        lost := state.lost || decide (state.stream.reader.unread ≠ []) }
  | tested (call : Call) (testing : state.pc = .test call) (opened : isClosed state.stream = false) :
      Move state .step { state with pc := call.tested false }
  | receive (call : Call) (receiving : state.pc = .receive call) :
      Move state .step { state with
        stream := { state.stream with reader := { state.stream.reader with
          unread := state.stream.reader.unread.drop call.size } }
        pc := call.received (state.stream.reader.unread.take call.size)
        received := state.received ++ state.stream.reader.unread.take call.size }
  | signal (call : Call) (receiving : state.pc = .receive call)
      (empty : state.stream.reader.unread = []) :
      Move state .signal { state with pc := call.received [] }

theorem readPipe_eq_some {stream next : PipeStream} {size : Nat} {bytes : List UInt8}
    (gave : readPipe stream size = some (bytes, next)) :
    bytes = stream.reader.unread.take size ∧
      next = { stream with reader := { stream.reader with unread := stream.reader.unread.drop size } } := by
  unfold readPipe Pipe.read at gave
  split_ifs at gave with none waits
  · cases gave
    simp [none]
  · cases gave
  · cases gave
    exact ⟨rfl, rfl⟩

theorem readPipe_eq_none {stream : PipeStream} {size : Nat} (waits : readPipe stream size = none) :
    stream.reader.unread = [] := by
  unfold readPipe Pipe.read at waits
  split_ifs at waits with none empty
  · exact empty.1
  · cases waits

theorem move_quiet {state : State} {action : Action} (stream : PipeStream)
    (reader_open : state.stream.closed &&& 0x01 = 0 -> stream.closed &&& 0x01 = 0)
    (unread : stream.reader.unread = state.stream.reader.unread)
    (writers : stream.reader.writers = 0 ↔
      state.stream.reader.writers = 0 ∨ state.hangsUp action = true) :
    Move state action { state with stream := stream } := by
  have move := Move.elsewhere stream [] reader_open (by rw [unread, List.append_nil])
    (fun _ => rfl) writers
  rwa [List.append_nil] at move

theorem closeWriterPipe_unread (stream : PipeStream) :
    (closeWriterPipe stream).reader.unread = stream.reader.unread := by
  unfold closeWriterPipe
  split_ifs
  · cases stream.writer <;> rfl
  · rfl

theorem closeWriterPipe_writers (stream : PipeStream) :
    (closeWriterPipe stream).reader.writers = 0 ↔
      stream.reader.writers = 0 ∨ stream.held = 1 ∧ stream.reader.writers = 1 := by
  unfold closeWriterPipe PipeStream.held
  split_ifs with open_here own own
  · simp only [own.1, Pipe.closeWriter, true_and]
    omega
  · obtain ⟨pipe, other⟩ := Option.ne_none_iff_exists'.mp fun none => own ⟨none, open_here⟩
    simp [other]
  · exact absurd own.2 open_here
  · simp

theorem peer_reader (stream : PipeStream) (readers : Nat) :
    (stream.peer readers).closed = stream.closed ∧
      (stream.peer readers).reader.unread = stream.reader.unread ∧
      (stream.peer readers).reader.writers = stream.reader.writers := by
  unfold PipeStream.peer
  cases stream.writer <;> exact ⟨rfl, rfl, rfl⟩

theorem readerStep_move {state next : State} (taken : state.readerStep = some next) :
    Move state .step next := by
  unfold State.readerStep at taken
  cases pc : state.pc with
  | test call =>
      simp only [pc] at taken
      cases taken
      cases closed : isClosed state.stream with
      | true => simpa only [Bool.true_and] using Move.report call pc closed
      | false => simpa only [Bool.false_and, Bool.or_false] using Move.tested call pc closed
  | receive call =>
      simp only [pc] at taken
      obtain ⟨⟨bytes, stream⟩, gave, rfl⟩ := Option.map_eq_some_iff.mp taken
      obtain ⟨rfl, rfl⟩ := readPipe_eq_some gave
      exact .receive call pc
  | outside => simp only [pc] at taken; cases taken
  | stopped => simp only [pc] at taken; cases taken

theorem step_move {state next : State} {action : Action} (taken : step state action = some next) :
    Move state action next := by
  cases action with
  | write bytes =>
      simp only [step] at taken
      split_ifs at taken with alone
      cases taken
      refine .elsewhere _ bytes id rfl (fun none => absurd none alone) ?_
      simp [Pipe.write, State.hangsUp]
  | openWriter =>
      simp only [step] at taken
      split_ifs at taken with alone
      cases taken
      refine move_quiet _ id rfl ?_
      simp [Pipe.openWriter, State.hangsUp, alone]
  | closeWriter =>
      simp only [step] at taken
      split_ifs at taken with elsewhere
      cases taken
      refine move_quiet _ id rfl ?_
      simp only [Pipe.closeWriter, State.hangsUp, decide_eq_true_eq]
      omega
  | closeOwnWriter =>
      cases taken
      refine move_quiet _ closeWriterPipe_reader_open (closeWriterPipe_unread _) ?_
      simp only [State.hangsUp, decide_eq_true_eq]
      exact closeWriterPipe_writers _
  | peer readers =>
      cases taken
      obtain ⟨closed, unread, writers⟩ := peer_reader state.stream readers
      refine move_quiet _ (fun here => closed ▸ here) unread ?_
      simp [writers, State.hangsUp]
  | call call =>
      simp only [step] at taken
      split_ifs at taken with outside
      cases taken
      exact .call call outside
  | step => exact readerStep_move taken
  | signal =>
      simp only [step] at taken
      cases pc : state.pc with
      | receive call =>
          simp only [pc] at taken
          split_ifs at taken with waits
          cases taken
          exact .signal call pc (readPipe_eq_none (Option.isNone_iff_eq_none.mp waits))
      | outside => simp only [pc] at taken; cases taken
      | test call => simp only [pc] at taken; cases taken
      | stopped => simp only [pc] at taken; cases taken

/-! ## Every run -/

theorem received_cases (call : Call) (bytes : List UInt8) :
    call.received bytes = .outside ∨ call.received bytes = .test call := by
  cases call with
  | isClosed | read => exact Or.inl rfl
  | char | line =>
      simp only [Call.received]
      split_ifs
      · exact Or.inl rfl
      · exact Or.inr rfl

theorem pending_received (call : Call) (bytes : List UInt8) : (call.received bytes).pending = 0 := by
  rcases received_cases call bytes with after | after <;> rw [after] <;> rfl

theorem received_ne_stopped (call : Call) (bytes : List UInt8) : call.received bytes ≠ .stopped := by
  rcases received_cases call bytes with after | after <;> simp [after]

theorem tested_ne_stopped (call : Call) : call.tested false ≠ .stopped := by
  cases call <;> simp [Call.tested]

/-- Nothing is lost in the pipe itself: what was written was read or can be read, in order. -/
def Conserved (state : State) : Prop := state.written = state.received ++ state.stream.reader.unread

theorem Conserved.step {state next : State} {action : Action} (conserved : Conserved state)
    (move : Move state action next) : Conserved next := by
  unfold Conserved at *
  cases move with
  | elsewhere stream bytes _ appended _ _ => rw [appended, conserved, List.append_assoc]
  | call | report | tested | signal => exact conserved
  | receive => simp only [conserved, List.append_assoc, List.take_append_drop]

structure Drained (state : State) : Prop where
  here : state.stream.closed &&& 0x01 = 0
  conserved : Conserved state
  hung_up : state.stream.reader.writers = 0 -> state.stream.reader.unread.length ≤ state.pc.pending
  stopped : state.pc = .stopped -> state.stream.reader.writers = 0
  not_lost : state.lost = false

theorem Drained.good {state : State} (drained : Drained state) : Good state := by
  refine ⟨drained.not_lost, fun stopped => ?_⟩
  have empty : state.stream.reader.unread.length ≤ state.pc.pending :=
    drained.hung_up (drained.stopped stopped)
  rw [stopped] at empty
  rw [drained.conserved, List.length_eq_zero_iff.mp (Nat.le_zero.mp empty), List.append_nil]

theorem Drained.empty {state : State} (drained : Drained state) (waits : state.pc.pending = 0)
    (closed : isClosed state.stream = true) :
    state.stream.reader.writers = 0 ∧ state.stream.reader.unread = [] := by
  have alone := (isClosed_iff drained.here).mp closed
  have none := drained.hung_up alone
  rw [waits, Nat.le_zero, List.length_eq_zero_iff] at none
  exact ⟨alone, none⟩

theorem Drained.step {state next : State} {action : Action} (drained : Drained state)
    (closes : ClosesDrained state action) (move : Move state action next) : Drained next := by
  have conserved := drained.conserved.step move
  cases move with
  | elsewhere stream bytes reader_open appended connected writers =>
      refine ⟨reader_open drained.here, conserved, fun alone => ?_,
        fun ended => writers.mpr (Or.inl (drained.stopped ended)), drained.not_lost⟩
      have same : stream.reader.unread = state.stream.reader.unread := by
        rw [appended, connected alone, List.append_nil]
      rw [same]
      exact (writers.mp alone).elim drained.hung_up closes
  | call call outside =>
      refine ⟨drained.here, conserved, fun alone => ?_, nofun, drained.not_lost⟩
      have empty := drained.hung_up alone
      rwa [outside] at empty
  | report call testing closed =>
      obtain ⟨alone, none⟩ := drained.empty (by rw [testing]; rfl) closed
      refine ⟨drained.here, conserved, fun _ => ?_, fun _ => alone, ?_⟩
      · simp only [none, List.length_nil, Nat.zero_le]
      · simp only [drained.not_lost, none, ne_eq, not_true_eq_false, decide_false, Bool.or_false]
  | tested call testing opened =>
      have connected : state.stream.reader.writers ≠ 0 := fun alone => by
        rw [(isClosed_iff drained.here).mpr alone] at opened
        cases opened
      exact ⟨drained.here, conserved, fun alone => absurd alone connected,
        fun ended => absurd ended (tested_ne_stopped call), drained.not_lost⟩
  | receive call receiving =>
      refine ⟨drained.here, conserved, fun alone => ?_,
        fun ended => absurd ended (received_ne_stopped call _), drained.not_lost⟩
      have taken := drained.hung_up alone
      rw [receiving] at taken
      rw [pending_received, List.length_drop]
      exact Nat.le_zero.mpr (Nat.sub_eq_zero_of_le taken)
  | signal call receiving empty =>
      refine ⟨drained.here, conserved, fun _ => ?_,
        fun ended => absurd ended (received_ne_stopped call _), drained.not_lost⟩
      simp only [empty, List.length_nil, Nat.zero_le]

theorem Opened.drained (opened : Opened) : Drained (initial opened) where
  here := opened.here
  conserved := (List.nil_append _).symm
  hung_up := fun alone => absurd alone opened.connected
  stopped := nofun
  not_lost := rfl

theorem hungUp_of_not_closesDrained {state next : State} {action : Action}
    (violated : ¬ ClosesDrained state action) (move : Move state action next) : HungUp next := by
  simp only [ClosesDrained, Classical.not_imp, not_le] at violated
  obtain ⟨hangs_up, leaves⟩ := violated
  cases move with
  | elsewhere stream bytes reader_open appended connected writers =>
      refine ⟨writers.mpr (Or.inr hangs_up), leaves.trans_le ?_⟩
      rw [appended, List.length_append]
      exact Nat.le_add_right _ _
  | call | report | tested | receive | signal => cases hangs_up

theorem Move.reader_open {state next : State} {action : Action} (move : Move state action next)
    (here : state.stream.closed &&& 0x01 = 0) : next.stream.closed &&& 0x01 = 0 := by
  cases move with
  | elsewhere _ _ reader_open => exact reader_open here
  | call | report | tested | receive | signal => exact here

theorem HungUp.step {state next : State} {action : Action} (hung_up : HungUp state)
    (here : state.stream.closed &&& 0x01 = 0) (move : Move state action next) :
    HungUp next ∨ ¬ Good next := by
  obtain ⟨alone, leaves⟩ := hung_up
  have unread : state.stream.reader.unread ≠ [] :=
    List.ne_nil_of_length_pos (Nat.zero_lt_of_lt leaves)
  cases move with
  | elsewhere stream bytes reader_open appended connected writers =>
      have hung_up := writers.mpr (Or.inl alone)
      rw [connected hung_up, List.append_nil] at appended
      exact Or.inl ⟨hung_up, by simpa only [appended] using leaves⟩
  | call call outside => exact Or.inl ⟨alone, List.length_pos_of_ne_nil unread⟩
  | report call testing closed =>
      refine Or.inr fun good => ?_
      have lost : (state.lost || decide (state.stream.reader.unread ≠ [])) = true := by
        rw [decide_eq_true unread, Bool.or_true]
      exact Bool.false_ne_true (good.1.symm.trans lost)
  | tested call testing opened =>
      rw [(isClosed_iff here).mpr alone] at opened
      cases opened
  | receive call receiving =>
      rw [receiving] at leaves
      refine Or.inl ⟨alone, ?_⟩
      rw [pending_received, List.length_drop]
      exact Nat.sub_pos_of_lt leaves
  | signal call receiving empty => exact absurd empty unread

/-! ## The claim -/

/--
A run that closes the last write end only when the read in progress takes all that is unread loses
nothing. In a run that has lost nothing every close was like that, or the pipe is hung up and its bytes
are still unread.
-/
theorem nothing_lost (opened : Opened) {actions : List Action} {final : State}
    (run : exec step (initial opened) actions = some final) :
    (Along step ClosesDrained (initial opened) actions ->
      Throughout step Good (initial opened) actions) ∧
    (Throughout step Good (initial opened) actions ->
      Along step ClosesDrained (initial opened) actions ∨ HungUp final) := by
  have kept : ∀ state action next, Drained state -> ClosesDrained state action ->
      step state action = some next -> Drained next :=
    fun _ _ _ drained closes taken => drained.step closes (step_move taken)
  have broken : ∀ state action next, Drained state -> ¬ ClosesDrained state action ->
      step state action = some next ->
      (next.stream.closed &&& 0x01 = 0 ∧ HungUp next) ∨ ¬ Good next :=
    fun _ _ _ drained violated taken =>
      have move := step_move taken
      Or.inl ⟨move.reader_open drained.here, hungUp_of_not_closesDrained violated move⟩
  have fated : ∀ state action next, (state.stream.closed &&& 0x01 = 0 ∧ HungUp state) ->
      Good state -> step state action = some next ->
      (next.stream.closed &&& 0x01 = 0 ∧ HungUp next) ∨ ¬ Good next :=
    fun _ _ _ doom _ taken =>
      have move := step_move taken
      (doom.2.step doom.1 move).imp_left fun hung_up => ⟨move.reader_open doom.1, hung_up⟩
  refine ⟨throughout_of_along Drained (fun _ => Drained.good) kept opened.drained, fun throughout => ?_⟩
  have along := along_or_doomed Drained (fun state => state.stream.closed &&& 0x01 = 0 ∧ HungUp state)
    kept broken fated opened.drained run throughout
  exact along.imp_right And.right

/-- `zs__stream_create_pipe`. -/
def createPipe : Opened where
  stream := { reader := { writers := 1, readers := 1 }, writer := none, closed := 0x00 }
  here := rfl
  connected := by decide

/-- The other process has the only write end; it writes two bytes, the reader takes them and it closes. -/
def handedOver : List Action :=
  [.openWriter, .closeOwnWriter, .write [7, newline], .call .line, .step, .step, .step, .step,
    .closeWriter, .call .isClosed, .step]

def closedTooEarly : List Action :=
  [.openWriter, .closeOwnWriter, .write [7, newline], .call .line, .step, .step,
    .closeWriter, .step, .call .isClosed, .step]

theorem nothing_lost_handedOver :
    (exec step (initial createPipe) handedOver).isSome ∧
      Throughout step Good (initial createPipe) handedOver := by
  have along : Along step ClosesDrained (initial createPipe) handedOver := by decide
  have ran : (exec step (initial createPipe) handedOver).isSome := by decide
  obtain ⟨final, run⟩ := Option.isSome_iff_exists.mp ran
  exact ⟨ran, (nothing_lost createPipe run).1 along⟩

theorem nothing_lost_fails_closedTooEarly :
    ∃ final, exec step (initial createPipe) closedTooEarly = some final ∧ final.pc = .stopped ∧
      final.written = [7, newline] ∧ final.received = [7] ∧ ¬ Good final := by
  refine ⟨_, rfl, rfl, rfl, rfl, fun good => ?_⟩
  have whole := good.2 rfl
  cases whole

end ZSystem.Stream
