import ZSystem.Stream.Handles

set_option autoImplicit false

/-!
# Connecting a child

`ZSProcess` makes a pipe for each stream that it is asked for, and `zs__process_execute` hands an end of
it to the child if both ends are still open.
-/

open Transition ZSystem.Stream.Handles
open ZSystem.Stream (Struct Origin Direction close_isShut none_shut_iff)

namespace ZSystem.Process

/-! ## `zs__process_execute` in the child -/

/-- The descriptors of a process; `φ` are the open files. -/
abbrev Table (φ : Type) := Int -> Option φ

section Child

variable {φ : Type}

/-- The loop that closes the descriptors below a limit. -/
def closeBut (kept : Int -> Bool) (table : Table φ) : Nat -> Table φ
  | 0 => table
  | fd + 1 =>
      let rest := closeBut kept table fd
      if kept fd then rest else Function.update rest (fd : Int) none

def dup2 (table : Table φ) (old new : Int) : Table φ :=
  match table old with
  | none => table
  | some file => Function.update table new (some file)

/-- A pipe of which both ends are open. -/
def usable (stream : Struct) : Bool := stream.streamType = .pipe ∧ stream.closed &&& 0x03 = 0

def keeps (reader writer : Option Struct) (fd : Int) : Bool :=
  (reader.any fun stream => usable stream && stream.writer == fd) ||
    (writer.any fun stream => usable stream && stream.reader == fd)

/-- The descriptors of the child when it calls `execv`; `limit` is what `sysconf(_SC_OPEN_MAX)` returns. -/
def childTable (limit : Nat) (reader writer : Option Struct) (table : Table φ) : Table φ :=
  let kept := closeBut (keeps reader writer) table limit
  let output :=
    match reader with
    | none => kept
    | some stream => if usable stream then dup2 kept stream.writer 1 else kept
  match writer with
  | none => output
  | some stream => if usable stream then dup2 output stream.reader 0 else output

theorem closeBut_eq (kept : Int -> Bool) (table : Table φ) (limit : Nat) (fd : Int) :
    closeBut kept table limit fd = if 0 ≤ fd ∧ fd < limit ∧ kept fd = false then none else table fd := by
  induction limit with
  | zero => rw [closeBut, if_neg (by omega)]
  | succ limit ih =>
      simp only [closeBut]
      by_cases last : fd = limit
      · subst last
        cases keep : kept limit with
        | true => simp [ih, keep]
        | false => simp
      · have same : (0 ≤ fd ∧ fd < ↑(limit + 1) ∧ kept fd = false) ↔
            (0 ≤ fd ∧ fd < ↑limit ∧ kept fd = false) := by
          refine and_congr_right fun _ => and_congr_left fun _ => ?_
          omega
        simp only [same, ← ih]
        split_ifs
        · rfl
        · exact Function.update_of_ne last ..

/-- The child of a pipe with two open ends writes into it. -/
theorem childTable_output (limit : Nat) {stream : Struct} (writer : Option Struct) {table : Table φ} {file : φ}
    (opened : usable stream = true) (valid : table stream.writer = some file) :
    childTable limit (some stream) writer table 1 = some file := by
  have kept : closeBut (keeps (some stream) writer) table limit stream.writer = some file := by
    rw [closeBut_eq, if_neg (by simp [keeps, opened]), valid]
  have output : dup2 (closeBut (keeps (some stream) writer) table limit) stream.writer 1 1 = some file := by
    simp [dup2, kept]
  have input (table : Table φ) (old : Int) : dup2 table old 0 1 = table 1 := by
    cases source : table old with
    | none => simp [dup2, source]
    | some file => simp [dup2, source]
  cases writer with
  | none => simpa [childTable, opened] using output
  | some other =>
      simp only [childTable, opened, if_true]
      split_ifs
      · rw [input, output]
      · exact output

/-- Without such a pipe no descriptor below the limit is left. -/
theorem childTable_none (limit : Nat) {reader writer : Option Struct} (table : Table φ)
    (noReader : ∀ stream, reader = some stream -> usable stream = false)
    (noWriter : ∀ stream, writer = some stream -> usable stream = false)
    {fd : Int} (inside : 0 ≤ fd ∧ fd < limit) : childTable limit reader writer table fd = none := by
  have nothing : keeps reader writer fd = false := by
    cases reader <;> cases writer <;> simp_all [keeps]
  have closed : closeBut (keeps reader writer) table limit fd = none := by
    rw [closeBut_eq, if_pos ⟨inside.1, inside.2, nothing⟩]
  cases reader <;> cases writer <;> simp_all [childTable]

end Child

/-! ## `ZSProcess` -/

/-- What `pipe` returns. -/
structure PipeEnds where
  reader : Int
  writer : Int
  opened : 0 ≤ reader ∧ 0 ≤ writer ∧ reader ≠ writer

def PipeEnds.origin (ends : PipeEnds) : Origin := .pipe ends.reader ends.writer ends.opened

/-- `stream_reader` and `stream_writer`, by the `ZSStream` that has been made of each. -/
structure ZSProcess where
  streamReader : Option Nat
  streamWriter : Option Nat

/--
`*aReader = ZSStream::Create(stream_reader).first`, and the same for `aWriter` and `second`. Where
`handle` is null nothing happens; `ends` is missing where `zs__stream_create_pipe` has failed.
-/
def connect (direction : Direction) (handle : Option Nat) (ends : Option PipeEnds) (state : State) :
    State × Option Nat :=
  match handle with
  | none => (state, none)
  | some handle =>
      let created := state.create (ends.map PipeEnds.origin) .returned .returned
      let assigned := created.assign direction (.user handle) .returned
      ((assigned.destroy .writer .returned).destroy .reader .returned, ends.map fun _ => state.next)

/-- The constructor. -/
def construct (aReader aWriter : Option Nat) (readerEnds writerEnds : Option PipeEnds) (state : State) :
    State × ZSProcess :=
  let (first, streamReader) := connect .reader aReader readerEnds state
  let (second, streamWriter) := connect .writer aWriter writerEnds first
  (second, { streamReader := streamReader, streamWriter := streamWriter })

def structOf (state : State) (stream : Option Nat) : Option Struct :=
  stream.bind fun id => (state.streams id).map ZSStream.struct

/-- `zs__process_execute` takes two equal streams as none. -/
def ZSProcess.child {φ : Type} (process : ZSProcess) (state : State) (limit : Nat) (table : Table φ) : Table φ :=
  if process.streamReader = process.streamWriter then childTable limit none none table
  else childTable limit (structOf state process.streamReader) (structOf state process.streamWriter) table

/-- The child's standard output, or its standard input, is the other end of the pipe. -/
structure Connected {φ : Type} (aReader aWriter : Option Nat) (process : ZSProcess) (state : State)
    (limit : Nat) (table : Table φ) : Prop where
  output : aReader.isSome -> ∃ struct, structOf state process.streamReader = some struct ∧
    struct.closed &&& 0x03 = 0 ∧ (table struct.writer).isSome ∧
    process.child state limit table 1 = table struct.writer
  input : aWriter.isSome -> ∃ struct, structOf state process.streamWriter = some struct ∧
    struct.closed &&& 0x03 = 0 ∧ (table struct.reader).isSome ∧
    process.child state limit table 0 = table struct.reader

/-! ## A closed end stays closed -/

/-- Every handle refers to a stream that has been made. -/
def Known (state : State) : Prop :=
  ∀ direction name id, (state.handles direction).target name = some id -> id < state.next

/-- The `zs__stream` of a `ZSStream` has closed an end. -/
def Sealed (state : State) (id : Nat) (direction : Direction) : Prop :=
  id < state.next ∧ ∃ stream, state.streams id = some stream ∧ stream.struct.isShut direction = true

section Sealed

variable {state : State} {direction : Direction} {name : Name} {target : Option Nat} {id : Nat}

theorem Known.construct (known : Known state) (made : ∀ id, target = some id -> id < state.next) :
    Known (state.construct direction name target) := fun other holder id refers => by
  rw [show (state.construct direction name target).next = state.next from next_update _]
  by_cases same : other = direction ∧ holder = name
  · obtain ⟨rfl, rfl⟩ := same
    exact made id (by simpa using refers)
  · refine known other holder id ?_
    by_cases this : other = direction
    · subst this
      have differ : holder ≠ name := fun equal => same ⟨rfl, equal⟩
      simpa [Holders.target_add_of_ne differ] using refers
    · simpa [this] using refers

theorem Known.destroy (known : Known state) : Known (state.destroy direction name) := by
  intro other holder id refers
  rw [show (state.destroy direction name).next = state.next from next_update _]
  refine known other holder id ?_
  by_cases this : other = direction
  · subst this
    simpa using refers
  · simpa [this] using refers

theorem Known.new (known : Known state) (struct : Struct) : Known (state.new struct) :=
  fun other holder id refers => Nat.lt_succ_of_lt (known other holder id refers)

theorem Sealed.update {change : ZSStream -> ZSStream} (closed : Sealed state id direction)
    (kept : ∀ stream : ZSStream, stream.struct.isShut direction = true ->
      (change stream).struct.isShut direction = true) : Sealed (state.update target change) id direction := by
  obtain ⟨made, stream, here, shut⟩ := closed
  refine ⟨(next_update change).symm ▸ made, ?_⟩
  rw [streams_update, here]
  split_ifs
  · exact ⟨_, rfl, kept stream shut⟩
  · exact ⟨_, rfl, shut⟩

theorem unregister_shuts (stream : ZSStream) (other : Direction) (shut : stream.struct.isShut direction = true) :
    (stream.unregister other).1.struct.isShut direction = true := by
  simp only [ZSStream.unregister]
  split_ifs
  · exact close_isShut.mpr (Or.inr shut)
  · exact shut

theorem unregisterOrDelete_shuts (stream : ZSStream) (other : Direction)
    (shut : stream.struct.isShut direction = true) :
    (unregisterOrDelete other stream).struct.isShut direction = true := by
  have left := unregister_shuts stream other shut
  simp only [unregisterOrDelete]
  split_ifs
  · simp only [ZSStream.delete, Struct.closeAll]
    exact close_isShut.mpr (Or.inr (close_isShut.mpr (Or.inr left)))
  · exact left

/-- What happens to the handles afterwards: no closed end is opened again. -/
structure Onward (state next : State) : Prop where
  known : Known next
  later : state.next ≤ next.next
  closed : ∀ id direction, Sealed state id direction -> Sealed next id direction

theorem Onward.refl (known : Known state) : Onward state state := ⟨known, le_rfl, fun _ _ => id⟩

theorem Onward.trans {middle next : State} (first : Onward state middle) (second : Onward middle next) :
    Onward state next :=
  ⟨second.known, first.later.trans second.later, fun id direction closed =>
    second.closed id direction (first.closed id direction closed)⟩

theorem Known.onward_construct (known : Known state) (direction : Direction) (name : Name)
    (made : ∀ id, target = some id -> id < state.next) :
    Onward state (state.construct direction name target) :=
  ⟨known.construct made, (next_update _).ge, fun _ _ closed => closed.update fun _ shut => shut⟩

theorem Known.onward_copy (known : Known state) (direction : Direction) (name source : Name) :
    Onward state (state.copy direction name source) :=
  known.onward_construct direction name (known direction source)

theorem Known.onward_destroy (known : Known state) (direction : Direction) (name : Name) :
    Onward state (state.destroy direction name) :=
  ⟨known.destroy, (next_update _).ge, fun _ _ closed => closed.update fun stream shut =>
    unregisterOrDelete_shuts stream direction shut⟩

theorem Known.onward_assign (known : Known state) (direction : Direction) (name source : Name) :
    Onward state (state.assign direction name source) := by
  simp only [State.assign]
  split_ifs
  · exact .refl known
  · have left := known.onward_destroy direction name
    exact left.trans (left.known.onward_construct direction name fun id refers =>
      (known direction source id refers).trans_le left.later)

theorem Known.onward_new (known : Known state) (struct : Struct) : Onward state (state.new struct) := by
  refine ⟨known.new struct, Nat.le_succ _, fun id direction ⟨made, stream, here, shut⟩ => ?_⟩
  exact ⟨Nat.lt_succ_of_lt made, stream, by simp [State.new, made.ne, here], shut⟩

theorem Known.onward_makePair (known : Known state) {reader writer : Name}
    (made : ∀ id, target = some id -> id < state.next) : Onward state (state.makePair target reader writer) := by
  have one := known.onward_construct .reader .temporary made
  have two := one.trans (one.known.onward_construct .writer .temporary fun id joined =>
    (made id joined).trans_le one.later)
  have three := two.trans (two.known.onward_copy .reader reader .temporary)
  have four := three.trans (three.known.onward_copy .writer writer .temporary)
  have five := four.trans (four.known.onward_destroy .writer .temporary)
  exact five.trans (five.known.onward_destroy ..)

theorem Known.onward_create (known : Known state) (origin : Option Origin) (reader writer : Name) :
    Onward state (state.create origin reader writer) := by
  cases origin with
  | none => exact known.onward_makePair fun _ none => by cases none
  | some origin =>
      have new := known.onward_new origin.stream
      exact new.trans (new.known.onward_makePair fun id made => Option.some.inj made ▸ Nat.lt_succ_self _)

theorem Known.onward_step (known : Known state) (op : Op) (next : State) (taken : step state op = some next) :
    Onward state next := by
  cases op with
  | create origin reader writer =>
      simp only [step] at taken
      split_ifs at taken
      exact Option.some.inj taken ▸ known.onward_create ..
  | default direction name =>
      simp only [step] at taken
      split_ifs at taken
      exact Option.some.inj taken ▸ known.onward_construct direction _ fun _ none => by cases none
  | copy direction name source =>
      simp only [step] at taken
      split_ifs at taken
      exact Option.some.inj taken ▸ known.onward_copy ..
  | assign direction name source =>
      simp only [step] at taken
      split_ifs at taken
      exact Option.some.inj taken ▸ known.onward_assign ..
  | destroy direction name =>
      simp only [step] at taken
      split_ifs at taken
      exact Option.some.inj taken ▸ known.onward_destroy ..

theorem Known.onward_reach {final : State} (known : Known state) (reached : Reachable step state final) :
    Onward state final :=
  reached.invariant (Onward state) (.refl known) fun _ op next before _ taken =>
    before.trans (before.known.onward_step op next taken)

theorem Known.start : Known .start := fun _ _ _ refers => by cases refers

end Sealed

/-! ## The other end is closed -/

/-- A `ZSStream` with one reader and one writer. -/
def paired (struct : Struct) : ZSStream :=
  { struct := struct, count := fun _ => 1, had := fun _ => true, closes := [], deletions := 0 }

theorem paired_eq (struct : Struct) : unregisterOrDelete .reader (unregisterOrDelete .writer (ZSStream.register .writer
    (ZSStream.register .reader (ZSStream.register .writer (ZSStream.register .reader (.new struct)))))) =
    paired struct := by
  simp only [unregisterOrDelete, ZSStream.unregister, ZSStream.register, ZSStream.new, Function.update_self]
  simp [paired]
  exact ⟨funext fun direction => by cases direction <;> rfl, funext fun direction => by cases direction <;> rfl⟩

/-- The handle that is assigned to counts once more, and then the pair is gone. -/
theorem paired_shut (struct : Struct) (direction : Direction) :
    (unregisterOrDelete .reader (unregisterOrDelete .writer
      (ZSStream.register direction (paired struct)))).struct.isShut direction.other = true := by
  cases direction with
  | reader =>
      simp [unregisterOrDelete, ZSStream.unregister, ZSStream.register, paired]
      exact close_isShut.mpr (Or.inl rfl)
  | writer =>
      simp [unregisterOrDelete, ZSStream.unregister, ZSStream.register, paired]
      exact close_isShut.mpr (Or.inl rfl)

theorem create_returned (state : State) (origin : Option Origin) :
    (∀ made, origin = some made ->
      (state.create origin .returned .returned).streams state.next = some (paired made.stream)) ∧
    (∀ direction, ((state.create origin .returned .returned).handles direction).target .returned =
      origin.map fun _ => state.next) ∧
    ∀ direction number, ((state.create origin .returned .returned).handles direction).target (.user number) =
      (state.handles direction).target (.user number) := by
  refine ⟨fun made equal => ?_, fun direction => ?_, fun direction number => ?_⟩
  · subst equal
    simp [State.create, State.makePair, State.copy, streams_destroy, streams_construct, State.new,
      Holders.target_add_of_ne, paired_eq]
  · cases origin <;> cases direction <;> simp [State.create, State.makePair, State.copy]
  · cases origin <;> cases direction <;>
      simp [State.create, State.makePair, State.copy, Holders.target_add_of_ne, State.new]

theorem Known.connect {state : State} (known : Known state) (direction : Direction) (handle : Option Nat)
    (ends : Option PipeEnds) : Onward state (connect direction handle ends state).1 ∧
      ∀ id, (connect direction handle ends state).2 = some id ->
        Sealed (connect direction handle ends state).1 id direction.other := by
  cases handle with
  | none => exact ⟨.refl known, fun id none => by cases none⟩
  | some handle =>
      let created := state.create (ends.map PipeEnds.origin) .returned .returned
      let assigned := created.assign direction (.user handle) .returned
      let alone := assigned.destroy .writer .returned
      have one : Onward state created := known.onward_create ..
      have two : Onward state assigned := one.trans (one.known.onward_assign ..)
      have three : Onward state alone := two.trans (two.known.onward_destroy ..)
      have four : Onward state (alone.destroy .reader .returned) := three.trans (three.known.onward_destroy ..)
      refine ⟨four, fun id made => ?_⟩
      obtain ⟨ends, rfl, rfl⟩ := Option.map_eq_some_iff.mp made
      obtain ⟨streams, pair, kept⟩ := create_returned state (some ends.origin)
      have returned (other : Direction) : (created.handles other).target .returned = some state.next := pair other
      have here : created.streams state.next = some (paired ends.origin.stream) := streams _ rfl
      have fresh : (created.handles direction).target (.user handle) ≠ some state.next := fun refers =>
        (known direction _ _ ((kept direction handle).symm.trans refers)).ne rfl
      have joins : assigned = (created.destroy direction (.user handle)).construct direction (.user handle)
          (some state.next) := by
        simp only [assigned, State.assign]
        rw [if_neg fun same => fresh (same.symm.trans (returned direction)),
          show (created.handles direction).target .returned = some state.next from returned direction]
      have joined : assigned.streams state.next =
          some ((paired ends.origin.stream).register direction) := by
        rw [joins, streams_construct, if_pos rfl, streams_destroy, if_neg fresh, here, Option.map_some]
      have still (other : Direction) : (assigned.handles other).target .returned = some state.next := by
        rw [joins]
        by_cases same : other = direction
        · subst same
          simpa [Holders.target_add_of_ne] using returned other
        · simpa [same] using returned other
      have both : (alone.handles .reader).target .returned = some state.next := by simpa [alone] using still .reader
      refine ⟨four.known .reader .returned _ (by simpa using both), _, ?_, paired_shut ends.origin.stream direction⟩
      change (alone.destroy .reader .returned).streams state.next = _
      rw [streams_destroy, if_pos both, streams_destroy, if_pos (still .writer), joined]
      rfl

/-- The stream, if there is one, is a pipe with a closed end. -/
def Closed (state : State) (stream : Option Nat) : Prop :=
  ∀ struct, structOf state stream = some struct -> struct.closed &&& 0x03 ≠ 0

theorem closed_of_sealed {state : State} {stream : Option Nat} {direction : Direction}
    (closed : ∀ id, stream = some id -> Sealed state id direction) : Closed state stream := by
  rintro struct found none
  obtain ⟨id, rfl, inside⟩ := Option.bind_eq_some_iff.mp found
  obtain ⟨-, zsStream, here, shut⟩ := closed id rfl
  rw [here, Option.map_some, Option.some.injEq] at inside
  subst inside
  simp [none_shut_iff.mp none direction] at shut

theorem Closed.unusable {state : State} {stream : Option Nat} (closed : Closed state stream) (struct : Struct)
    (found : structOf state stream = some struct) : usable struct = false := by
  simp [usable, closed struct found]

/-- An end of each pipe is closed, and stays closed whatever the caller does with its handles. -/
theorem construct_closed {state later : State} (reached : Reachable step .start state)
    (aReader aWriter : Option Nat) (readerEnds writerEnds : Option PipeEnds)
    (used : Reachable step (construct aReader aWriter readerEnds writerEnds state).1 later) :
    Closed later (construct aReader aWriter readerEnds writerEnds state).2.streamReader ∧
      Closed later (construct aReader aWriter readerEnds writerEnds state).2.streamWriter := by
  obtain ⟨first, closedReader⟩ := (Known.start.onward_reach reached).known.connect .reader aReader readerEnds
  obtain ⟨second, closedWriter⟩ := first.known.connect .writer aWriter writerEnds
  have third := second.known.onward_reach used
  exact ⟨closed_of_sealed fun id made => third.closed id _ (second.closed id _ (closedReader id made)),
    closed_of_sealed fun id made => third.closed id _ (closedWriter id made)⟩

/--
However the caller uses its handles before the thread runs, the child is not connected: all its
descriptors below the limit are closed.
-/
theorem child_not_connected {φ : Type} (state : State) (reached : Reachable step .start state)
    (aReader aWriter : Option Nat) (asked : aReader.isSome ∨ aWriter.isSome)
    (readerEnds writerEnds : Option PipeEnds) (later : State)
    (used : Reachable step (construct aReader aWriter readerEnds writerEnds state).1 later)
    (limit : Nat) (table : Table φ) :
    ¬ Connected aReader aWriter (construct aReader aWriter readerEnds writerEnds state).2 later limit table ∧
      ∀ fd : Int, 0 ≤ fd ∧ fd < limit ->
        (construct aReader aWriter readerEnds writerEnds state).2.child later limit table fd = none := by
  obtain ⟨readerClosed, writerClosed⟩ := construct_closed reached aReader aWriter readerEnds writerEnds used
  refine ⟨fun connected => ?_, fun fd inside => ?_⟩
  · rcases asked with reader | writer
    · obtain ⟨struct, found, none, -⟩ := connected.output reader
      exact readerClosed struct found none
    · obtain ⟨struct, found, none, -⟩ := connected.input writer
      exact writerClosed struct found none
  · unfold ZSProcess.child
    split_ifs
    · exact childTable_none limit table (fun _ found => by cases found) (fun _ found => by cases found) inside
    · exact childTable_none limit table readerClosed.unusable writerClosed.unusable inside

/-- The program has a `ZSReader` that refers to nothing. -/
def oneReader : State := State.start.construct .reader (.user 0) none

theorem oneReader_reachable : Reachable step .start oneReader :=
  .tail .refl trivial (show step .start (.default .reader 0) = some oneReader from rfl)

def endsThreeFour : PipeEnds := { reader := 3, writer := 4, opened := by decide }

/-- `ls` with a reader for its output: the pipe has the descriptors 3 and 4, and all of 0 to 4 are open. -/
theorem child_not_connected_ls :
    ¬ Connected (some 0) none (construct (some 0) none (some endsThreeFour) none oneReader).2
        (construct (some 0) none (some endsThreeFour) none oneReader).1 1024 (fun _ => some ()) ∧
      ∀ fd : Int, 0 ≤ fd ∧ fd < 1024 ->
        (construct (some 0) none (some endsThreeFour) none oneReader).2.child
          (construct (some 0) none (some endsThreeFour) none oneReader).1 1024 (fun _ => some ()) fd = none :=
  child_not_connected oneReader oneReader_reachable (some 0) none (Or.inl rfl) (some endsThreeFour) none _ .refl
    1024 _

theorem output_not_connected :
    ¬ ∀ (state : State), Reachable step .start state -> ∀ (aReader aWriter : Option Nat)
      (readerEnds writerEnds : Option PipeEnds) (later : State),
      Reachable step (construct aReader aWriter readerEnds writerEnds state).1 later ->
      ∀ (limit : Nat) (table : Table Unit),
        Connected aReader aWriter (construct aReader aWriter readerEnds writerEnds state).2 later limit table := by
  intro connected
  obtain ⟨struct, found, bits, -⟩ :=
    (connected oneReader oneReader_reachable (some 0) none (some endsThreeFour) none _ .refl 1024
      fun _ => some ()).output rfl
  exact (construct_closed oneReader_reachable (some 0) none (some endsThreeFour) none .refl).1 struct found bits

end ZSystem.Process
