import ZSystem.Process.Execute

set_option autoImplicit false

/-!
# The streams of a `ZSProcess`

`ZSProcess` keeps two pointers to `zs__stream`, and the handles that its caller has got decide when these
streams are destroyed. Here `zs__process_execute` runs while the caller uses its handles.
-/

namespace ZSystem.Process.Outlive

open Transition
open ZSystem.Process.Execute (Args PC Proc)
open ZSystem.Stream (Struct Direction)
open ZSystem.Stream.Handles (Op Lasts destroyed_iff)

/-! ## What `zs__process_execute` reads -/

section Uses

variable {φ : Type} {args : Args} {proc after : Proc φ} {pick : Int} {events : List Execute.Event} {id : Nat}

def pointers (proc : Proc φ) : List Nat :=
  proc.reader.toList ++ proc.writer.toList

/-- The streams that the next step dereferences. -/
def uses (args : Args) (proc : Proc φ) : List Nat :=
  match proc.pc with
  | .closeFd fd =>
      if fd < args.fdLimit then
        -- A descriptor of `a_reader` is kept without a look at `a_writer`.
        if (proc.record proc.reader).any fun stream => usable stream && stream.writer == fd then
          proc.reader.toList
        else pointers proc
      else []
  | .dupOutput | .closeWriter _ => proc.reader.toList
  | .dupInput | .closeReader _ => proc.writer.toList
  | _ => []

def pending (proc : Proc φ) : List Nat :=
  match proc.pc with
  | .storePid _ | .closeWriter _ => pointers proc
  | .closeReader _ => proc.writer.toList
  | _ => []

theorem mem_pointers : id ∈ pointers proc ↔ proc.reader = some id ∨ proc.writer = some id := by
  simp [pointers, Option.mem_toList]

theorem uses_pointers (used : id ∈ uses args proc) : id ∈ pointers proc := by
  have reader (member : id ∈ proc.reader.toList) : id ∈ pointers proc := List.mem_append_left _ member
  have writer (member : id ∈ proc.writer.toList) : id ∈ pointers proc := List.mem_append_right _ member
  unfold uses at used
  split at used
  · split_ifs at used
    · exact reader used
    · exact used
    · cases used
  · exact reader used
  · exact reader used
  · exact writer used
  · exact writer used
  · cases used

theorem uses_pending (used : id ∈ uses args proc) (place : proc.pc.inChild = false) : id ∈ pending proc := by
  have member := uses_pointers used
  cases here : proc.pc <;> simp_all [uses, pending, PC.inChild, mem_pointers]

theorem next_pointers_subset (taken : proc.next args pick = some (after, events))
    (member : id ∈ pointers after) : id ∈ pointers proc := by
  by_cases first : proc.pc = .compare
  · simp only [Proc.next, first, Option.some.injEq, Prod.mk.injEq] at taken
    obtain ⟨rfl, -⟩ := taken
    rw [mem_pointers] at member
    simp only at member
    split_ifs at member
    · simp at member
    · exact mem_pointers.mpr member
  · obtain ⟨-, reader, writer⟩ := Execute.next_pointers taken first
    rwa [mem_pointers, reader, writer, ← mem_pointers] at member

theorem next_pending (taken : proc.next args pick = some (after, events)) :
    (∀ id ∈ pending after, id ∈ pending proc) ∧ ∀ id ∈ pending proc, id ∈ pending after ∨ id ∈ uses args proc := by
  have closes := Execute.closeEnd_kept proc
  cases here : proc.pc with
  | storePid pid | closeWriter pid | closeReader pid =>
      simp only [Proc.next, here, Option.some.injEq, Prod.mk.injEq] at taken
      obtain ⟨rfl, -⟩ := taken
      simp only [pending, uses, pointers, here, closes, List.mem_append]
      tauto
  | closeFd fd =>
      simp only [Proc.next, here] at taken
      split at taken <;> cases taken <;> simp [pending, here]
  | execv =>
      simp only [Proc.next, here, Option.some.injEq, Prod.mk.injEq] at taken
      obtain ⟨rfl, -⟩ := taken
      simp only [pending, here]
      split_ifs <;> simp
  | fork | replaced | returned result => simp [Proc.next, here] at taken
  | compare | dupOutput | dupInput | signals | started pid | waitpid pid | storeNone | startedNone
  | giveBack result =>
      simp only [Proc.next, here, Option.some.injEq, Prod.mk.injEq] at taken
      obtain ⟨rfl, -⟩ := taken
      simp [pending, here]

end Uses

/-! ## With the caller's handles -/

structure State (φ : Type) where
  handles : Stream.Handles.State
  execute : Execute.State φ
  -- What had been destroyed when the child got its copy of the memory.
  inherited : Nat -> Bool
  -- A destroyed stream has been read, or called through.
  misused : Bool

inductive Act (φ : Type) where
  -- A thread of the program uses its handles.
  | handle (op : Op)
  | caller (pick : Int)
  | child (pick : Int)
  -- Descriptors of the program are opened and closed.
  | others (table : Table φ)

section Code

variable {φ : Type}

/-- The records of the streams are those that the handles work on. -/
def State.loaded (state : State φ) : Execute.State φ :=
  { state.execute with caller := { state.execute.caller with
      memory := fun id => ((state.handles.streams id).map Stream.Handles.ZSStream.struct).getD
        (state.execute.caller.memory id) } }

def stored (memory : Nat -> Struct) (handles : Stream.Handles.State) : Stream.Handles.State :=
  { handles with streams := fun id => (handles.streams id).map fun stream => { stream with struct := memory id } }

def step (args : Args) (state : State φ) : Act φ -> Option (State φ)
  | .handle op => (Stream.Handles.step state.handles op).map fun handles => { state with handles := handles }
  | .caller pick => (Execute.step args state.loaded (.caller pick)).map fun execute =>
      { handles := stored execute.caller.memory state.handles
        execute := execute
        inherited :=
          if state.execute.caller.pc = .fork ∧ 0 < pick then state.handles.destroyed else state.inherited
        misused := state.misused || (uses args state.loaded.caller).any state.handles.destroyed }
  | .child pick => (Execute.step args state.execute (.child pick)).map fun execute =>
      { state with
        execute := execute
        misused := state.misused || state.execute.child.any fun child => (uses args child).any state.inherited }
  | .others table => some { state with execute := { state.execute with
      caller := { state.execute.caller with table := table } } }

/-- What `InternRun` passes on; a stream is its own address. -/
def internRun (process : ZSProcess) (fdLimit : Nat) : Args :=
  { reader := process.streamReader, writer := process.streamWriter, processHandle := true, onStarted := true,
    fdLimit := fdLimit }

def State.start (args : Args) (handles : Stream.Handles.State) (memory : Nat -> Struct) (table : Table φ) :
    State φ where
  handles := handles
  execute := .start args memory table
  inherited _ := false
  misused := false

/--
`fork` succeeds only while the streams that the process still points to exist, and nobody destroys one of
them before the caller of `fork` has closed its end.
-/
def Outlives (state : State φ) : Act φ -> Prop
  | .caller pick => state.execute.caller.pc = .fork -> 0 < pick ->
      ∀ id ∈ pointers state.execute.caller, state.handles.destroyed id = false
  | .handle op => ∀ handles, Stream.Handles.step state.handles op = some handles ->
      ∀ id ∈ pending state.execute.caller, handles.destroyed id = false
  | _ => True

end Code

section Runs

variable {φ : Type} {args : Args} {state next : State φ} {action : Act φ}

structure Sound (state : State φ) : Prop where
  bounded : state.handles.Bounded
  place : state.execute.caller.pc.inChild = false
  pending : ∀ id ∈ pending state.execute.caller, state.handles.destroyed id = false
  child : ∀ child, state.execute.child = some child -> ∀ id ∈ pointers child, state.inherited id = false
  used : state.misused = false

theorem destroyed_stored (memory : Nat -> Struct) (handles : Stream.Handles.State) :
    (stored memory handles).destroyed = handles.destroyed := by
  funext id
  simp only [Stream.Handles.State.destroyed, stored]
  cases handles.streams id <;> rfl

theorem bounded_stored {handles : Stream.Handles.State} (bounded : handles.Bounded) (memory : Nat -> Struct) :
    (stored memory handles).Bounded := fun id beyond => by simp [stored, bounded id beyond]

theorem unused {proc : Proc φ} {gone : Nat -> Bool} (alive : ∀ id ∈ uses args proc, gone id = false) :
    (uses args proc).any gone = false := by
  simpa using alive

theorem caller_cases {pick : Int} (taken : step args state (.caller pick) = some next) :
    (state.execute.caller.pc = .fork ∧ next.execute.caller.pc = .storeNone ∧
      next.execute.child = state.execute.child ∧ next.inherited = state.inherited ∧ pick = -1) ∨
    (state.execute.caller.pc = .fork ∧ 0 < pick ∧ next.execute.caller.pc = .storePid pick ∧
      pointers next.execute.caller = pointers state.execute.caller ∧
      (∃ child, next.execute.child = some child ∧ pointers child = pointers state.execute.caller) ∧
      next.inherited = state.handles.destroyed) ∨
    (∃ proc events, state.loaded.caller.next args pick = some (proc, events) ∧ next.execute.caller = proc ∧
      next.execute.child = state.execute.child ∧ next.inherited = state.inherited) := by
  obtain ⟨execute, moved, rfl⟩ := Option.map_eq_some_iff.mp taken
  obtain ⟨other, same, forks, made⟩ | ⟨other, proc, events, same, moves, rfl⟩ | ⟨_, _, _, _, acts, -⟩ |
    ⟨_, _, acts, -⟩ := Execute.step_cases moved
  · cases same
    have here : state.execute.caller.pc = .fork := forks
    obtain ⟨failed, rfl⟩ | ⟨forked, rfl⟩ := Execute.fork_cases made
    · exact Or.inl ⟨here, rfl, rfl, by simp [failed], failed⟩
    · exact Or.inr (Or.inl ⟨here, forked, rfl, rfl, ⟨_, rfl, rfl⟩, by simp [here, forked]⟩)
  · cases same
    have past : state.execute.caller.pc ≠ .fork := fun forks => by
      have here : state.loaded.caller.pc = .fork := forks
      simp [Proc.next, here] at moves
    exact Or.inr (Or.inr ⟨proc, events, moves, rfl, rfl, by simp [past]⟩)
  · cases acts
  · cases acts

theorem caller_effect {pick : Int} (taken : step args state (.caller pick) = some next) :
    (∃ memory, next.handles = stored memory state.handles) ∧
      next.misused = (state.misused || (uses args state.loaded.caller).any state.handles.destroyed) := by
  obtain ⟨execute, -, rfl⟩ := Option.map_eq_some_iff.mp taken
  exact ⟨⟨_, rfl⟩, rfl⟩

theorem child_cases {pick : Int} (taken : step args state (.child pick) = some next) :
    ∃ child proc events, state.execute.child = some child ∧ child.next args pick = some (proc, events) ∧
      next = { state with
        execute := { state.execute with child := some proc, childLog := state.execute.childLog ++ events }
        misused := state.misused || (uses args child).any state.inherited } := by
  obtain ⟨execute, moved, rfl⟩ := Option.map_eq_some_iff.mp taken
  obtain ⟨_, acts, -⟩ | ⟨_, _, _, acts, -⟩ | ⟨other, child, proc, events, same, there, moves, rfl⟩ |
    ⟨_, _, acts, -⟩ := Execute.step_cases moved
  · cases acts
  · cases acts
  · cases same
    exact ⟨child, proc, events, there, moves, by simp [there]⟩
  · cases acts

theorem Sound.caller {pick : Int} (sound : Sound state) (outlives : Outlives state (.caller pick))
    (taken : step args state (.caller pick) = some next) : Sound next := by
  obtain ⟨bounded, place, alive, child, used⟩ := sound
  obtain ⟨⟨memory, handles⟩, misused⟩ := caller_effect taken
  have same (id : Nat) : next.handles.destroyed id = state.handles.destroyed id := by
    rw [handles, destroyed_stored]
  have bounded : next.handles.Bounded := handles ▸ bounded_stored bounded memory
  have clean : next.misused = false := by
    have none : (uses args state.loaded.caller).any state.handles.destroyed = false :=
      unused fun id member =>
        alive id (show id ∈ Outlive.pending state.loaded.caller from uses_pending member place)
    rw [misused, used, none]
    rfl
  obtain ⟨-, pc, children, inherited, -⟩ | ⟨forks, forked, pc, kept, ⟨made, there, copied⟩, inherited⟩ |
    ⟨proc, events, moves, rfl, children, inherited⟩ := caller_cases taken
  · refine ⟨bounded, by simp [pc, PC.inChild], fun id member => ?_, ?_, clean⟩
    · simp [Outlive.pending, pc] at member
    · rw [children, inherited]
      exact child
  · have exist := outlives forks forked
    refine ⟨bounded, by simp [pc, PC.inChild], fun id member => ?_, fun other this id member => ?_, clean⟩
    · rw [same]
      exact exist id (by simpa [Outlive.pending, pc, kept] using member)
    · rw [there, Option.some.injEq] at this
      subst this
      rw [inherited]
      exact exist id (copied ▸ member)
  · refine ⟨bounded, (Execute.next_caller moves place).1, fun id member => ?_, ?_, clean⟩
    · rw [same]
      exact alive id ((next_pending moves).1 id member)
    · rw [children, inherited]
      exact child

theorem Sound.keeps (sound : Sound state) (outlives : Outlives state action)
    (taken : step args state action = some next) : Sound next := by
  cases action with
  | handle op =>
      obtain ⟨handles, moved, rfl⟩ := Option.map_eq_some_iff.mp taken
      exact ⟨(sound.bounded.step op moved).bounded, sound.place, outlives handles moved, sound.child, sound.used⟩
  | caller pick => exact sound.caller outlives taken
  | child pick =>
      obtain ⟨child, proc, events, there, moves, rfl⟩ := child_cases taken
      have alive := sound.child child there
      refine ⟨sound.bounded, sound.place, sound.pending, fun other this id member => ?_, ?_⟩
      · cases this
        exact alive id (next_pointers_subset moves member)
      · simp [sound.used, unused fun id member => alive id (uses_pointers member)]
  | others table =>
      cases taken
      exact ⟨sound.bounded, sound.place, sound.pending, sound.child, sound.used⟩

/-- A stream that the caller has still to use is destroyed. -/
structure Doomed (state : State φ) : Prop where
  bounded : state.handles.Bounded
  gone : ∃ id ∈ pending state.execute.caller, state.handles.destroyed id = true

theorem Doomed.keeps (doomed : Doomed state) (taken : step args state action = some next) :
    Doomed next ∨ ¬ next.misused = false := by
  obtain ⟨bounded, id, member, gone⟩ := doomed
  cases action with
  | handle op =>
      obtain ⟨handles, moved, rfl⟩ := Option.map_eq_some_iff.mp taken
      have lasts := bounded.step op moved
      exact Or.inl ⟨lasts.bounded, id, member, lasts.destroyed id gone⟩
  | caller pick =>
      obtain ⟨⟨memory, handles⟩, misused⟩ := caller_effect taken
      have bounded : next.handles.Bounded := handles ▸ bounded_stored bounded memory
      have still : next.handles.destroyed id = true := by rw [handles, destroyed_stored, gone]
      obtain ⟨forks, -⟩ | ⟨forks, -⟩ | ⟨proc, events, moves, rfl, -⟩ := caller_cases taken
      · simp [pending, forks] at member
      · simp [pending, forks] at member
      · rcases (next_pending moves).2 id member with later | used
        · exact Or.inl ⟨bounded, id, later, still⟩
        · refine Or.inr fun clean => ?_
          have found : (uses args state.loaded.caller).any state.handles.destroyed = true :=
            List.any_eq_true.mpr ⟨id, used, gone⟩
          simp [misused, found] at clean
  | child pick =>
      obtain ⟨child, proc, events, -, -, rfl⟩ := child_cases taken
      exact Or.inl ⟨bounded, id, member, gone⟩
  | others table =>
      cases taken
      exact Or.inl ⟨bounded, id, member, gone⟩

end Runs

/-! ## From the constructor on -/

section Construct

open ZSystem.Stream.Handles (bounded_start)

variable {φ : Type} {before : Stream.Handles.State}

theorem bounded_connect (bounded : before.Bounded) (direction : Direction) (handle : Option Nat)
    (ends : Option PipeEnds) : (connect direction handle ends before).1.Bounded := by
  cases handle with
  | none => exact bounded
  | some handle =>
      have one := (bounded.create (ends.map PipeEnds.origin) .returned .returned).bounded
      have two := (one.assign direction (.user handle) .returned).bounded
      have three := (two.destroy .writer .returned).bounded
      exact (three.destroy .reader .returned).bounded

theorem bounded_construct (bounded : before.Bounded) (aReader aWriter : Option Nat)
    (readerEnds writerEnds : Option PipeEnds) :
    (construct aReader aWriter readerEnds writerEnds before).1.Bounded :=
  bounded_connect (bounded_connect bounded .reader aReader readerEnds) .writer aWriter writerEnds

/-- A `ZSProcess` that has just been constructed, at any point of a program that uses handles. -/
structure Setting (φ : Type) where
  before : Stream.Handles.State
  reached : Reachable Stream.Handles.step .start before
  aReader : Option Nat
  aWriter : Option Nat
  readerEnds : Option PipeEnds
  writerEnds : Option PipeEnds
  fdLimit : Nat
  memory : Nat -> Struct
  table : Table φ

def Setting.process (setting : Setting φ) : Stream.Handles.State × ZSProcess :=
  construct setting.aReader setting.aWriter setting.readerEnds setting.writerEnds setting.before

def Setting.args (setting : Setting φ) : Args :=
  internRun setting.process.2 setting.fdLimit

def Setting.start (setting : Setting φ) : State φ :=
  .start setting.args setting.process.1 setting.memory setting.table

theorem Setting.sound (setting : Setting φ) : Sound setting.start where
  bounded := bounded_construct (bounded_start.reach setting.reached).bounded setting.aReader setting.aWriter
    setting.readerEnds setting.writerEnds
  place := rfl
  pending _ member := by cases member
  child _ there := by cases there
  used := rfl

end Construct

end ZSystem.Process.Outlive
