import ZSystem.Process.Connect

set_option autoImplicit false

/-!
# `zs__process_execute`

After the fork the caller and the child run the same function. Each of them has its own memory, its own
descriptors and its own copies of the local variables.
-/

namespace ZSystem.Process.Execute

open Transition
open ZSystem.Stream (Struct Direction)

inductive PC where
  | compare
  | fork
  -- The child.
  | closeFd (fd : Nat)
  | dupOutput
  | dupInput
  | signals
  | execv
  | replaced
  -- The caller of a fork that has succeeded.
  | storePid (pid : Int)
  | closeWriter (pid : Int)
  | closeReader (pid : Int)
  | started (pid : Int)
  | waitpid (pid : Int)
  -- Behind both branches.
  | storeNone
  | startedNone
  | giveBack (result : Int)
  | returned (result : Int)
  deriving DecidableEq, Repr

/-- What the callers of `zs__process_execute` get to see. -/
inductive Event where
  -- `*a_process_handle` is written.
  | stored (handle : Int)
  -- `a_on_started` is called.
  | started
  | returned (result : Int)
  deriving DecidableEq, Repr

structure Args where
  -- `a_reader` and `a_writer`, by the address of the stream.
  reader : Option Nat
  writer : Option Nat
  -- `a_process_handle` and `a_on_started` are not null.
  processHandle : Bool
  onStarted : Bool
  -- What `sysconf(_SC_OPEN_MAX)` returns.
  fdLimit : Nat
  deriving DecidableEq, Repr

structure Proc (φ : Type) where
  pc : PC
  reader : Option Nat
  writer : Option Nat
  memory : Nat -> Struct
  table : Table φ

section Code

variable {φ : Type}

def Proc.record (proc : Proc φ) (stream : Option Nat) : Option Struct :=
  stream.map proc.memory

/-- `a_reader->close_writer(a_reader)` and its counterpart, where the stream is a pipe. -/
def Proc.closeEnd (proc : Proc φ) (stream : Option Nat) (direction : Direction) : Proc φ :=
  match stream with
  | none => proc
  | some address =>
      if (proc.memory address).streamType = .pipe then
        let (record, closed) := (proc.memory address).close direction
        { proc with
          memory := Function.update proc.memory address record
          table := closed.foldl (fun table fd => Function.update table fd none) proc.table }
      else proc

/--
A step of either process, other than `fork`, with the events of the step. A number 0 from the environment
lets `execv` succeed, and any number is the exit code that `waitpid` leaves.
-/
def Proc.next (args : Args) (pick : Int) (proc : Proc φ) : Option (Proc φ × List Event) :=
  match proc.pc with
  | .compare => some
      ({ proc with
        pc := .fork
        reader := if proc.reader = proc.writer then none else proc.reader
        writer := if proc.reader = proc.writer then none else proc.writer }, [])
  | .fork => none
  | .closeFd fd =>
      if fd < args.fdLimit then
        let table :=
          if keeps (proc.record proc.reader) (proc.record proc.writer) fd then proc.table
          else Function.update proc.table fd none
        some ({ proc with pc := .closeFd (fd + 1), table := table }, [])
      else some ({ proc with pc := .dupOutput }, [])
  | .dupOutput =>
      let table :=
        match proc.record proc.reader with
        | none => proc.table
        | some stream => if usable stream then dup2 proc.table stream.writer 1 else proc.table
      some ({ proc with pc := .dupInput, table := table }, [])
  | .dupInput =>
      let table :=
        match proc.record proc.writer with
        | none => proc.table
        | some stream => if usable stream then dup2 proc.table stream.reader 0 else proc.table
      some ({ proc with pc := .signals, table := table }, [])
  | .signals => some ({ proc with pc := .execv }, [])
  -- A failed `execv` returns, and the child goes on behind the branches.
  | .execv => some ({ proc with pc := if pick = 0 then .replaced else .storeNone }, [])
  | .replaced => none
  | .storePid pid => some
      ({ proc with pc := .closeWriter pid }, if args.processHandle then [.stored pid] else [])
  | .closeWriter pid => some ({ proc.closeEnd proc.reader .writer with pc := .closeReader pid }, [])
  | .closeReader pid => some ({ proc.closeEnd proc.writer .reader with pc := .started pid }, [])
  | .started pid => some ({ proc with pc := .waitpid pid }, if args.onStarted then [.started] else [])
  | .waitpid _ => some ({ proc with pc := .giveBack pick }, [])
  | .storeNone => some ({ proc with pc := .startedNone }, if args.processHandle then [.stored 0] else [])
  | .startedNone => some ({ proc with pc := .giveBack (-1) }, if args.onStarted then [.started] else [])
  | .giveBack result => some ({ proc with pc := .returned result }, [.returned result])
  | .returned _ => none

structure State (φ : Type) where
  caller : Proc φ
  child : Option (Proc φ)
  -- The events of each process.
  callerLog : List Event
  childLog : List Event

inductive Act (φ : Type) where
  | caller (pick : Int)
  | child (pick : Int)
  -- Other threads of the calling process change its memory and its descriptors.
  | others (memory : Nat -> Struct) (table : Table φ)

/-- The number from the environment is what `fork` returns in the caller. -/
def State.fork (state : State φ) (pick : Int) : Option (State φ) :=
  if pick = -1 then some { state with caller := { state.caller with pc := .storeNone } }
  else if 0 < pick then
    some { state with
      caller := { state.caller with pc := .storePid pick }
      child := some { state.caller with pc := .closeFd 0 } }
  else none

def step (args : Args) (state : State φ) : Act φ -> Option (State φ)
  | .caller pick =>
      if state.caller.pc = .fork then state.fork pick
      else (state.caller.next args pick).map fun (proc, events) =>
        { state with caller := proc, callerLog := state.callerLog ++ events }
  | .child pick =>
      state.child.bind fun child => (child.next args pick).map fun (proc, events) =>
        { state with child := some proc, childLog := state.childLog ++ events }
  | .others memory table =>
      some { state with caller := { state.caller with memory := memory, table := table } }

def State.start (args : Args) (memory : Nat -> Struct) (table : Table φ) : State φ where
  caller := { pc := .compare, reader := args.reader, writer := args.writer, memory := memory, table := table }
  child := none
  callerLog := []
  childLog := []

end Code

/-! ## Who returns -/

def Event.isStarted : Event -> Bool
  | .started => true
  | _ => false

def Event.isReturned : Event -> Bool
  | .returned _ => true
  | _ => false

def PC.ahead : PC -> Bool
  | .compare | .fork => true
  | _ => false

def PC.inChild : PC -> Bool
  | .closeFd _ | .dupOutput | .dupInput | .signals | .execv | .replaced => true
  | _ => false

/-- A child that has fallen out of its branch. -/
def PC.astray : PC -> Bool
  | .storeNone | .startedNone | .giveBack _ => true
  | _ => false

def PC.hasStarted : PC -> Bool
  | .waitpid _ | .giveBack _ | .returned _ => true
  | _ => false

def PC.hasReturned : PC -> Bool
  | .returned _ => true
  | _ => false

section Runs

variable {φ : Type} {args : Args} {state next : State φ} {action : Act φ} {proc after : Proc φ} {pick : Int}
  {events : List Event}

/-- The child leaves no trace in the function, and the caller returns and calls `a_on_started` at most once. -/
structure CallerOnly (state : State φ) : Prop where
  child : state.childLog = []
  returns : state.callerLog.countP Event.isReturned ≤ 1
  starts : state.callerLog.countP Event.isStarted ≤ 1

structure ReturnsOnce (args : Args) (state : State φ) : Prop where
  returned : state.callerLog.countP Event.isReturned = 1
  started : state.callerLog.countP Event.isStarted = args.onStarted.toNat

def Finished (args : Args) (state : State φ) : Prop :=
  (∀ pick, step args state (.caller pick) = none) ∧ ∀ pick, step args state (.child pick) = none

def ExecvSucceeds (state : State φ) : Act φ -> Prop
  | .child pick => ∀ child ∈ state.child, child.pc = .execv -> pick = 0
  | _ => True

instance (state : State φ) : ∀ action, Decidable (ExecvSucceeds state action)
  | .child _ => Option.decidableForallMem _
  | .caller _ | .others _ _ => isTrue trivial

structure Caller (args : Args) (state : State φ) : Prop where
  place : state.caller.pc.inChild = false
  returns : state.callerLog.countP Event.isReturned = state.caller.pc.hasReturned.toNat
  starts : state.callerLog.countP Event.isStarted = (args.onStarted && state.caller.pc.hasStarted).toNat

structure Child (state : State φ) : Prop where
  place : ∀ child, state.child = some child -> child.pc.inChild = true ∧ state.caller.pc.ahead = false
  log : state.childLog = []

theorem closeEnd_kept (proc : Proc φ) (stream : Option Nat) (direction : Direction) :
    (proc.closeEnd stream direction).reader = proc.reader ∧
      (proc.closeEnd stream direction).writer = proc.writer := by
  unfold Proc.closeEnd
  split
  · exact ⟨rfl, rfl⟩
  · split <;> exact ⟨rfl, rfl⟩

theorem next_caller (taken : proc.next args pick = some (after, events)) (place : proc.pc.inChild = false) :
    after.pc.inChild = false ∧
      proc.pc.hasReturned.toNat + events.countP Event.isReturned = after.pc.hasReturned.toNat ∧
      (args.onStarted && proc.pc.hasStarted).toNat + events.countP Event.isStarted =
        (args.onStarted && after.pc.hasStarted).toNat := by
  obtain ⟨pc, reader, writer, memory, table⟩ := proc
  simp only at place
  cases pc with
  | compare | closeWriter pid | closeReader pid | waitpid pid | giveBack result =>
      cases taken
      simp [PC.inChild, PC.hasReturned, PC.hasStarted, Event.isReturned, Event.isStarted]
  | storePid pid | storeNone =>
      cases taken
      cases args.processHandle <;>
        simp [PC.inChild, PC.hasReturned, PC.hasStarted, Event.isReturned, Event.isStarted]
  | started pid | startedNone =>
      cases taken
      cases args.onStarted <;>
        simp [PC.inChild, PC.hasReturned, PC.hasStarted, Event.isReturned, Event.isStarted]
  | fork | returned result => cases taken
  | closeFd fd | dupOutput | dupInput | signals | execv | replaced => cases place

theorem next_child (taken : proc.next args pick = some (after, events)) (place : proc.pc.inChild = true)
    (succeeds : proc.pc = .execv -> pick = 0) : after.pc.inChild = true ∧ events = [] := by
  obtain ⟨pc, reader, writer, memory, table⟩ := proc
  simp only at place succeeds
  cases pc with
  | closeFd fd =>
      simp only [Proc.next] at taken
      split at taken <;> cases taken <;> exact ⟨rfl, rfl⟩
  | dupOutput | dupInput | signals =>
      cases taken
      exact ⟨rfl, rfl⟩
  | execv =>
      cases taken
      simp [succeeds rfl, PC.inChild]
  | replaced => cases taken
  | compare | fork | storePid | closeWriter | closeReader | started | waitpid | storeNone | startedNone
  | giveBack | returned => cases place

theorem step_cases (taken : step args state action = some next) :
    (∃ pick, action = .caller pick ∧ state.caller.pc = .fork ∧ state.fork pick = some next) ∨
    (∃ pick proc events, action = .caller pick ∧ state.caller.next args pick = some (proc, events) ∧
      next = { state with caller := proc, callerLog := state.callerLog ++ events }) ∨
    (∃ pick child proc events, action = .child pick ∧ state.child = some child ∧
      child.next args pick = some (proc, events) ∧
      next = { state with child := some proc, childLog := state.childLog ++ events }) ∨
    (∃ memory table, action = .others memory table ∧
      next = { state with caller := { state.caller with memory := memory, table := table } }) := by
  cases action with
  | caller pick =>
      by_cases forks : state.caller.pc = .fork
      · rw [step, if_pos forks] at taken
        exact Or.inl ⟨pick, rfl, forks, taken⟩
      · rw [step, if_neg forks] at taken
        obtain ⟨⟨proc, events⟩, moved, rfl⟩ := Option.map_eq_some_iff.mp taken
        exact Or.inr (Or.inl ⟨pick, proc, events, rfl, moved, rfl⟩)
  | child pick =>
      obtain ⟨child, there, runs⟩ := Option.bind_eq_some_iff.mp taken
      obtain ⟨⟨proc, events⟩, moved, rfl⟩ := Option.map_eq_some_iff.mp runs
      exact Or.inr (Or.inr (Or.inl ⟨pick, child, proc, events, rfl, there, moved, rfl⟩))
  | others memory table =>
      cases taken
      exact Or.inr (Or.inr (Or.inr ⟨memory, table, rfl, rfl⟩))

theorem fork_cases (taken : state.fork pick = some next) :
    (pick = -1 ∧ next = { state with caller := { state.caller with pc := .storeNone } }) ∨
      (0 < pick ∧ next = { state with
        caller := { state.caller with pc := .storePid pick }
        child := some { state.caller with pc := .closeFd 0 } }) := by
  unfold State.fork at taken
  split at taken
  case isTrue failed => exact Or.inl ⟨failed, (Option.some.inj taken).symm⟩
  case isFalse =>
    split at taken
    case isTrue forked => exact Or.inr ⟨forked, (Option.some.inj taken).symm⟩
    case isFalse => cases taken

theorem Caller.step (caller : Caller args state) (taken : step args state action = some next) :
    Caller args next := by
  obtain ⟨place, returns, starts⟩ := caller
  obtain ⟨pick, -, forks, forked⟩ | ⟨pick, proc, events, -, moved, rfl⟩ |
    ⟨pick, child, proc, events, -, -, -, rfl⟩ | ⟨memory, table, -, rfl⟩ := step_cases taken
  · simp only [forks] at returns starts
    obtain ⟨-, rfl⟩ | ⟨-, rfl⟩ := fork_cases forked
    · exact ⟨rfl, returns, starts⟩
    · exact ⟨rfl, returns, starts⟩
  · obtain ⟨there, returned, started⟩ := next_caller moved place
    refine ⟨there, ?_, ?_⟩
    · simp only [List.countP_append, returns, returned]
    · simp only [List.countP_append, starts, started]
  · exact ⟨place, returns, starts⟩
  · exact ⟨place, returns, starts⟩

theorem next_ahead (taken : proc.next args pick = some (after, events)) (behind : proc.pc.ahead = false) :
    after.pc.ahead = false := by
  obtain ⟨pc, reader, writer, memory, table⟩ := proc
  simp only at behind
  cases pc with
  | compare | fork => cases behind
  | closeFd fd =>
      simp only [Proc.next] at taken
      split at taken <;> cases taken <;> rfl
  | execv =>
      cases taken
      simp only
      split <;> rfl
  | replaced | returned result => cases taken
  | dupOutput | dupInput | signals | storePid pid | closeWriter pid | closeReader pid | started pid
  | waitpid pid | storeNone | startedNone | giveBack result =>
      cases taken
      rfl

theorem Child.step (child : Child state) (succeeds : ExecvSucceeds state action)
    (taken : step args state action = some next) : Child next := by
  obtain ⟨place, log⟩ := child
  obtain ⟨pick, -, forks, forked⟩ | ⟨pick, proc, events, -, moved, rfl⟩ |
    ⟨pick, child, proc, events, acts, there, moved, rfl⟩ | ⟨memory, table, -, rfl⟩ := step_cases taken
  · obtain ⟨-, rfl⟩ | ⟨-, rfl⟩ := fork_cases forked
    · exact ⟨fun child there => ⟨(place child there).1, rfl⟩, log⟩
    · refine ⟨fun child there => ?_, log⟩
      cases there
      exact ⟨rfl, rfl⟩
  · exact ⟨fun child there => ⟨(place child there).1, next_ahead moved (place child there).2⟩, log⟩
  · subst acts
    obtain ⟨inside, rfl⟩ := next_child moved (place child there).1 (succeeds child there)
    refine ⟨fun other same => ?_, by simp [log]⟩
    cases same
    exact ⟨inside, (place child there).2⟩
  · exact ⟨place, log⟩

theorem Caller.callerOnly (caller : Caller args state) (child : Child state) : CallerOnly state :=
  ⟨child.log, caller.returns.trans_le (Bool.toNat_le _), caller.starts.trans_le (Bool.toNat_le _)⟩

/-- The child has left its branch, and the caller does not fork again. -/
def Doomed (state : State φ) : Prop :=
  state.caller.pc.ahead = false ∧ ∃ child, state.child = some child ∧ child.pc.astray = true

/-- A failed `execv` sends the child behind the branches. -/
theorem next_astray (taken : proc.next args pick = some (after, events))
    (fails : ¬ (proc.pc = .execv -> pick = 0)) : after.pc.astray = true := by
  obtain ⟨pc, reader, writer, memory, table⟩ := proc
  obtain ⟨here, nonzero⟩ := Classical.not_imp.mp fails
  simp only at here
  subst here
  cases taken
  simp [nonzero, PC.astray]

theorem next_doomed (taken : proc.next args pick = some (after, events)) (place : proc.pc.astray = true) :
    after.pc.astray = true ∨ events ≠ [] := by
  obtain ⟨pc, reader, writer, memory, table⟩ := proc
  simp only at place
  cases pc with
  | storeNone | startedNone =>
      cases taken
      exact Or.inl rfl
  | giveBack result =>
      cases taken
      exact Or.inr (by simp)
  | compare | fork | closeFd | dupOutput | dupInput | signals | execv | replaced | storePid | closeWriter
  | closeReader | started | waitpid | returned => cases place

theorem doomed_of_failed (child : Child state) (fails : ¬ ExecvSucceeds state action)
    (taken : step args state action = some next) : Doomed next := by
  cases action with
  | caller | others => exact absurd trivial fails
  | child pick =>
      simp only [ExecvSucceeds, not_forall] at fails
      obtain ⟨proc, there, here, nonzero⟩ := fails
      obtain ⟨inside, behind⟩ := child.place proc there
      obtain ⟨other, same, runs⟩ := Option.bind_eq_some_iff.mp taken
      obtain rfl := Option.some.inj (there.symm.trans same)
      obtain ⟨⟨after, events⟩, moved, rfl⟩ := Option.map_eq_some_iff.mp runs
      exact ⟨behind, after, rfl, next_astray moved fun implies => nonzero (implies here)⟩

theorem Doomed.step (doomed : Doomed state) (taken : step args state action = some next) :
    Doomed next ∨ ¬ CallerOnly next := by
  obtain ⟨behind, child, there, astray⟩ := doomed
  obtain ⟨pick, -, forks, -⟩ | ⟨pick, proc, events, -, moved, rfl⟩ |
    ⟨pick, other, proc, events, -, same, moved, rfl⟩ | ⟨memory, table, -, rfl⟩ := step_cases taken
  · rw [forks] at behind
    cases behind
  · exact Or.inl ⟨next_ahead moved behind, child, there, astray⟩
  · obtain rfl := Option.some.inj (there.symm.trans same)
    rcases next_doomed moved astray with still | traced
    · exact Or.inl ⟨behind, proc, rfl, still⟩
    · refine Or.inr fun only => traced ?_
      exact (List.append_eq_nil_iff.mp only.child).2
  · exact Or.inl ⟨behind, child, there, astray⟩

theorem next_isSome (args : Args) (place : proc.pc ≠ .fork) (inside : proc.pc ≠ .replaced)
    (unfinished : proc.pc.hasReturned = false) : ∃ result, proc.next args 0 = some result := by
  obtain ⟨pc, reader, writer, memory, table⟩ := proc
  simp only at place inside unfinished
  cases pc with
  | fork => exact absurd rfl place
  | replaced => exact absurd rfl inside
  | returned result => cases unfinished
  | closeFd fd =>
      simp only [Proc.next]
      split <;> exact ⟨_, rfl⟩
  | compare | dupOutput | dupInput | signals | execv | storePid | closeWriter | closeReader | started | waitpid
  | storeNone | startedNone | giveBack => exact ⟨_, rfl⟩

theorem Caller.returnsOnce (caller : Caller args state) (finished : Finished args state) :
    ReturnsOnce args state := by
  have returned : state.caller.pc.hasReturned = true := by
    by_contra unfinished
    by_cases forks : state.caller.pc = .fork
    · have stuck := finished.1 (-1)
      simp [Execute.step, forks, State.fork] at stuck
    · have inside : state.caller.pc ≠ .replaced := fun replaced => by
        have place := caller.place
        rw [replaced] at place
        cases place
      obtain ⟨result, moves⟩ := next_isSome args forks inside (Bool.eq_false_iff.mpr unfinished)
      have stuck := finished.1 0
      simp [Execute.step, forks, moves] at stuck
  have started : state.caller.pc.hasStarted = true := by
    cases place : state.caller.pc <;> simp_all [PC.hasReturned, PC.hasStarted]
  exact ⟨by simp [caller.returns, returned], by simp [caller.starts, started]⟩

theorem Doomed.unfinished (doomed : Doomed state) : ¬ Finished args state := by
  rintro ⟨-, finished⟩
  obtain ⟨-, child, there, astray⟩ := doomed
  obtain ⟨result, moves⟩ : ∃ result, child.next args 0 = some result := by
    cases place : child.pc <;> simp_all [PC.astray, Proc.next]
  have stuck := finished 0
  simp [Execute.step, there, moves] at stuck

structure Sound (args : Args) (state : State φ) : Prop where
  caller : Caller args state
  child : Child state

theorem Sound.start (args : Args) (memory : Nat -> Struct) (table : Table φ) :
    Sound args (State.start args memory table) where
  caller := ⟨rfl, rfl, by simp [State.start, PC.hasStarted]⟩
  child := {
    place := fun child there => by simp [State.start] at there
    log := rfl }

theorem Sound.keeps (sound : Sound args state) (succeeds : ExecvSucceeds state action)
    (taken : step args state action = some next) : Sound args next :=
  ⟨sound.caller.step taken, sound.child.step succeeds taken⟩

theorem execute_callerOnly (args : Args) (memory : Nat -> Struct) (table : Table φ) (actions : List (Act φ))
    (final : State φ) (run : exec (step args) (.start args memory table) actions = some final) :
    (Along (step args) ExecvSucceeds (.start args memory table) actions ->
      Throughout (step args) CallerOnly (.start args memory table) actions) ∧
    (Finished args final ->
      ((Throughout (step args) CallerOnly (.start args memory table) actions ∧ ReturnsOnce args final) ↔
        Along (step args) ExecvSucceeds (.start args memory table) actions)) := by
  have start := Sound.start args memory table
  have only (along : Along (step args) ExecvSucceeds (.start args memory table) actions) :
      Throughout (step args) CallerOnly (.start args memory table) actions :=
    throughout_of_along (Sound args) (fun _ sound => sound.caller.callerOnly sound.child)
      (fun _ _ _ sound succeeds taken => sound.keeps succeeds taken) start along
  refine ⟨only, fun finished => ⟨fun good => ?_, fun along => ⟨only along, ?_⟩⟩⟩
  · have exact : Throughout (step args) CallerOnly _ _ ↔ Along (step args) ExecvSucceeds _ _ :=
      throughout_iff_along_of_doomed (Sound args) Doomed
      (fun _ sound => sound.caller.callerOnly sound.child)
      (fun _ _ _ sound succeeds taken => sound.keeps succeeds taken)
      (fun _ _ _ sound fails taken => Or.inl (doomed_of_failed sound.child fails taken))
      (fun _ _ _ doomed _ taken => doomed.step taken) start run fun doomed => doomed.unfinished finished
    exact exact.mp good.1
  · have caller := (reachable_of_exec _ run).invariant (Caller args) start.caller
      fun _ _ _ holds _ taken => holds.step taken
    exact caller.returnsOnce finished

/-- A child without streams, two descriptors and a callback. -/
def plain : Args :=
  { reader := none, writer := none, processHandle := true, onStarted := true, fdLimit := 2 }

def plainMemory : Nat -> Struct :=
  fun _ => ZSystem.Stream.streamCreatePipe 3 4

def plainTable : Table Unit :=
  fun _ => some ()

theorem execute_callerOnly_replaced :
    Throughout (step plain) CallerOnly (.start plain plainMemory plainTable)
      [.caller 0, .caller 5, .child 0, .child 0, .child 0, .child 0, .child 0, .child 0, .caller 0, .child 0,
        .caller 0, .caller 0, .caller 0, .caller 0, .caller 0] :=
  (execute_callerOnly plain plainMemory plainTable _ _ rfl).1 (by decide)

/-- The file cannot be executed: the child stores 0, calls `a_on_started` and returns -1. -/
theorem execute_callerOnly_fails :
    ¬ ∀ state, Reachable (step plain) (.start plain plainMemory plainTable) state -> CallerOnly state := by
  intro only
  have returned := only _ (reachable_of_exec
    [.caller 0, .caller 5, .child 0, .child 0, .child 0, .child 0, .child 0, .child 0, .child 1,
      .child 0, .child 0, .child 0] rfl)
  exact absurd returned.child (by decide)

/-! ## What the child hands to its program -/

/-- The descriptors of a child that `forked` has made, at each of its places. -/
def Proc.childTable (args : Args) (forked : Proc φ) (pc : PC) : Table φ :=
  let kept := closeBut (keeps (forked.record forked.reader) (forked.record forked.writer)) forked.table
  let output :=
    match forked.record forked.reader with
    | none => kept args.fdLimit
    | some stream => if usable stream then dup2 (kept args.fdLimit) stream.writer 1 else kept args.fdLimit
  match pc with
  | .closeFd fd => kept fd
  | .dupOutput => kept args.fdLimit
  | .dupInput => output
  | _ => Process.childTable args.fdLimit (forked.record forked.reader) (forked.record forked.writer) forked.table

structure Copy (args : Args) (forked child : Proc φ) : Prop where
  reader : child.reader = forked.reader
  writer : child.writer = forked.writer
  memory : child.memory = forked.memory
  place : child.pc.inChild = true ∨ child.pc.astray = true ∨ child.pc.hasReturned = true
  bound : ∀ fd, child.pc = .closeFd fd -> fd ≤ args.fdLimit
  table : child.table = forked.childTable args child.pc

theorem Copy.keeps {forked : Proc φ} (copy : Copy args forked proc)
    (taken : proc.next args pick = some (after, events)) : Copy args forked after := by
  obtain ⟨pc, reader, writer, memory, table⟩ := proc
  obtain ⟨sameReader, sameWriter, sameMemory, place, bound, sameTable⟩ := copy
  simp only at sameReader sameWriter sameMemory place bound sameTable
  subst sameReader sameWriter sameMemory sameTable
  cases pc with
  | closeFd fd =>
      simp only [Proc.next] at taken
      split at taken
      case isTrue below =>
        cases taken
        refine ⟨rfl, rfl, rfl, Or.inl rfl, fun other same => ?_, rfl⟩
        cases same
        exact below
      case isFalse beyond =>
        cases taken
        have last : fd = args.fdLimit := Nat.le_antisymm (bound fd rfl) (Nat.not_lt.mp beyond)
        exact ⟨rfl, rfl, rfl, Or.inl rfl, by simp, by simp [Proc.childTable, last]⟩
  | dupOutput =>
      cases taken
      exact ⟨rfl, rfl, rfl, Or.inl rfl, by simp, rfl⟩
  | dupInput =>
      cases taken
      exact ⟨rfl, rfl, rfl, Or.inl rfl, by simp, rfl⟩
  | signals =>
      cases taken
      exact ⟨rfl, rfl, rfl, Or.inl rfl, by simp, rfl⟩
  | execv =>
      cases taken
      by_cases zero : pick = 0
      · simp only [zero, if_true]
        exact ⟨rfl, rfl, rfl, Or.inl rfl, by simp, rfl⟩
      · simp only [zero, if_false]
        exact ⟨rfl, rfl, rfl, Or.inr (Or.inl rfl), by simp, rfl⟩
  | storeNone | startedNone =>
      cases taken
      exact ⟨rfl, rfl, rfl, Or.inr (Or.inl rfl), by simp, rfl⟩
  | giveBack result =>
      cases taken
      exact ⟨rfl, rfl, rfl, Or.inr (Or.inr rfl), by simp, rfl⟩
  | replaced | returned => cases taken
  | compare | fork | storePid | closeWriter | closeReader | started | waitpid =>
      simp [PC.inChild, PC.astray, PC.hasReturned] at place

/-- The pointers of a caller at its fork: two equal ones have become null. -/
def Args.streams (args : Args) : Option Nat × Option Nat :=
  if args.reader = args.writer then (none, none) else (args.reader, args.writer)

theorem next_pointers (taken : proc.next args pick = some (after, events)) (past : proc.pc ≠ .compare) :
    after.pc ≠ .compare ∧ after.reader = proc.reader ∧ after.writer = proc.writer := by
  cases place : proc.pc with
  | compare => exact absurd place past
  | closeFd fd =>
      simp only [Proc.next, place] at taken
      split at taken <;> cases taken <;> exact ⟨by simp, rfl, rfl⟩
  | execv =>
      simp only [Proc.next, place] at taken
      cases taken
      exact ⟨by simp only; split <;> simp, rfl, rfl⟩
  | closeWriter | closeReader =>
      simp only [Proc.next, place] at taken
      cases taken
      exact ⟨by simp, closeEnd_kept ..⟩
  | fork | replaced | returned => simp [Proc.next, place] at taken
  | dupOutput | dupInput | signals | storePid | started | waitpid | storeNone | startedNone | giveBack =>
      simp only [Proc.next, place] at taken
      cases taken
      exact ⟨by simp, rfl, rfl⟩

def Compared (args : Args) (proc : Proc φ) : Prop :=
  (proc.reader, proc.writer) = if proc.pc = .compare then (args.reader, args.writer) else args.streams

theorem Compared.keeps (compared : Compared args proc) (taken : proc.next args pick = some (after, events)) :
    Compared args after := by
  by_cases first : proc.pc = .compare
  · simp only [Compared, first, if_true, Prod.mk.injEq] at compared
    simp only [Proc.next, first, Option.some.injEq, Prod.mk.injEq] at taken
    obtain ⟨rfl, -⟩ := taken
    simp only [Compared, Args.streams, compared, reduceCtorEq, if_false]
    split_ifs <;> rfl
  · obtain ⟨still, reader, writer⟩ := next_pointers taken first
    simpa [Compared, first, still, reader, writer] using compared

theorem compared_of_reachable {memory : Nat -> Struct} {table : Table φ}
    (reached : Reachable (step args) (.start args memory table) state) : Compared args state.caller := by
  have start : Compared args (State.start args memory table).caller := rfl
  refine reached.invariant (fun state => Compared args state.caller) start
    fun state action next compared _ taken => ?_
  obtain ⟨pick, -, forks, made⟩ | ⟨pick, proc, events, -, moved, rfl⟩ |
    ⟨pick, other, proc, events, -, -, -, rfl⟩ | ⟨memory, table, -, rfl⟩ := step_cases taken
  · simp only [Compared, forks, reduceCtorEq, if_false] at compared
    obtain ⟨-, rfl⟩ | ⟨-, rfl⟩ := fork_cases made <;> simpa [Compared] using compared
  · exact compared.keeps moved
  · exact compared
  · exact compared

theorem child_copy {memory : Nat -> Struct} {table : Table φ} {child : Proc φ}
    (reached : Reachable (step args) (.start args memory table) state) (there : state.child = some child) :
    ∃ forked, Reachable (step args) (.start args memory table) forked ∧ forked.caller.pc = .fork ∧
      Copy args forked.caller child := by
  induction reached generalizing child with
  | refl => simp [State.start] at there
  | tail before _ taken ih =>
      obtain ⟨pick, -, forks, made⟩ | ⟨pick, proc, events, -, -, rfl⟩ |
        ⟨pick, other, proc, events, -, same, moved, rfl⟩ | ⟨memory, table, -, rfl⟩ := step_cases taken
      · obtain ⟨-, rfl⟩ | ⟨-, rfl⟩ := fork_cases made
        · exact ih there
        · cases there
          exact ⟨_, before, forks, rfl, rfl, rfl, Or.inl rfl, by simp, rfl⟩
      · exact ih there
      · cases there
        obtain ⟨forked, earlier, atFork, copy⟩ := ih same
        exact ⟨forked, earlier, atFork, copy.keeps moved⟩
      · exact ih there

/-- What a child hands to its program is `childTable` of what the caller had at the fork. -/
theorem child_table {memory : Nat -> Struct} {table : Table φ} {child : Proc φ}
    (reached : Reachable (step args) (.start args memory table) state) (there : state.child = some child)
    (ready : child.pc = .execv) :
    ∃ forked, Reachable (step args) (.start args memory table) forked ∧ forked.caller.pc = .fork ∧
      child.table = Process.childTable args.fdLimit (args.streams.1.map forked.caller.memory)
        (args.streams.2.map forked.caller.memory) forked.caller.table := by
  obtain ⟨forked, earlier, atFork, copy⟩ := child_copy reached there
  have compared := compared_of_reachable earlier
  simp only [Compared, atFork, reduceCtorEq, if_false] at compared
  have made := copy.table
  rw [ready] at made
  exact ⟨forked, earlier, atFork, by simpa [Proc.childTable, Proc.record, ← compared] using made⟩

end Runs

end ZSystem.Process.Execute
