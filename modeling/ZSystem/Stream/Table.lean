import ZSystem.Stream.Handles

set_option autoImplicit false

/-!
# The descriptors behind the handles

A program with `ZSReader` and `ZSWriter` handles, and the table of descriptors of its process: what the
handles make `zs__stream_close_reader`, `zs__stream_close_writer` and `zs__stream_destroy` pass to `close`.
-/

namespace ZSystem.Stream.Table

open Handles Transition

/-! ## The process -/

structure Process where
  handles : Handles.State := .start
  -- The descriptors of streams that are open.
  opened : Finset Int := ∅
  -- History: the call that each stream comes from.
  origin : Nat -> Option Origin := fun _ => none
  -- History: what has been passed to `close` without being open.
  failures : List Int := []

def Origin.descriptors (origin : Origin) : Finset Int :=
  ({origin.descriptor .reader, origin.descriptor .writer} : Finset Int).erase (-1)

def Process.close (process : Process) (descriptor : Int) : Process :=
  if descriptor ∈ process.opened then { process with opened := process.opened.erase descriptor }
  else { process with failures := process.failures ++ [descriptor] }

def Process.closeAll (process : Process) (descriptors : List Int) : Process :=
  descriptors.foldl Process.close process

/-- What `UnregisterReader` or `UnregisterWriter` and the `delete` after it pass to `close`. -/
def closings (direction : Direction) (stream : ZSStream) : List Int :=
  let (next, last) := stream.unregister direction
  (if next.count direction = 0 then (stream.struct.close direction).2 else []) ++
    if last then streamDestroy next.struct else []

def Process.construct (process : Process) (direction : Direction) (name : Name) (target : Option Nat) : Process :=
  { process with handles := process.handles.construct direction name target }

def Process.copy (process : Process) (direction : Direction) (name source : Name) : Process :=
  { process with handles := process.handles.copy direction name source }

def Process.destroy (process : Process) (direction : Direction) (name : Name) : Process :=
  let closed :=
    match ((process.handles.handles direction).target name).bind process.handles.streams with
    | none => process
    | some stream => process.closeAll (closings direction stream)
  { closed with handles := process.handles.destroy direction name }

def Process.assign (process : Process) (direction : Direction) (name source : Name) : Process :=
  let target := (process.handles.handles direction).target source
  if target = (process.handles.handles direction).target name then process
  else (process.destroy direction name).construct direction name target

def Process.makePair (process : Process) (target : Option Nat) (reader writer : Name) : Process :=
  let temporaries := (process.construct .reader .temporary target).construct .writer .temporary target
  let pair := (temporaries.copy .reader reader .temporary).copy .writer writer .temporary
  (pair.destroy .writer .temporary).destroy .reader .temporary

def Process.new (process : Process) (origin : Origin) : Process :=
  { process with
    handles := process.handles.new origin.stream
    opened := process.opened ∪ Origin.descriptors origin
    origin := Function.update process.origin process.handles.next (some origin) }

def Process.create (process : Process) (origin : Option Origin) (reader writer : Name) : Process :=
  match origin with
  | none => process.makePair none reader writer
  | some origin => (process.new origin).makePair (some process.handles.next) reader writer

/-- A descriptor that the kernel gives, or that the program passes to `CreateSystem`, is not another stream's. -/
def Process.Gives (process : Process) (origin : Option Origin) : Prop :=
  ∀ given ∈ origin, Disjoint (Origin.descriptors given) process.opened

instance (process : Process) (origin : Option Origin) : Decidable (process.Gives origin) :=
  inferInstanceAs (Decidable (∀ given ∈ origin, Disjoint (Origin.descriptors given) process.opened))

def step (process : Process) : Handles.Op -> Option Process
  | .create origin reader writer =>
      if process.handles.live .reader reader ∨ process.handles.live .writer writer ∨ ¬ process.Gives origin then none
      else some (process.create origin (.user reader) (.user writer))
  | .default direction name =>
      if process.handles.live direction name then none
      else some (process.construct direction (.user name) none)
  | .copy direction name source =>
      if process.handles.live direction name ∨ ¬ process.handles.live direction source then none
      else some (process.copy direction (.user name) (.user source))
  | .assign direction name source =>
      if process.handles.live direction name ∧ process.handles.live direction source then
        some (process.assign direction (.user name) (.user source))
      else none
  | .destroy direction name =>
      if process.handles.live direction name then some (process.destroy direction (.user name)) else none

/-! ## Its handles are those of `ZSystem.Stream.Handles` -/

section Projection

variable {process next : Process} {direction : Direction} {name source reader writer : Name} {target : Option Nat}

theorem closeAll_handles (descriptors : List Int) : (process.closeAll descriptors).handles = process.handles ∧
    (process.closeAll descriptors).origin = process.origin := by
  induction descriptors generalizing process with
  | nil => exact ⟨rfl, rfl⟩
  | cons first rest ih =>
      have one : (process.close first).handles = process.handles ∧ (process.close first).origin = process.origin := by
        unfold Process.close
        split_ifs <;> exact ⟨rfl, rfl⟩
      exact ⟨ih.1.trans one.1, ih.2.trans one.2⟩

@[simp] theorem create_handles (origin : Option Origin) :
    (process.create origin reader writer).handles = process.handles.create origin reader writer := by
  cases origin <;> rfl

end Projection

/-! ## What is open -/

/-- A descriptor of a stream that serves a direction that is not closed. -/
def Process.Serves (process : Process) (id : Nat) (descriptor : Int) : Prop :=
  ∃ stream origin direction, process.handles.streams id = some stream ∧ process.origin id = some origin ∧
    origin.descriptor direction = descriptor ∧ stream.struct.isShut direction = false

/-- A stream has closed what its handles have made it close, and has told the kernel so once for each descriptor. -/
def Kept (origin : Origin) (stream : ZSStream) : Prop :=
  (∃ shut, Ledger origin stream.struct shut) ∧
    ∀ direction, stream.struct.isShut direction = true ↔
      origin.descriptor direction = -1 ∨ direction ∈ stream.closes ∨ stream.deletions ≠ 0

structure Accounted (process : Process) : Prop where
  bounded : process.handles.Bounded
  kept : ∀ id stream, process.handles.streams id = some stream ->
    ∃ origin, process.origin id = some origin ∧ Kept origin stream
  opened : ∀ descriptor, descriptor ∈ process.opened ↔ ∃ id, process.Serves id descriptor
  exclusive : ∀ id other descriptor, process.Serves id descriptor -> process.Serves other descriptor -> id = other
  failures : process.failures = []

section Closings

variable {stream : ZSStream} {direction : Direction} {origin : Origin}

theorem closeAll_append (struct : Struct) (front back : List Direction) :
    struct.closeAll (front ++ back) =
      (((struct.closeAll front).1.closeAll back).1, (struct.closeAll front).2 ++ ((struct.closeAll front).1.closeAll back).2) := by
  induction front generalizing struct with
  | nil => simp [Struct.closeAll]
  | cons first rest ih => simp [Struct.closeAll, ih]

/-- The directions that the end of a handle closes, in the order of the calls. -/
def sequence (direction : Direction) (stream : ZSStream) : List Direction :=
  (if (stream.unregister direction).1.count direction = 0 then [direction] else []) ++
    if (stream.unregister direction).2 then [.reader, .writer] else []

theorem unregister_struct : (stream.unregister direction).1.struct =
    (stream.struct.closeAll (if (stream.unregister direction).1.count direction = 0 then [direction] else [])).1 := by
  rw [unregister_count, Function.update_self]
  simp only [ZSStream.unregister, Function.update_self]
  split_ifs <;> rfl

theorem closings_sequence : closings direction stream = (stream.struct.closeAll (sequence direction stream)).2 ∧
    (unregisterOrDelete direction stream).struct = (stream.struct.closeAll (sequence direction stream)).1 := by
  simp only [sequence, closeAll_append, ← unregister_struct]
  refine ⟨?_, ?_⟩
  · simp only [closings, streamDestroy]
    congr 1
    · split_ifs <;> simp [Struct.closeAll]
    · split_ifs <;> rfl
  · simp only [unregisterOrDelete]
    split_ifs <;> rfl

theorem unregisterOrDelete_history : (unregisterOrDelete direction stream).closes = stream.closes ++
      (if (stream.unregister direction).1.count direction = 0 then [direction] else []) ∧
    (unregisterOrDelete direction stream).deletions = stream.deletions + if (stream.unregister direction).2 then 1 else 0 := by
  have closes : (stream.unregister direction).1.closes = stream.closes ++
      (if (stream.unregister direction).1.count direction = 0 then [direction] else []) := by
    rw [Handles.unregister_closes, unregister_count, Function.update_self]
    split_ifs <;> simp
  simp only [unregisterOrDelete]
  split_ifs
  all_goals exact ⟨by simp_all [ZSStream.delete], by simp [ZSStream.delete, unregister_kept]⟩

theorem Kept.new (origin : Origin) : Kept origin (.new origin.stream) :=
  ⟨⟨[], origin.ledger⟩, fun direction => by simp [ZSStream.new, origin.shut_iff]⟩

theorem Kept.register (kept : Kept origin stream) (direction : Direction) :
    Kept origin (stream.register direction) := kept

theorem Kept.unregisterOrDelete (kept : Kept origin stream) (direction : Direction) :
    Kept origin (unregisterOrDelete direction stream) := by
  obtain ⟨⟨shut, ledger⟩, shuts⟩ := kept
  obtain ⟨after, also⟩ := ledger.closeAll (sequence direction stream)
  obtain ⟨closes, deletions⟩ := @unregisterOrDelete_history stream direction
  refine ⟨⟨_, closings_sequence.2 ▸ after⟩, fun other => ?_⟩
  rw [closings_sequence.2, also, shuts, closes, deletions, sequence]
  have either : other = .reader ∨ other = .writer := by cases other <;> simp
  split_ifs <;> grind

/-- What is passed to `close` serves no open direction any more, and served one before. -/
theorem Kept.closings (kept : Kept origin stream) (direction : Direction) :
    (closings direction stream).Nodup ∧
      ∀ descriptor, descriptor ∈ closings direction stream ↔
        (∃ side, origin.descriptor side = descriptor ∧ stream.struct.isShut side = false) ∧
          ∀ side, origin.descriptor side = descriptor ->
            (Handles.unregisterOrDelete direction stream).struct.isShut side = true := by
  obtain ⟨⟨shut, ledger⟩, -⟩ := kept
  obtain ⟨after, -⟩ := ledger.closeAll (sequence direction stream)
  rw [closings_sequence.1, closings_sequence.2]
  obtain ⟨-, once, apart⟩ := List.nodup_append.mp after.once
  refine ⟨once, fun descriptor => ?_⟩
  have settled := after.settled descriptor
  rw [List.mem_append, ledger.settled] at settled
  constructor
  · intro member
    obtain ⟨given, closed⟩ := settled.mp (Or.inr member)
    have before : ¬ origin.Settled stream.struct descriptor := fun already =>
      apart descriptor ((ledger.settled descriptor).mpr already) descriptor member rfl
    obtain ⟨side, serves, unshut⟩ : ∃ side, origin.descriptor side = descriptor ∧ ¬ stream.struct.isShut side = true := by
      by_contra none
      exact before ⟨given, fun side serves => by_contra fun unshut => none ⟨side, serves, unshut⟩⟩
    exact ⟨⟨side, serves, Bool.eq_false_iff.mpr unshut⟩, closed⟩
  · rintro ⟨⟨side, rfl, unshut⟩, closed⟩
    have given : origin.descriptor side ≠ -1 := fun none => by simp [ledger.missing side none] at unshut
    refine (settled.mpr ⟨Origin.given_descriptor side given, closed⟩).resolve_left fun already => ?_
    simp [already.2 side rfl] at unshut

end Closings

/-! ## Every operation keeps the account -/

section Operations

variable {process : Process} {direction : Direction} {name source : Name} {target : Option Nat}

theorem closeAll_spec {descriptors : List Int} (once : descriptors.Nodup)
    (opened : ∀ descriptor ∈ descriptors, descriptor ∈ process.opened) :
    (process.closeAll descriptors).failures = process.failures ∧
      ∀ descriptor, descriptor ∈ (process.closeAll descriptors).opened ↔
        descriptor ∈ process.opened ∧ descriptor ∉ descriptors := by
  induction descriptors generalizing process with
  | nil => simp [Process.closeAll]
  | cons first rest ih =>
      obtain ⟨new, later⟩ := List.nodup_cons.mp once
      have here : process.close first = { process with opened := process.opened.erase first } :=
        if_pos (opened first List.mem_cons_self)
      have others : ∀ descriptor ∈ rest, descriptor ∈ (process.close first).opened := fun descriptor member => by
        rw [here]
        have differ : descriptor ≠ first := fun same => new (same ▸ member)
        exact Finset.mem_erase.mpr ⟨differ, opened descriptor (List.mem_cons_of_mem _ member)⟩
      obtain ⟨failures, left⟩ := ih later others
      rw [here] at failures left
      change ((process.close first).closeAll rest).failures = _ ∧
        ∀ descriptor, descriptor ∈ ((process.close first).closeAll rest).opened ↔ _
      rw [here]
      refine ⟨failures, fun descriptor => (left descriptor).trans ?_⟩
      simp only [Finset.mem_erase, List.mem_cons]
      tauto

theorem Process.Serves.congr {next : Process} {id : Nat} {descriptor : Int} (origins : next.origin = process.origin)
    (structs : (next.handles.streams id).map ZSStream.struct = (process.handles.streams id).map ZSStream.struct)
    (serves : process.Serves id descriptor) : next.Serves id descriptor := by
  obtain ⟨stream, origin, side, here, made, given, unshut⟩ := serves
  rw [here] at structs
  obtain ⟨after, there, same⟩ := Option.map_eq_some_iff.mp structs
  exact ⟨after, origin, side, there, origins ▸ made, given, same ▸ unshut⟩

theorem Accounted.construct (accounted : Accounted process) :
    Accounted (process.construct direction name target) := by
  have structs (id : Nat) : ((process.construct direction name target).handles.streams id).map ZSStream.struct =
      (process.handles.streams id).map ZSStream.struct := by
    simp only [Process.construct, streams_construct]
    split_ifs
    · rw [Option.map_map]
      rfl
    · rfl
  have same (id : Nat) (descriptor : Int) :
      (process.construct direction name target).Serves id descriptor ↔ process.Serves id descriptor :=
    ⟨.congr rfl (structs id).symm, .congr rfl (structs id)⟩
  refine ⟨(accounted.bounded.construct direction name target).bounded, fun id stream found => ?_, ?_, ?_, accounted.failures⟩
  · simp only [Process.construct, streams_construct] at found
    split_ifs at found with joined
    · obtain ⟨before, here, rfl⟩ := Option.map_eq_some_iff.mp found
      obtain ⟨origin, made, kept⟩ := accounted.kept id before here
      exact ⟨origin, made, kept.register direction⟩
    · exact accounted.kept id stream found
  · simp only [same]
    exact accounted.opened
  · simpa only [same] using accounted.exclusive

theorem Accounted.copy (accounted : Accounted process) : Accounted (process.copy direction name source) :=
  accounted.construct

theorem Accounted.destroy_unbound (accounted : Accounted process)
    (unbound : ((process.handles.handles direction).target name).bind process.handles.streams = none) :
    Accounted (process.destroy direction name) := by
  have unchanged (id : Nat) : (process.handles.destroy direction name).streams id = process.handles.streams id := by
    rw [streams_destroy]
    split_ifs with left
    · rw [left, Option.bind_some] at unbound
      rw [unbound]
      rfl
    · rfl
  have same (id : Nat) (descriptor : Int) :
      (process.destroy direction name).Serves id descriptor ↔ process.Serves id descriptor := by
    simp only [Process.Serves, Process.destroy, unbound, unchanged]
  refine ⟨(accounted.bounded.destroy direction name).bounded, fun id stream found => ?_, ?_, ?_, ?_⟩
  · simp only [Process.destroy, unbound, unchanged] at found ⊢
    exact accounted.kept id stream found
  · simp only [same]
    simpa only [Process.destroy, unbound] using accounted.opened
  · simpa only [same] using accounted.exclusive
  · simpa only [Process.destroy, unbound] using accounted.failures

/-- The handle refers to a stream, which is told of its end. -/
structure Ends (process : Process) (direction : Direction) (name : Name) (id : Nat) (stream : ZSStream)
    (origin : Origin) : Prop where
  left : (process.handles.handles direction).target name = some id
  here : process.handles.streams id = some stream
  made : process.origin id = some origin
  kept : Kept origin stream

section Ends

variable {id other : Nat} {stream : ZSStream} {origin : Origin} {descriptor : Int}

theorem Ends.parts (ends : Ends process direction name id stream origin) : process.destroy direction name =
    { process.closeAll (closings direction stream) with handles := process.handles.destroy direction name } := by
  simp only [Process.destroy, ends.left, Option.bind_some, ends.here]

theorem Ends.origins (ends : Ends process direction name id stream origin) :
    (process.destroy direction name).origin = process.origin := by
  rw [ends.parts]
  exact (closeAll_handles _).2

theorem Ends.there (ends : Ends process direction name id stream origin) :
    (process.destroy direction name).handles.streams id = some (unregisterOrDelete direction stream) := by
  rw [ends.parts, streams_destroy, if_pos ends.left, ends.here, Option.map_some]

theorem Ends.others (ends : Ends process direction name id stream origin) (differ : other ≠ id) :
    (process.destroy direction name).handles.streams other = process.handles.streams other := by
  rw [ends.parts, streams_destroy, if_neg fun same => differ (Option.some.inj (same.symm.trans ends.left))]

theorem serves_iff {process : Process} (here : process.handles.streams id = some stream)
    (made : process.origin id = some origin) : process.Serves id descriptor ↔
      ∃ side, origin.descriptor side = descriptor ∧ stream.struct.isShut side = false := by
  constructor
  · rintro ⟨_, _, side, found, known, given, unshut⟩
    cases here.symm.trans found
    cases made.symm.trans known
    exact ⟨side, given, unshut⟩
  · rintro ⟨side, given, unshut⟩
    exact ⟨stream, origin, side, here, made, given, unshut⟩

theorem Ends.before (ends : Ends process direction name id stream origin) : process.Serves id descriptor ↔
    ∃ side, origin.descriptor side = descriptor ∧ stream.struct.isShut side = false :=
  serves_iff ends.here ends.made

theorem Ends.after (ends : Ends process direction name id stream origin) :
    (process.destroy direction name).Serves id descriptor ↔ ∃ side, origin.descriptor side = descriptor ∧
      (unregisterOrDelete direction stream).struct.isShut side = false :=
  serves_iff ends.there (ends.origins ▸ ends.made)

theorem Ends.elsewhere (ends : Ends process direction name id stream origin) (differ : other ≠ id) :
    (process.destroy direction name).Serves other descriptor ↔ process.Serves other descriptor := by
  simp only [Process.Serves, ends.others differ, ends.origins]

/-- A direction that is open afterwards was open before. -/
theorem Ends.less (ends : Ends process direction name id stream origin)
    (serves : (process.destroy direction name).Serves other descriptor) : process.Serves other descriptor := by
  by_cases same : other = id
  · subst same
    obtain ⟨side, given, unshut⟩ := ends.after.mp serves
    refine ends.before.mpr ⟨side, given, Bool.eq_false_iff.mpr fun shut => ?_⟩
    obtain ⟨⟨_, ledger⟩, -⟩ := ends.kept
    have still := ((ledger.closeAll (sequence direction stream)).2 side).mpr (Or.inr shut)
    rw [closings_sequence.2] at unshut
    simp [still] at unshut
  · exact (ends.elsewhere same).mp serves

theorem Ends.closed (ends : Ends process direction name id stream origin) (accounted : Accounted process) :
    (process.destroy direction name).failures = [] ∧
      ∀ descriptor, descriptor ∈ (process.destroy direction name).opened ↔
        (∃ other, process.Serves other descriptor) ∧ descriptor ∉ closings direction stream := by
  obtain ⟨once, closed⟩ := ends.kept.closings direction
  have present : ∀ descriptor ∈ closings direction stream, descriptor ∈ process.opened := fun descriptor member =>
    (accounted.opened descriptor).mpr ⟨id, ends.before.mpr ((closed descriptor).mp member).1⟩
  obtain ⟨failures, opened⟩ := closeAll_spec once present
  rw [ends.parts]
  exact ⟨failures.trans accounted.failures, fun descriptor => by rw [opened, accounted.opened]⟩

theorem Ends.opened (ends : Ends process direction name id stream origin) (accounted : Accounted process) :
    ((∃ other, process.Serves other descriptor) ∧ descriptor ∉ closings direction stream) ↔
      ∃ other, (process.destroy direction name).Serves other descriptor := by
  have closed := (ends.kept.closings direction).2 descriptor
  constructor
  · rintro ⟨⟨other, serves⟩, unclosed⟩
    by_cases same : other = id
    · subst same
      have served := ends.before.mp serves
      obtain ⟨side, given, unshut⟩ : ∃ side, origin.descriptor side = descriptor ∧
          ¬ (unregisterOrDelete direction stream).struct.isShut side = true := by
        by_contra none
        exact unclosed (closed.mpr
          ⟨served, fun side given => by_contra fun unshut => none ⟨side, given, unshut⟩⟩)
      exact ⟨other, ends.after.mpr ⟨side, given, Bool.eq_false_iff.mpr unshut⟩⟩
    · exact ⟨other, (ends.elsewhere same).mpr serves⟩
  · rintro ⟨other, serves⟩
    refine ⟨⟨other, ends.less serves⟩, fun member => ?_⟩
    obtain ⟨served, shut⟩ := closed.mp member
    -- No other stream serves a descriptor of this one.
    obtain rfl := accounted.exclusive other id descriptor (ends.less serves) (ends.before.mpr served)
    obtain ⟨side, given, unshut⟩ := ends.after.mp serves
    simp [shut side given] at unshut

end Ends

theorem Accounted.destroy (accounted : Accounted process) : Accounted (process.destroy direction name) := by
  cases bound : ((process.handles.handles direction).target name).bind process.handles.streams with
  | none => exact accounted.destroy_unbound bound
  | some stream =>
      obtain ⟨id, left, here⟩ := Option.bind_eq_some_iff.mp bound
      obtain ⟨origin, made, kept⟩ := accounted.kept id stream here
      have ends : Ends process direction name id stream origin := ⟨left, here, made, kept⟩
      obtain ⟨failures, opened⟩ := ends.closed accounted
      refine ⟨(accounted.bounded.destroy direction name).bounded, fun other found present => ?_, fun descriptor =>
        (opened descriptor).trans (ends.opened accounted), fun one two descriptor first second =>
          accounted.exclusive one two descriptor (ends.less first) (ends.less second), failures⟩
      rw [ends.origins]
      by_cases same : other = id
      · subst same
        cases ends.there.symm.trans present
        exact ⟨origin, made, kept.unregisterOrDelete direction⟩
      · exact accounted.kept other found (ends.others same ▸ present)

theorem Accounted.assign (accounted : Accounted process) : Accounted (process.assign direction name source) := by
  simp only [Process.assign]
  split_ifs
  · exact accounted
  · exact accounted.destroy.construct

theorem Accounted.makePair (accounted : Accounted process) (reader writer : Name) :
    Accounted (process.makePair target reader writer) :=
  accounted.construct.construct.copy.copy.destroy.destroy

theorem Origin.mem_descriptors {origin : Origin} {descriptor : Int} :
    descriptor ∈ Origin.descriptors origin ↔ descriptor ≠ -1 ∧ ∃ direction, origin.descriptor direction = descriptor := by
  have either : (∃ direction, origin.descriptor direction = descriptor) ↔
      origin.descriptor .reader = descriptor ∨ origin.descriptor .writer = descriptor := by
    refine ⟨fun ⟨direction, same⟩ => ?_, fun same => same.elim (fun same => ⟨_, same⟩) fun same => ⟨_, same⟩⟩
    cases direction with
    | reader => exact Or.inl same
    | writer => exact Or.inr same
  rw [Origin.descriptors, Finset.mem_erase, Finset.mem_insert, Finset.mem_singleton, either, @eq_comm _ descriptor,
    @eq_comm _ descriptor]

theorem Accounted.new (accounted : Accounted process) {origin : Origin}
    (gives : Disjoint (Origin.descriptors origin) process.opened) : Accounted (process.new origin) := by
  have absent := accounted.bounded process.handles.next le_rfl
  have here (descriptor : Int) : (process.new origin).Serves process.handles.next descriptor ↔
      descriptor ∈ Origin.descriptors origin := by
    rw [Origin.mem_descriptors]
    constructor
    · rintro ⟨stream, other, side, found, made, rfl, unshut⟩
      obtain rfl : ZSStream.new origin.stream = stream := by simpa [Process.new, State.new] using found
      obtain rfl : origin = other := by simpa [Process.new] using made
      exact ⟨fun none => by simp [ZSStream.new, (origin.shut_iff side).mpr none] at unshut, side, rfl⟩
    · rintro ⟨given, side, rfl⟩
      refine ⟨.new origin.stream, origin, side, by simp [Process.new, State.new], by simp [Process.new], rfl, ?_⟩
      exact Bool.eq_false_iff.mpr fun shut => given ((origin.shut_iff side).mp shut)
  have elsewhere (id : Nat) (differ : id ≠ process.handles.next) (descriptor : Int) :
      (process.new origin).Serves id descriptor ↔ process.Serves id descriptor := by
    simp [Process.Serves, Process.new, State.new, differ]
  have before (descriptor : Int) : ¬ process.Serves process.handles.next descriptor := by
    rintro ⟨stream, -, -, found, -⟩
    cases absent.symm.trans found
  have apart {id : Nat} {descriptor : Int} (serves : process.Serves id descriptor) :
      descriptor ∉ Origin.descriptors origin := fun member =>
    Finset.disjoint_left.mp gives member ((accounted.opened descriptor).mpr ⟨id, serves⟩)
  refine ⟨(accounted.bounded.new origin.stream).bounded, fun id stream found => ?_, fun descriptor => ?_,
    fun one two descriptor first second => ?_, accounted.failures⟩
  · by_cases same : id = process.handles.next
    · subst same
      obtain rfl : ZSStream.new origin.stream = stream := by simpa [Process.new, State.new] using found
      exact ⟨origin, by simp [Process.new], .new origin⟩
    · have old : process.handles.streams id = some stream := by simpa [Process.new, State.new, same] using found
      simpa [Process.new, same] using accounted.kept id stream old
  · rw [show (process.new origin).opened = process.opened ∪ Origin.descriptors origin from rfl, Finset.mem_union,
      accounted.opened, ← here]
    constructor
    · rintro (⟨id, serves⟩ | serves)
      · have differ : id ≠ process.handles.next := fun same => before descriptor (same ▸ serves)
        exact ⟨id, (elsewhere id differ descriptor).mpr serves⟩
      · exact ⟨_, serves⟩
    · rintro ⟨id, serves⟩
      by_cases same : id = process.handles.next
      · exact Or.inr (same ▸ serves)
      · exact Or.inl ⟨id, (elsewhere id same descriptor).mp serves⟩
  · by_cases left : one = process.handles.next <;> by_cases right : two = process.handles.next
    · rw [left, right]
    · subst left
      exact absurd ((here descriptor).mp first) (apart ((elsewhere two right descriptor).mp second))
    · subst right
      exact absurd ((here descriptor).mp second) (apart ((elsewhere one left descriptor).mp first))
    · exact accounted.exclusive one two descriptor ((elsewhere one left descriptor).mp first)
        ((elsewhere two right descriptor).mp second)

theorem Accounted.step {next : Process} {op : Handles.Op} (accounted : Accounted process)
    (taken : step process op = some next) : Accounted next := by
  cases op with
  | create origin reader writer =>
      simp only [Table.step] at taken
      split_ifs at taken with free
      cases taken
      rw [not_or, not_or, not_not] at free
      cases origin with
      | none => exact accounted.makePair _ _
      | some origin => exact (accounted.new (free.2.2 origin rfl)).makePair _ _
  | default direction name | copy direction name source =>
      simp only [Table.step] at taken
      split_ifs at taken
      cases taken
      exact accounted.construct
  | assign direction name source =>
      simp only [Table.step] at taken
      split_ifs at taken
      cases taken
      exact accounted.assign
  | destroy direction name =>
      simp only [Table.step] at taken
      split_ifs at taken
      cases taken
      exact accounted.destroy

end Operations

/-! ## Handles and descriptors -/

section Handles

variable {state : Handles.State} {direction : Direction} {name source : Name} {target : Option Nat}
  {known : Nat -> Prop}

/-- Every one of these streams has had readers and writers. -/
def Paired (known : Nat -> Prop) (state : Handles.State) : Prop :=
  ∀ id stream, known id -> state.streams id = some stream -> ∀ direction, stream.had direction = true

theorem Paired.construct (paired : Paired known state) : Paired known (state.construct direction name target) := by
  intro id stream mine found side
  rw [streams_construct] at found
  split_ifs at found
  · obtain ⟨before, here, rfl⟩ := Option.map_eq_some_iff.mp found
    by_cases same : side = direction
    · simp [ZSStream.register, same]
    · simpa [ZSStream.register, same] using paired id before mine here side
  · exact paired id stream mine found side

theorem Paired.destroy (paired : Paired known state) : Paired known (state.destroy direction name) := by
  intro id stream mine found side
  rw [streams_destroy] at found
  split_ifs at found
  · obtain ⟨before, here, rfl⟩ := Option.map_eq_some_iff.mp found
    have kept : (unregisterOrDelete direction before).had = before.had := by
      simp only [unregisterOrDelete]
      split_ifs
      · exact unregister_kept.1
      · exact unregister_kept.1
    exact kept ▸ paired id before mine here side
  · exact paired id stream mine found side

theorem Paired.makePair (paired : Paired known state) (reader writer : Name) :
    Paired known (state.makePair target reader writer) :=
  paired.construct.construct.construct.construct.destroy.destroy

theorem number_makePair {id reader writer : Nat} (direction : Direction) :
    0 < (state.makePair (some id) (.user reader) (.user writer)).number direction id := by
  refine Holders.count_pos_iff.mpr ?_
  cases direction with
  | reader =>
      refine ⟨.user reader, by simp [State.makePair, State.copy], ?_⟩
      simp [State.makePair, State.copy]
  | writer =>
      refine ⟨.user writer, by simp [State.makePair, State.copy], ?_⟩
      simp [State.makePair, State.copy]

theorem Paired.step {next : Handles.State} {op : Handles.Op} (paired : Paired (fun _ => True) state) (after : Settled next)
    (taken : Handles.step state op = some next) : Paired (fun _ => True) next := by
  cases op with
  | create origin reader writer =>
      simp only [Handles.step] at taken
      split_ifs at taken
      cases taken
      cases origin with
      | none => exact paired.makePair _ _
      | some origin =>
          have others : Paired (· ≠ state.next) (state.new origin.stream) := fun id stream differ found =>
            paired id stream trivial (by simpa [State.new, differ] using found)
          intro id stream _ found side
          by_cases same : id = state.next
          · subst same
            exact (after.law _ stream found).had side (number_makePair side)
          · exact others.makePair _ _ id stream same found side
  | default direction name | copy direction name source =>
      simp only [Handles.step] at taken
      split_ifs at taken
      cases taken
      exact paired.construct
  | assign direction name source =>
      simp only [Handles.step] at taken
      split_ifs at taken
      cases taken
      simp only [State.assign]
      split_ifs
      · exact paired
      · exact paired.destroy.construct
  | destroy direction name =>
      simp only [Handles.step] at taken
      split_ifs at taken
      cases taken
      exact paired.destroy

end Handles

instance (state : Handles.State) (direction : Direction) (target : Option Nat) : Decidable (state.Room direction target) :=
  inferInstanceAs (Decidable (∀ stream ∈ target, state.number direction stream < 2 ^ 32 - 1))

instance (state : Handles.State) : (op : Handles.Op) -> Decidable (Roomy state op)
  | .copy .. => inferInstanceAs (Decidable (State.Room ..))
  | .assign .. => inferInstanceAs (Decidable (_ -> State.Room ..))
  | .create .. | .default .. | .destroy .. => instDecidableTrue

/-- The descriptor serves readers, or writers, and there is one of them. -/
def Process.InUse (process : Process) (descriptor : Int) : Prop :=
  descriptor ≠ -1 ∧ ∃ id origin direction, process.origin id = some origin ∧
    origin.descriptor direction = descriptor ∧ 0 < process.handles.number direction id

/-- No `close` fails, and a descriptor is open exactly as long as one of its handles is there. -/
structure Exact (process : Process) : Prop where
  failures : process.failures = []
  opened : ∀ descriptor, descriptor ∈ process.opened ↔ process.InUse descriptor

structure Held (process : Process) : Prop where
  accounted : Accounted process
  settled : Settled process.handles
  paired : Paired (fun _ => True) process.handles

theorem Held.exact {process : Process} (held : Held process) : Exact process := by
  refine ⟨held.accounted.failures, fun descriptor => (held.accounted.opened descriptor).trans ?_⟩
  constructor
  · rintro ⟨id, stream, origin, side, here, made, rfl, unshut⟩
    obtain ⟨_, known, -, shuts⟩ := held.accounted.kept id stream here
    cases made.symm.trans known
    have shut := (shuts side).not.mp (by simp [unshut])
    rw [not_or, not_or, (held.settled.law id stream here).closes] at shut
    have number : process.handles.number side id ≠ 0 := fun none =>
      shut.2.1 ⟨held.paired id stream trivial here side, none⟩
    exact ⟨shut.1, id, origin, side, made, rfl, Nat.pos_of_ne_zero number⟩
  · rintro ⟨given, id, origin, side, made, rfl, number⟩
    obtain ⟨stream, here, alive⟩ := held.settled.bound side id number
    obtain ⟨_, known, -, shuts⟩ := held.accounted.kept id stream here
    cases made.symm.trans known
    refine ⟨id, stream, origin, side, here, made, rfl, Bool.eq_false_iff.mpr fun shut => ?_⟩
    obtain none | closed | deleted := (shuts side).mp shut
    · exact given none
    · exact number.ne' (((held.settled.law id stream here).closes side).mp closed).2
    · exact deleted alive

end ZSystem.Stream.Table
