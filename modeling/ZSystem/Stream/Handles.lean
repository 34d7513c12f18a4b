import ZSystem.Shared.Holders
import ZSystem.Shared.Transition
import ZSystem.Stream.Struct

set_option autoImplicit false

/-!
# `ZSReader` and `ZSWriter`

Handles share a `ZSStream`, which counts them. The last one of a direction closes it, and the last one of
all deletes the `ZSStream`.
-/

namespace ZSystem.Stream.Handles

open Transition

/-! ## `ZSStream` -/

/--
`stream_struct`, `reader_count` and `writer_count`, with what has happened to the `ZSStream`. There is
no `ZSStream` without a `stream_struct`.
-/
structure ZSStream where
  struct : Struct
  count : Direction -> UInt32
  -- It once had a handle of this direction.
  had : Direction -> Bool
  -- What `UnregisterReader` and `UnregisterWriter` have called of `zs__stream_close_reader` and `.._writer`.
  closes : List Direction
  deletions : Nat

def ZSStream.new (struct : Struct) : ZSStream :=
  { struct := struct, count := fun _ => 0, had := fun _ => false, closes := [], deletions := 0 }

/-- `RegisterReader` and `RegisterWriter`. -/
def ZSStream.register (direction : Direction) (stream : ZSStream) : ZSStream :=
  { stream with
    count := Function.update stream.count direction (stream.count direction + 1)
    had := Function.update stream.had direction true }

/-- `UnregisterReader` and `UnregisterWriter`, and what they return. -/
def ZSStream.unregister (direction : Direction) (stream : ZSStream) : ZSStream × Bool :=
  let counted := { stream with count := Function.update stream.count direction (stream.count direction - 1) }
  let closed :=
    if counted.count direction = 0 then
      { counted with
        struct := (counted.struct.close direction).1
        closes := counted.closes ++ [direction] }
    else counted
  (closed, closed.count .reader = 0 && closed.count .writer = 0)

/-- `~ZSStream`, which destroys the `stream_struct`. -/
def ZSStream.delete (stream : ZSStream) : ZSStream :=
  { stream with
    struct := (stream.struct.closeAll [.reader, .writer]).1
    deletions := stream.deletions + 1 }

/-! ## The handles -/

/-- A handle of the program, an argument of `std::make_pair`, or half of a pair that is not stored. -/
inductive Name where
  | user (number : Nat)
  | temporary
  | returned
  deriving DecidableEq, Repr

structure State where
  streams : Nat -> Option ZSStream
  next : Nat
  handles : Direction -> Holders Name Nat

def State.start : State := { streams := fun _ => none, next := 0, handles := fun _ => .empty }

def State.update (state : State) (target : Option Nat) (change : ZSStream -> ZSStream) : State :=
  match target with
  | none => state
  | some stream =>
      { state with streams := Function.update state.streams stream ((state.streams stream).map change) }

/-- A constructor: the new handle refers to `target`, and is registered where that is not null. -/
def State.construct (state : State) (direction : Direction) (name : Name) (target : Option Nat) : State :=
  let registered := state.update target (ZSStream.register direction)
  { registered with
    handles := Function.update state.handles direction ((state.handles direction).add name target) }

def State.copy (state : State) (direction : Direction) (name source : Name) : State :=
  state.construct direction name ((state.handles direction).target source)

def unregisterOrDelete (direction : Direction) (stream : ZSStream) : ZSStream :=
  let (next, last) := stream.unregister direction
  if last then next.delete else next

/-- `~ZSReader` and `~ZSWriter`. -/
def State.destroy (state : State) (direction : Direction) (name : Name) : State :=
  let released := state.update ((state.handles direction).target name) (unregisterOrDelete direction)
  { released with
    handles := Function.update state.handles direction ((state.handles direction).remove name) }

/-- `operator=`: the handle leaves its stream as if it were destroyed and joins the other one as if it were new. -/
def State.assign (state : State) (direction : Direction) (name source : Name) : State :=
  let target := (state.handles direction).target source
  if target = (state.handles direction).target name then state
  else (state.destroy direction name).construct direction name target

/-- `std::make_pair(ZSReader(*a_stream), ZSWriter(*a_stream))`. -/
def State.makePair (state : State) (target : Option Nat) (reader writer : Name) : State :=
  let temporaries := (state.construct .reader .temporary target).construct .writer .temporary target
  let pair := (temporaries.copy .reader reader .temporary).copy .writer writer .temporary
  (pair.destroy .writer .temporary).destroy .reader .temporary

def State.new (state : State) (struct : Struct) : State :=
  { state with
    streams := Function.update state.streams state.next (some (.new struct))
    next := state.next + 1 }

/-- `ZSStream::Create` and its relatives; there is no origin where `zs__stream_create_*` has returned null. -/
def State.create (state : State) (origin : Option Origin) (reader writer : Name) : State :=
  match origin with
  | none => state.makePair none reader writer
  | some origin => (state.new origin.stream).makePair (some state.next) reader writer

/-! ## Programs -/

inductive Op where
  | create (origin : Option Origin) (reader writer : Nat)
  | default (direction : Direction) (name : Nat)
  | copy (direction : Direction) (name source : Nat)
  | assign (direction : Direction) (name source : Nat)
  | destroy (direction : Direction) (name : Nat)

def State.live (state : State) (direction : Direction) (name : Nat) : Prop :=
  .user name ∈ (state.handles direction).live

instance (state : State) (direction : Direction) (name : Nat) : Decidable (state.live direction name) :=
  inferInstanceAs (Decidable (_ ∈ _))

/-- An operation is disabled where it makes a handle that is there or uses one that is not. -/
def step (state : State) : Op -> Option State
  | .create origin reader writer =>
      if state.live .reader reader ∨ state.live .writer writer then none
      else some (state.create origin (.user reader) (.user writer))
  | .default direction name =>
      if state.live direction name then none else some (state.construct direction (.user name) none)
  | .copy direction name source =>
      if state.live direction name ∨ ¬ state.live direction source then none
      else some (state.copy direction (.user name) (.user source))
  | .assign direction name source =>
      if state.live direction name ∧ state.live direction source then
        some (state.assign direction (.user name) (.user source))
      else none
  | .destroy direction name =>
      if state.live direction name then some (state.destroy direction (.user name)) else none

/-- How many live readers or writers refer to a stream. -/
def State.number (state : State) (direction : Direction) (stream : Nat) : Nat :=
  (state.handles direction).count stream

abbrev State.numbers (state : State) (stream : Nat) (direction : Direction) : Nat := state.number direction stream

/-- How a `ZSStream` follows the numbers of live readers and writers that refer to it. -/
structure Law (stream : ZSStream) (number : Direction -> Nat) : Prop where
  counts : stream.deletions = 0 -> ∀ direction, (stream.count direction).toNat = number direction
  had : ∀ direction, 0 < number direction -> stream.had direction = true
  closes : ∀ direction, direction ∈ stream.closes ↔ stream.had direction = true ∧ number direction = 0
  once : stream.deletions ≤ 1
  deleted : stream.deletions = 1 ↔
    (∃ direction, stream.had direction = true) ∧ ∀ direction, number direction = 0

structure Counted (state : State) : Prop where
  law : ∀ id stream, state.streams id = some stream -> Law stream (state.numbers id)
  bound : ∀ direction id, 0 < state.number direction id ->
    ∃ stream, state.streams id = some stream ∧ stream.deletions = 0

/-- One more handle still fits into the count. -/
def State.Room (state : State) (direction : Direction) (target : Option Nat) : Prop :=
  ∀ stream, target = some stream -> state.number direction stream < 2 ^ 32 - 1

/-- A copy and an assignment from another stream register with a stream that has room for it. -/
def Roomy (state : State) : Op -> Prop
  | .copy direction _ source => state.Room direction ((state.handles direction).target (.user source))
  | .assign direction name source =>
      (state.handles direction).target (.user source) ≠ (state.handles direction).target (.user name) ->
        state.Room direction ((state.handles direction).target (.user source))
  | _ => True

/-! ## One handle more, one handle less -/

section Steps

variable {state : State} {direction other : Direction} {name : Name} {target : Option Nat} {id : Nat}

theorem streams_update (change : ZSStream -> ZSStream) :
    (state.update target change).streams id =
      if target = some id then (state.streams id).map change else state.streams id := by
  cases target with
  | none => rfl
  | some object =>
      by_cases same : object = id
      · subst same
        simp [State.update]
      · simp [State.update, same, Function.update_of_ne (Ne.symm same)]

theorem next_update (change : ZSStream -> ZSStream) : (state.update target change).next = state.next := by
  cases target <;> rfl

@[simp] theorem handles_construct :
    (state.construct direction name target).handles =
      Function.update state.handles direction ((state.handles direction).add name target) :=
  rfl

@[simp] theorem handles_destroy :
    (state.destroy direction name).handles =
      Function.update state.handles direction ((state.handles direction).remove name) :=
  rfl

theorem streams_construct :
    (state.construct direction name target).streams id =
      if target = some id then (state.streams id).map (ZSStream.register direction) else state.streams id :=
  streams_update _

theorem numbers_construct (target : Option Nat) (id : Nat) (fresh : name ∉ (state.handles direction).live) :
    (state.construct direction name target).numbers id =
      if target = some id then
        Function.update (state.numbers id) direction (state.number direction id + 1)
      else state.numbers id := by
  funext other
  by_cases same : other = direction
  · subst same
    have counted := Holders.count_add target id fresh
    split_ifs with joined <;> simpa [State.numbers, State.number, State.construct, joined] using counted
  · split_ifs <;> simp [State.numbers, State.number, State.construct, same]

theorem number_construct_le (fresh : name ∉ (state.handles direction).live) :
    (state.construct direction name target).number other id ≤ state.number other id + 1 := by
  have numbers := congrFun (numbers_construct target id fresh) other
  by_cases same : other = direction
  · subst same
    split_ifs at numbers
    · exact (numbers.trans (Function.update_self ..)).le
    · exact numbers.le.trans (Nat.le_succ _)
  · split_ifs at numbers
    · exact (numbers.trans (Function.update_of_ne same ..)).le.trans (Nat.le_succ _)
    · exact numbers.le.trans (Nat.le_succ _)

theorem streams_destroy :
    (state.destroy direction name).streams id =
      if (state.handles direction).target name = some id then
        (state.streams id).map (unregisterOrDelete direction) else state.streams id :=
  streams_update _

theorem numbers_destroy (id : Nat) (live : name ∈ (state.handles direction).live) :
    (state.destroy direction name).numbers id =
      if (state.handles direction).target name = some id then
        Function.update (state.numbers id) direction (state.number direction id - 1)
      else state.numbers id := by
  funext other
  by_cases same : other = direction
  · subst same
    have counted := Holders.count_remove id live
    split_ifs with left <;> simp only [left, if_true, if_false] at counted <;>
      simp [State.numbers, State.number, State.destroy, counted]
  · split_ifs <;> simp [State.numbers, State.number, State.destroy, same]

section Unregister

variable {stream : ZSStream}

theorem unregister_count :
    (stream.unregister direction).1.count =
      Function.update stream.count direction (stream.count direction - 1) := by
  simp only [ZSStream.unregister]
  split_ifs <;> rfl

theorem unregister_closes :
    (stream.unregister direction).1.closes =
      if stream.count direction - 1 = 0 then stream.closes ++ [direction] else stream.closes := by
  simp only [ZSStream.unregister, Function.update_self]
  split_ifs <;> rfl

theorem unregister_kept :
    (stream.unregister direction).1.had = stream.had ∧
      (stream.unregister direction).1.deletions = stream.deletions := by
  simp only [ZSStream.unregister]
  split_ifs <;> exact ⟨rfl, rfl⟩

theorem unregister_last :
    (stream.unregister direction).2 = true ↔ ∀ other, (stream.unregister direction).1.count other = 0 := by
  have both : (stream.unregister direction).2 = true ↔
      (stream.unregister direction).1.count .reader = 0 ∧ (stream.unregister direction).1.count .writer = 0 := by
    simp [ZSStream.unregister]
  refine both.trans ⟨fun zero other => ?_, fun all => ⟨all .reader, all .writer⟩⟩
  cases other with
  | reader => exact zero.1
  | writer => exact zero.2

/-- Beyond the counts, the last handle of all only deletes. -/
theorem unregisterOrDelete_cases :
    (∃ struct, unregisterOrDelete direction stream =
        { (stream.unregister direction).1 with struct := struct, deletions := stream.deletions + 1 }) ∧
      (∀ other, (stream.unregister direction).1.count other = 0) ∨
    unregisterOrDelete direction stream = (stream.unregister direction).1 ∧
      ¬ ∀ other, (stream.unregister direction).1.count other = 0 := by
  rw [← unregister_last]
  unfold unregisterOrDelete
  cases last : (stream.unregister direction).2 with
  | true =>
      refine Or.inl ⟨⟨((stream.unregister direction).1.struct.closeAll [.reader, .writer]).1, ?_⟩, rfl⟩
      simp [last, ZSStream.delete, unregister_kept.2]
  | false => exact Or.inr ⟨by simp [last], by simp⟩

end Unregister

end Steps

/-! ## The law of the counts -/

section Law

variable {stream : ZSStream} {number : Direction -> Nat} {direction : Direction}

theorem Law.new (struct : Struct) : Law (.new struct) fun _ => 0 := by
  refine ⟨fun _ _ => rfl, fun _ some => absurd some (lt_irrefl 0), fun _ => ?_, Nat.zero_le 1, ?_⟩ <;>
    simp [ZSStream.new]

theorem Law.alive (law : Law stream number) (some : 0 < number direction) : stream.deletions = 0 := by
  have : stream.deletions ≠ 1 := fun one => some.ne' ((law.deleted.mp one).2 direction)
  have := law.once
  omega

theorem Law.register (law : Law stream number) (alive : stream.deletions = 0)
    (joins : stream.had direction = true -> 0 < number direction) (room : number direction < 2 ^ 32 - 1) :
    Law (stream.register direction) (Function.update number direction (number direction + 1)) := by
  have count := law.counts alive direction
  refine ⟨fun _ other => ?_, fun other some => ?_, fun other => ?_, law.once, ?_⟩
  · by_cases same : other = direction
    · subst same
      simp only [ZSStream.register, Function.update_self, UInt32.toNat_add, count]
      exact Nat.mod_eq_of_lt (by simp only [UInt32.toNat_one]; omega)
    · simpa [ZSStream.register, same] using law.counts alive other
  · by_cases same : other = direction
    · simp [ZSStream.register, same]
    · simpa [ZSStream.register, same] using law.had other (by simpa [same] using some)
  · by_cases same : other = direction
    · subst same
      simpa [ZSStream.register, law.closes] using fun had => (joins had).ne'
    · simpa [ZSStream.register, same] using law.closes other
  · simp only [ZSStream.register, alive, zero_ne_one, false_iff]
    rintro ⟨-, none⟩
    simpa using none direction

theorem Law.unregister_counts (law : Law stream number) (some : 0 < number direction) (other : Direction) :
    ((stream.unregister direction).1.count other).toNat =
      Function.update number direction (number direction - 1) other := by
  have counts := law.counts (law.alive some)
  rw [unregister_count]
  by_cases same : other = direction
  · subst same
    rw [Function.update_self, Function.update_self, ← counts]
    exact UInt32.toNat_sub_of_le _ _ (UInt32.le_iff_toNat_le.mpr (by rw [counts]; exact some))
  · rw [Function.update_of_ne same, Function.update_of_ne same]
    exact counts other

theorem Law.unregister_zero (law : Law stream number) (some : 0 < number direction) (other : Direction) :
    (stream.unregister direction).1.count other = 0 ↔
      Function.update number direction (number direction - 1) other = 0 := by
  rw [← law.unregister_counts some, ← UInt32.toNat_inj]
  rfl

theorem Law.unregister_closes (law : Law stream number) (some : 0 < number direction) (other : Direction) :
    other ∈ (stream.unregister direction).1.closes ↔
      stream.had other = true ∧ Function.update number direction (number direction - 1) other = 0 := by
  have last := law.unregister_zero some direction
  rw [unregister_count, Function.update_self, Function.update_self] at last
  rw [Handles.unregister_closes]
  by_cases same : other = direction
  · subst same
    have before : other ∉ stream.closes := fun member => some.ne' ((law.closes other).mp member).2
    simp only [Function.update_self, ← last, law.had other some, true_and]
    split_ifs with none <;> simp [before, none]
  · simp only [Function.update_of_ne same, ← law.closes]
    split_ifs <;> simp [same]

theorem Law.unregisterOrDelete (law : Law stream number) (some : 0 < number direction) :
    Law (unregisterOrDelete direction stream) (Function.update number direction (number direction - 1)) := by
  have alive := law.alive some
  obtain ⟨had, deletions⟩ := @unregister_kept direction stream
  have zero := law.unregister_zero some
  have more (other : Direction) (left : 0 < Function.update number direction (number direction - 1) other) :
      stream.had other = true := by
    by_cases same : other = direction
    · exact law.had other (same ▸ some)
    · exact law.had other (by simpa [same] using left)
  obtain ⟨⟨struct, deleted⟩, all⟩ | ⟨kept, still⟩ := @unregisterOrDelete_cases direction stream
  · rw [deleted]
    refine ⟨fun none => absurd none (Nat.succ_ne_zero _), had ▸ more, ?_, by simp [alive], ?_⟩
    · exact had ▸ law.unregister_closes some
    · simp only [alive, had, zero_add, true_iff]
      exact ⟨⟨direction, law.had direction some⟩, fun other => (zero other).mp (all other)⟩
  · rw [kept]
    refine ⟨fun _ => law.unregister_counts some, had ▸ more, ?_, deletions ▸ law.once, ?_⟩
    · exact had ▸ law.unregister_closes some
    · simp only [deletions, alive, zero_ne_one, false_iff]
      exact fun ended => still fun other => (zero other).mpr (ended.2 other)

end Law

structure Valid (state : State) : Prop extends Counted state where
  fresh : ∀ id, state.next ≤ id -> state.streams id = none

section Valid

variable {state : State} {direction : Direction} {name : Name} {target : Option Nat}

/-- A new handle may join a stream that is not deleted and whose handles of this direction are not all gone. -/
def State.Joins (state : State) (direction : Direction) (target : Option Nat) : Prop :=
  ∀ id, target = some id -> ∃ stream, state.streams id = some stream ∧ stream.deletions = 0 ∧
    (stream.had direction = true -> 0 < state.number direction id)

theorem Valid.construct (valid : Valid state) (fresh : name ∉ (state.handles direction).live)
    (joins : state.Joins direction target) (room : state.Room direction target) :
    Valid (state.construct direction name target) := by
  refine ⟨⟨fun id stream found => ?_, fun other id more => ?_⟩, fun id beyond => ?_⟩
  · rw [streams_construct] at found
    rw [numbers_construct target id fresh]
    split_ifs at found ⊢ with joined
    · obtain ⟨before, here, alive, most⟩ := joins id joined
      rw [here] at found
      cases found
      exact (valid.law id before here).register alive most (room id joined)
    · exact valid.law id stream found
  · rw [streams_construct]
    by_cases joined : target = some id
    · obtain ⟨before, here, alive, -⟩ := joins id joined
      rw [if_pos joined, here]
      exact ⟨_, rfl, alive⟩
    · have same := congrFun (numbers_construct target id fresh) other
      rw [if_neg joined] at same ⊢
      exact valid.bound other id (more.trans_eq same)
  · rw [streams_construct, valid.fresh id (next_update _ ▸ beyond)]
    simp

theorem Valid.destroy (valid : Valid state) (live : name ∈ (state.handles direction).live) :
    Valid (state.destroy direction name) := by
  have some {id : Nat} (left : (state.handles direction).target name = .some id) : 0 < state.number direction id :=
    Holders.count_pos_iff.mpr ⟨name, live, left⟩
  refine ⟨⟨fun id stream found => ?_, fun other id more => ?_⟩, fun id beyond => ?_⟩
  · rw [streams_destroy] at found
    rw [numbers_destroy id live]
    split_ifs at found ⊢ with left
    · obtain ⟨before, here, rfl⟩ := Option.map_eq_some_iff.mp found
      exact (valid.law id before here).unregisterOrDelete (some left)
    · exact valid.law id stream found
  · have same := congrFun (numbers_destroy id live) other
    rw [streams_destroy]
    split_ifs at same ⊢ with left
    · obtain ⟨before, here, alive⟩ := valid.bound direction id (some left)
      have law := (valid.law id before here).unregisterOrDelete (some left)
      rw [here]
      exact ⟨_, rfl, law.alive (more.trans_eq same)⟩
    · exact valid.bound other id (more.trans_eq same)
  · rw [streams_destroy, valid.fresh id (next_update _ ▸ beyond)]
    simp

theorem Valid.joins (valid : Valid state) (live : name ∈ (state.handles direction).live) :
    state.Joins direction ((state.handles direction).target name) := fun id left => by
  have some := Holders.count_pos_iff.mpr ⟨name, live, left⟩
  obtain ⟨stream, here, alive⟩ := valid.bound direction id some
  exact ⟨stream, here, alive, fun _ => some⟩

theorem Valid.copy (valid : Valid state) {source : Name} (fresh : name ∉ (state.handles direction).live)
    (live : source ∈ (state.handles direction).live)
    (room : state.Room direction ((state.handles direction).target source)) :
    Valid (state.copy direction name source) :=
  valid.construct fresh (valid.joins live) room

theorem Valid.assign (valid : Valid state) {source : Name} (live : name ∈ (state.handles direction).live)
    (present : source ∈ (state.handles direction).live)
    (room : (state.handles direction).target source ≠ (state.handles direction).target name ->
      state.Room direction ((state.handles direction).target source)) :
    Valid (state.assign direction name source) := by
  simp only [State.assign]
  split_ifs with same
  · exact valid
  · have differ : source ≠ name := fun equal => same (by rw [equal])
    have left := valid.destroy live
    have kept : (state.destroy direction name).handles direction = (state.handles direction).remove name :=
      Function.update_self ..
    refine left.construct (by simp [kept]) ?_ fun id joined => ?_
    · have joins := left.joins (show source ∈ ((state.destroy direction name).handles direction).live by
        simp [kept, differ, present])
      rwa [kept] at joins
    · have numbers := congrFun (numbers_destroy id live) direction
      rw [if_neg fun other => same (joined.trans other.symm)] at numbers
      exact numbers.trans_lt (room same id joined)

theorem Valid.new (valid : Valid state) (struct : Struct) : Valid (state.new struct) := by
  have none (direction : Direction) : state.number direction state.next = 0 := by
    by_contra some
    obtain ⟨stream, here, -⟩ := valid.bound direction _ (Nat.pos_of_ne_zero some)
    rw [valid.fresh _ le_rfl] at here
    cases here
  refine ⟨⟨fun id stream found => ?_, fun direction id some => ?_⟩, fun id beyond => ?_⟩
  · by_cases same : id = state.next
    · subst same
      have made : stream = .new struct := by simpa [State.new] using found.symm
      rw [made, show (state.new struct).numbers state.next = fun _ => 0 from funext none]
      exact Law.new struct
    · exact valid.law id stream (by simpa [State.new, same] using found)
  · have differ : id ≠ state.next := fun same => some.ne' (same ▸ none direction)
    simpa [State.new, differ] using valid.bound direction id some
  · have differ : id ≠ state.next := (Nat.lt_of_succ_le beyond).ne'
    simpa [State.new, differ] using valid.fresh id (Nat.le_of_succ_le beyond)

/-- A stream that no handle has joined yet. -/
def State.Untouched (state : State) (id : Nat) : Prop :=
  ∃ stream, state.streams id = some stream ∧ stream.deletions = 0 ∧
    ∀ direction, stream.had direction = false ∧ state.number direction id = 0

theorem Valid.makePair (valid : Valid state) {reader writer : Nat}
    (temporaries : ∀ direction, .temporary ∉ (state.handles direction).live)
    (noReader : .user reader ∉ (state.handles .reader).live)
    (noWriter : .user writer ∉ (state.handles .writer).live)
    (untouched : ∀ id, target = some id -> state.Untouched id) :
    Valid (state.makePair target (.user reader) (.user writer)) := by
  let first := state.construct .reader .temporary target
  let second := first.construct .writer .temporary target
  let third := second.copy .reader (.user reader) .temporary
  let fourth := third.copy .writer (.user writer) .temporary
  let fifth := fourth.destroy .writer .temporary
  have reads (name : Name) : name ∈ (second.handles .reader).live ↔
      name = .temporary ∨ name ∈ (state.handles .reader).live := by
    simp [second, first]
  have writes (name : Name) : name ∈ (third.handles .writer).live ↔
      name = .temporary ∨ name ∈ (state.handles .writer).live := by
    simp [third, second, first, State.copy]
  have unwritten : .temporary ∉ (first.handles .writer).live := by simpa [first] using temporaries .writer
  have toReader : (second.handles .reader).target .temporary = target := by simp [second, first]
  have toWriter : (third.handles .writer).target .temporary = target := by simp [third, second, State.copy]
  have few (direction : Direction) (id : Nat) (joined : target = some id) :
      state.number direction id = 0 ∧ first.number direction id ≤ 1 ∧ second.number direction id ≤ 2 ∧
        third.number direction id ≤ 3 := by
    obtain ⟨_, _, _, nobody⟩ := untouched id joined
    have none := (nobody direction).2
    have atFirst : first.number direction id ≤ _ := number_construct_le (temporaries .reader)
    have atSecond : second.number direction id ≤ _ := number_construct_le unwritten
    have atThird : third.number direction id ≤ _ := number_construct_le (by simpa [reads] using noReader)
    omega
  have one : Valid first := by
    refine valid.construct (temporaries .reader) (fun id joined => ?_) fun id joined => ?_
    · obtain ⟨stream, here, alive, nobody⟩ := untouched id joined
      exact ⟨stream, here, alive, fun had => by simp [(nobody .reader).1] at had⟩
    · have := few .reader id joined
      omega
  have two : Valid second := by
    refine one.construct unwritten (fun id joined => ?_) fun id joined => ?_
    · obtain ⟨stream, here, alive, nobody⟩ := untouched id joined
      refine ⟨stream.register .reader, by simp [first, streams_construct, joined, here], alive, fun had => ?_⟩
      simp [ZSStream.register, (nobody .writer).1] at had
    · have := few .writer id joined
      omega
  have three : Valid third := by
    refine two.copy (by simpa [reads] using noReader) (by simp [reads]) fun id joined => ?_
    have := few .reader id (toReader ▸ joined)
    omega
  have four : Valid fourth := by
    refine three.copy (by simpa [writes] using noWriter) (by simp [writes]) fun id joined => ?_
    have := few .writer id (toWriter ▸ joined)
    omega
  have five : Valid fifth := four.destroy (by simp [fourth, writes, State.copy])
  exact five.destroy (by simp [fifth, fourth, third, State.copy, reads])

end Valid

/-! ## Programs -/

/-- Between two operations there are no temporaries. -/
structure Settled (state : State) : Prop extends Valid state where
  temporaries : ∀ direction, .temporary ∉ (state.handles direction).live

theorem Settled.start : Settled .start := by
  refine ⟨⟨⟨fun id stream found => ?_, fun direction id some => ?_⟩, fun _ _ => rfl⟩, fun direction => ?_⟩
  · cases found
  · exact absurd some (lt_irrefl 0)
  · exact Finset.notMem_empty _

section Temporaries

variable {state : State} {direction : Direction} {target : Option Nat} {number : Nat}
  (temporaries : ∀ direction, .temporary ∉ (state.handles direction).live)

include temporaries

theorem construct_temporaries (other : Direction) :
    .temporary ∉ ((state.construct direction (.user number) target).handles other).live := by
  by_cases same : other = direction <;> simp [same, temporaries]

theorem destroy_temporaries (other : Direction) :
    .temporary ∉ ((state.destroy direction (.user number)).handles other).live := by
  by_cases same : other = direction <;> simp [same, temporaries]

theorem makePair_temporaries {reader writer : Nat} (direction : Direction) :
    .temporary ∉ ((state.makePair target (.user reader) (.user writer)).handles direction).live := by
  cases direction <;> simp [State.makePair, State.copy, temporaries]

end Temporaries

theorem step_settled (state : State) (op : Op) (next : State) (settled : Settled state) (roomy : Roomy state op)
    (taken : step state op = some next) : Settled next := by
  have valid := settled.toValid
  have temporaries := settled.temporaries
  cases op with
  | create origin reader writer =>
      simp only [step] at taken
      split_ifs at taken with free
      cases taken
      obtain ⟨noReader, noWriter⟩ := not_or.mp free
      cases origin with
      | none =>
          refine ⟨valid.makePair temporaries noReader noWriter fun id made => ?_, makePair_temporaries temporaries⟩
          cases made
      | some origin =>
          refine ⟨(valid.new origin.stream).makePair temporaries noReader noWriter fun id made => ?_,
            makePair_temporaries temporaries⟩
          cases made
          refine ⟨.new origin.stream, by simp [State.new], rfl, fun direction => ⟨rfl, ?_⟩⟩
          by_contra some
          obtain ⟨stream, here, -⟩ := valid.bound direction state.next (Nat.pos_of_ne_zero some)
          simp [valid.fresh state.next le_rfl] at here
  | default direction name =>
      simp only [step] at taken
      split_ifs at taken with free
      cases taken
      refine ⟨valid.construct free (fun id none => ?_) fun id none => ?_, construct_temporaries temporaries⟩
      · cases none
      · cases none
  | copy direction name source =>
      simp only [step] at taken
      split_ifs at taken with free
      cases taken
      obtain ⟨free, live⟩ := not_or.mp free
      exact ⟨valid.copy free (not_not.mp live) roomy, construct_temporaries temporaries⟩
  | assign direction name source =>
      simp only [step] at taken
      split_ifs at taken with live
      cases taken
      refine ⟨valid.assign live.1 live.2 roomy, ?_⟩
      simp only [State.assign]
      split_ifs
      · exact temporaries
      · exact construct_temporaries (destroy_temporaries temporaries)
  | destroy direction name =>
      simp only [step] at taken
      split_ifs at taken with live
      cases taken
      exact ⟨valid.destroy live, destroy_temporaries temporaries⟩

theorem construct_full {state : State} {direction : Direction} {name : Name} {target : Option Nat}
    (fresh : name ∉ (state.handles direction).live) (full : ¬ state.Room direction target) :
    ¬ Counted (state.construct direction name target) := by
  intro counted
  simp only [State.Room, not_forall, not_lt] at full
  obtain ⟨id, joined, many⟩ := full
  have more : (state.construct direction name target).number direction id = state.number direction id + 1 := by
    simpa [joined] using congrFun (numbers_construct target id fresh) direction
  obtain ⟨stream, here, alive⟩ := counted.bound direction id (by omega)
  have count : (stream.count direction).toNat = (state.construct direction name target).number direction id :=
    (counted.law id stream here).counts alive direction
  have := (stream.count direction).toNat_lt
  omega

theorem step_full (state : State) (op : Op) (next : State) (full : ¬ Roomy state op)
    (taken : step state op = some next) : ¬ Counted next := by
  cases op with
  | create _ _ _ => exact absurd trivial full
  | default _ _ => exact absurd trivial full
  | destroy _ _ => exact absurd trivial full
  | copy direction name source =>
      simp only [step] at taken
      split_ifs at taken with free
      cases taken
      exact construct_full (not_or.mp free).1 full
  | assign direction name source =>
      simp only [step] at taken
      split_ifs at taken with live
      cases taken
      obtain ⟨differ, full⟩ := Classical.not_imp.mp full
      rw [State.assign, if_neg differ]
      refine construct_full (by simp) fun room => full fun id joined => ?_
      have numbers := congrFun (numbers_destroy id live.1) direction
      rw [if_neg fun other => differ (joined.trans other.symm)] at numbers
      exact numbers.symm.trans_lt (room id joined)

/-- The handles are counted exactly as long as no stream gets more readers, or writers, than the count can hold. -/
theorem counted_iff (program : List Op) (runs : (exec step .start program).isSome) :
    Throughout step Counted .start program ↔ Along step Roomy .start program :=
  throughout_iff_along Settled (fun _ settled => settled.toCounted)
    (fun state op next settled roomy taken => step_settled state op next settled roomy taken)
    (fun state op next _ full taken => step_full state op next full taken) .start runs

/-- A stream with a reader and a writer. -/
def Op.first : Op := .create (some (.socket 3 none (by decide))) 0 0

/-- Two streams; the reader of the second one is assigned a copy of the reader of the first, which is destroyed. -/
def assignCopy : List Op :=
  [.first, .create (some (.socket 4 none (by decide))) 1 1, .copy .reader 2 0, .assign .reader 1 2,
    .destroy .reader 0]

theorem counted_iff_assignCopy : Throughout step Counted .start assignCopy := by
  refine (counted_iff assignCopy rfl).mpr ⟨trivial, fun _ first => ⟨trivial, fun _ second => ?_⟩⟩
  cases first
  cases second
  refine ⟨fun _ same => ?_, fun _ copied => ⟨fun _ _ same => ?_, fun _ assigned => ⟨trivial, fun _ _ => trivial⟩⟩⟩
  · cases same
    decide
  · cases copied
    cases same
    decide

theorem copies (more : Nat) : ∃ state, Reachable step .start state ∧ state.number .reader 0 = more + 1 ∧
    state.live .reader 0 ∧ (state.handles .reader).target (.user 0) = some 0 ∧
    ∀ number, more < number -> ¬ state.live .reader number := by
  induction more with
  | zero =>
      have made : step .start .first = some _ := rfl
      refine ⟨_, .tail .refl trivial made, rfl, by decide, rfl, fun number above => ?_⟩
      have differ : number ≠ 0 := by omega
      simp [State.live, State.create, State.makePair, State.copy, State.new, State.start, Holders.empty, differ]
  | succ more ih =>
      obtain ⟨state, reached, number, live, target, free⟩ := ih
      have fresh : ¬ state.live .reader (more + 1) := free _ (Nat.lt_succ_self _)
      have copied : step state (.copy .reader (more + 1) 0) =
          some (state.copy .reader (.user (more + 1)) (.user 0)) := by
        simp [step, fresh, live]
      have numbers := congrFun (numbers_construct (some 0) 0 fresh) .reader
      refine ⟨_, .tail reached trivial copied, ?_, ?_, ?_, fun other above => ?_⟩
      · rw [State.copy, target]
        simpa [number] using numbers
      · simpa [State.live, State.copy] using live
      · simp [State.copy, target, Holders.target_add_of_ne]
      · have differ : other ≠ more + 1 := by omega
        simpa [State.live, State.copy, differ] using free other (by omega)

theorem readers_overflow : ¬ ∀ state, Reachable step .start state -> Counted state := by
  intro counted
  obtain ⟨state, reached, number, -⟩ := copies (2 ^ 32 - 1)
  have holds := counted state reached
  obtain ⟨stream, here, alive⟩ := holds.bound .reader 0 (by omega)
  have count : (stream.count .reader).toNat = state.number .reader 0 :=
    (holds.law 0 stream here).counts alive .reader
  have := (stream.count .reader).toNat_lt
  omega

/-! ## A destroyed stream stays destroyed -/

/-- `~ZSStream` has destroyed the `zs__stream`. -/
def State.destroyed (state : State) (id : Nat) : Bool :=
  (state.streams id).any fun stream => stream.deletions ≠ 0

/-- No stream lies beyond the next one. -/
def State.Bounded (state : State) : Prop :=
  ∀ id, state.next ≤ id -> state.streams id = none

/-- What is destroyed before is destroyed afterwards. -/
structure Lasts (state next : State) : Prop where
  bounded : next.Bounded
  destroyed : ∀ id, state.destroyed id = true -> next.destroyed id = true

section Lasts

variable {state : State} {direction : Direction} {name : Name} {target : Option Nat} {id : Nat}

theorem Lasts.refl (bounded : state.Bounded) : Lasts state state := ⟨bounded, fun _ => id⟩

theorem Lasts.trans {middle next : State} (first : Lasts state middle) (second : Lasts middle next) :
    Lasts state next :=
  ⟨second.bounded, fun id gone => second.destroyed id (first.destroyed id gone)⟩

theorem destroyed_iff :
    state.destroyed id = true ↔ ∃ stream, state.streams id = some stream ∧ stream.deletions ≠ 0 := by
  simp [State.destroyed, Option.any_eq_true]

theorem State.Bounded.update (bounded : state.Bounded) {change : ZSStream -> ZSStream}
    (kept : ∀ stream : ZSStream, stream.deletions ≤ (change stream).deletions) :
    Lasts state (state.update target change) := by
  refine ⟨fun id beyond => ?_, fun id gone => ?_⟩
  · rw [next_update] at beyond
    rw [streams_update, bounded id beyond]
    split_ifs <;> rfl
  · obtain ⟨stream, here, deleted⟩ := destroyed_iff.mp gone
    rw [destroyed_iff, streams_update, here]
    have more := kept stream
    split_ifs
    · exact ⟨change stream, rfl, by omega⟩
    · exact ⟨stream, rfl, deleted⟩

theorem State.Bounded.construct (bounded : state.Bounded) (direction : Direction) (name : Name)
    (target : Option Nat) : Lasts state (state.construct direction name target) := by
  have registered : Lasts state (state.update target (ZSStream.register direction)) :=
    bounded.update fun _ => le_rfl
  exact ⟨registered.bounded, registered.destroyed⟩

theorem State.Bounded.copy (bounded : state.Bounded) (direction : Direction) (name source : Name) :
    Lasts state (state.copy direction name source) :=
  bounded.construct ..

theorem unregisterOrDelete_deletions (stream : ZSStream) :
    stream.deletions ≤ (unregisterOrDelete direction stream).deletions := by
  have kept : (stream.unregister direction).1.deletions = stream.deletions := by
    simp only [ZSStream.unregister]
    split_ifs <;> rfl
  simp only [unregisterOrDelete]
  split_ifs
  · exact kept.ge.trans (Nat.le_succ _)
  · exact kept.ge

theorem State.Bounded.destroy (bounded : state.Bounded) (direction : Direction) (name : Name) :
    Lasts state (state.destroy direction name) := by
  have released : Lasts state
      (state.update ((state.handles direction).target name) (Handles.unregisterOrDelete direction)) :=
    bounded.update unregisterOrDelete_deletions
  exact ⟨released.bounded, released.destroyed⟩

theorem State.Bounded.assign (bounded : state.Bounded) (direction : Direction) (name source : Name) :
    Lasts state (state.assign direction name source) := by
  simp only [State.assign]
  split_ifs
  · exact .refl bounded
  · have left := bounded.destroy direction name
    exact left.trans (left.bounded.construct ..)

theorem State.Bounded.makePair (bounded : state.Bounded) (reader writer : Name) :
    Lasts state (state.makePair target reader writer) := by
  have one := bounded.construct .reader .temporary target
  have two := one.trans (one.bounded.construct .writer .temporary target)
  have three := two.trans (two.bounded.copy .reader reader .temporary)
  have four := three.trans (three.bounded.copy .writer writer .temporary)
  have five := four.trans (four.bounded.destroy .writer .temporary)
  exact five.trans (five.bounded.destroy ..)

theorem State.Bounded.new (bounded : state.Bounded) (struct : Struct) : Lasts state (state.new struct) := by
  refine ⟨fun id beyond => ?_, fun id gone => ?_⟩
  · have differ : id ≠ state.next := (Nat.lt_of_succ_le beyond).ne'
    simpa [State.new, differ] using bounded id (Nat.le_of_succ_le beyond)
  · obtain ⟨stream, here, deleted⟩ := destroyed_iff.mp gone
    have differ : id ≠ state.next := fun same => by
      rw [bounded id same.ge] at here
      cases here
    exact destroyed_iff.mpr ⟨stream, by simpa [State.new, differ] using here, deleted⟩

theorem State.Bounded.create (bounded : state.Bounded) (origin : Option Origin) (reader writer : Name) :
    Lasts state (state.create origin reader writer) := by
  cases origin with
  | none => exact bounded.makePair reader writer
  | some origin =>
      have new := bounded.new origin.stream
      exact new.trans (new.bounded.makePair reader writer)

theorem State.Bounded.step {next : State} (bounded : state.Bounded) (op : Op) (taken : step state op = some next) :
    Lasts state next := by
  cases op with
  | create origin reader writer =>
      simp only [Handles.step] at taken
      split_ifs at taken
      exact Option.some.inj taken ▸ bounded.create ..
  | default direction name =>
      simp only [Handles.step] at taken
      split_ifs at taken
      exact Option.some.inj taken ▸ bounded.construct ..
  | copy direction name source =>
      simp only [Handles.step] at taken
      split_ifs at taken
      exact Option.some.inj taken ▸ bounded.construct ..
  | assign direction name source =>
      simp only [Handles.step] at taken
      split_ifs at taken
      exact Option.some.inj taken ▸ bounded.assign ..
  | destroy direction name =>
      simp only [Handles.step] at taken
      split_ifs at taken
      exact Option.some.inj taken ▸ bounded.destroy ..

theorem State.Bounded.reach {next : State} (bounded : state.Bounded) (reached : Reachable Handles.step state next) :
    Lasts state next :=
  reached.invariant (Lasts state) (.refl bounded) fun _ op _ before _ taken =>
    before.trans (before.bounded.step op taken)

theorem bounded_start : State.start.Bounded := fun _ _ => rfl

end Lasts

end ZSystem.Stream.Handles
