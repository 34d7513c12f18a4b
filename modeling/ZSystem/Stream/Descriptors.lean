import ZSystem.Stream.Struct
import ZSystem.Shared.Transition

set_option autoImplicit false

/-!
# What a stream does to its descriptors

Every descriptor that a stream was given is closed once. A read, a write or a query of the local address
does not look at `closed` first.
-/

namespace ZSystem.Stream

open Transition

/-! ## Closing -/

/--
Whatever directions are closed before the stream is destroyed, each valid descriptor is closed once: as
soon as every direction that it serves has been closed.
-/
theorem closes_once (origin : Origin) (sequence : List Direction) :
    (∀ descriptor, ((origin.stream.closeAll sequence).2 ++
        streamDestroy (origin.stream.closeAll sequence).1).count descriptor =
      if origin.Given descriptor then 1 else 0) ∧
    ∀ descriptor, descriptor ∈ (origin.stream.closeAll sequence).2 ↔
      origin.Given descriptor ∧
        ∀ direction, origin.descriptor direction = descriptor -> direction ∈ sequence := by
  obtain ⟨before, shut⟩ := origin.ledger.closeAll sequence
  obtain ⟨after, all⟩ := before.closeAll [.reader, .writer]
  simp only [List.nil_append] at before after
  refine ⟨fun descriptor => ?_, fun descriptor => ?_⟩
  · have settled := after.settled descriptor
    have everything (direction : Direction) : direction ∈ [Direction.reader, .writer] := by
      cases direction <;> simp
    rw [streamDestroy]
    split_ifs with given
    · exact List.count_eq_one_of_mem after.once (settled.mpr
        ⟨given, fun direction _ => (all direction).mpr (Or.inl (everything direction))⟩)
    · exact List.count_eq_zero.mpr fun member => given (settled.mp member).1
  · rw [before.settled]
    refine and_congr_right fun given => forall_congr' fun direction => imp_congr_right fun same => ?_
    rw [shut, origin.shut_iff, same]
    simp [given.1]

/-! ## System calls -/

inductive Syscall where
  | read
  | write
  | recv
  | send
  | poll
  | getsockname
  deriving DecidableEq, Repr

structure Issued where
  call : Syscall
  descriptor : Int
  deriving DecidableEq, Repr

/-- What the system answers to the calls of one operation. -/
structure Answer where
  -- How often a signal ends `recv` before it returns otherwise.
  interrupted : Nat
  transferred : Int
  -- `revents` after the `poll` for a direction; a socket is polled once, for the reader.
  revents : Direction -> UInt32
  -- The address and the port that `getsockname` finds.
  name : Option (UInt32 × UInt16)

/-- The value that a transfer returns: -1, or at most the bytes that were asked for and that Linux allows. -/
def Answer.back (answer : Answer) (descriptor : Int) (size : UInt32) : Int :=
  if descriptor < 0 then -1 else max (-1) (min answer.transferred (min size.toNat 0x7ffff000))

def Struct.readPipe (stream : Struct) (size : UInt32) (answer : Answer) : List Issued × UInt32 :=
  let back := answer.back stream.reader size
  ([⟨.read, stream.reader⟩], if back ≤ 0 then 0 else UInt32.ofNat back.toNat)

def Struct.writePipe (stream : Struct) (size : UInt32) (answer : Answer) : List Issued × UInt32 :=
  let back := answer.back stream.writer size
  ([⟨.write, stream.writer⟩], if back < 0 then 0 else UInt32.ofNat back.toNat)

def Struct.readSocket (stream : Struct) (size : UInt32) (answer : Answer) : List Issued × UInt32 :=
  let back := answer.back stream.socket size
  (List.replicate (answer.interrupted + 1) ⟨.recv, stream.socket⟩,
    if back = -1 then 0 else UInt32.ofNat back.toNat)

def Struct.writeSocket (stream : Struct) (size : UInt32) (answer : Answer) : List Issued × UInt32 :=
  let back := answer.back stream.socket size
  ([⟨.send, stream.socket⟩], if back < 0 then 0 else UInt32.ofNat back.toNat)

def readerFlags (revents : UInt32) : UInt32 :=
  if revents &&& (pollErr ||| pollHup ||| pollNval) ≠ 0 then readerClosed
  else if revents &&& (pollIn ||| pollPri) = 0 then readerEof
  else 0

def writerFlags (revents : UInt32) : UInt32 :=
  if revents &&& (pollErr ||| pollHup ||| pollNval) ≠ 0 then writerClosed else 0

def Struct.statePipe (stream : Struct) (answer : Answer) : List Issued × UInt32 :=
  let (ofReader, reader) :=
    if stream.closed &&& 0x01 ≠ 0 then ([], readerClosed)
    else ([⟨.poll, stream.reader⟩], readerFlags (answer.revents .reader))
  let (ofWriter, writer) :=
    if stream.closed &&& 0x02 ≠ 0 then ([], writerClosed)
    else ([⟨.poll, stream.writer⟩], writerFlags (answer.revents .writer))
  (ofReader ++ ofWriter, reader ||| writer)

def socketFlags (revents : UInt32) : UInt32 :=
  (if revents &&& (pollErr ||| pollNval) ≠ 0 then readerClosed ||| writerClosed
    else if revents &&& pollHup ≠ 0 then
      writerClosed ||| (if revents &&& pollPri = 0 then readerClosed else 0)
    else 0) |||
  (if revents &&& (pollIn ||| pollPri) = 0 then readerEof else 0)

def Struct.stateSocket (stream : Struct) (answer : Answer) : List Issued × UInt32 :=
  let back := (if stream.closed &&& 0x01 ≠ 0 then readerClosed else 0) |||
    (if stream.closed &&& 0x02 ≠ 0 then writerClosed else 0)
  if stream.closed &&& 0x03 = 0 then
    ([⟨.poll, stream.socket⟩], back ||| socketFlags (answer.revents .reader))
  else ([], back)

def streamRead (stream : Struct) (size : UInt32) (answer : Answer) : List Issued × UInt32 :=
  if size = 0 then ([], 0) else
    match stream.read with
    | .pipe => stream.readPipe size answer
    | .socket => stream.readSocket size answer

def streamWrite (stream : Struct) (size : UInt32) (answer : Answer) : List Issued × UInt32 :=
  if size = 0 then ([], 0) else
    match stream.write with
    | .pipe => stream.writePipe size answer
    | .socket => stream.writeSocket size answer

def streamState (stream : Struct) (answer : Answer) : List Issued × UInt32 :=
  match stream.state with
  | .pipe => stream.statePipe answer
  | .socket => stream.stateSocket answer

/-- What `getsockname` finds; `missing` for a stream of another type and where the call fails. -/
def localName {β : Type} (missing : β) (found : UInt32 × UInt16 -> β) (stream : Struct) (answer : Answer) :
    List Issued × β :=
  if stream.streamType ≠ .inet then ([], missing)
  else ([⟨.getsockname, stream.socket⟩], (answer.name.map found).getD missing)

def streamGetLocalIpv4Address : Struct -> Answer -> List Issued × Option UInt32 :=
  localName none fun name => some name.1

def streamGetLocalPort : Struct -> Answer -> List Issued × UInt16 := localName 0 Prod.snd

/-- `zs__stream_state_pipe` where `poll` answers as the pipes do. -/
theorem statePipe_of_pipes (stream : Struct) (pipes : PipeStream) (answer : Answer)
    (closed : stream.closed = pipes.closed)
    (reader : answer.revents .reader = pipes.reader.pollReader)
    (writer : answer.revents .writer = pipes.output.pollWriter) :
    (stream.statePipe answer).2 = statePipe pipes := by
  simp only [Struct.statePipe, ZSystem.Stream.statePipe, PipeStream.readerState, PipeStream.writerState,
    readerFlags, writerFlags, closed, reader, writer]
  split_ifs <;> rfl

/-! ## Sessions -/

inductive Op where
  | read (size : UInt32)
  | write (size : UInt32)
  | state
  | close (direction : Direction)
  | getLocalIpv4Address
  | getLocalPort
  deriving DecidableEq, Repr

def Op.issued (stream : Struct) (answer : Answer) : Op -> List Issued
  | .read size => (streamRead stream size answer).1
  | .write size => (streamWrite stream size answer).1
  | .state => (streamState stream answer).1
  | .close _ => []
  | .getLocalIpv4Address => (streamGetLocalIpv4Address stream answer).1
  | .getLocalPort => (streamGetLocalPort stream answer).1

def Op.closing (stream : Struct) : Op -> Closing
  | .close direction => stream.close direction
  | _ => (stream, [])

/-- A stream in use, and the descriptors that it has closed. -/
structure Session where
  stream : Struct
  shut : List Int

def Origin.session (origin : Origin) : Session := { stream := origin.stream, shut := [] }

def Session.after (session : Session) (op : Op) : Session :=
  { stream := (op.closing session.stream).1, shut := session.shut ++ (op.closing session.stream).2 }

/-- An operation on what is closed reports 0, or that it is closed. -/
def Op.Reports (stream : Struct) (answer : Answer) : Op -> Prop
  | .read size => stream.isShut .reader = true -> (streamRead stream size answer).2 = 0
  | .write size => stream.isShut .writer = true -> (streamWrite stream size answer).2 = 0
  | .state =>
      (stream.isShut .reader = true -> (streamState stream answer).2 &&& readerClosed ≠ 0) ∧
        (stream.isShut .writer = true -> (streamState stream answer).2 &&& writerClosed ≠ 0)
  | .close _ => True
  | .getLocalIpv4Address =>
      (∀ direction, stream.isShut direction = true) -> (streamGetLocalIpv4Address stream answer).2 = none
  | .getLocalPort =>
      (∀ direction, stream.isShut direction = true) -> (streamGetLocalPort stream answer).2 = 0

def Session.Proper (session : Session) (step : Op × Answer) : Prop :=
  (∀ issued ∈ step.1.issued session.stream step.2, issued.descriptor ∉ session.shut) ∧
    step.1.Reports session.stream step.2

/--
Nothing is read from a direction that is closed, unless it never had a descriptor; nor written; and the
local address of a socket is asked for before both directions are closed.
-/
def Origin.Careful (origin : Origin) (stream : Struct) : Op -> Prop
  | .read size => size = 0 ∨ stream.isShut .reader = false ∨ origin.descriptor .reader = -1
  | .write size => size = 0 ∨ stream.isShut .writer = false ∨ origin.descriptor .writer = -1
  | .state | .close _ => True
  | .getLocalIpv4Address | .getLocalPort =>
      stream.streamType ≠ .inet ∨ ∃ direction, stream.isShut direction = false

/-! ## Which operations are proper -/

/-- The descriptor that a function of a stream passes to the system. -/
def Struct.served (stream : Struct) (backend : Backend) (direction : Direction) : Int :=
  match backend with
  | .pipe => stream.field direction
  | .socket => stream.socket

theorem flag_kept (flags more flag : UInt32) (set : flags &&& flag ≠ 0) : (flags ||| more) &&& flag ≠ 0 := by
  intro none
  apply set
  have bits := UInt32.toBitVec_inj.mpr none
  apply UInt32.toBitVec_inj.mp
  rw [UInt32.toBitVec_and] at bits ⊢
  rw [UInt32.toBitVec_or, BitVec.and_or_distrib_right] at bits
  exact (BitVec.or_eq_zero_iff.mp bits).1

section Session

variable {origin : Origin} {stream : Struct} {shut : List Int}

theorem Ledger.served (ledger : Ledger origin stream shut) :
    stream.served stream.read .reader = origin.descriptor .reader ∧
    stream.served stream.write .writer = origin.descriptor .writer ∧
    (∀ direction, stream.served stream.state direction = origin.descriptor direction) ∧
    (stream.streamType = .inet -> ∀ direction, stream.socket = origin.descriptor direction) := by
  rw [ledger.same]
  cases origin with
  | pipe reader writer opened =>
      refine ⟨rfl, rfl, fun direction => ?_, fun inet => by cases inet⟩
      cases direction <;> rfl
  | socket fd remoteHost opened => exact ⟨rfl, rfl, fun _ => rfl, fun _ _ => rfl⟩
  | system reader writer valid made =>
      by_cases shared : reader = writer
      · subst shared
        have given : reader ≠ -1 := by
          rintro rfl
          simp [streamCreateSystem] at made
        simp only [Origin.stream, streamCreateSystem, given, and_self, if_false, if_true, Option.get_some,
          streamCreate, Struct.served, Struct.field, Origin.descriptor, true_and, reduceCtorEq, false_imp_iff,
          and_true]
        exact fun direction => by cases direction <;> rfl
      · have some : ¬ (reader = -1 ∧ writer = -1) := fun both => shared (both.1.trans both.2.symm)
        simp only [Origin.stream, streamCreateSystem, some, shared, if_false, Option.get_some, streamCreate,
          Struct.served, Struct.field, Origin.descriptor, true_and, reduceCtorEq, false_imp_iff, and_true]
        exact fun direction => by cases direction <;> rfl

theorem Origin.descriptor_valid (origin : Origin) (direction : Direction) : -1 ≤ origin.descriptor direction := by
  cases origin with
  | pipe reader writer opened => cases direction <;> simp only [Origin.descriptor] <;> omega
  | socket fd remoteHost opened => simp only [Origin.descriptor]; omega
  | system reader writer valid made => cases direction <;> simp only [Origin.descriptor] <;> omega

/-- A descriptor is not closed before every direction that it serves is. -/
theorem Ledger.not_shut (ledger : Ledger origin stream shut) {direction : Direction}
    (usable : stream.isShut direction = false ∨ origin.descriptor direction = -1) :
    origin.descriptor direction ∉ shut := fun member => by
  have settled := (ledger.settled _).mp member
  rcases usable with opened | none
  · simp [settled.2 direction rfl] at opened
  · exact settled.1.1 none

/-- What a read and a write have in common. -/
structure Transfers (descriptor : Int) (size : UInt32) (answer : Answer) (done : List Issued × UInt32) : Prop where
  target : ∀ issued ∈ done.1, size ≠ 0 ∧ issued.descriptor = descriptor
  amount : done.2 = if size = 0 then 0 else UInt32.ofNat (answer.back descriptor size).toNat

theorem streamRead_transfers (size : UInt32) (answer : Answer) :
    Transfers (stream.served stream.read .reader) size answer (streamRead stream size answer) := by
  unfold streamRead
  split_ifs with empty
  · exact ⟨fun issued member => by simp at member, (if_pos empty).symm⟩
  · cases stream.read with
    | pipe =>
        refine ⟨fun issued member => ⟨empty, List.mem_singleton.mp member ▸ rfl⟩, ?_⟩
        simp only [Struct.readPipe, if_neg empty]
        split_ifs with nothing
        · rw [Struct.served, Struct.field, Int.toNat_of_nonpos nothing]; rfl
        · rfl
    | socket =>
        refine ⟨fun issued member => ⟨empty, List.eq_of_mem_replicate member ▸ rfl⟩, ?_⟩
        simp only [Struct.readSocket, if_neg empty]
        split_ifs with nothing
        · rw [Struct.served, nothing]; rfl
        · rfl

theorem streamWrite_transfers (size : UInt32) (answer : Answer) :
    Transfers (stream.served stream.write .writer) size answer (streamWrite stream size answer) := by
  unfold streamWrite
  split_ifs with empty
  · exact ⟨fun issued member => by simp at member, (if_pos empty).symm⟩
  · cases stream.write with
    | pipe =>
        refine ⟨fun issued member => ⟨empty, List.mem_singleton.mp member ▸ rfl⟩, ?_⟩
        simp only [Struct.writePipe, if_neg empty]
        split_ifs with nothing
        · rw [Struct.served, Struct.field, Int.toNat_of_nonpos nothing.le]; rfl
        · rfl
    | socket =>
        refine ⟨fun issued member => ⟨empty, List.mem_singleton.mp member ▸ rfl⟩, ?_⟩
        simp only [Struct.writeSocket, if_neg empty]
        split_ifs with nothing
        · rw [Struct.served, Int.toNat_of_nonpos nothing.le]; rfl
        · rfl

/-- The system answers every transfer with one byte. -/
def Answer.one : Answer := { interrupted := 0, transferred := 1, revents := fun _ => 0, name := none }

theorem Answer.one_back {descriptor : Int} {size : UInt32} (given : 0 ≤ descriptor) (some : size ≠ 0) :
    Answer.one.back descriptor size = 1 := by
  have positive : 0 < size.toNat := Nat.pos_of_ne_zero fun zero => some (UInt32.toNat_inj.mp zero)
  simp only [Answer.back, Answer.one, if_neg (not_lt.mpr given)]
  omega

theorem Ledger.transfers_iff (ledger : Ledger origin stream shut) (direction : Direction) {size : UInt32}
    {io : Answer -> List Issued × UInt32}
    (transfers : ∀ answer, Transfers (origin.descriptor direction) size answer (io answer)) :
    (∀ answer, (∀ issued ∈ (io answer).1, issued.descriptor ∉ shut) ∧
      (stream.isShut direction = true -> (io answer).2 = 0)) ↔
    size = 0 ∨ stream.isShut direction = false ∨ origin.descriptor direction = -1 := by
  have valid := origin.descriptor_valid direction
  constructor
  · intro proper
    by_contra careless
    simp only [not_or, Bool.not_eq_false] at careless
    obtain ⟨some, closed, given⟩ := careless
    have silent := (proper .one).2 closed
    rw [(transfers .one).amount, if_neg some, Answer.one_back (by omega) some] at silent
    exact absurd silent (by decide)
  · rintro careful answer
    refine ⟨fun issued member => ?_, fun closed => ?_⟩
    · obtain ⟨some, target⟩ := (transfers answer).target issued member
      exact target ▸ ledger.not_shut (careful.resolve_left some)
    · rw [(transfers answer).amount]
      split_ifs with empty
      · rfl
      · have missing := (careful.resolve_left empty).resolve_left (by simp [closed])
        rw [missing]; rfl

theorem Ledger.state_proper (ledger : Ledger origin stream shut) (answer : Answer) :
    (∀ issued ∈ (streamState stream answer).1, issued.descriptor ∉ shut) ∧
      (stream.isShut .reader = true -> (streamState stream answer).2 &&& readerClosed ≠ 0) ∧
      (stream.isShut .writer = true -> (streamState stream answer).2 &&& writerClosed ≠ 0) := by
  have served := ledger.served.2.2.1
  rw [isShut_iff, isShut_iff]
  unfold streamState
  cases backend : stream.state with
  | pipe =>
      rw [backend] at served
      have usable (direction : Direction) (opened : stream.closed &&& direction.bit = 0) :
          stream.field direction ∉ shut := by
        rw [show stream.field direction = _ from served direction]
        exact ledger.not_shut (Or.inl (isShut_eq_false.mpr opened))
      simp only [Struct.statePipe]
      refine ⟨fun issued member => ?_, fun closed => ?_, fun closed => ?_⟩
      · rcases List.mem_append.mp member with member | member
        · split_ifs at member with opened
          · simp at member
          · exact List.mem_singleton.mp member ▸ usable .reader (not_not.mp opened)
        · split_ifs at member with opened
          · simp at member
          · exact List.mem_singleton.mp member ▸ usable .writer (not_not.mp opened)
      · rw [if_pos (show stream.closed &&& 0x01 ≠ 0 from closed)]
        exact flag_kept _ _ _ (by decide)
      · rw [UInt32.or_comm, if_pos (show stream.closed &&& 0x02 ≠ 0 from closed)]
        exact flag_kept _ _ _ (by decide)
  | socket =>
      rw [backend] at served
      simp only [Struct.stateSocket]
      by_cases opened : stream.closed &&& 0x03 = 0
      · have none := none_shut_iff.mp opened
        simp only [if_pos opened]
        refine ⟨fun issued member => ?_, fun closed => ?_, fun closed => ?_⟩
        · rw [List.mem_singleton.mp member, show stream.socket = _ from served .reader]
          exact ledger.not_shut (Or.inl (none .reader))
        · exact absurd (isShut_eq_false.mp (none .reader)) closed
        · exact absurd (isShut_eq_false.mp (none .writer)) closed
      · simp only [if_neg opened]
        refine ⟨fun issued member => by simp at member, fun closed => ?_, fun closed => ?_⟩
        · rw [if_pos (show stream.closed &&& 0x01 ≠ 0 from closed)]
          exact flag_kept _ _ _ (by decide)
        · rw [UInt32.or_comm, if_pos (show stream.closed &&& 0x02 ≠ 0 from closed)]
          exact flag_kept _ _ _ (by decide)

theorem Ledger.name_iff (ledger : Ledger origin stream shut) {β : Type} (missing : β)
    (found : UInt32 × UInt16 -> β) :
    (∀ answer, (∀ issued ∈ (localName missing found stream answer).1, issued.descriptor ∉ shut) ∧
      ((∀ direction, stream.isShut direction = true) -> (localName missing found stream answer).2 = missing)) ↔
    stream.streamType ≠ .inet ∨ ∃ direction, stream.isShut direction = false := by
  by_cases inet : stream.streamType = .inet
  · have shared := ledger.served.2.2.2 inet
    simp only [localName, inet, ne_eq, not_true_eq_false, if_false, List.mem_singleton, forall_eq, false_or]
    constructor
    · intro proper
      by_contra all
      simp only [not_exists, Bool.not_eq_false] at all
      have given : stream.socket ≠ -1 := by
        obtain ⟨-, -, apart⟩ | ⟨-, -, given⟩ := ledger.rules .reader
        · exact absurd ((shared .reader).symm.trans (shared .writer)) apart
        · exact given
      refine (proper .one).1 ((ledger.settled _).mpr ⟨?_, fun direction _ => all direction⟩)
      rw [shared .reader] at given ⊢
      exact origin.given_descriptor .reader given
    · rintro ⟨direction, opened⟩ answer
      refine ⟨?_, fun all => by simp [all direction] at opened⟩
      rw [shared direction]
      exact ledger.not_shut (Or.inl opened)
  · simp [localName, inet]

/-- Whatever the system answers, an operation is proper exactly if it is careful. -/
theorem Ledger.proper_iff (ledger : Ledger origin stream shut) (op : Op) :
    (∀ answer, Session.Proper ⟨stream, shut⟩ (op, answer)) ↔ origin.Careful stream op := by
  obtain ⟨reads, writes, -⟩ := ledger.served
  cases op with
  | read size =>
      exact ledger.transfers_iff .reader fun answer => reads ▸ streamRead_transfers size answer
  | write size =>
      exact ledger.transfers_iff .writer fun answer => writes ▸ streamWrite_transfers size answer
  | state => exact ⟨fun _ => trivial, fun _ answer => ledger.state_proper answer⟩
  | close direction =>
      exact ⟨fun _ => trivial, fun _ answer => ⟨fun _ member => (List.not_mem_nil member).elim, trivial⟩⟩
  | getLocalIpv4Address => exact ledger.name_iff none _
  | getLocalPort => exact ledger.name_iff 0 _

end Session

/-- The same session without the answers of the system. -/
abbrev Session.step (session : Session) (op : Op) : Option Session := some (session.after op)

abbrev Session.answered (session : Session) (step : Op × Answer) : Option Session := session.step step.1

theorem Ledger.sessions_iff {origin : Origin} {session : Session}
    (ledger : Ledger origin session.stream session.shut) (ops : List Op) :
    (∀ steps : List (Op × Answer), steps.map Prod.fst = ops ->
        Along Session.answered Session.Proper session steps) ↔
      Along Session.step (fun session op => origin.Careful session.stream op) session ops := by
  induction ops generalizing session with
  | nil =>
      refine ⟨fun _ => trivial, fun _ steps none => ?_⟩
      rw [List.map_eq_nil_iff.mp none]
      trivial
  | cons op rest ih =>
      have after : Ledger origin (session.after op).stream (session.after op).shut := by
        cases op with
        | close direction => exact ledger.close direction
        | _ => simpa [Session.after, Op.closing] using ledger
      constructor
      · intro proper
        have filled (answer : Answer) (steps : List (Op × Answer)) (same : steps.map Prod.fst = rest) :=
          proper ((op, answer) :: steps) (by rw [List.map_cons, same])
        have answers : (rest.map fun later => (later, Answer.one)).map Prod.fst = rest := by
          simp [Function.comp_def]
        refine ⟨(ledger.proper_iff op).mp fun answer => (filled answer _ answers).1, ?_⟩
        rintro next ⟨⟩
        exact (ih after).mp fun steps same => (filled .one steps same).2 _ rfl
      · rintro ⟨careful, later⟩ steps same
        cases steps with
        | nil => cases same
        | cons step steps =>
            obtain ⟨rfl, others⟩ := List.cons_eq_cons.mp same
            refine ⟨(ledger.proper_iff _).mpr careful step.2, ?_⟩
            rintro next ⟨⟩
            exact (ih after).mpr (later _ rfl) steps others

/--
Whatever the system answers, no call is issued on a closed descriptor and every closed direction is
reported, exactly if every operation is careful.
-/
theorem no_stale_call_iff (origin : Origin) (ops : List Op) :
    (∀ steps : List (Op × Answer), steps.map Prod.fst = ops ->
        Along Session.answered Session.Proper origin.session steps) ↔
      Along Session.step (fun session op => origin.Careful session.stream op) origin.session ops :=
  origin.ledger.sessions_iff ops

/-- The read end 3 of a pipe is closed and then read. -/
theorem read_after_close : ¬ ∀ (origin : Origin) (steps : List (Op × Answer)),
    Along Session.answered Session.Proper origin.session steps := by
  intro proper
  have run := proper (.pipe 3 4 (by decide)) [(.close .reader, .one), (.read 1, .one)]
  have stale := ((run.2 _ rfl).1).1 ⟨.read, 3⟩ (List.mem_singleton.mpr rfl)
  exact stale (List.mem_singleton.mpr rfl)

end ZSystem.Stream
