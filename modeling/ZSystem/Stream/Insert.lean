import ZSystem.Stream.Report
import ZSystem.Stream.Typed

set_option autoImplicit false

/-!
# Writing to a peer that is gone

`operator<<` of `ZSWriter` writes until nothing is left of its text, or until `IsClosed`. A write that fails
is tried again.
-/

namespace ZSystem.Stream.Insert

open Transition
open ZSystem.Server (serverWriteDgram)
open ZSystem.Stream.Typed (Buffer writeString)

/-! ## `ZSWriter` -/

/-- Why every `write`, `send` or `sendto` fails. -/
inductive Failure where
  -- `EPIPE` or `ECONNRESET`.
  | disconnected
  -- `EMSGSIZE`.
  | messageSize
  deriving DecidableEq, Repr

/-- What `poll` may report then. -/
def Failure.reports (revents : UInt32) : Failure -> Bool
  | .disconnected => revents &&& (pollErr ||| pollHup) ≠ 0
  | .messageSize => revents &&& (pollErr ||| pollHup ||| pollNval) = 0

/-- `zs__stream_write`; `back` is what the system call returns. -/
def write (size : UInt32) (back : Int) : Endpoint -> UInt32
  | .descriptor stream =>
      (streamWrite stream size { interrupted := 0, transferred := back, revents := fun _ => 0, name := none }).2
  | .datagram stream => if 0 < size then (serverWriteDgram stream size back).2 else 0

/-- `revents` is about the descriptor that is written to, and `reader` about the other one of a pipe stream. -/
def polled (revents reader : UInt32) : Endpoint -> Polled
  | .descriptor stream, .reader => if stream.state = .pipe then reader else revents
  | _, _ => revents

/-- `operator<<` for `char`, and for everything else, which is written as a text. -/
inductive Insertion where
  | char (byte : UInt8)
  | text (buffer : Buffer)

inductive PC where
  | test
  | send
  | returned
  deriving DecidableEq, Repr

structure State where
  writer : Endpoint
  call : Insertion
  pc : PC
  failure : Failure
  -- From now on every transfer fails.
  failing : Bool

inductive Action where
  | fail
  | test (revents reader : UInt32)
  | send (back : Int)
  deriving DecidableEq, Repr

def Insertion.going : Insertion -> Bool
  | .char _ => true
  | .text buffer => 0 < buffer.length

def Insertion.sent (count : UInt32) : Insertion -> Option (Insertion × PC)
  | .char byte => some (.char byte, if count = 1 then .returned else .test)
  | .text buffer =>
      if fits : count.toNat ≤ buffer.length.toNat then some (.text (buffer.advance count.toNat fits), .test)
      else none

def Insertion.size : Insertion -> UInt32
  | .char _ => 1
  | .text buffer => buffer.length

def step (state : State) : Action -> Option State
  | .fail => if state.failing then none else some { state with failing := true }
  | .test revents reader =>
      if state.pc = .test ∧ (state.failing = true -> state.failure.reports revents = true) then
        let closed := state.writer.isClosed .writer (polled revents reader state.writer)
        some { state with pc := if !closed && state.call.going then .send else .returned }
      else none
  | .send back =>
      if state.pc = .send ∧ (state.failing = true -> back = -1) then
        (state.call.sent (write state.call.size back state.writer)).map fun (call, pc) =>
          { state with call := call, pc := pc }
      else none

def start (writer : Endpoint) (call : Insertion) (failure : Failure) : State :=
  { writer := writer, call := call, pc := .test, failure := failure, failing := false }

/-- Whenever the failures begin, the call still makes a bounded number of steps and returns. -/
def Returns (state : State) : Prop :=
  ∀ later, Reachable step state later -> later.failing = true ->
    Terminates step (fun final => final.pc = .returned) later

/-- There is nothing to write, or `IsClosed` is true. -/
def Gives (writer : Endpoint) (call : Insertion) (failure : Failure) : Prop :=
  call.going = false ∨ writer.isShut .writer ∨ failure = .disconnected ∧ writer.polls = true

instance (writer : Endpoint) (call : Insertion) (failure : Failure) : Decidable (Gives writer call failure) :=
  inferInstanceAs (Decidable (_ ∨ _ ∨ _ ∧ _))

/-! ## What fails -/

section Failing

variable {writer : Endpoint} {call : Insertion} {failure : Failure} {revents reader : UInt32}

theorem write_failing (size : UInt32) : write size (-1) writer = 0 := by
  cases writer with
  | descriptor stream =>
      rw [write, (streamWrite_transfers size _).amount]
      have fails : ∀ descriptor, (Answer.back { interrupted := 0, transferred := -1, revents := fun _ => 0, name := none }
          descriptor size).toNat = 0 := fun descriptor => by
        simp only [Answer.back]
        split_ifs <;> omega
      rw [fails]
      split_ifs <;> rfl
  | datagram stream =>
      simp only [write, serverWriteDgram]
      split_ifs <;> rfl

theorem closed_of_disconnected (reports : Failure.disconnected.reports revents = true) (polls : writer.polls = true) :
    writer.isClosed .writer (polled revents reader writer) = true := by
  simp only [Failure.reports, decide_eq_true_eq, mask_or] at reports
  cases writer with
  | descriptor stream =>
      cases state : stream.state with
      | pipe =>
          refine (isClosed_pipe state).mpr (Or.inr ?_)
          simp only [polled, hangup, mask_or]
          exact Or.inl reports
      | socket =>
          have opened : stream.closed &&& 0x03 = 0 := by simpa [Endpoint.polls, state] using polls
          refine (isClosed_socket state).mpr (Or.inr ⟨opened, ?_⟩)
          simp only [polled, state, reduceCtorEq, if_false, mask_or, true_or, and_true]
          tauto
  | datagram stream =>
      have opened : stream.closed &&& 0x03 = 0 := by simpa [Endpoint.polls] using polls
      refine isClosed_datagram.mpr (Or.inr ⟨rfl, opened, ?_⟩)
      simp only [polled, mask_or]
      tauto

theorem shut_of_messageSize (reports : Failure.messageSize.reports revents = true)
    (closed : writer.isClosed .writer (polled revents reader writer) = true) : writer.isShut .writer := by
  have quiet : ¬ revents &&& (pollErr ||| pollHup ||| pollNval) ≠ 0 := by simpa [Failure.reports] using reports
  simp only [mask_or, not_or] at quiet
  obtain ⟨⟨err, hup⟩, nval⟩ := quiet
  cases writer with
  | descriptor stream =>
      cases state : stream.state with
      | pipe =>
          refine ((isClosed_pipe state).mp closed).resolve_right ?_
          simp only [polled, hangup, mask_or, err, hup, nval, or_self, not_false_eq_true]
      | socket =>
          refine ((isClosed_socket state).mp closed).resolve_right ?_
          simp only [polled, state, reduceCtorEq, if_false, mask_or, err, hup, nval, or_self, false_and, and_false,
            not_false_eq_true]
  | datagram stream =>
      refine (isClosed_datagram.mp closed).resolve_right ?_
      simp only [polled, mask_or, err, hup, nval, or_self, and_false, not_false_eq_true]

theorem shut_of_unpolled (unpolled : ¬ writer.polls = true) {any : Polled}
    (closed : writer.isClosed .writer any = true) : writer.isShut .writer := by
  cases writer with
  | descriptor stream =>
      simp only [Endpoint.polls, decide_eq_true_eq, not_or] at unpolled
      cases state : stream.state with
      | pipe => exact absurd state unpolled.1
      | socket => exact ((isClosed_socket state).mp closed).resolve_right fun polled => unpolled.2 polled.1
  | datagram stream =>
      simp only [Endpoint.polls, decide_eq_true_eq] at unpolled
      exact (isClosed_datagram.mp closed).resolve_right fun polled => unpolled polled.2.1

/-- Once the transfers fail the test of the loop ends it exactly if the call gives up. -/
theorem ends_iff_gives (reader : UInt32) (reports : failure.reports revents = true) :
    writer.isClosed .writer (polled revents reader writer) = true ∨ call.going = false ↔ Gives writer call failure := by
  constructor
  · rintro (closed | done)
    · by_cases polls : writer.polls = true
      · cases failure with
        | disconnected => exact Or.inr (Or.inr ⟨rfl, polls⟩)
        | messageSize => exact Or.inr (Or.inl (shut_of_messageSize reports closed))
      · exact Or.inr (Or.inl (shut_of_unpolled polls closed))
    · exact Or.inl done
  · rintro (done | shut | ⟨rfl, polls⟩)
    · exact Or.inr done
    · exact Or.inl (isClosed_of_shut shut _)
    · exact Or.inl (closed_of_disconnected reports polls)

end Failing

/-! ## Every run -/

variable {state next : State} {action : Action}

inductive Move (state : State) : State -> Prop where
  | fail (was : state.failing = false) : Move state { state with failing := true }
  | tested (here : state.pc = .test) (revents reader : UInt32)
      (reports : state.failing = true -> state.failure.reports revents = true) (pc : PC)
      (outcome : pc = .returned ∧ (state.writer.isClosed .writer (polled revents reader state.writer) = true ∨
          state.call.going = false) ∨
        pc = .send ∧ state.writer.isClosed .writer (polled revents reader state.writer) = false ∧
          state.call.going = true) :
      Move state { state with pc := pc }
  | sent (here : state.pc = .send) (back : Int) (fails : state.failing = true -> back = -1) (call : Insertion) (pc : PC)
      (sent : state.call.sent (write state.call.size back state.writer) = some (call, pc)) :
      Move state { state with call := call, pc := pc }

theorem step_move (taken : step state action = some next) : Move state next := by
  cases action with
  | fail =>
      simp only [step] at taken
      split_ifs at taken with was
      cases taken
      exact .fail (by simpa using was)
  | test revents reader =>
      simp only [step, Option.ite_none_right_eq_some, Option.some.injEq] at taken
      obtain ⟨here, rfl⟩ := taken
      refine .tested here.1 revents reader here.2 _ ?_
      cases state.writer.isClosed .writer (polled revents reader state.writer) <;> cases state.call.going <;> simp
  | send back =>
      simp only [step] at taken
      split_ifs at taken with here
      obtain ⟨⟨call, pc⟩, sent, rfl⟩ := Option.map_eq_some_iff.mp taken
      exact .sent here.1 back here.2 call pc sent

theorem advance_none (buffer : Buffer) (fits : 0 ≤ buffer.length.toNat) :
    (buffer.advance 0 fits).length = buffer.length := by
  simp [Buffer.advance]

theorem sent_cases {call after : Insertion} {count : UInt32} {pc : PC} (sent : call.sent count = some (after, pc)) :
    pc ≠ .send ∧ (call.going = false -> after.going = false) ∧
      (count = 0 -> pc = .test ∧ after.going = call.going) := by
  cases call with
  | char byte =>
      simp only [Insertion.sent, Option.some.injEq, Prod.mk.injEq] at sent
      obtain ⟨rfl, rfl⟩ := sent
      refine ⟨by split_ifs <;> simp, id, ?_⟩
      rintro rfl
      exact ⟨rfl, rfl⟩
  | text buffer =>
      simp only [Insertion.sent] at sent
      split_ifs at sent with fits
      simp only [Option.some.injEq, Prod.mk.injEq] at sent
      obtain ⟨rfl, rfl⟩ := sent
      have kept (none : count = 0) : (buffer.advance count.toNat fits).length = buffer.length := by
        subst none
        exact advance_none buffer fits
      refine ⟨by simp, fun done => ?_, fun none => ⟨rfl, by simp [Insertion.going, kept none]⟩⟩
      have empty : buffer.length = 0 := by simpa [Insertion.going] using done
      have none : count = 0 := UInt32.toNat_inj.mp (by simpa [empty] using fits)
      simpa [Insertion.going, kept none] using done

/-- The call has returned, or gives up at the next test. -/
def Yields (state : State) : Prop := state.pc = .returned ∨ Gives state.writer state.call state.failure

theorem Yields.move (yields : Yields state) (move : Move state next) : Yields next := by
  cases move with
  | fail => exact yields
  | tested here revents reader reports pc outcome =>
      rcases outcome with ⟨returned, -⟩ | ⟨-, opened, going⟩
      · exact Or.inl returned
      · exact Or.inr (yields.resolve_left (by simp [here]))
  | sent here back fails call pc sent =>
      obtain ⟨-, done, -⟩ := sent_cases sent
      exact Or.inr ((yields.resolve_left (by simp [here])).imp_left done)

def PC.weight : PC -> Nat
  | .send => 2
  | .test => 1
  | .returned => 0

theorem Yields.smaller (yields : Yields state) (failing : state.failing = true) (move : Move state next) :
    next.failing = true ∧ next.pc.weight < state.pc.weight := by
  cases move with
  | fail was => simp [failing] at was
  | tested here revents reader reports pc outcome =>
      rcases outcome with ⟨rfl, -⟩ | ⟨-, opened, going⟩
      · exact ⟨failing, by simp [here, PC.weight]⟩
      · have ends := (ends_iff_gives reader (reports failing)).mpr (yields.resolve_left (by simp [here]))
        simp [opened, going] at ends
  | sent here back fails call pc sent =>
      obtain ⟨other, -, -⟩ := sent_cases sent
      refine ⟨failing, ?_⟩
      cases pc <;> simp_all [PC.weight]

def Failure.answer : Failure -> UInt32
  | .disconnected => pollErr
  | .messageSize => 0

theorem answer_reports (failure : Failure) : failure.reports failure.answer = true := by
  cases failure <;> decide

theorem acts (going : state.pc ≠ .returned) : ∃ action, (step state action).isSome := by
  cases here : state.pc with
  | returned => exact absurd here going
  | test => exact ⟨.test state.failure.answer 0, by simp [step, here, answer_reports]⟩
  | send =>
      refine ⟨.send (-1), ?_⟩
      cases call : state.call <;> simp [step, here, call, Insertion.sent, write_failing]

/-- Nothing ends the loop, and nothing is written. -/
structure Stuck (state : State) : Prop where
  failing : state.failing = true
  going : state.pc ≠ .returned
  never : ¬ Gives state.writer state.call state.failure

theorem Stuck.move (stuck : Stuck state) (move : Move state next) : Stuck next := by
  obtain ⟨failing, going, never⟩ := stuck
  cases move with
  | fail => exact ⟨rfl, going, never⟩
  | tested here revents reader reports pc outcome =>
      rcases outcome with ⟨-, ends⟩ | ⟨rfl, -⟩
      · exact absurd ((ends_iff_gives reader (reports failing)).mp ends) never
      · exact ⟨failing, by simp, never⟩
  | sent here back fails call pc sent =>
      rw [fails failing, write_failing] at sent
      obtain ⟨-, -, same⟩ := sent_cases sent
      obtain ⟨rfl, kept⟩ := same rfl
      exact ⟨failing, by simp, by simpa only [Gives, kept] using never⟩

theorem Stuck.endless (stuck : Stuck state) : ¬ Terminates step (fun final => final.pc = .returned) state :=
  not_terminates Stuck (fun _ _ _ stuck taken => stuck.move (step_move taken)) (fun _ stuck => acts stuck.going) stuck

theorem Yields.ends (yields : Yields state) (failing : state.failing = true) :
    Terminates step (fun final => final.pc = .returned) state := by
  have descends : Descends step (fun state => Yields state ∧ state.failing = true) fun state => state.pc.weight :=
    ⟨fun _ _ _ holds taken => ⟨holds.1.move (step_move taken), (holds.1.smaller holds.2 (step_move taken)).1⟩,
      fun _ _ _ holds taken => (holds.1.smaller holds.2 (step_move taken)).2⟩
  refine descends.terminates ⟨yields, failing⟩ fun state _ stuck => ?_
  by_contra going
  obtain ⟨action, taken⟩ := acts going
  simp [stuck action] at taken

theorem insert_returns_iff (writer : Endpoint) (call : Insertion) (failure : Failure) :
    Returns (start writer call failure) ↔ Gives writer call failure := by
  constructor
  · intro returns
    by_contra never
    have stuck : Stuck { start writer call failure with failing := true } := ⟨rfl, by simp [start], never⟩
    exact stuck.endless (returns _ (reachable_of_exec [.fail] rfl) rfl)
  · intro gives state reached failing
    have yields := reached.invariant Yields (Or.inr gives) fun _ _ _ yields _ taken => yields.move (step_move taken)
    exact yields.ends failing

/-- The reader of a connected stream has been closed, and then the peer resets the connection. -/
def readerClosedFirst : Endpoint :=
  .descriptor ((streamCreateSocket 3 (some .inet)).close .reader).1

theorem insert_returns_fails :
    ¬ Returns (start readerClosedFirst (.text (writeString [104, 105])) .disconnected) := by
  intro returns
  have stuck : Stuck { start readerClosedFirst (.text (writeString [104, 105])) .disconnected with failing := true } :=
    ⟨rfl, by simp [start], by decide⟩
  exact stuck.endless (returns _ (reachable_of_exec [.fail] rfl) rfl)

end ZSystem.Stream.Insert
