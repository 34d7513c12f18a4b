import ZSystem.Abort.Pair
import ZSystem.MessageLoop.Program

set_option autoImplicit false

/-!
# The library's own runs and aborts

The message loop, the two servers and the threads of the class `ZSThread`.
-/

namespace ZSystem.Abort

open Posix Transition

/-! ## `zs__messageloop_run` and `zs__messageloop_abort` -/

section MessageLoop

open ZSystem.MessageLoop (Move)

def loopAccesses : MessageLoop.PC -> Bool
  | .duplicate .abortLock | .duplicate .abortAnnounce | .duplicate .abortUnlock | .abortTest => true
  | _ => false

def loopAhead : MessageLoop.PC -> Bool
  | .op .abortLock | .dropDuplicate .abortLock | .op .abortAnnounce | .dropDuplicate .abortAnnounce => true
  | pc => loopAccesses pc

variable {thread : MessageLoop.ThreadId} {data after : MessageLoop.Data} {pc place : MessageLoop.PC}
  {value values : MessageLoop.Sem -> Nat}

theorem loop_destroyed (move : Move thread data value pc place after values) :
    after.destroyed = (data.destroyed || decide (pc = .runDestroy)) := by
  cases move with
  | @acquire site | @release site | @drop site => cases site <;> exact (Bool.or_false _).symm
  | destroy => simp
  | _ => exact (Bool.or_false _).symm

theorem loop_backward (move : Move thread data value pc place after values)
    (inside : pc ≠ .caller) (ahead : loopAhead place = true) : loopAhead pc = true := by
  cases move with
  | call => exact absurd rfl inside
  | @duplicate site | @acquire site | @release site => cases site <;> first | rfl | exact ahead
  | @drop site =>
      cases site with
      | abortLock | abortAnnounce => rfl
      | runUnlock element =>
          simp only [MessageLoop.Site.next] at ahead
          split_ifs at ahead <;> exact ahead
      | _ => exact ahead
  | again | abort => rfl
  | _ => exact ahead

theorem loop_forward (move : Move thread data value pc place after values)
    (ahead : loopAhead pc = true) (waits : loopAccesses pc = false) : loopAhead place = true := by
  cases move with
  | @acquire site | @release site => cases site <;> first | rfl | exact ahead
  | @drop site => cases site <;> first | rfl | cases ahead
  | @duplicate site =>
      cases site with
      | abortLock | abortAnnounce | abortUnlock => cases waits
      | _ => cases ahead
  | again | abort => cases waits
  | _ => cases ahead

def messageLoop : Pair MessageLoop.ThreadId MessageLoop.Sem MessageLoop.PC MessageLoop.Data where
  program := MessageLoop.program
  self := .run
  value
    | .queue => 1
    | .requests => 0
  data := {}
  begin := .duplicate .runAwait
  finish := .finished
  enter := .duplicate .abortLock
  back := .caller
  freed data := data.destroyed
  frees pc := decide (pc = .runDestroy)
  accesses := loopAccesses
  ahead := loopAhead
  enters := rfl
  touches pc accesses := by
    unfold loopAhead
    split <;> first | rfl | exact accesses
  returns := rfl
  starts thread pc child first next same := by
    cases pc with
    | op site => cases site <;> cases same
    | _ => cases same
  calls thread place before after called := by
    change MessageLoop.calls thread .caller place before = some after at called
    obtain ⟨-, rfl, -⟩ := MessageLoop.calls_cases called
    rfl
  stays thread pick pc before after status ran freed := by
    obtain ⟨place, values, -, move⟩ := MessageLoop.outcome_move ran
    simp [loop_destroyed move, freed]
  frees_only thread pick pc before after status ran freed := by
    obtain ⟨place, values, -, move⟩ := MessageLoop.outcome_move ran
    simpa [loop_destroyed move] using freed
  frees_now thread pick pc before after status ran frees := by
    obtain ⟨place, values, -, move⟩ := MessageLoop.outcome_move ran
    simp [loop_destroyed move, frees]
  apart pc frees := by
    obtain rfl := of_decide_eq_true frees
    exact ⟨MessageLoop.PC.noConfusion, MessageLoop.PC.noConfusion, rfl⟩
  backward thread pick pc before after status next ran at' ahead := by
    obtain ⟨place, values, rfl, move⟩ := MessageLoop.outcome_move ran
    obtain rfl : place = next := by simpa [Status.place] using at'
    refine loop_backward move ?_ ahead
    rintro rfl
    simp [Program.outcome, MessageLoop.program, MessageLoop.code, Instr.result] at ran
  forward thread pick pc before after status next ran at' _ ahead waits := by
    obtain ⟨place, values, rfl, move⟩ := MessageLoop.outcome_move ran
    obtain rfl : place = next := by simpa [Status.place] using at'
    exact loop_forward move ahead waits

end MessageLoop

inductive ThreadId where
  | run
  | client (number : Nat)
  deriving DecidableEq, Repr

/-! ## `zs__server_run`, `zs__server_run_dgram` and `zs__server_abort` -/

inductive SocketType where
  | stream
  | dgram
  deriving DecidableEq, Repr

inductive ServerPC where
  | caller
  /-- Reads `stream_struct`, and the function and the descriptor to write with from the stream. -/
  | abortRead
  | abortWrite
  | runWait
  | runAccept
  | runRecvfrom
  | runConnect
  | runDestroyWait
  | runDestroyStream
  | runFree
  | finished
  deriving DecidableEq, Repr

structure ServerData where
  bytes : Nat := 0
  /-- `zs__stream_destroy` has closed both ends of the pipe and freed the stream. -/
  destroyed : Bool := false
  freed : Bool := false

def SocketType.receive : SocketType -> ServerPC
  | .stream => .runAccept
  | .dgram => .runRecvfrom

abbrev ServerCode := Instr ThreadId Empty ServerPC ServerData

/-- A number 0 from the environment stands for a socket that is ready or for a system call that fails. -/
def serverCode (socket : SocketType) : ServerPC -> ServerCode
  | .caller => .halt
  -- zs__server_abort and zs__stream_write_pipe
  | .abortRead => .act fun _ data => if data.destroyed then none else some (data, .abortWrite)
  | .abortWrite => .act fun pick data => some <|
      if data.destroyed ∨ pick = 0 then (data, .abortRead)
      else ({ data with bytes := data.bytes + 1 }, .caller)
  -- zs__server_run and zs__server_run_dgram; the socket is the first element of the wait structure
  | .runWait => .act fun pick data =>
      if pick = 0 then some (data, socket.receive)
      else if 0 < data.bytes then some (data, .runDestroyWait)
      else none
  | .runAccept | .runRecvfrom => .act fun pick data => some
      (data, if pick = 0 then .runWait else .runConnect)
  | .runConnect => .act fun _ data => some (data, .runWait)
  | .runDestroyWait => .act fun _ data => some (data, .runDestroyStream)
  | .runDestroyStream => .act fun _ data => some ({ data with destroyed := true }, .runFree)
  | .runFree => .act fun _ data => some ({ data with freed := true }, .finished)
  | .finished => .halt

def serverProgram (socket : SocketType) : Program ThreadId Empty ServerPC ServerData where
  code _ := serverCode socket

def serverAhead (pc : ServerPC) : Bool := decide (pc = .abortRead ∨ pc = .abortWrite)

section Server

variable {socket : SocketType} {thread : ThreadId} {pick : Nat} {pc : ServerPC}
  {data after : ServerData} {status : Status Empty ServerPC}

theorem server_outcome
    (ran : (serverProgram socket).outcome thread pick pc data = some (after, status)) :
    after.destroyed = (data.destroyed || decide (pc = .runDestroyStream)) ∧
      ∃ place, status = .running place ∧ (serverAhead place = true -> serverAhead pc = true) ∧
        (data.destroyed = true -> pc = .abortWrite -> place = .abortRead) := by
  cases pc with
  | caller | finished => simp [Program.outcome, serverProgram, serverCode, Instr.result] at ran
  | abortRead =>
      simp only [Program.outcome, serverProgram, serverCode, Instr.result] at ran
      split_ifs at ran <;> simp at ran
      obtain ⟨rfl, rfl⟩ := ran
      simp [serverAhead]
  | abortWrite =>
      simp only [Program.outcome, serverProgram, serverCode, Instr.result] at ran
      split_ifs at ran with failed <;> simp at ran <;> obtain ⟨rfl, rfl⟩ := ran
      · simp [serverAhead]
      · rw [not_or] at failed
        simp [serverAhead, failed.1]
  | runWait =>
      simp only [Program.outcome, serverProgram, serverCode, Instr.result] at ran
      split_ifs at ran <;> simp at ran <;> obtain ⟨rfl, rfl⟩ := ran
      · cases socket <;> simp [serverAhead, SocketType.receive]
      · simp [serverAhead]
  | runAccept | runRecvfrom =>
      simp only [Program.outcome, serverProgram, serverCode, Instr.result] at ran
      split_ifs at ran <;> simp at ran <;> obtain ⟨rfl, rfl⟩ := ran <;> simp [serverAhead]
  | _ =>
      simp [Program.outcome, serverProgram, serverCode, Instr.result] at ran
      obtain ⟨rfl, rfl⟩ := ran
      simp [serverAhead]

end Server

def server (socket : SocketType) : Pair ThreadId Empty ServerPC ServerData where
  program := serverProgram socket
  self := .run
  value := nofun
  data := {}
  begin := .runWait
  finish := .finished
  enter := .abortRead
  back := .caller
  freed data := data.destroyed
  frees pc := decide (pc = .runDestroyStream)
  accesses pc := decide (pc = .abortRead)
  ahead := serverAhead
  enters := rfl
  touches pc accesses := by simp [serverAhead, of_decide_eq_true accesses]
  returns := rfl
  starts thread pc child first next same := by cases pc <;> cases same
  calls thread place before after called := by simp [serverProgram] at called
  stays thread pick pc before after status ran freed := by simp [(server_outcome ran).1, freed]
  frees_only thread pick pc before after status ran freed := by
    simpa [(server_outcome ran).1] using freed
  frees_now thread pick pc before after status ran frees := by simp [(server_outcome ran).1, frees]
  apart pc frees := by
    obtain rfl := of_decide_eq_true frees
    exact ⟨ServerPC.noConfusion, ServerPC.noConfusion, rfl⟩
  backward thread pick pc before after status next ran at' ahead := by
    obtain ⟨-, place, rfl, back, -⟩ := server_outcome ran
    obtain rfl : place = next := by simpa [Status.place] using at'
    exact back ahead
  forward thread pick pc before after status next ran at' freed ahead waits := by
    obtain ⟨-, place, rfl, -, again⟩ := server_outcome ran
    obtain rfl : place = next := by simpa [Status.place] using at'
    have write : pc = .abortWrite := by simpa [serverAhead, of_decide_eq_false waits] using ahead
    simp [again freed write, serverAhead]

def serverRun := server .stream

def serverRunDgram := server .dgram

/-! ## `ZSThread::InternRun` and `ZSThread::InternAbort` -/

inductive ZSThreadPC where
  | caller
  | abortTest
  /-- In the function `abort`, which is going to access the object so many times. -/
  | abortUser (accesses : Nat)
  | runUser
  | runDelete
  | finished
  deriving DecidableEq, Repr

structure ZSThreadData where
  deleted : Bool := false

/-- A number 0 from the environment stands for an object without the function `abort`. -/
def zsThreadCode : ZSThreadPC -> Instr ThreadId Empty ZSThreadPC ZSThreadData
  | .caller => .halt
  | .abortTest => .act fun pick data =>
      if data.deleted then none else some (data, if pick = 0 then .caller else .abortUser (pick - 1))
  | .abortUser 0 => .act fun _ data => some (data, .caller)
  | .abortUser (accesses + 1) => .act fun _ data =>
      if data.deleted then none else some (data, .abortUser accesses)
  | .runUser => .act fun _ data => some (data, .runDelete)
  | .runDelete => .act fun _ _ => some ({ deleted := true }, .finished)
  | .finished => .halt

def zsThreadProgram : Program ThreadId Empty ZSThreadPC ZSThreadData where
  code _ := zsThreadCode

def zsThreadAccesses : ZSThreadPC -> Bool
  | .abortTest | .abortUser (_ + 1) => true
  | _ => false

theorem zsThread_outcome {thread : ThreadId} {pick : Nat} {pc : ZSThreadPC} {data after : ZSThreadData}
    {status : Status Empty ZSThreadPC}
    (ran : zsThreadProgram.outcome thread pick pc data = some (after, status)) :
    after.deleted = (data.deleted || decide (pc = .runDelete)) ∧
      ∃ place, status = .running place ∧ (zsThreadAccesses place = true -> zsThreadAccesses pc = true) := by
  cases pc with
  | caller | finished => simp [Program.outcome, zsThreadProgram, zsThreadCode, Instr.result] at ran
  | abortTest =>
      simp only [Program.outcome, zsThreadProgram, zsThreadCode, Instr.result] at ran
      split_ifs at ran <;> simp at ran <;> obtain ⟨rfl, rfl⟩ := ran <;> simp [zsThreadAccesses]
  | abortUser accesses =>
      cases accesses with
      | zero =>
          simp [Program.outcome, zsThreadProgram, zsThreadCode, Instr.result] at ran
          obtain ⟨rfl, rfl⟩ := ran
          simp [zsThreadAccesses]
      | succ accesses =>
          simp only [Program.outcome, zsThreadProgram, zsThreadCode, Instr.result] at ran
          split_ifs at ran <;> simp at ran
          obtain ⟨rfl, rfl⟩ := ran
          simp [zsThreadAccesses]
  | _ =>
      simp [Program.outcome, zsThreadProgram, zsThreadCode, Instr.result] at ran
      obtain ⟨rfl, rfl⟩ := ran
      simp [zsThreadAccesses]

def zsThread : Pair ThreadId Empty ZSThreadPC ZSThreadData where
  program := zsThreadProgram
  self := .run
  value := nofun
  data := {}
  begin := .runUser
  finish := .finished
  enter := .abortTest
  back := .caller
  freed data := data.deleted
  frees pc := decide (pc = .runDelete)
  accesses := zsThreadAccesses
  ahead := zsThreadAccesses
  enters := rfl
  touches _ := id
  returns := rfl
  starts thread pc child first next same := by
    cases pc with
    | abortUser accesses => cases accesses <;> cases same
    | _ => cases same
  calls thread place before after called := by simp [zsThreadProgram] at called
  stays thread pick pc before after status ran freed := by simp [(zsThread_outcome ran).1, freed]
  frees_only thread pick pc before after status ran freed := by
    simpa [(zsThread_outcome ran).1] using freed
  frees_now thread pick pc before after status ran frees := by simp [(zsThread_outcome ran).1, frees]
  apart pc frees := by
    obtain rfl := of_decide_eq_true frees
    exact ⟨ZSThreadPC.noConfusion, ZSThreadPC.noConfusion, rfl⟩
  backward thread pick pc before after status next ran at' ahead := by
    obtain ⟨-, place, rfl, back⟩ := zsThread_outcome ran
    obtain rfl : place = next := by simpa [Status.place] using at'
    exact back ahead
  forward thread pick pc before after status next ran at' freed ahead waits := by
    simp [ahead] at waits

/-! ## The law of the library's pairs -/

/-- The pairs of a run function and an abort callback that the library itself has. -/
inductive Owner where
  | messageLoop
  | serverRun
  | serverRunDgram
  | zsThread
  deriving DecidableEq, Repr

def Owner.Exact : Owner -> Prop
  | .messageLoop => Abort.messageLoop.Exact
  | .serverRun => Abort.serverRun.Exact
  | .serverRunDgram => Abort.serverRunDgram.Exact
  | .zsThread => Abort.zsThread.Exact

/-- When each of the library's own abort callbacks only touches data that its run has not freed. -/
theorem aborts_exact (owner : Owner) : owner.Exact := by
  cases owner with
  | messageLoop => exact Abort.messageLoop.exact
  | serverRun => exact Abort.serverRun.exact
  | serverRunDgram => exact Abort.serverRunDgram.exact
  | zsThread => exact Abort.zsThread.exact

section Runs

variable {T L : Type}

def runs (thread : T) (count : Nat) : List (Act T (PC L)) := List.replicate count (.run thread 1)

def abort (thread : T) (count : Nat) : List (Act T (PC L)) :=
  .call thread .abortLockMap :: runs thread count

end Runs

/-- An abort ends the run function, and another one comes between its free and its cleanup. -/
def secondAbort : List (Act MessageLoop.ThreadId (PC MessageLoop.PC)) :=
  abort (.client 0) 14 ++ runs .run 13 ++ abort (.client 1) 2

def secondAbortServer : List (Act ThreadId (PC ServerPC)) :=
  abort (.client 0) 6 ++ runs .run 4 ++ abort (.client 1) 2

def lateAbort : List (Act ThreadId (PC ZSThreadPC)) := runs .run 2 ++ abort (.client 0) 2

/-- In each case the callback is entered on data that have been freed. -/
theorem aborts_exact_fails_lateAborts :
    (∃ final, exec messageLoop.step messageLoop.initial secondAbort = some final ∧
      messageLoop.freed final.data.inner = true ∧
      final.status (.client 1) = .running (.callback (.duplicate .abortLock)) ∧ ¬ messageLoop.Safe final) ∧
    (∃ final, exec serverRun.step serverRun.initial secondAbortServer = some final ∧
      serverRun.freed final.data.inner = true ∧
      final.status (.client 1) = .running (.callback .abortRead) ∧ ¬ serverRun.Safe final) ∧
    (∃ final, exec serverRunDgram.step serverRunDgram.initial secondAbortServer = some final ∧
      serverRunDgram.freed final.data.inner = true ∧
      final.status (.client 1) = .running (.callback .abortRead) ∧ ¬ serverRunDgram.Safe final) ∧
    ∃ final, exec zsThread.step zsThread.initial lateAbort = some final ∧
      zsThread.freed final.data.inner = true ∧
      final.status (.client 0) = .running (.callback .abortTest) ∧ ¬ zsThread.Safe final :=
  ⟨Pair.unsafe_of_exec (by decide) rfl, Pair.unsafe_of_exec (by decide) rfl,
    Pair.unsafe_of_exec (by decide) rfl, Pair.unsafe_of_exec (by decide) rfl⟩

end ZSystem.Abort
