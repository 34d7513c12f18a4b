import ZSystem.Server.Create

set_option autoImplicit false

/-!
# Servers that cannot be created

The constructors of `ZSServer` and its `DeleteOnFailure`. The handle is a `pthread_t`, so the `-1` of a
server that has no thread is the largest number of 64 bits.
-/

namespace ZSystem.Server

open ZSystem.Stream

/-- What `pthread_create` does in `zs__thread_create`. If it fails, the handle field keeps `left`. -/
inductive ThreadResult where
  | created (handle : UInt64) (valid : handle ≠ 0)
  | failed (left : UInt64)

/-- The result of `zs__thread_create`. -/
def ThreadResult.handle : ThreadResult -> UInt64
  | .created handle _ => handle
  | .failed left => left

inductive StreamProtocol where
  | spLocal
  | spTCP
  | spUDP
  deriving DecidableEq, Repr

/-- The two constructors of `ZSServer` with their arguments. -/
inductive Construction where
  | ofIpv4 (protocol : StreamProtocol) (address : Option Ipv4) (port : Int)
  | ofName (protocol : StreamProtocol) (name : SunPath)

structure ZSServer where
  threadHandle : UInt64
  deriving DecidableEq, Repr

section Constructors

variable {before : Table} (calls : Calls before)

/-- What the constructor of `ZSServer` has created before `zs__thread_create`, unless a call failed. -/
def Construction.server : Construction -> Option Server
  | .ofIpv4 .spUDP address port => (createUdpIpv4 calls address port before).1
  | .ofIpv4 .spTCP address port => (createTcpIpv4 calls address port before).1
  | .ofIpv4 .spLocal _ _ => none
  | .ofName .spLocal name => (createLocal calls name before).1
  | .ofName .spTCP _ => none
  | .ofName .spUDP _ => none

def Construction.object (construction : Construction) (thread : ThreadResult) : ZSServer :=
  match construction.server calls with
  | none => { threadHandle := -1 }
  | some _ => { threadHandle := thread.handle }

def Construction.ThreadCreated (construction : Construction) (thread : ThreadResult) : Prop :=
  (construction.server calls).isSome ∧ ∃ handle valid, thread = .created handle valid

/-- `ZSServer::DeleteOnFailure` on one of the objects that exist. -/
def deleteOnFailure (objects : Nat -> Option ZSServer) (server : Nat) :
    Option (Bool × (Nat -> Option ZSServer)) :=
  (objects server).map fun object =>
    if object.threadHandle > 0 then (false, objects)
    else (true, Function.update objects server none)

/-- `DeleteOnFailure` on a new server says that there is no thread, and deletes it, if there is none. -/
def Recognised (construction : Construction) (thread : ThreadResult) (objects : Nat -> Option ZSServer)
    (server : Nat) : Prop :=
  ∃ deleted after,
    deleteOnFailure (Function.update objects server (some (construction.object calls thread))) server =
        some (deleted, after) ∧
      (deleted = true ↔ ¬ construction.ThreadCreated calls thread) ∧
      (after server = none ↔ ¬ construction.ThreadCreated calls thread)

/-- The constructor knows the protocol, and none of its system calls fails. -/
def Construction.Succeeds : Construction -> Prop
  | .ofIpv4 .spUDP address port =>
      calls.socket ≠ -1 ∧ calls.setsockopt = 0 ∧ calls.bind (.inet (sockAddrIn address port)) = 0
  | .ofIpv4 .spTCP address port =>
      calls.socket ≠ -1 ∧ calls.setsockopt = 0 ∧ calls.bind (.inet (sockAddrIn address port)) = 0 ∧
        calls.listen = 0
  | .ofIpv4 .spLocal _ _ => False
  | .ofName .spLocal name => calls.socket ≠ -1 ∧ calls.bind (.unix name) = 0 ∧ calls.listen = 0
  | .ofName .spTCP _ => False
  | .ofName .spUDP _ => False

def ThreadResult.Told : ThreadResult -> Prop
  | .created _ _ => True
  | .failed left => left = 0

theorem server_isSome_iff (construction : Construction) :
    (construction.server calls).isSome ↔ construction.Succeeds calls := by
  cases construction with
  | ofIpv4 protocol address port =>
      have bind := back_iff (calls.bind_back (.inet (sockAddrIn address port)))
      cases protocol with
      | spLocal => simp [Construction.server, Construction.Succeeds]
      | spTCP =>
          simp only [Construction.server, createTcpIpv4_server, serverCreateTcpIpv4, Option.isSome_ite']
          simp [Construction.Succeeds, systemCalls, bind, back_iff calls.setsockopt_back,
            back_iff calls.listen_back]
      | spUDP =>
          simp only [Construction.server, createUdpIpv4_server, serverCreateUdpIpv4, Option.isSome_ite']
          simp [Construction.Succeeds, systemCalls, bind, back_iff calls.setsockopt_back]
  | ofName protocol name =>
      cases protocol with
      | spLocal =>
          have bind := calls.bind_back (.unix name)
          have bound : calls.bind (.unix name) = 0 ↔ 0 ≤ calls.bind (.unix name) := by omega
          have socket : ¬ calls.socket = -1 ↔ 0 ≤ calls.socket := by
            rw [← socket_failed_iff, not_lt]
          simp only [Construction.server, createLocal_server, serverCreateLocal, Option.isSome_ite']
          simp [Construction.Succeeds, systemCalls, bound, socket, back_iff calls.listen_back]
      | spTCP => simp [Construction.server, Construction.Succeeds]
      | spUDP => simp [Construction.server, Construction.Succeeds]

/-- Every failure code is a handle greater than 0, so a failure is recognised only where none occurs. -/
theorem recognised_iff (construction : Construction) (thread : ThreadResult)
    (objects : Nat -> Option ZSServer) (server : Nat) :
    Recognised calls construction thread objects server ↔ construction.Succeeds calls ∧ thread.Told := by
  rw [← server_isSome_iff]
  cases made : construction.server calls with
  | none =>
      have failure : (0 : UInt64) < -1 := by decide
      simp [Recognised, deleteOnFailure, Construction.object, Construction.ThreadCreated, made, failure]
  | some _ =>
      cases thread with
      | created handle valid =>
          have positive : 0 < handle := by grind
          simp [Recognised, deleteOnFailure, Construction.object, Construction.ThreadCreated, made,
            ThreadResult.handle, ThreadResult.Told, positive, valid]
      | failed left =>
          by_cases zero : left = 0
          · simp [Recognised, deleteOnFailure, Construction.object, Construction.ThreadCreated, made,
              ThreadResult.handle, ThreadResult.Told, zero]
          · have positive : 0 < left := by grind
            simp [Recognised, deleteOnFailure, Construction.object, Construction.ThreadCreated, made,
              ThreadResult.handle, ThreadResult.Told, zero, positive]

end Constructors

/-- `socket` and `pipe` fail, say because no descriptor is left. -/
def noSocket : Calls [0, 1, 2] :=
  { addressInUse with
    socket := -1
    pipe := -1
    socket_new := Or.inl rfl
    pipe_back := Or.inl rfl
    ends_new := by simp }

/-- The server of a socket that could not be opened is kept. -/
theorem recognised_fails_no_socket :
    ¬ Recognised noSocket (.ofIpv4 .spTCP none 80) (.created 7 (by decide)) (fun _ => none) 1 := by
  have failure : (0 : UInt64) < -1 := by decide
  have none_made : Construction.server noSocket (.ofIpv4 .spTCP none 80) = none := rfl
  simp [Recognised, deleteOnFailure, Construction.object, Construction.ThreadCreated, none_made, failure]

end ZSystem.Server
