import ZSystem.Server.Datagram

set_option autoImplicit false

/-!
# Creating a stream

The constructors of streams with their system calls, on the table of the open descriptors.
-/

namespace ZSystem.Stream

open ZSystem.Server (SockAddrIn htons)

/-! ## Addresses -/

abbrev Bytes4 := UInt8 × UInt8 × UInt8 × UInt8

/-- An address as the interface has it: four `char`s. -/
abbrev Ipv4 := Int8 × Int8 × Int8 × Int8

def unsigned : Ipv4 -> Bytes4
  | (one, two, three, four) => (one.toUInt8, two.toUInt8, three.toUInt8, four.toUInt8)

def signed : Bytes4 -> Ipv4
  | (one, two, three, four) => (one.toInt8, two.toInt8, three.toInt8, four.toInt8)

@[simp] theorem signed_unsigned (address : Ipv4) : signed (unsigned address) = address := by
  simp [signed, unsigned]

/-- A name that fits into `sun_path`. -/
structure SunPath where
  name : String
  fits : name.utf8ByteSize < 108
  deriving DecidableEq

inductive SockAddr where
  | inet (host : SockAddrIn)
  | unix (path : SunPath)
  | other
  deriving DecidableEq

def SockAddr.family : SockAddr -> Family
  | .inet _ => .inet
  | .unix _ => .unix
  | .other => .other

/-- The assignments to `sin_addr` and `sin_port`; without an address `INADDR_ANY`. -/
def sockAddrIn (address : Option Ipv4) (port : Int) : SockAddrIn :=
  { address := (address.map unsigned).getD (0, 0, 0, 0), port := htons port }

/-! ## System calls -/

abbrev Table := List Int

/-- What the system calls of one constructor return; descriptors that are opened were not open. -/
structure Calls (before : Table) where
  socket : Int
  setsockopt : Int
  bind : SockAddr -> Int
  listen : Int
  connect : SockAddr -> Int
  pipe : Int
  -- The array that `pipe` gets. If it fails, the array is not initialised.
  ends : Int × Int
  socket_new : socket = -1 ∨ 0 ≤ socket ∧ socket ∉ before
  setsockopt_back : setsockopt = -1 ∨ setsockopt = 0
  bind_back : ∀ address, bind address = -1 ∨ bind address = 0
  listen_back : listen = -1 ∨ listen = 0
  connect_back : ∀ address, connect address = -1 ∨ connect address = 0
  pipe_back : pipe = -1 ∨ pipe = 0
  ends_new : pipe = 0 -> (ends.1 :: ends.2 :: socket :: before).Nodup ∧ 0 ≤ ends.1 ∧ 0 ≤ ends.2

def closeFd (fd : Int) (table : Table) : Table := table.erase fd

structure SocketStream where
  stream : Struct
  remoteIpv4Address : Bytes4
  remotePort : Int
  deriving DecidableEq

/-- `zs__stream_create` has set all fields to 0, and the port is not set here. -/
def createSocket (socket : Int) (remoteHost : Option SockAddr) : SocketStream :=
  { stream := streamCreateSocket socket (remoteHost.map SockAddr.family)
    remoteIpv4Address :=
      match remoteHost with
      | some (.inet host) => host.address
      | some (.unix _) | some .other | none => (0, 0, 0, 0)
    remotePort := 0 }

namespace Calls

variable {before : Table} (calls : Calls before)

def openSocket (table : Table) : Int × Table :=
  (calls.socket, if 0 ≤ calls.socket then calls.socket :: table else table)

def openPipe (table : Table) : (Int × Int) × Table :=
  (calls.ends, if calls.pipe = 0 then calls.ends.1 :: calls.ends.2 :: table else table)

def streamCreatePipe (table : Table) : Struct × Table :=
  let (ends, table) := calls.openPipe table
  (Stream.streamCreatePipe ends.1 ends.2, table)

/-- The constructors of the two protocols differ in the arguments of `socket` only. -/
def connectIpv4 (src : Option Ipv4) (srcPort : Int) (dst : Option Ipv4) (dstPort : Int) (table : Table) :
    Option SocketStream × Table :=
  match dst with
  | none => (none, table)
  | some dst =>
      let (socket, table) := calls.openSocket table
      if socket < 0 then (none, table)
      else if (src.isSome ∨ srcPort ≠ 0) ∧ calls.bind (.inet (sockAddrIn src srcPort)) = -1 then
        (none, closeFd socket table)
      else if calls.connect (.inet (sockAddrIn dst dstPort)) = -1 then (none, closeFd socket table)
      else (some (createSocket socket (some (.inet (sockAddrIn dst dstPort)))), table)

def streamCreateTcpIpv4 := calls.connectIpv4

def streamCreateUdpIpv4 := calls.connectIpv4

def streamCreateLocal (name : SunPath) (table : Table) : Option SocketStream × Table :=
  let (socket, table) := calls.openSocket table
  if socket < 0 then (none, table)
  else if calls.connect (.unix name) = -1 then (none, table)
  else (some (createSocket socket (some (.unix name))), table)

end Calls

/-! ## What a constructor leaves behind -/

/-- A call that has returned an object with the descriptors `owned`, or has reported a failure. -/
def Accounted (before : Table) (owned : Option (List Int)) (after : Table) : Prop :=
  match owned with
  | some fds => after.Perm (fds ++ before)
  | none => after = before

def pipeEnds (stream : Struct) : List Int := [stream.reader, stream.writer]

def SocketStream.owned (stream : SocketStream) : List Int := [stream.stream.socket]

section Accounted

variable {before : Table} {calls : Calls before}

theorem not_accounted_some {fds : List Int} (opened : List Int) (differ : fds.length ≠ opened.length) :
    ¬ Accounted before (some fds) (opened ++ before) := fun accounted => by
  have lengths := accounted.length_eq
  simp only [List.length_append, Nat.add_right_cancel_iff] at lengths
  exact differ lengths.symm

theorem not_accounted_none {fd : Int} : ¬ Accounted before none (fd :: before) := fun accounted =>
  absurd (congrArg List.length accounted) (by simp)

/-- A call that can fail, after which the constructor returns and leaves `fd` open. -/
theorem accounted_guard {α : Type} {owned : α -> List Int} {fails : Prop} [Decidable fails] {fd : Int}
    {rest : Option α × Table} :
    Accounted before ((if fails then (none, fd :: before) else rest).1.map owned)
        (if fails then (none, fd :: before) else rest).2 ↔
      ¬ fails ∧ Accounted before (rest.1.map owned) rest.2 := by
  by_cases failed : fails
  · simp only [failed, if_true, not_true_eq_false, false_and, iff_false]
    exact not_accounted_none
  · simp only [failed, if_false, not_false_eq_true, true_and]

theorem openSocket_failed (failed : calls.socket < 0) (table : Table) :
    calls.openSocket table = (calls.socket, table) := by
  simp [Calls.openSocket, Int.not_le.mpr failed]

theorem openSocket_opened (opened : ¬ calls.socket < 0) (table : Table) :
    calls.openSocket table = (calls.socket, calls.socket :: table) := by
  simp [Calls.openSocket, Int.not_lt.mp opened]

theorem closeFd_opened (fd : Int) (table : Table) : closeFd fd (fd :: table) = table := by
  simp [closeFd]

theorem streamCreatePipe_accounted :
    Accounted before (some (pipeEnds (calls.streamCreatePipe before).1)) (calls.streamCreatePipe before).2 ↔
      calls.pipe = 0 := by
  simp only [Calls.streamCreatePipe, Calls.openPipe]
  split_ifs with opened
  · exact iff_of_true (List.Perm.refl _) opened
  · exact iff_of_false (not_accounted_some [] (by simp [pipeEnds])) opened

theorem connectIpv4_accounted (src : Option Ipv4) (srcPort : Int) (dst : Option Ipv4) (dstPort : Int) :
    Accounted before ((calls.connectIpv4 src srcPort dst dstPort before).1.map SocketStream.owned)
      (calls.connectIpv4 src srcPort dst dstPort before).2 := by
  unfold Calls.connectIpv4
  cases dst with
  | none => rfl
  | some dst =>
      by_cases failed : calls.socket < 0
      · simp only [openSocket_failed failed, failed, if_true]
        rfl
      · simp only [openSocket_opened failed, failed, if_false, closeFd_opened]
        split_ifs
        · rfl
        · rfl
        · exact List.Perm.refl _

theorem streamCreateLocal_accounted (name : SunPath) :
    Accounted before ((calls.streamCreateLocal name before).1.map SocketStream.owned)
      (calls.streamCreateLocal name before).2 ↔ calls.socket < 0 ∨ calls.connect (.unix name) ≠ -1 := by
  unfold Calls.streamCreateLocal
  by_cases failed : calls.socket < 0
  · simp only [openSocket_failed failed, failed, if_true, true_or, iff_true]
    rfl
  · simp only [openSocket_opened failed, failed, if_false, false_or]
    rw [accounted_guard]
    exact and_iff_left (List.Perm.refl _)

end Accounted

end ZSystem.Stream
