import ZSystem.Stream.Create

set_option autoImplicit false

/-!
# Creating a server

`zs__server_create_*` with their system calls, and what every constructor of the library leaves open.
-/

namespace ZSystem.Server

open ZSystem.Abort (SocketType)
open ZSystem.Stream

section Constructors

variable {before : Table} (calls : Calls before)

/-- The end of the three constructors, behind `malloc`. -/
def serverOn (socketType : SocketType) (socket : Int) (table : Table) : Option Server × Table :=
  let (stream, table) := calls.streamCreatePipe table
  (some { socketType := socketType, stream := stream, socket := socket }, table)

/-- `zs__server_create_local`. -/
def createLocal (name : SunPath) (table : Table) : Option Server × Table :=
  let (socket, table) := calls.openSocket table
  if socket < 0 then (none, table)
  else if calls.bind (.unix name) < 0 then (none, table)
  else if calls.listen = -1 then (none, table)
  else serverOn calls .stream socket table

/-- `zs__server_create_tcp_ipv4`. -/
def createTcpIpv4 (ipv4 : Option Ipv4) (port : Int) (table : Table) : Option Server × Table :=
  let (socket, table) := calls.openSocket table
  if socket = -1 then (none, table)
  else if calls.setsockopt = -1 then (none, table)
  else if calls.bind (.inet (sockAddrIn ipv4 port)) = -1 then (none, table)
  else if calls.listen = -1 then (none, table)
  else serverOn calls .stream socket table

/-- `zs__server_create_udp_ipv4`. -/
def createUdpIpv4 (ipv4 : Option Ipv4) (port : Int) (table : Table) : Option Server × Table :=
  let (socket, table) := calls.openSocket table
  if socket = -1 then (none, table)
  else if calls.setsockopt = -1 then (none, table)
  else if calls.bind (.inet (sockAddrIn ipv4 port)) = -1 then (none, table)
  else serverOn calls .dgram socket table

/-- The calls as the constructors of `ZSystem.Server.Run` see them. -/
def systemCalls (address : SockAddr) : SystemCalls :=
  { socket := calls.socket
    setsockopt := calls.setsockopt
    bind := calls.bind address
    listen := calls.listen
    pipe := calls.ends }

theorem createLocal_server (name : SunPath) (table : Table) :
    (createLocal calls name table).1 = serverCreateLocal (systemCalls calls (.unix name)) := by
  by_cases failed : calls.socket < 0 ∨ calls.bind (.unix name) < 0 ∨ calls.listen = -1
  · rcases failed with failed | failed | failed <;>
      simp [createLocal, serverCreateLocal, systemCalls, Calls.openSocket, failed]
  · obtain ⟨socket, bind, listen⟩ :
        ¬ calls.socket < 0 ∧ ¬ calls.bind (.unix name) < 0 ∧ ¬ calls.listen = -1 := by
      simpa only [not_or] using failed
    simp [createLocal, serverCreateLocal, systemCalls, Calls.openSocket, serverOn, Calls.streamCreatePipe,
      Calls.openPipe, socket, bind, listen]

theorem createTcpIpv4_server (ipv4 : Option Ipv4) (port : Int) (table : Table) :
    (createTcpIpv4 calls ipv4 port table).1 =
      serverCreateTcpIpv4 (systemCalls calls (.inet (sockAddrIn ipv4 port))) := by
  by_cases failed : calls.socket = -1 ∨ calls.setsockopt = -1 ∨
      calls.bind (.inet (sockAddrIn ipv4 port)) = -1 ∨ calls.listen = -1
  · rcases failed with failed | failed | failed | failed <;>
      simp [createTcpIpv4, serverCreateTcpIpv4, systemCalls, Calls.openSocket, failed]
  · obtain ⟨socket, setsockopt, bind, listen⟩ : ¬ calls.socket = -1 ∧ ¬ calls.setsockopt = -1 ∧
        ¬ calls.bind (.inet (sockAddrIn ipv4 port)) = -1 ∧ ¬ calls.listen = -1 := by
      simpa only [not_or] using failed
    simp [createTcpIpv4, serverCreateTcpIpv4, systemCalls, Calls.openSocket, serverOn, Calls.streamCreatePipe,
      Calls.openPipe, socket, setsockopt, bind, listen]

theorem createUdpIpv4_server (ipv4 : Option Ipv4) (port : Int) (table : Table) :
    (createUdpIpv4 calls ipv4 port table).1 =
      serverCreateUdpIpv4 (systemCalls calls (.inet (sockAddrIn ipv4 port))) := by
  by_cases failed : calls.socket = -1 ∨ calls.setsockopt = -1 ∨ calls.bind (.inet (sockAddrIn ipv4 port)) = -1
  · rcases failed with failed | failed | failed <;>
      simp [createUdpIpv4, serverCreateUdpIpv4, systemCalls, Calls.openSocket, failed]
  · obtain ⟨socket, setsockopt, bind⟩ : ¬ calls.socket = -1 ∧ ¬ calls.setsockopt = -1 ∧
        ¬ calls.bind (.inet (sockAddrIn ipv4 port)) = -1 := by
      simpa only [not_or] using failed
    simp [createUdpIpv4, serverCreateUdpIpv4, systemCalls, Calls.openSocket, serverOn, Calls.streamCreatePipe,
      Calls.openPipe, socket, setsockopt, bind]

end Constructors

/-! ## Every constructor -/

def owned (server : Server) : List Int := [server.socket, server.stream.reader, server.stream.writer]

inductive Constructor where
  | streamPipe
  | streamTcpIpv4 (src : Option Ipv4) (srcPort : Int) (dst : Option Ipv4) (dstPort : Int)
  | streamUdpIpv4 (src : Option Ipv4) (srcPort : Int) (dst : Option Ipv4) (dstPort : Int)
  | streamLocal (name : SunPath)
  | serverLocal (name : SunPath)
  | serverTcpIpv4 (ipv4 : Option Ipv4) (port : Int)
  | serverUdpIpv4 (ipv4 : Option Ipv4) (port : Int)
  deriving DecidableEq

/-- The descriptors of the object that is returned, if any, and the table afterwards. -/
def Constructor.run {before : Table} (calls : Calls before) : Constructor -> Option (List Int) × Table
  | .streamPipe =>
      let (stream, table) := calls.streamCreatePipe before
      (some (pipeEnds stream), table)
  | .streamTcpIpv4 src srcPort dst dstPort =>
      (calls.streamCreateTcpIpv4 src srcPort dst dstPort before).map (Option.map SocketStream.owned) id
  | .streamUdpIpv4 src srcPort dst dstPort =>
      (calls.streamCreateUdpIpv4 src srcPort dst dstPort before).map (Option.map SocketStream.owned) id
  | .streamLocal name => (calls.streamCreateLocal name before).map (Option.map SocketStream.owned) id
  | .serverLocal name => (createLocal calls name before).map (Option.map owned) id
  | .serverTcpIpv4 ipv4 port => (createTcpIpv4 calls ipv4 port before).map (Option.map owned) id
  | .serverUdpIpv4 ipv4 port => (createUdpIpv4 calls ipv4 port before).map (Option.map owned) id

/-- No call fails that the constructor does not clean up after. -/
def Constructor.Tidy {before : Table} (calls : Calls before) : Constructor -> Prop
  | .streamPipe => calls.pipe = 0
  | .streamTcpIpv4 .. | .streamUdpIpv4 .. => True
  | .streamLocal name => calls.socket = -1 ∨ calls.connect (.unix name) = 0
  | .serverLocal name =>
      calls.socket = -1 ∨ calls.bind (.unix name) = 0 ∧ calls.listen = 0 ∧ calls.pipe = 0
  | .serverTcpIpv4 ipv4 port =>
      calls.socket = -1 ∨
        calls.setsockopt = 0 ∧ calls.bind (.inet (sockAddrIn ipv4 port)) = 0 ∧ calls.listen = 0 ∧ calls.pipe = 0
  | .serverUdpIpv4 ipv4 port =>
      calls.socket = -1 ∨
        calls.setsockopt = 0 ∧ calls.bind (.inet (sockAddrIn ipv4 port)) = 0 ∧ calls.pipe = 0

section Accounted

variable {before : Table} {calls : Calls before}

theorem serverOn_accounted (socketType : SocketType) :
    Accounted before ((serverOn calls socketType calls.socket (calls.socket :: before)).1.map owned)
      (serverOn calls socketType calls.socket (calls.socket :: before)).2 ↔ calls.pipe = 0 := by
  simp only [serverOn, Calls.streamCreatePipe, Calls.openPipe]
  split_ifs with opened
  · refine iff_of_true ?_ opened
    have swapped : ([calls.ends.1, calls.ends.2] ++ [calls.socket]).Perm
        ([calls.socket] ++ [calls.ends.1, calls.ends.2]) := List.perm_append_comm
    exact swapped.append_right before
  · exact iff_of_false (not_accounted_some [calls.socket] (by simp [owned])) opened

theorem back_iff {back : Int} (either : back = -1 ∨ back = 0) : back = 0 ↔ ¬ back = -1 := by
  omega

theorem socket_failed_iff (calls : Calls before) : calls.socket < 0 ↔ calls.socket = -1 := by
  have either := calls.socket_new
  omega

theorem createLocal_accounted (name : SunPath) :
    Accounted before ((createLocal calls name before).1.map owned) (createLocal calls name before).2 ↔
      Constructor.Tidy calls (.serverLocal name) := by
  have bind := calls.bind_back (.unix name)
  have bound : calls.bind (.unix name) = 0 ↔ ¬ calls.bind (.unix name) < 0 := by omega
  simp only [createLocal, Constructor.Tidy]
  rw [← socket_failed_iff, bound, back_iff calls.listen_back]
  by_cases failed : calls.socket < 0
  · simp only [openSocket_failed failed, failed, if_true, true_or, iff_true]
    rfl
  · simp only [openSocket_opened failed, failed, if_false, false_or]
    rw [accounted_guard, accounted_guard, serverOn_accounted]

theorem createTcpIpv4_accounted (ipv4 : Option Ipv4) (port : Int) :
    Accounted before ((createTcpIpv4 calls ipv4 port before).1.map owned) (createTcpIpv4 calls ipv4 port before).2 ↔
      Constructor.Tidy calls (.serverTcpIpv4 ipv4 port) := by
  simp only [createTcpIpv4, Constructor.Tidy]
  rw [back_iff calls.setsockopt_back, back_iff (calls.bind_back _), back_iff calls.listen_back]
  by_cases failed : calls.socket = -1
  · simp only [openSocket_failed ((socket_failed_iff calls).mpr failed), failed, if_true, true_or, iff_true]
    rfl
  · simp only [openSocket_opened ((socket_failed_iff calls).not.mpr failed), failed, if_false, false_or]
    rw [accounted_guard, accounted_guard, accounted_guard, serverOn_accounted]

theorem createUdpIpv4_accounted (ipv4 : Option Ipv4) (port : Int) :
    Accounted before ((createUdpIpv4 calls ipv4 port before).1.map owned) (createUdpIpv4 calls ipv4 port before).2 ↔
      Constructor.Tidy calls (.serverUdpIpv4 ipv4 port) := by
  simp only [createUdpIpv4, Constructor.Tidy]
  rw [back_iff calls.setsockopt_back, back_iff (calls.bind_back _)]
  by_cases failed : calls.socket = -1
  · simp only [openSocket_failed ((socket_failed_iff calls).mpr failed), failed, if_true, true_or, iff_true]
    rfl
  · simp only [openSocket_opened ((socket_failed_iff calls).not.mpr failed), failed, if_false, false_or]
    rw [accounted_guard, accounted_guard, serverOn_accounted]

theorem construction_accounted_iff (calls : Calls before) (constructor : Constructor) :
    Accounted before (constructor.run calls).1 (constructor.run calls).2 ↔ constructor.Tidy calls := by
  cases constructor with
  | streamPipe => exact streamCreatePipe_accounted
  | streamTcpIpv4 src srcPort dst dstPort | streamUdpIpv4 src srcPort dst dstPort =>
      exact iff_of_true (connectIpv4_accounted src srcPort dst dstPort) trivial
  | streamLocal name =>
      refine (streamCreateLocal_accounted name).trans ?_
      rw [socket_failed_iff, Constructor.Tidy, back_iff (calls.connect_back _)]
  | serverLocal name => exact createLocal_accounted name
  | serverTcpIpv4 ipv4 port => exact createTcpIpv4_accounted ipv4 port
  | serverUdpIpv4 ipv4 port => exact createUdpIpv4_accounted ipv4 port

/-- A socket is opened, and its address is in use. -/
def addressInUse : Calls [0, 1, 2] where
  socket := 3
  setsockopt := 0
  bind _ := -1
  listen := 0
  connect _ := 0
  pipe := 0
  ends := (4, 5)
  socket_new := by decide
  setsockopt_back := by decide
  bind_back _ := by decide
  listen_back := by decide
  connect_back _ := by decide
  pipe_back := by decide
  ends_new _ := by decide

theorem construction_accounted_iff_fails :
    ¬ Accounted [0, 1, 2] (Constructor.run addressInUse (.serverTcpIpv4 none 80)).1
      (Constructor.run addressInUse (.serverTcpIpv4 none 80)).2 := by
  have leaks : Constructor.run addressInUse (.serverTcpIpv4 none 80) = (none, [3, 0, 1, 2]) := rfl
  rw [leaks]
  exact not_accounted_none

end Accounted

end ZSystem.Server
