import ZSystem.Stream.Create

set_option autoImplicit false

/-!
# The peer of a stream

The address and the port of the peer go into a stream on two ways: through `zs__stream_create_socket`, and
in `zs__server_run_dgram`.
-/

namespace ZSystem.Stream

open ZSystem.Server (Dgram SockAddrIn htons ntohs serverWriteDgram)

/-- The fields that the two functions below read. -/
structure Remote where
  streamType : StreamType
  remoteIpv4Address : Bytes4
  remotePort : Int
  deriving DecidableEq, Repr

def SocketStream.remote (stream : SocketStream) : Remote :=
  { streamType := stream.stream.streamType
    remoteIpv4Address := stream.remoteIpv4Address
    remotePort := stream.remotePort }

def dgramRemote (stream : Dgram) : Remote :=
  { streamType := stream.streamType
    remoteIpv4Address := stream.remoteIpv4Address
    remotePort := stream.remotePort }

def streamGetRemoteIpv4Address (stream : Remote) : Option Ipv4 :=
  if stream.streamType = .inet then some (signed stream.remoteIpv4Address) else none

def streamGetRemotePort (stream : Remote) : Int :=
  if stream.streamType = .inet then stream.remotePort else 0

/-! ## Peers -/

structure Peer where
  address : Ipv4
  port : Int
  valid : 1 ≤ port ∧ port ≤ 65535
  deriving DecidableEq

/-- How `accept` and `recvfrom` report the peer: the port has its high byte first. -/
def Peer.host (peer : Peer) : SockAddrIn :=
  { address := unsigned peer.address
    port := (UInt8.ofNat (peer.port.toNat / 256), UInt8.ofNat (peer.port.toNat % 256)) }

inductive Way (peer : Peer) where
  | tcp {before : Table} (calls : Calls before) (src : Option Ipv4) (srcPort : Int) (table : Table)
      (stream : SocketStream)
      (made : (calls.streamCreateTcpIpv4 src srcPort (some peer.address) peer.port table).1 = some stream)
  | udp {before : Table} (calls : Calls before) (src : Option Ipv4) (srcPort : Int) (table : Table)
      (stream : SocketStream)
      (made : (calls.streamCreateUdpIpv4 src srcPort (some peer.address) peer.port table).1 = some stream)
  -- `accept` has returned `socket` to `zs__server_run`.
  | accepted (socket : Int)
  | dgram (server : Server) (bytes : List UInt8) (stream : Dgram)
      (made : server.connection (.datagram bytes peer.host) = some (.dgram stream))

def Way.isDgram {peer : Peer} : Way peer -> Prop
  | .tcp .. | .udp .. | .accepted .. => False
  | .dgram .. => True

def Way.remote {peer : Peer} : Way peer -> Remote
  | .tcp _ _ _ _ stream _ | .udp _ _ _ _ stream _ => stream.remote
  | .accepted socket => (createSocket socket (some (.inet peer.host))).remote
  | .dgram _ _ stream _ => dgramRemote stream

/-- What `zs__server_run` passes on for an accepted connection. -/
theorem accepted_connection (server : Server) (peer : Peer) (socket : Int) :
    server.connection (.accepted socket .inet) =
      some (.socket (createSocket socket (some (.inet peer.host))).stream) :=
  rfl

/-- Where a write on a stream of a datagram server is sent to; nothing is said of the other streams. -/
def Way.Answers {peer : Peer} : Way peer -> SockAddrIn -> Prop
  | .tcp .., _ | .udp .., _ | .accepted .., _ => True
  | .dgram _ _ stream _, host => ∀ size back, (serverWriteDgram stream size back).1.remoteHost = host

structure Identity {peer : Peer} (way : Way peer) : Prop where
  address : streamGetRemoteIpv4Address way.remote = some peer.address
  port : streamGetRemotePort way.remote = peer.port
  writes : way.Answers peer.host

section Identity

variable {peer : Peer}

theorem connected_remote {before : Table} {calls : Calls before} {src : Option Ipv4} {srcPort : Int} {table : Table}
    {stream : SocketStream}
    (made : (calls.connectIpv4 src srcPort (some peer.address) peer.port table).1 = some stream) :
    stream.remote = { streamType := .inet, remoteIpv4Address := unsigned peer.address, remotePort := 0 } := by
  unfold Calls.connectIpv4 at made
  dsimp only at made
  split_ifs at made
  cases made
  rfl

theorem dgram_remote {server : Server} {bytes : List UInt8} {stream : Dgram}
    (made : server.connection (.datagram bytes peer.host) = some (.dgram stream)) :
    dgramRemote stream =
      { streamType := .inet, remoteIpv4Address := unsigned peer.address, remotePort := ntohs peer.host.port } := by
  simp only [Server.connection] at made
  split_ifs at made
  cases made
  rfl

theorem ntohs_host (peer : Peer) : ntohs peer.host.port = peer.port := by
  obtain ⟨lower, upper⟩ := peer.valid
  simp only [ntohs, Peer.host, UInt8.toNat_ofNat']
  omega

theorem htons_port (peer : Peer) : htons peer.port = peer.host.port := by
  obtain ⟨lower, upper⟩ := peer.valid
  simp only [htons, Peer.host, Prod.mk.injEq, UInt8.ofInt, ← UInt8.toNat_inj, UInt8.toNat_ofNat']
  constructor
  · omega
  · omega

theorem way_remote (way : Way peer) :
    way.remote.streamType = .inet ∧ way.remote.remoteIpv4Address = unsigned peer.address ∧
      (way.isDgram -> way.remote.remotePort = peer.port) ∧ (¬ way.isDgram -> way.remote.remotePort = 0) := by
  cases way with
  | tcp calls src srcPort table stream made =>
      simp [Way.remote, Way.isDgram, connected_remote made]
  | udp calls src srcPort table stream made =>
      simp [Way.remote, Way.isDgram, connected_remote made]
  | accepted socket => exact ⟨rfl, rfl, False.elim, fun _ => rfl⟩
  | dgram server bytes stream made =>
      simp [Way.remote, Way.isDgram, dgram_remote made, ntohs_host]

theorem dgram_answers {server : Server} {bytes : List UInt8} {stream : Dgram}
    (made : server.connection (.datagram bytes peer.host) = some (.dgram stream)) (size : UInt32) (back : Int) :
    (serverWriteDgram stream size back).1.remoteHost = peer.host := by
  have remote := dgram_remote made
  have address : stream.remoteIpv4Address = unsigned peer.address := congrArg Remote.remoteIpv4Address remote
  have port : stream.remotePort = peer.port := (congrArg Remote.remotePort remote).trans (ntohs_host peer)
  simp only [serverWriteDgram, address, port, htons_port]
  rfl

theorem identity_iff (way : Way peer) : Identity way ↔ way.isDgram := by
  obtain ⟨inet, address, known, unknown⟩ := way_remote way
  refine ⟨fun identity => ?_, fun dgram => ⟨?_, ?_, ?_⟩⟩
  · by_contra other
    have reported := identity.port
    rw [streamGetRemotePort, if_pos inet, unknown other] at reported
    have positive := peer.valid.1
    omega
  · rw [streamGetRemoteIpv4Address, if_pos inet, address, signed_unsigned]
  · rw [streamGetRemotePort, if_pos inet, known dgram]
  · cases way with
    | dgram server bytes stream made => exact dgram_answers made
    | tcp | udp | accepted => exact dgram.elim

/-- A client at 127.0.0.1:80 of a stream server. -/
theorem identity_iff_fails : ¬ ∀ (peer : Peer) (way : Way peer), Identity way := by
  intro always
  have identity := always { address := (127, 0, 0, 1), port := 80, valid := by decide } (.accepted 5)
  exact absurd identity.port (by decide)

end Identity

end ZSystem.Stream
