import MeshFacts.Link

/-! # Local facts
What a node asserts on its own authority: the networks behind it, where it can be reached, that it is alive,
the endpoints that it has seen work, and the members and networks of its configuration. -/
namespace MeshFacts.Link

/-- Whether the configuration says so or, if it says nothing, whether an address of the tunnel interface
that is not link-local has a routable network wider than a host. -/
def isLocalRouter (l : Link) (interfaces : List NetInterface) : Bool :=
  match l.config.router with
  | some router => router
  | none =>
    interfaces.any fun i =>
      i.name == l.config.iface && i.addresses.any fun n => !n.addr.isLinkLocal && n.isRouter

/-- Facts from one interface: networks from the tunnel itself, endpoints from any other. -/
def interfaceFacts (l : Link) (listenPort : UInt16) (expires : Instant) (i : NetInterface) : List Fact :=
  if i.name = l.config.iface then
    (i.addresses.filter fun n => !n.addr.isLinkLocal).map fun n => .allowedIps l.self n expires
  else
    (i.addresses.filter fun n => n.addr.isGlobalUnicast).map fun n =>
      .endpoint l.self (.ofIp n.addr listenPort) expires

def workingEndpoint (now expires : Instant) (p : DevicePeer) : Option Fact :=
  if p.lastHandshake.any fun t => Clock.since now t < Clock.handshakeValidity then
    p.endpoint.map fun e => .endpoint p.publicKey e expires
  else none

/-- A configured peer is a member and has its configured networks. -/
def memberFacts (expires : Instant) (k : PublicKey) (e : PeerEntry) : List Fact :=
  .membership k expires :: e.allowedIps.map fun n => .allowedIps k n expires

def localFacts (l : Link) (device : DeviceState) (interfaces : List NetInterface) (now : Instant) :
    List Fact :=
  let expires := now + Clock.factTtl
  interfaces.flatMap (l.interfaceFacts device.listenPort expires)
    ++ (l.config.peers.allowedIps l.self).map (fun n => .allowedIps l.self n expires)
    ++ [.alive l.self l.bootId expires]
    ++ device.peers.filterMap (workingEndpoint now expires)
    ++ (l.config.peers.entries.filter fun e => e.1 ≠ l.self).flatMap
      fun e => memberFacts expires e.1 e.2

end MeshFacts.Link
