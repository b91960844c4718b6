import MeshFacts.Octets

/-! # Addresses and networks
Addresses of both families, socket addresses, networks as they are written (host bits kept), their
normal forms and the classes that routing asks for. -/
namespace MeshFacts

abbrev V4 := BitVec 32

abbrev V6 := BitVec 128

inductive IpAddr where
  | v4 (addr : V4)
  | v6 (addr : V6)
deriving DecidableEq, Repr, Inhabited

/-- An address with a port; for the sixth family also with the scope it is valid in, zero for none. Flow labels,
which no text of an address shows, are left out. -/
inductive SocketAddr where
  | v4 (addr : V4) (port : UInt16)
  | v6 (addr : V6) (port : UInt16) (scope : UInt32)
deriving DecidableEq, Repr, Inhabited

/-- An address and the number of its leading bits that name the network. -/
inductive Net where
  | v4 (addr : V4) (length : Fin 33)
  | v6 (addr : V6) (length : Fin 129)
deriving DecidableEq, Repr, Inhabited

/-- The address of the fourth family inside an address `::ffff:a.b.c.d`. -/
def V6.mapped? (a : V6) : Option V4 := if a >>> 32 = 0xffff#128 then some (a.setWidth 32) else none

def clearHost {w : Nat} (a : BitVec w) (n : Nat) : BitVec w := (a >>> (w - n)) <<< (w - n)

def sameNetwork {w : Nat} (n : Nat) (a b : BitVec w) : Bool := a >>> (w - n) == b >>> (w - n)

namespace IpAddr

/-- The address in the fourth family if it has one there. -/
def normalize : IpAddr → IpAddr
  | v4 a => v4 a
  | v6 a => match V6.mapped? a with
    | some b => v4 b
    | none => v6 a

def bytes : IpAddr → List UInt8
  | v4 a => bigEndian 4 a.toNat
  | v6 a => bigEndian 16 a.toNat

/-- Addresses of the fourth family come first, then the number decides. -/
def before : IpAddr → IpAddr → Bool
  | v4 a, v4 b => a < b
  | v4 _, v6 _ => true
  | v6 _, v4 _ => false
  | v6 a, v6 b => a < b

def isLinkLocal (a : IpAddr) : Bool :=
  match a.normalize with
  | v4 a => sameNetwork 16 a 0xa9fe0000#32
  | v6 a => sameNetwork 10 a 0xfe800000000000000000000000000000#128

/-- An address that packets can be routed to: private ranges count, special ones do not. -/
def isGlobalUnicast (a : IpAddr) : Bool :=
  match a.normalize with
  | v4 b =>
    !(b == 0 || sameNetwork 8 b 0x7f000000#32 || (v4 b).isLinkLocal || sameNetwork 4 b 0xe0000000#32
      || b == 0xffffffff#32)
  | v6 b =>
    !(b == 0 || b == 1 || sameNetwork 8 b 0xff000000000000000000000000000000#128
      || (v6 b).isLinkLocal)

theorem normalize_normalize (a : IpAddr) : a.normalize.normalize = a.normalize := by
  cases a with
  | v4 a => rfl
  | v6 a =>
    cases h : V6.mapped? a <;> simp [normalize, h]

end IpAddr

namespace SocketAddr

def ip : SocketAddr → IpAddr
  | v4 a _ => .v4 a
  | v6 a _ _ => .v6 a

def port : SocketAddr → UInt16
  | v4 _ p => p
  | v6 _ p _ => p

def ofIp (ip : IpAddr) (port : UInt16) : SocketAddr :=
  match ip with
  | .v4 a => v4 a port
  | .v6 a => v6 a port 0

theorem ip_ofIp (ip : IpAddr) (port : UInt16) : (ofIp ip port).ip = ip := by cases ip <;> rfl

theorem port_ofIp (ip : IpAddr) (p : UInt16) : (ofIp ip p).port = p := by cases ip <;> rfl

end SocketAddr

namespace Net

def addr : Net → IpAddr
  | v4 a _ => .v4 a
  | v6 a _ => .v6 a

def length : Net → Nat
  | v4 _ n => n
  | v6 _ n => n

/-- The number of bits of an address of the network's family. -/
def width : Net → Nat
  | v4 _ _ => 32
  | v6 _ _ => 128

def host : IpAddr → Net
  | .v4 a => v4 a 32
  | .v6 a => v6 a 128

/-- The network of an address with a length, if the family has room for it. -/
def ofLength? (ip : IpAddr) (n : Nat) : Option Net :=
  match ip with
  | .v4 a => if h : n < 33 then some (v4 a ⟨n, h⟩) else none
  | .v6 a => if h : n < 129 then some (v6 a ⟨n, h⟩) else none

def truncate : Net → Net
  | v4 a n => v4 (clearHost a n) n
  | v6 a n => v6 (clearHost a n) n

/-- Without host bits, and in the fourth family if all its addresses have one there. A network whose length that
family has no room for would stay as it is written. -/
def normalize : Net → Net
  | v4 a n => truncate (v4 a n)
  | v6 a n => match V6.mapped? a with
    | some b =>
      if 96 ≤ n.val then
        match ofLength? (.v4 b) (n.val - 96) with
        | some net => truncate net
        | none => v6 a n
      else truncate (v6 a n)
    | none => truncate (v6 a n)

/-- Without the bits that all mapped addresses share, every length has room in the fourth family. -/
theorem ofLength?_sub (b : V4) (n : Fin 129) :
    ofLength? (.v4 b) (n.val - 96) = some (v4 b ⟨n.val - 96, by omega⟩) :=
  dif_pos (by omega)

/-- A network wider than one host, at an address that packets can be routed to: whoever holds it forwards
for others. -/
def isRouter (net : Net) : Bool := net.length < net.width && net.addr.isGlobalUnicast

end Net

end MeshFacts
