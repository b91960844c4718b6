import MeshFacts.Address
import MeshFacts.Key
import MeshFacts.Sha256

/-! # Overlay addresses
Each peer can be reached inside the tunnel at an address made from its key alone: fe80::/64 followed by
the first eight octets of the digest of the key. -/
namespace MeshFacts.PublicKey

def overlay (k : PublicKey) : V6 :=
  BitVec.ofNat 128 ((0xfe80 <<< 112) + ofBigEndian ((Sha256.digest k.bytes).bytes.take 8))

def overlayIp (k : PublicKey) : IpAddr := .v6 k.overlay

/-- The network of the overlay address alone: the one every peer keeps. -/
def overlayNet (k : PublicKey) : Net := .host k.overlayIp

end MeshFacts.PublicKey
