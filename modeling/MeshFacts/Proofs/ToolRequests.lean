import MeshFacts.DeviceCommand
import MeshFacts.Proofs.AddressTexts
import MeshFacts.Proofs.KeyTexts

/-! # What the tool is asked for
The `wg` tool as far as devices are changed through it: one run removes a peer, or adds it where it is missing, sets
its endpoint where one is given and replaces its networks where networks are given. The arguments that are made for an
update are read back as one such request. -/
namespace MeshFacts

/-- What one run of the tool is asked to change. -/
structure ToolRequest where
  publicKey : PublicKey
  remove : Bool := false
  endpoint : Option SocketAddr := none
  /-- All networks of the peer, if they are to change. -/
  allowedIps : Option (List Net) := none
deriving DecidableEq

namespace ToolRequest

def apply (r : ToolRequest) (p : DevicePeer) : DevicePeer :=
  { p with endpoint := r.endpoint <|> p.endpoint, allowedIps := r.allowedIps.getD p.allowedIps }

def applyTo (peers : List DevicePeer) (r : ToolRequest) : List DevicePeer :=
  if r.remove then peers.eraseP fun p => p.publicKey = r.publicKey
  else if peers.any fun p => p.publicKey = r.publicKey then DevicePeer.change r.publicKey r.apply peers
  else peers ++ [r.apply { publicKey := r.publicKey }]

/-- Networks between commas, where nothing stands for no network. -/
def readNets (s : String) : Option (List Net) :=
  ((s.toList.splitOn ',').filter fun n => !n.isEmpty).mapM fun n => Net.ofText? (String.ofList n)

def readOptions (r : ToolRequest) : List String → Option ToolRequest
  | [] => some r
  | "remove" :: options => readOptions { r with remove := true } options
  | "endpoint" :: e :: options => do
    let e ← SocketAddr.ofText? e
    readOptions { r with endpoint := some e } options
  | "allowed-ips" :: nets :: options => do
    let nets ← readNets nets
    readOptions { r with allowedIps := some nets } options
  | _ => none

/-- The request for an interface that arguments of the tool make. -/
def ofArgs? (iface : String) : List String → Option ToolRequest
  | "set" :: name :: "peer" :: key :: options =>
    if name = iface then do
      let k ← (PublicKey.ofBase64 key).toOption
      readOptions { publicKey := k } options
    else none
  | _ => none

/-- What a run of the tool leaves of the peer table of an interface. Showing the interface changes nothing. -/
def execute (iface : String) (peers : List DevicePeer) (c : Command) : Option (List DevicePeer) :=
  if c.args = ["show", iface, "dump"] then some peers else (ofArgs? iface c.args).map (applyTo peers)

def tableAfter (iface : String) (peers : List DevicePeer) (runs : List Command) : Option (List DevicePeer) :=
  runs.foldlM (execute iface) peers

lemma mapM_ofText?_text (nets : List Net) :
    (nets.map fun n => n.text.toList).mapM (fun l => Net.ofText? (String.ofList l)) = some nets := by
  induction nets with
  | nil => rfl
  | cons n nets ih => simp [Net.ofText?_text, ih]

lemma readNets_text (nets : List Net) : readNets (",".intercalate (nets.map Net.text)) = some nets := by
  rw [readNets, Net.pieces_text, mapM_ofText?_text]

end ToolRequest

namespace PeerUpdate

def request (u : PeerUpdate) (found : Option DevicePeer) : ToolRequest :=
  if u.remove then { publicKey := u.publicKey, remove := true }
  else {
    publicKey := u.publicKey
    endpoint := u.endpoint
    allowedIps :=
      if u.replaceAllowedIps || !u.allowedIps.isEmpty then
        some (DevicePeer.joinNets (if u.replaceAllowedIps then [] else (found.map DevicePeer.allowedIps).getD [])
          u.allowedIps)
      else none }

end PeerUpdate

namespace DeviceCommand
open ToolRequest

/-- The arguments for an update make its request. -/
lemma ofArgs?_setArgs (name : String) (u : PeerUpdate) (found : Option DevicePeer) :
    ofArgs? name (setArgs name u found) = some (u.request found) := by
  have hkey : (PublicKey.ofBase64 u.publicKey.base64).toOption = some u.publicKey := by
    rw [PublicKey.ofBase64_base64]
    rfl
  unfold setArgs PeerUpdate.request
  by_cases hremove : u.remove = true
  · simp [hremove, ofArgs?, hkey, readOptions]
  · cases he : u.endpoint <;> by_cases hnets : (u.replaceAllowedIps || !u.allowedIps.isEmpty) = true <;>
      simp [hremove, hnets, ofArgs?, hkey, readOptions, SocketAddr.ofText?_text, readNets_text]

def IsArgument (s : String) : Prop := '\x00' ∉ s.toList

lemma isArgument_nets (nets : List Net) : IsArgument (",".intercalate (nets.map Net.text)) := by
  intro h
  rcases Net.isAddressChar_texts h with hc | hc
  · exact hc.ne_nul rfl
  · cases hc

lemma isArgument_setArgs {name : String} (hname : IsArgument name) (u : PeerUpdate) (found : Option DevicePeer) :
    ∀ a ∈ setArgs name u found, IsArgument a := by
  have hkey : IsArgument u.publicKey.base64 := fun h => PublicKey.ne_nul_of_mem_base64 h rfl
  have hendpoint : ∀ e : SocketAddr, IsArgument e.text := fun e h => (SocketAddr.isAddressChar_text h).ne_nul rfl
  have hwords : ∀ a ∈ ["set", "peer", "remove", "endpoint", "allowed-ips"], IsArgument a := by
    unfold IsArgument
    decide
  unfold setArgs
  by_cases hremove : u.remove = true
  · simp [hremove, hname, hkey, hwords]
  · cases he : u.endpoint <;> by_cases hnets : (u.replaceAllowedIps || !u.allowedIps.isEmpty) = true <;>
      simp [hremove, hnets, hname, hkey, hwords, hendpoint, isArgument_nets]

end DeviceCommand

end MeshFacts
