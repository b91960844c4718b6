import MeshFacts.DeviceDump

/-! # Devices behind commands
A device that is read and changed by running the `wg` tool, and the overlay address that is assigned by
running the `ip` tool. What the tools answer is given as a list of replies, one for each run. -/
namespace MeshFacts

/-- What a program answers: its output, its complaints and its exit status. -/
structure Reply where
  out : String := ""
  err : String := ""
  exit : UInt8 := 0
deriving DecidableEq, Repr, Inhabited

structure Command where
  program : String
  args : List String
deriving DecidableEq, Repr, Inhabited

/-- A place to run programs in: which of them there are, the replies still to come, and what was run. -/
structure Shell where
  hasProgram : String → Bool
  replies : List Reply
  ran : List Command := []

namespace Shell

/-- Runs a program, if there is such a program and the arguments can be handed over. When the replies have
run out the rest is silence and success. -/
def run (sh : Shell) (c : Command) : Except DeviceError Reply × Shell :=
  if !sh.hasProgram c.program || (c.program :: c.args).any fun a => a.toList.contains '\x00' then
    (.error .io, sh)
  else
    (.ok (sh.replies.headD {}), { sh with replies := sh.replies.drop 1, ran := sh.ran ++ [c] })

end Shell

def occurs (part : List Char) : List Char → Bool
  | [] => part.isEmpty
  | c :: r => part.isPrefixOf (c :: r) || occurs part r

def occursIn (part : String) (text : String) : Bool := occurs part.toList text.toList

namespace DeviceCommand

/-- The cause of a failure of the `wg` tool, by what it complains of. -/
def classify (iface complaint : String) : DeviceError :=
  if occursIn "No such device" complaint || occursIn "Unable to access interface" complaint then
    .notFound iface
  else if occursIn "Operation not permitted" complaint || occursIn "Permission denied" complaint then
    .permissionDenied complaint
  else .command complaint

/-- The arguments that make one change. Networks are always given as a whole, so those that are to join
others are joined here to what the peer has. -/
def setArgs (name : String) (u : PeerUpdate) (existing : Option DevicePeer) : List String :=
  let peer := ["set", name, "peer", u.publicKey.base64]
  if u.remove then peer ++ ["remove"]
  else
    let endpoint := match u.endpoint with
      | some e => ["endpoint", e.text]
      | none => []
    let base := if u.replaceAllowedIps then [] else (existing.map DevicePeer.allowedIps).getD []
    let nets :=
      if u.replaceAllowedIps || !u.allowedIps.isEmpty then
        ["allowed-ips", ",".intercalate ((DevicePeer.joinNets base u.allowedIps).map Net.text)]
      else []
    peer ++ endpoint ++ nets

def runTool (program iface : String) (args : List String) (sh : Shell) :
    Except DeviceError String × Shell :=
  match sh.run ⟨program, args⟩ with
  | (.error e, sh) => (.error e, sh)
  | (.ok r, sh) =>
    if r.exit = 0 then (.ok r.out, sh) else (.error (classify iface (trimText r.err)), sh)

def read (program name : String) (now : Instant) (wall : Int) (sh : Shell) :
    Except DeviceError DeviceState × Shell :=
  match runTool program name ["show", name, "dump"] sh with
  | (.error e, sh) => (.error e, sh)
  | (.ok dump, sh) => (DeviceDump.parse name dump now wall, sh)

/-- Whether an update has to be made at all, given the peer as it is. -/
def isNeeded (u : PeerUpdate) (existing : Option DevicePeer) : Bool :=
  existing.isSome || !u.updateOnly || u.remove

def setAll (program name : String) (current : DeviceState) :
    List PeerUpdate → Shell → Except DeviceError Unit × Shell
  | [], sh => (.ok (), sh)
  | u :: r, sh =>
    let existing := current.peer? u.publicKey
    if isNeeded u existing then
      match runTool program name (setArgs name u existing) sh with
      | (.error e, sh) => (.error e, sh)
      | (.ok _, sh) => setAll program name current r sh
    else setAll program name current r sh

/-- Changes a device as it is found now. -/
def configure (program name : String) (updates : List PeerUpdate) (now : Instant) (wall : Int)
    (sh : Shell) : Except DeviceError Unit × Shell :=
  match read program name now wall sh with
  | (.error e, sh) => (.error e, sh)
  | (.ok current, sh) => setAll program name current updates sh

def assignOverlay (iface : String) (addr : V6) (sh : Shell) : Except DeviceError Unit × Shell :=
  let net := (IpAddr.v6 addr).text ++ "/64"
  match sh.run ⟨"ip", ["-6", "address", "replace", net, "dev", iface]⟩ with
  | (.error e, sh) => (.error e, sh)
  | (.ok r, sh) =>
    if r.exit = 0 then (.ok (), sh)
    else
      let complaint := trimText r.err
      if occursIn "Operation not permitted" complaint then (.error (.permissionDenied complaint), sh)
      else if occursIn "Cannot find device" complaint then (.error (.notFound iface), sh)
      else (.error (.command complaint), sh)

end DeviceCommand

end MeshFacts
