import MeshFacts.DeviceCommand
import MeshFacts.Server
import MeshFacts.Source

/-! # The command line of the daemon
Reading the arguments, and what the daemon does up to the moment when it listens: load the configuration,
read the interface, assign the overlay address, find out where to listen. -/
namespace MeshFacts

inductive Invocation where
  | start (o : Overrides)
  | help
  | version
  | misuse
deriving DecidableEq, Repr, Inhabited

namespace Invocation

/-- A whole number with an optional sign that is a port. -/
def port? (text : String) : Option Nat :=
  match text.toList with
  | '-' :: r => (Numeral.decimal? r).filter (· = 0)
  | cs => Numeral.unsigned? 65535 cs

def bool? (text : String) : Option Bool :=
  if text = "true" then some true else if text = "false" then some false else none

def takesValue (name : String) : Bool := name ∈ ["iface", "port", "router", "config"]

/-- Gives an option its value. It may be given once. -/
def giveValue (o : Overrides) (name value : String) : Option Overrides :=
  match name with
  | "iface" => if o.iface.isSome then none else some { o with iface := some value }
  | "port" =>
    if o.port.isSome then none else (port? value).map fun p => { o with port := some p }
  | "router" =>
    if o.router.isSome then none else (bool? value).map fun b => { o with router := some b }
  | "config" =>
    if o.config.isSome || value.isEmpty then none else some { o with config := some value }
  | _ => none

/-- Switches a flag on, which may be done once. -/
def giveFlag (o : Overrides) (name : String) : Option Overrides :=
  match name with
  | "no-manage-peers" => if o.noManagePeers then none else some { o with noManagePeers := true }
  | "chatty" => if o.chatty then none else some { o with chatty := true }
  | "debug" => if o.debug then none else some { o with debug := true }
  | "log-json" => if o.logJson then none else some { o with logJson := true }
  | _ => none

inductive Shape where
  | long (name : String) (value : Option String)
  | short (letter : Char)
  /-- Two hyphens: no options follow. -/
  | endOfOptions
  | word

def shape (arg : String) : Shape :=
  match arg.toList with
  | ['-', '-'] => .endOfOptions
  | '-' :: '-' :: r =>
    match r.dropWhile (· ≠ '=') with
    | _ :: value => .long (String.ofList (r.takeWhile (· ≠ '='))) (some (String.ofList value))
    | [] => .long (String.ofList r) none
  | '-' :: c :: _ => .short c
  | _ => .word

def Shape.isWord : Shape → Bool
  | .word => true
  | _ => false

/-- Reads arguments from the left; the first that is wrong, or asks for help or the version, decides. -/
def parseFrom : Overrides → List String → Invocation
  | o, [] => .start o
  | o, arg :: rest =>
    match shape arg with
    | .word => .misuse
    | .endOfOptions => if rest.isEmpty then .start o else .misuse
    | .short c => if c = 'h' then .help else if c = 'V' then .version else .misuse
    | .long name (some value) =>
      match giveValue o name value with
      | some o => parseFrom o rest
      | none => .misuse
    | .long "help" none => .help
    | .long "version" none => .version
    | .long name none =>
      if takesValue name then
        match rest with
        | [] => .misuse
        | value :: rest =>
          if (shape value).isWord then
            match giveValue o name value with
            | some o => parseFrom o rest
            | none => .misuse
          else .misuse
      else
        match giveFlag o name with
        | some o => parseFrom o rest
        | none => .misuse

/-- What arguments ask for in an environment, which may name the configuration file. -/
def parse (env : Environment) (args : List String) : Invocation :=
  match parseFrom {} args with
  | .start o =>
    match o.config, env "LOOM_WGLINK_CONFIG" with
    | none, some path => if path.isEmpty then .misuse else .start { o with config := some path }
    | _, _ => .start o
  | i => i

end Invocation

/-- What the daemon finds on the host that it is started on. -/
structure Host where
  env : Environment
  files : Files
  /-- Where configuration files are, if there is such a place. -/
  configHome : Option String
  interfaces : List NetInterface
  shell : Shell
  now : Instant := 0
  /-- The wall clock in nanoseconds. -/
  wall : Int := 0

inductive Outcome where
  | misuse
  | help
  | version
  /-- What went wrong, from the outermost to the innermost. -/
  | failed (chain : List String)
  /-- The daemon may listen at an address. -/
  | listening (config : Config) (addr : SocketAddr)

/-- What an error says, and what the error says that it comes from. -/
def EngineError.chain (e : EngineError) : List String :=
  match e with
  | .device cause => [e.message, cause.message]
  | .fact cause => [e.message, cause.message]
  | _ => [e.message]

namespace Host

def tool : String := "wg"

def start (h : Host) (config : Config) : Outcome × Shell :=
  match DeviceCommand.read tool config.iface h.now h.wall h.shell with
  | (.error e, sh) => (.failed ["reading WireGuard interface " ++ config.iface, e.message], sh)
  | (.ok state, sh) =>
    match DeviceCommand.assignOverlay config.iface state.publicKey.overlay sh with
    | (.error e, sh) => (.failed ["assigning overlay address", e.message], sh)
    | (.ok (), sh) =>
      let (read, sh) := DeviceCommand.read tool config.iface h.now h.wall sh
      match Server.listenAddress config.toLinkConfig read h.interfaces with
      | .error e => (.failed ("binding fact socket" :: e.chain), sh)
      | .ok addr => (.listening config addr, sh)

def run (h : Host) (args : List String) : Outcome × Shell :=
  match Invocation.parse h.env args with
  | .misuse => (.misuse, h.shell)
  | .help => (.help, h.shell)
  | .version => (.version, h.shell)
  | .start o =>
    match Config.load o h.env h.files h.configHome with
    | .error e => (.failed ["loading configuration", e.message], h.shell)
    | .ok config => h.start config

end Host

/-- The exit status that an outcome comes to. Where listening is not possible it is a failure. -/
def Outcome.exit : Outcome → UInt32
  | misuse => 2
  | help | version => 0
  | failed _ | listening .. => 1

end MeshFacts
