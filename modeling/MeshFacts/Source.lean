import MeshFacts.Config
import MeshFacts.FileTree
import MeshFacts.Toml

/-! # Sources of the configuration
Built-in values, a file, the environment and the command line, each with a precedence. A source of higher
precedence wins, and among equals the later one. When a source cannot be read, of all those that cannot the
one of the lowest precedence is told. -/
namespace MeshFacts

inductive Precedence where
  | defaults
  | file
  | environment
  | commandLine
deriving DecidableEq, Repr, Inhabited

def Precedence.all : List Precedence := [defaults, file, environment, commandLine]

structure Source where
  precedence : Precedence
  layer : Except ConfigError Layer

abbrev Environment := String → Option String

structure Overrides where
  config : Option String := none
  iface : Option String := none
  port : Option Nat := none
  router : Option Bool := none
  noManagePeers : Bool := false
  chatty : Bool := false
  debug : Bool := false
  logJson : Bool := false
deriving DecidableEq, Repr, Inhabited

namespace Environment

/-- A variable of the daemon. An empty one counts as missing. -/
def var (env : Environment) (field : String) : Option String :=
  (env ("LOOM_WGLINK_" ++ field)).filter fun v => v ≠ ""

/-- Whether two texts agree but for the case of ASCII letters. -/
def sameLetters (a b : String) : Bool := a.toList.map Char.toLower == b.toList.map Char.toLower

/-- Only `true` and `1` mean true. -/
def flag (env : Environment) (field : String) : Option Bool :=
  (env.var field).map fun v => sameLetters v "true" || v == "1"

/-- A flag that may be left to be found out. -/
def router (env : Environment) : Option Bool :=
  if (env.var "ROUTER").any (sameLetters "auto") then none else env.flag "ROUTER"

def port (env : Environment) : Except ConfigError (Option Nat) :=
  match env.var "PORT" with
  | none => .ok none
  | some v =>
    match Numeral.word? 16 v with
    | some p => .ok (some p)
    | none => .error (.invalidValue "LOOM_WGLINK_PORT" ("invalid u16 value '" ++ v ++ "'"))

def layer (env : Environment) : Except ConfigError Layer := do
  let port ← env.port
  .ok {
    iface := env.var "IFACE"
    port := port
    router := env.router
    managePeers := env.flag "MANAGE_PEERS"
    chatty := env.flag "CHATTY"
    debug := env.flag "DEBUG"
    logJson := env.flag "LOG_JSON" }

end Environment

/-- Flags can only be switched on. -/
def Overrides.layer (o : Overrides) : Layer where
  iface := o.iface
  port := o.port
  router := o.router
  managePeers := if o.noManagePeers then some false else none
  chatty := if o.chatty then some true else none
  debug := if o.debug then some true else none
  logJson := if o.logJson then some true else none

namespace Source

def defaults : Source where
  precedence := .defaults
  layer := .ok {
    iface := some "wg0"
    managePeers := some true
    chatty := some false
    debug := some false
    logJson := some false }

/-- A file must be there if it is required; otherwise a missing one says nothing. One that is there must have a
text in any case. -/
def file (files : Files) (path : String) (required : Bool) : Source where
  precedence := .file
  layer :=
    match files path with
    | .missing => if required then .error (.fileRead path) else .ok .empty
    | .unreadable => .error (.fileRead path)
    | .text text =>
      match (Toml.parse text).bind (Layer.ofDocument? true) with
      | some l => .ok l
      | none => .error (.toml path)

def environment (env : Environment) : Source := ⟨.environment, env.layer⟩

def commandLine (o : Overrides) : Source := ⟨.commandLine, .ok o.layer⟩

/-- Sources from the lowest precedence to the highest, those of one precedence in the order given. -/
def inOrder (sources : List Source) : List Source :=
  Precedence.all.flatMap fun p => sources.filter fun s => s.precedence = p

def mergeAll (below : Layer) : List Source → Except ConfigError Layer
  | [] => .ok below
  | s :: r => do
    let above ← s.layer
    mergeAll (below.merge above) r

end Source

def Config.ofSources (sources : List Source) : Except ConfigError Config := do
  let merged ← Source.mergeAll .empty (Source.inOrder sources)
  ofLayer merged

/-- The configuration file of an interface. A name that is a path from the root stands for itself. -/
def Config.defaultPath (configHome iface : String) : String :=
  if iface.toList.head? = some '/' then iface ++ ".toml"
  else configHome ++ "/loom/wglink/" ++ iface ++ ".toml"

/-- The file to read, and whether it must be there: the one that the command line or the environment names must,
the one of the interface need not. -/
def Config.filePath (o : Overrides) (env : Environment) (configHome : Option String) :
    Option (String × Bool) :=
  match o.config <|> env.var "CONFIG" with
  | some path => some (path, true)
  | none =>
    let iface := (o.iface <|> env.var "IFACE").getD "wg0"
    configHome.map fun home => (defaultPath home iface, false)

def Config.load (o : Overrides) (env : Environment) (files : Files) (configHome : Option String) :
    Except ConfigError Config :=
  let file := (filePath o env configHome).map fun (path, required) => Source.file files path required
  ofSources ([Source.defaults] ++ file.toList ++ [Source.environment env, Source.commandLine o])

end MeshFacts
