import MeshFacts.CommandLine

/-! # The daemon's program
The outer layer of the command line: it takes arguments, environment and configuration file from the system
and shows how the start ends. Tools cannot be run from here, so a start ends at the latest where the interface
is to be read. -/
namespace MeshFacts

def usage : String :=
  "Usage: loom-wglinkd [OPTIONS]\n\n"
    ++ "Options:\n"
    ++ "      --iface <IFACE>    WireGuard interface to manage\n"
    ++ "      --port <PORT>      UDP port for fact exchange (default: device listen port + 1)\n"
    ++ "      --router <ROUTER>  Force router mode on or off instead of detecting it\n"
    ++ "      --no-manage-peers  Only update existing peers; never add or remove them\n"
    ++ "      --chatty           Log every received fact\n"
    ++ "      --debug            Raise the default log level to debug\n"
    ++ "      --log-json         Emit logs as JSON\n"
    ++ "      --config <CONFIG>  Configuration file\n"
    ++ "  -h, --help             Print help\n"
    ++ "  -V, --version          Print version\n"

def variableNames : List String :=
  ["CONFIG", "IFACE", "PORT", "ROUTER", "MANAGE_PEERS", "CHATTY", "DEBUG", "LOG_JSON"].map
    ("LOOM_WGLINK_" ++ ·)

def Host.ofSystem (args : List String) : IO Host := do
  let values ← variableNames.mapM fun name => do return (name, ← IO.getEnv name)
  let env : Environment := fun name => (values.find? fun v => v.1 = name).bind fun v => v.2
  let xdg ← IO.getEnv "XDG_CONFIG_HOME"
  let home ← IO.getEnv "HOME"
  let configHome := (xdg.filter fun v => v ≠ "") <|> home.map fun h => h ++ "/.config"
  let path : Option String := match Invocation.parse env args with
    | .start o => (Config.filePath o env configHome).map fun p => p.1
    | _ => none
  let content ← match path with
    | none => pure .missing
    | some p =>
      try FileContent.text <$> IO.FS.readFile p
      catch e => pure (match e with | .noFileOrDirectory .. => .missing | _ => .unreadable)
  return {
    env := env
    files := fun p => if some p = path then content else .missing
    configHome := configHome
    interfaces := []
    shell := { hasProgram := fun _ => false, replies := [] } }

/-- An error and its causes, one below the other. -/
def errorText (chain : List String) : String :=
  match chain with
  | [] => "Error\n"
  | e :: [] => "Error: " ++ e ++ "\n"
  | e :: causes => "Error: " ++ e ++ "\n\nCaused by:\n" ++ String.join (causes.map ("    " ++ · ++ "\n"))

def Outcome.print : Outcome → IO Unit
  | misuse => IO.eprint usage
  | help => IO.print usage
  | version => IO.println "loom-wglinkd 0.1.0"
  | failed chain => IO.eprint (errorText chain)
  | listening config addr =>
    IO.eprint (errorText ["binding fact socket", "cannot listen on " ++ addr.text ++ " for " ++ config.iface])

end MeshFacts

open MeshFacts in
def main (args : List String) : IO UInt32 := do
  let host ← Host.ofSystem args
  let (outcome, _) := host.run args
  outcome.print
  return outcome.exit
