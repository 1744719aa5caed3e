import FlowTiming.Binary64.Literal
import FlowTiming.Journal.Basic

/-!
The arguments of the command line. Options are long and written in full, a value follows in the
same argument after `=` or in the next one, and none is given twice.
-/

namespace FlowTiming.CommandLine

structure Options where
  network : String := "Network.toml"
  margin : Option Binary64 := none
  level : Option Level := none
  dryRun : Bool := false
deriving DecidableEq, Inhabited

/-- Why there is no run: some text is asked for, or the arguments are refused. -/
inductive Refusal where
  | help
  | briefHelp
  | version
  | unknownArgument
  | invalidValue
  | unreadableValue
  | repeatedOption
  | needlessValue
deriving DecidableEq, Inhabited

inductive Setting where
  | network
  | margin
  | level
deriving DecidableEq, Inhabited

def Setting.named? : List Char → Option Setting
  | ['n', 'e', 't', 'w', 'o', 'r', 'k'] => some network
  | ['m', 'a', 'r', 'g', 'i', 'n'] => some margin
  | ['l', 'o', 'g', '-', 'l', 'e', 'v', 'e', 'l'] => some level
  | _ => none

def levelNamed? : String → Option Level
  | "error" => some .error
  | "warn" => some .warn
  | "info" => some .info
  | "debug" => some .debug
  | "trace" => some .trace
  | _ => none

/-- The options read so far. An option whose value is in an argument of its own waits until the
next option is settled. -/
structure Reading where
  network : Option String := none
  margin : Option Binary64 := none
  level : Option Level := none
  dryRun : Bool := false
  pending : Option (Setting × Option String) := none
deriving DecidableEq, Inhabited

namespace Reading

def isSet (r : Reading) : Setting → Bool
  | .network => r.network.isSome
  | .margin => r.margin.isSome
  | .level => r.level.isSome

def set (r : Reading) (s : Setting) (value : String) : Except Refusal Reading :=
  if r.isSet s then .error .repeatedOption
  else
    match s with
    | .network => .ok { r with network := some value }
    | .margin =>
      match Binary64.read? value with
      | some ratio => .ok { r with margin := some ratio }
      | none => .error .unreadableValue
    | .level =>
      match levelNamed? value with
      | some level => .ok { r with level := some level }
      | none => .error .invalidValue

def settle (r : Reading) : Except Refusal Reading :=
  match r.pending with
  | none => .ok r
  | some (_, none) => .error .invalidValue
  | some (s, some value) => { r with pending := none }.set s value

/-- A long option without its dashes, with the value after `=` if there is one. -/
def long (r : Reading) (name : List Char) (value : Option String) : Except Refusal Reading :=
  match Setting.named? name, value with
  | some s, some value => do (← r.settle).set s value
  | some s, none => do return { ← r.settle with pending := some (s, none) }
  | none, value =>
    match String.ofList name with
    | "dry-run" =>
      if value.isSome then .error .needlessValue
      else do
        let r ← r.settle
        if r.dryRun then .error .repeatedOption else return { r with dryRun := true }
    | "help" => if value.isSome then .error .needlessValue else do let _ ← r.settle; .error .help
    | "version" =>
      if value.isSome then .error .needlessValue else do let _ ← r.settle; .error .version
    | _ => .error .unknownArgument

def short (r : Reading) : List Char → Except Refusal Reading
  | 'h' :: _ => do let _ ← r.settle; .error .briefHelp
  | 'V' :: _ => do let _ ← r.settle; .error .version
  | _ => .error .unknownArgument

/-- An argument that is no option: the value that an option waits for. -/
def plain (r : Reading) (arg : String) : Except Refusal Reading :=
  match r.pending with
  | some (s, none) => .ok { r with pending := some (s, some arg) }
  | _ => .error .unknownArgument

def add (r : Reading) (arg : String) : Except Refusal Reading :=
  match arg.toList with
  | '-' :: '-' :: rest =>
    r.long (rest.takeWhile (· != '='))
      (match rest.dropWhile (· != '=') with
        | [] => none
        | _ :: value => some (String.ofList value))
  | '-' :: c :: rest => r.short (c :: rest)
  | _ => r.plain arg

/-- Nothing may follow two dashes. -/
def addAll (r : Reading) : List String → Except Refusal Reading
  | [] => r.settle
  | ["--"] => r.settle
  | "--" :: _ => .error .unknownArgument
  | arg :: rest => do (← r.add arg).addAll rest

def options (r : Reading) : Options :=
  let standard : Options := {}
  ⟨r.network.getD standard.network, r.margin, r.level, r.dryRun⟩

end Reading

def Options.ofArguments (args : List String) : Except Refusal Options :=
  (Reading.addAll {} args).map Reading.options

namespace Refusal

/-- Asking for a text is no mistake. -/
def exitCode : Refusal → Nat
  | help | briefHelp | version => 0
  | _ => 2

def versionText : String := "dataflow-dynamics 0.1.0\n"

def summary : String :=
  "Compute port dynamics and connection buffer sizes for a deployed task network.\n\n" ++
    "Usage: dataflow-dynamics [OPTIONS]\n\nOptions:\n"

def briefHelpText : String := summary ++
  "      --network <PATH>     Path to the network description (TOML) [default: Network.toml]\n" ++
  "      --margin <RATIO>     Override `[config].buffer_size_margin` (non-negative ratio)\n" ++
  "      --log-level <LEVEL>  Logging level (error, warn, info, debug, trace) " ++
  "[possible values: error, warn, info, debug, trace]\n" ++
  "      --dry-run            Parse + validate, print the network, but compute nothing\n" ++
  "  -h, --help               Print help (see more with '--help')\n" ++
  "  -V, --version            Print version\n"

def helpText : String := summary ++
  "      --network <PATH>\n" ++
  "          Path to the network description (TOML).\n" ++
  "          \n" ++
  "          Default: `Network.toml` in the current working directory.\n" ++
  "          \n" ++
  "          [default: Network.toml]\n" ++
  "\n" ++
  "      --margin <RATIO>\n" ++
  "          Override `[config].buffer_size_margin` (non-negative ratio)\n" ++
  "\n" ++
  "      --log-level <LEVEL>\n" ++
  "          Logging level (error, warn, info, debug, trace).\n" ++
  "          \n" ++
  "          If omitted, `DATAFLOW_DYNAMICS_LOG` or a default level will be used.\n" ++
  "          \n" ++
  "          [possible values: error, warn, info, debug, trace]\n" ++
  "\n" ++
  "      --dry-run\n" ++
  "          Parse + validate, print the network, but compute nothing\n" ++
  "\n" ++
  "  -h, --help\n" ++
  "          Print help (see a summary with '-h')\n" ++
  "\n" ++
  "  -V, --version\n" ++
  "          Print version\n"

def output : Refusal → String
  | help => helpText
  | briefHelp => briefHelpText
  | version => versionText
  | _ => ""

def complaint : Refusal → String
  | help | briefHelp | version => ""
  | unknownArgument => "error: unexpected argument found"
  | invalidValue => "error: a value is missing or not one of the possible values"
  | unreadableValue => "error: a value cannot be read"
  | repeatedOption => "error: an option is given more than once"
  | needlessValue => "error: a value is given to an option that takes none"

end Refusal

end FlowTiming.CommandLine
