/-!
# The command line

The daemon has two commands. An option takes its value from the next word or from behind an equals
sign, in any order, and at most once. A word that begins with a hyphen is no value, unless it is
the hyphen alone. Help goes before everything that comes after it.
-/

namespace ClusterNet.Daemon

inductive Command where
  | run (config : String) (served : Option String)
  | checkConfig (config : String)
  deriving DecidableEq, Repr

/-- What help is wanted for. -/
inductive Topic where
  | program
  | run
  | checkConfig
  | help
  deriving DecidableEq, Repr

/-- What a command line means. -/
inductive Intent where
  | command (c : Command)
  | help (t : Topic)
  /-- It means nothing. -/
  | none
  deriving DecidableEq, Repr

namespace CommandLine

/-- The options that were given. -/
structure Options where
  config : Option String := none
  served : Option String := none

/-- The word begins another argument and is no value. -/
def isArgument (word : String) : Bool :=
  match word.toList with
  | '-' :: _ :: _ => true
  | _ => false

/-- The word asks for help. Short options may be written together. -/
def asksHelp (word : String) : Bool :=
  match word.toList with
  | '-' :: 'h' :: _ => true
  | _ => word = "--help"

/-- The name of a long option, and the value behind an equals sign. -/
def splitOption (word : String) : String × Option String :=
  let name := word.toList.takeWhile (· != '=')
  (String.ofList name,
    if name.length = word.length then none
    else some (String.ofList (word.toList.drop (name.length + 1))))

/-- Sets an option that the command has, if it has no value yet. -/
def Options.set? (serves : Bool) (o : Options) (name value : String) : Option Options :=
  if value.isEmpty then none
  else if name = "--config" ∧ o.config.isNone then some { o with config := some value }
  else if name = "--serve-dir" ∧ serves ∧ o.served.isNone then some { o with served := some value }
  else none

/-- Reads the words behind a command. -/
def options (serves : Bool) (topic : Topic) (finish : Options → Intent) :
    Options → List String → Intent
  | o, [] => finish o
  | o, ["--"] => finish o
  | o, word :: words =>
    if asksHelp word then .help topic
    else
      match splitOption word with
      | (name, some value) =>
        match o.set? serves name value with
        | some o => options serves topic finish o words
        | none => .none
      | (name, none) =>
        match words with
        | [] => .none
        | value :: words =>
          if isArgument value then .none
          else
            match o.set? serves name value with
            | some o => options serves topic finish o words
            | none => .none

/-- A command needs a configuration. -/
def withConfig (f : String → Command) (o : Options) : Intent :=
  match o.config with
  | some config => .command (f config)
  | none => .none

def read : List String → Intent
  | "run" :: words => options true .run (fun o => withConfig (.run · o.served) o) {} words
  | "check-config" :: words => options false .checkConfig (withConfig .checkConfig) {} words
  | ["help"] => .help .program
  | ["help", "run"] => .help .run
  | ["help", "check-config"] => .help .checkConfig
  | ["help", "help"] => .help .help
  | word :: _ => if asksHelp word then .help .program else .none
  | [] => .none

end CommandLine

/-- What is said about a topic. -/
def Topic.lines : Topic → List String
  | .program =>
    ["raftlink cluster node daemon", "", "Usage: raftlinkd <COMMAND>", "", "Commands:",
      "  run           Start a node and run until interrupted",
      "  check-config  Validate a config file and print the resolved member set",
      "  help          Print this message or the help of the given subcommand(s)", "", "Options:",
      "  -h, --help  Print help"]
  | .run =>
    ["Start a node and run until interrupted", "",
      "Usage: raftlinkd run [OPTIONS] --config <CONFIG>", "", "Options:",
      "      --config <CONFIG>        Path to the TOML config file",
      "      --serve-dir <SERVE_DIR>  Directory to serve to peers over `getFile`",
      "  -h, --help                   Print help"]
  | .checkConfig =>
    ["Validate a config file and print the resolved member set", "",
      "Usage: raftlinkd check-config --config <CONFIG>", "", "Options:",
      "      --config <CONFIG>  Path to the TOML config file",
      "  -h, --help             Print help"]
  | .help =>
    ["Print this message or the help of the given subcommand(s)", "",
      "Usage: raftlinkd help [COMMAND]...", "", "Arguments:",
      "  [COMMAND]...  Print help for the subcommand(s)"]

end ClusterNet.Daemon
