import PropFlow.CommandLine.Arguments
import PropFlow.Path

namespace PropFlow.CommandLine

-- What the program can be told to do.
inductive Command where
  | version
  | help
  | analyze (path : Path) (format : Option String) (trace : Option Bool) (output : Option Path)
  | components (path : Path)
  | flows (path : Path) (flowId : Option String)
  | conflicts (path : Path)
  | exportGraph (path : Path) (format : String) (output : Option Path) (focus : String)
  | showSettings
  | changeSetting (key value : String)
deriving DecidableEq, Repr

namespace Command

def helpForms : List OptionForm :=
  switch "help" "" ["--help"]

def analyzeForms : List OptionForm :=
  valued "format" ["--format", "-f"] ++ valued "output" ["--output", "-o"]
    ++ switch "trace" "on" ["--trace"] ++ switch "trace" "off" ["--no-trace"]

def exportForms : List OptionForm :=
  valued "format" ["--format", "-f"] ++ valued "output" ["--output", "-o"]
    ++ valued "focus" ["--focus"]

-- Reads the arguments of one command and makes the command of them.
def read (forms : List OptionForm) (names : List String) (args : List String)
    (make : Arguments → List String → Command) : Except UsageError Command := do
  let arguments ← readArguments (forms ++ helpForms) true ⟨[], []⟩ args
  if arguments.has "help" then return .help
  return make arguments (← positionals names arguments.rest)

def pathOf (values : List String) : Path :=
  Path.ofString (values.head?.getD "")

def ofSettingsCommand (args : List String) : Except UsageError Command := do
  let arguments ← readArguments helpForms false ⟨[], []⟩ args
  if args = [] ∨ arguments.has "help" then return .help
  match arguments.rest with
  | [] => throw .missingCommand
  | "show" :: args => read [] [] args fun _ _ => .showSettings
  | "set" :: args => read [] ["key", "value"] args fun _ values =>
    match values with
    | [key, value] => .changeSetting key value
    | _ => .help
  | name :: _ => throw (.noSuchCommand name)

def ofCommand (name : String) (args : List String) : Except UsageError Command :=
  match name with
  | "analyze" => read analyzeForms ["path"] args fun arguments values =>
    .analyze (pathOf values) (arguments.option? "format") ((arguments.option? "trace").map (· == "on"))
      ((arguments.option? "output").map Path.ofString)
  | "components" => read [] ["path"] args fun _ values => .components (pathOf values)
  | "flows" => read (valued "flow-id" ["--flow-id"]) ["path"] args fun arguments values =>
    .flows (pathOf values) (arguments.option? "flow-id")
  | "conflicts" => read [] ["path"] args fun _ values => .conflicts (pathOf values)
  | "export" => read exportForms ["path"] args fun arguments values =>
    .exportGraph (pathOf values) ((arguments.option? "format").getD "json")
      ((arguments.option? "output").map Path.ofString) ((arguments.option? "focus").getD "")
  | "config" => ofSettingsCommand args
  | _ => .error (.noSuchCommand name)

def topForms : List OptionForm :=
  switch "version" "" ["--version", "-v"] ++ switch "verbose" "" ["--verbose"] ++ helpForms

-- The command that a list of arguments spells.
def ofArguments (args : List String) : Except UsageError Command := do
  let arguments ← readArguments topForms false ⟨[], []⟩ args
  match arguments.options.find? fun (key, _) => key == "version" || key == "help" with
  | some ("version", _) => return .version
  | some _ => return .help
  | none =>
    match args, arguments.rest with
    | [], _ => return .help
    | _, [] => throw .missingCommand
    | _, name :: args => ofCommand name args

end Command

end PropFlow.CommandLine
