import PropFlow.CommandLine.Command
import PropFlow.Graph
import PropFlow.ResultValue
import PropFlow.Settings.File

namespace PropFlow.CommandLine

-- What a command shows: text or a table for the reader, and plain lines on the two outputs.
inductive Event where
  | print (text : String)
  | printTable (title : String) (columns : List String) (rows : List (List String))
  | out (text : String)
  | err (text : String)
deriving DecidableEq, Repr

-- What can end a command before it is done.
inductive Abort where
  | usage (error : UsageError)
  | badParameter (message : String)
  | analysis (failure : Failure)
  | settings (failure : SettingsFailure)
  | notInteger (error : Text.IntegerError)
  | notNumber (type : String)
  | file (error : FileError) (path : Path)
  | location (error : Path.LocationError)
deriving DecidableEq, Repr

def Abort.message : Abort → String
  | usage error => error.message
  | badParameter message => message
  | analysis failure => failure.message
  | settings failure => failure.message
  | notInteger error => error.message
  | notNumber type =>
    "int() argument must be a string, a bytes-like object or a real number, not '" ++ type ++ "'"
  | file error path => error.message path
  | location error => error.message

inductive Status where
  | exit (code : Nat)
  | aborted (reason : Abort)
deriving DecidableEq, Repr

-- What a command did: what it showed, how it ended, and the files as it left them.
structure Outcome where
  events : List Event
  status : Status
  disk : Disk
deriving Repr

-- What commands work on.
structure Session where
  grammar : Grammar
  format : DocumentFormat
  settingsFile : Path
  disk : Disk

namespace Session

def done (s : Session) (events : List Event) : Outcome :=
  ⟨events, .exit 0, s.disk⟩

def refuse (s : Session) (events : List Event) : Outcome :=
  ⟨events, .exit 1, s.disk⟩

def abort (s : Session) (events : List Event) (reason : Abort) : Outcome :=
  ⟨events, .aborted reason, s.disk⟩

def componentsTable (r : Result) : Event :=
  .printTable "Components" ["Component", "File", "Items", "Kinds"] (r.components.map fun c =>
    let kinds := (c.items.map (·.kind.label)).eraseDups.mergeSort fun a b => decide (a ≤ b)
    [c.name, (Path.ofString c.file).name, toString c.items.length, ", ".intercalate kinds])

def flowsTable (flows : List Flow) : Event :=
  .printTable "Data Flows" ["Flow", "From", "To", "Type"]
    (flows.map fun f => [f.id, f.source, f.target, f.type])

def conflictsTable (conflicts : List Conflict) : Event :=
  .printTable "Conflicts" ["Conflict", "Description", "Items"]
    (conflicts.map fun c => [c.id, c.description, ", ".intercalate c.items])

-- Runs an analysis for a command. A path that is not there is reported and ends it.
def withResult (s : Session) (path : Path) (next : Result → Outcome) : Outcome :=
  match analyze s.grammar s.disk path.text with
  | .ok r => next r
  | .error (.missing root) =>
    s.refuse [.print ("[red]❌ " ++ (Failure.missing root).message ++ "[/red]")]
  | .error failure => s.abort [] (.analysis failure)

def unknownFormat (format : String) (known : List String) : Abort :=
  .badParameter ("Unknown format '" ++ format ++ "'. Use one of: " ++ ", ".intercalate known ++ ".")

-- A line limit as a number.
def limit (value : Value) : Except Abort Int :=
  match value with
  | .int n => .ok n
  | .bool b => .ok (if b then 1 else 0)
  | .scalar scalar =>
    match scalar.whole? with
    | some n => .ok n
    | none => .error (.notNumber scalar.typeName)
  | .str text =>
    match Text.readInteger text with
    | .ok n => .ok n
    | .error e => .error (.notInteger e)
  | value => .error (.notNumber value.typeName)

-- The first lines of the trace. A limit below zero leaves out so many at the end.
def traceEvents (log : List String) (limit : Int) : List Event :=
  let count := log.length
  let shown := if limit < 0 then (count + limit).toNat else limit.toNat
  let more : List Event :=
    if limit < count then [.print ("[dim]... " ++ toString (count - limit) ++ " more lines[/dim]")] else []
  .print ("\n[bold]Analysis trace[/bold] (" ++ toString count ++ " lines)")
    :: (log.take shown).map .print ++ more

def summary (r : Result) : List Event :=
  let d := r.diagnostics
  let head := "[bold]📊 " ++ toString d.filesAnalyzed.length ++ " files[/bold] | "
    ++ toString r.components.length ++ " components | " ++ toString r.flows.length ++ " flows | "
    ++ toString r.conflicts.length ++ " conflicts"
  [.print head]
    ++ (if r.components.isEmpty then [] else [componentsTable r])
    ++ (if r.flows.isEmpty then [] else [flowsTable r.flows])
    ++ (if r.conflicts.isEmpty then [] else [conflictsTable r.conflicts])
    ++ (if d.parseErrors.isEmpty then []
      else .print "\n[bold yellow]⚠️  Parse errors[/bold yellow]"
        :: d.parseErrors.map fun error => .print ("  " ++ error))

def writeText (s : Session) (path : Path) (text : String) : Except Abort Session :=
  match s.disk.write path (Text.Utf8.encode text) with
  | .ok disk => .ok { s with disk := disk }
  | .error e => .error (.file e path)

def resultText (r : Result) : String :=
  Json.text r.toValue

def showResult (s : Session) (settings : Settings) (format : String) (trace : Bool) (saved : List Event)
    (r : Result) : Outcome :=
  if format = "json" then
    s.done (if saved.isEmpty then [.out (resultText r)] else saved)
  else if trace then
    match limit settings.maxTraceLines with
    | .ok n => s.done (saved ++ summary r ++ traceEvents r.diagnostics.lines n)
    | .error reason =>
      s.abort (saved ++ summary r) reason
  else
    s.done (saved ++ summary r)

-- The format asked for, or else the one that is set.
def outputFormat (settings : Settings) (asked : Option String) : Value :=
  match asked.filter (· ≠ "") with
  | some format => .str format
  | none => settings.format

def knownFormat? : Value → Option String
  | .str format => if format ∈ Setting.outputFormats then some format else none
  | _ => none

def runAnalyze (s : Session) (path : Path) (asked : Option String) (trace : Option Bool)
    (output : Option Path) : Outcome :=
  match SettingsFile.load s.format s.disk s.settingsFile with
  | .error failure => s.abort [] (.settings failure)
  | .ok settings =>
    let format := outputFormat settings asked
    match knownFormat? format with
    | none => s.abort [] (unknownFormat format.display Setting.outputFormats)
    | some format =>
      s.withResult path fun r =>
        let trace := trace.getD settings.showTrace.isSet
        match output with
        | none => s.showResult settings format trace [] r
        | some target =>
          match s.writeText target (resultText r) with
          | .error reason => s.abort [] reason
          | .ok s =>
            s.showResult settings format trace
              [.print ("[green]✓[/green] Wrote analysis to " ++ target.text)] r

def exportFormats : List String :=
  ["json", "dot"]

def exportText (cwd : List String) (r : Result) (format focus : String) : Except Abort String :=
  if format = "dot" then
    match Graph.render cwd r focus with
    | .ok text => .ok text
    | .error e => .error (.location e)
  else .ok (resultText r)

def formatTitle (format : String) : String :=
  if format = "dot" then "DOT" else "JSON"

def runExport (s : Session) (path : Path) (asked : String) (output : Option Path) (focus : String) :
    Outcome :=
  let format := Text.lower asked
  if format ∉ exportFormats then s.abort [] (unknownFormat asked exportFormats)
  else
    s.withResult path fun r =>
      let target := output.getD (Path.absolute (s.disk.cwd ++ ["reactgraph." ++ format]))
      match exportText s.disk.cwd r format focus with
      | .error reason => s.abort [] reason
      | .ok text =>
        match s.writeText target text with
        | .error reason => s.abort [] reason
        | .ok s => s.done [.out ("Exported " ++ formatTitle format ++ " graph to " ++ target.text)]

def runSet (s : Session) (key raw : String) : Outcome :=
  match Setting.coerceNamed key raw with
  | .error (.unknown name) =>
    s.refuse [.err ("Unknown setting '" ++ name ++ "'. Known settings: " ++ ", ".intercalate Setting.names)]
  | .error e => s.refuse [.err ("Invalid value: " ++ e.message)]
  | .ok value =>
    match SettingsFile.save s.format s.disk s.settingsFile [(key, value)] with
    | .error failure => s.abort [] (.settings failure)
    | .ok disk => { s with disk := disk }.done [.out ("Set " ++ key ++ " = " ++ value.display)]

def runShow (s : Session) : Outcome :=
  match SettingsFile.load s.format s.disk s.settingsFile with
  | .error failure => s.abort [] (.settings failure)
  | .ok settings =>
    s.done [.printTable ("Config (" ++ s.settingsFile.text ++ ")") ["Key", "Value"]
      (settings.toTable.map fun (name, value) => [name, value.display])]

def listOr (s : Session) (isEmpty : Bool) (nothing : String) (table : Event) : Outcome :=
  s.done [if isEmpty then .out nothing else table]

def runCommand (s : Session) : Command → Outcome
  | .version => s.done [.out "ReactGraph CLI v0.3.0"]
  | .help => s.done []
  | .analyze path format trace output => s.runAnalyze path format trace output
  | .components path => s.withResult path fun r =>
    s.listOr r.components.isEmpty "No React components found." (componentsTable r)
  | .flows path flowId => s.withResult path fun r =>
    let flows := r.flows.filter fun f => flowId.all (f.id == ·)
    s.listOr flows.isEmpty "No data flows found." (flowsTable flows)
  | .conflicts path => s.withResult path fun r =>
    s.listOr r.conflicts.isEmpty "No conflicts found." (conflictsTable r.conflicts)
  | .exportGraph path format output focus => s.runExport path format output focus
  | .showSettings => s.runShow
  | .changeSetting key value => s.runSet key value

-- Runs the program with a list of arguments.
def run (s : Session) (args : List String) : Outcome :=
  match Command.ofArguments args with
  | .ok command => s.runCommand command
  | .error e => s.abort [] (.usage e)

end Session

end PropFlow.CommandLine
