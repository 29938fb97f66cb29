import PropFlow.Component.Collect
import PropFlow.Component.Layout
import PropFlow.Component.Registry
import PropFlow.Conflict
import PropFlow.Diagnostics
import PropFlow.Discovery
import PropFlow.Flow.Finalize
import PropFlow.Flow.Infer
import PropFlow.ModuleLink
import PropFlow.Text.Newline

namespace PropFlow

-- Reads a file as text.
def Disk.readText (disk : Disk) (path : Path) : Except String String :=
  match disk.read path with
  | .error e => .error (e.message path)
  | .ok bytes =>
    match Text.Utf8.decode bytes with
    | .error e => .error e.message
    | .ok text => .ok (String.ofList (Text.unifyNewlines text.toList))

-- Reads and parses a file. What cannot be read is refused before the name is looked at.
def Module.load (grammar : Grammar) (disk : Disk) (path : Path) : Except ParseError Module :=
  match disk.readText path with
  | .error why => .error (.unreadable why)
  | .ok source => Module.parse grammar path source

structure Result where
  components : List Component
  flows : List Flow
  conflicts : List Conflict
  diagnostics : Diagnostics
deriving DecidableEq, Repr

namespace Result

def itemIds (r : Result) : List String :=
  (r.components.flatMap fun c => c.items.map (·.id)).eraseDups.mergeSort fun a b => decide (a ≤ b)

def findComponent? (r : Result) (name : String) (file : Option String) : Option Component :=
  r.components.find? fun c => c.name == name && file.all (c.file == ·)

end Result

-- An analysis as far as it has come: the files seen, the modules with their links and the
-- components in the order they were found.
structure Run where
  visited : List Path
  modules : List (Module × Links)
  components : List Component
  diagnostics : Diagnostics
deriving Repr

namespace Run

def empty : Run :=
  ⟨[], [], [], .empty⟩

def note (run : Run) (n : Note) : Run :=
  { run with diagnostics := run.diagnostics.note n }

def enter (run : Run) (path : Path) : Run :=
  { run with
    visited := run.visited ++ [path]
    diagnostics := run.diagnostics.fileAnalyzed path.text }

def refuse (run : Run) (path : Path) (e : ParseError) : Run :=
  { run with diagnostics := run.diagnostics.parseError path.text e.message }

-- Takes in a module with its links and components.
def take (run : Run) (m : Module) (links : Links) (linkNotes : List Note) : Run :=
  { run with
    modules := run.modules ++ [(m, links)]
    components := run.components ++ m.components
    diagnostics := m.components.foldl Diagnostics.componentFound
      ((run.diagnostics.notes linkNotes).notes m.componentNotes) }

-- Follows links to files that have not been seen.
def followAll (visit : Run → Path → Except Failure Run) (run : Run) (targets : List Path) :
    Except Failure Run :=
  targets.foldlM (fun run target =>
    if target ∈ run.visited then .ok run else visit (run.note (.followed target.text)) target) run

-- Analyses a file, unless it has been seen. A module without components of its own is taken to
-- pass on those of others, and its links are followed. Every file that is followed to is another
-- one, so that `depth` need not be greater than the number of files.
def visit (grammar : Grammar) (disk : Disk) (depth : Nat) (run : Run) (file : Path) :
    Except Failure Run :=
  match disk.realPath file with
  | .error l => .error (.loop l)
  | .ok path =>
    if path ∈ run.visited then .ok run
    else
      let run := run.enter path
      match Module.load grammar disk path with
      | .error e => .ok (run.refuse path e)
      | .ok m =>
        match m.links disk with
        | .error e => .error e
        | .ok (links, linkNotes) =>
          let run := run.take m links linkNotes
          if m.components.isEmpty then
            match depth with
            | 0 => .ok run
            | depth + 1 => followAll (visit grammar disk depth) run links.values.eraseDups
          else
            .ok run

-- A run that has not visited any of the files found.
def start (root : String) (found : Discovery.Found) : Run :=
  let refused := found.refusals.foldl
    (fun d refusal => d.directoryError refusal.path.text refusal.message)
    (Diagnostics.empty.note (.started root))
  { empty with diagnostics := refused.note (.filesFound found.files.length) }

def registry (run : Run) : Registry :=
  run.components.foldl Registry.register .empty

-- What follows from the components and modules found.
def result (run : Run) : Result :=
  let inferred := Flow.infer run.registry run.modules
  { components := Layout.arrange run.components
    flows := Flow.finalize inferred.flows run.components
    conflicts := Conflict.detect run.components
    diagnostics :=
      (run.diagnostics.note (.componentsFound run.components.length)).notes inferred.notes }

end Run

-- Visits the files under a root.
def explore (grammar : Grammar) (disk : Disk) (root : String) : Except Failure Run :=
  match Discovery.find disk root with
  | .error e => .error e
  | .ok found => found.files.foldlM (Run.visit grammar disk disk.top.fileCount) (.start root found)

-- Analyses the project under a root.
def analyze (grammar : Grammar) (disk : Disk) (root : String) : Except Failure Result :=
  (explore grammar disk root).map Run.result

end PropFlow
