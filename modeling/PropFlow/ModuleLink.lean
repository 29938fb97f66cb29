import PropFlow.Discovery
import PropFlow.OrderedMap
import PropFlow.Source
import PropFlow.Syntax.Expression
import PropFlow.Trace

namespace PropFlow

open Syntax

namespace ModuleLink

-- The endings that are tried for a specifier, in this order.
def tried : List String :=
  [".tsx", ".ts", ".jsx", ".js"]

def isRelative (specifier : String) : Bool :=
  specifier.toList.head? == some '.'

-- The file that a specifier names, before endings are tried.
def base (importer : Path) (specifier : String) : Path :=
  (importer.parent.join (Path.ofString specifier)).normalize

-- The files that a specifier can stand for: the file itself if it has an ending, the file with an
-- ending added, an index file in it.
def candidates (base : Path) : List Path :=
  (if base.suffix = "" then [] else [base])
    ++ tried.map base.withEnding
    ++ tried.map fun ending => base.child ("index" ++ ending)

def firstFile? (disk : Disk) : List Path → Except Failure (Option Path)
  | [] => .ok none
  | path :: rest =>
    match disk.isFile path with
    | .ok true => .ok (some path)
    | .ok false => firstFile? disk rest
    | .error e => .error (.file e path)

-- The file that a relative specifier in a file stands for.
def resolve? (disk : Disk) (importer : Path) (specifier : String) : Except Failure (Option Path) :=
  if isRelative specifier then firstFile? disk (candidates (base importer specifier)) else .ok none

-- The real path of the source file that a relative specifier stands for.
def target? (disk : Disk) (importer : Path) (specifier : String) : Except Failure (Option Path) :=
  match resolve? disk importer specifier with
  | .error e => .error e
  | .ok none => .ok none
  | .ok (some path) =>
    if Discovery.isSource path then
      match disk.realPath path with
      | .ok real => .ok (some real)
      | .error l => .error (.loop l)
    else .ok none

-- The outer name of an import or export specifier; an alias wins. A name may be written as a
-- string.
def specifierName? (specifier : Node) : Option String :=
  ((specifier.child? .alias).or (specifier.child? .name)).map fun n =>
    (n.stringValue?.filter (· ≠ "")).getD n.text

-- The names that one part of an import clause binds.
def boundNames (part : Node) : List String :=
  if part.kind = "identifier" then [part.text]
  else if part.kind = "named_imports" then
    (part.parts.filter (·.kind == "import_specifier")).filterMap fun specifier =>
      (specifierName? specifier).filter (· ≠ "")
  else []

def importedNames (statement : Node) : List String :=
  (statement.parts.filter (·.kind == "import_clause")).flatMap fun clause =>
    clause.parts.flatMap boundNames

def star : String := "*"

def exportedNames (clause : Node) : List String :=
  (clause.parts.filter (·.kind == "export_specifier")).filterMap fun specifier =>
    let name := ((specifierName? specifier).filter (· ≠ "")).getD specifier.text
    if name = "" then none else some name

-- The names that a statement passes on: those of a namespace if there is one, else those of its
-- last clause, else all.
def reexportedNames (statement : Node) : List String :=
  match statement.parts.find? (·.kind == "namespace_export") with
  | some namespaced => [(namespaced.firstPart?.map (·.text)).getD star]
  | none =>
    match statement.parts.reverse.find? (·.kind == "export_clause") with
    | some clause => exportedNames clause
    | none => [star]

-- What one statement says: names with the file they come from, and notes.
structure Reading where
  links : List (String × Path)
  notes : List Note
deriving DecidableEq, Repr

def Reading.nothing : Reading :=
  ⟨[], []⟩

def ofImport (disk : Disk) (importer : Path) (statement : Node) : Except Failure Reading :=
  match (statement.child? .source).bind (·.stringValue?) with
  | none => .ok .nothing
  | some source =>
    match target? disk importer source with
    | .error e => .error e
    | .ok none => .ok .nothing
    | .ok (some path) =>
      let names := importedNames statement
      .ok ⟨names.map (·, path), names.map (.imported · source)⟩

-- Everything that a star passes on goes under one key for each source.
def linkKey (source name : String) : String :=
  if name = star then star ++ ":" ++ source else name

def ofExport (disk : Disk) (importer : Path) (statement : Node) : Except Failure Reading :=
  match ((statement.child? .source).bind (·.stringValue?)).filter (· ≠ "") with
  | none => .ok .nothing
  | some source =>
    match target? disk importer source with
    | .error e => .error e
    | .ok none => .ok ⟨[], [.reexportFound source]⟩
    | .ok (some path) =>
      let names := (reexportedNames statement).map (linkKey source)
      .ok ⟨names.map (·, path), .reexportFound source :: names.map (.reexported · source)⟩

def ofStatement (disk : Disk) (importer : Path) (statement : Node) : Except Failure Reading :=
  if statement.kind = "import_statement" then ofImport disk importer statement
  else if statement.kind = "export_statement" then ofExport disk importer statement
  else .ok .nothing

end ModuleLink

-- Names of a module with the files they come from; the first file of a name counts.
abbrev Links := OrderedMap String Path

namespace Module

def readings (m : Module) (disk : Disk) : Except Failure (List ModuleLink.Reading) :=
  m.root.parts.mapM (ModuleLink.ofStatement disk m.path)

def links (m : Module) (disk : Disk) : Except Failure (Links × List Note) :=
  (m.readings disk).map fun readings =>
    ((readings.flatMap (·.links)).foldl (fun links (name, path) => links.insertIfNew name path) .empty,
      readings.flatMap (·.notes))

end Module

end PropFlow
