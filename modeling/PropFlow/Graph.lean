import PropFlow.Analysis
import PropFlow.Path.Location

namespace PropFlow

namespace Graph

-- A box of the drawing.
structure Vertex where
  id : String
  component : Component
  location : String
  conflicted : Bool
deriving DecidableEq, Repr

structure Edge where
  source : String
  target : String
  type : String
deriving DecidableEq, Repr

-- Files with their places below the deepest directory that holds them all.
def locations (cwd : List String) (components : List Component) :
    Except Path.LocationError (List (String × String)) := do
  let files := (components.map (·.file)).eraseDups.mergeSort fun a b => decide (a ≤ b)
  match files with
  | [] => return []
  | _ =>
    let base ← Path.common (files.map Path.directory)
    files.mapM fun file => (file, ·) <$> Path.relativeTo cwd base file

def locationOf (places : List (String × String)) (file : String) : String :=
  (places.lookup file).getD ""

-- A name that several components share is told apart by the file.
def vertexId (components : List Component) (places : List (String × String)) (c : Component) : String :=
  if 1 < components.countP (·.name == c.name) then
    c.name ++ " (" ++ locationOf places c.file ++ ")"
  else
    c.name

-- The ids under which items are drawn, by an item and its file, and by an item alone for ends that
-- name no file. What comes later takes the place of what was there.
def owners (components : List Component) (places : List (String × String)) :
    OrderedMap (String × String) String :=
  components.foldl (fun owners c =>
    c.items.foldl (fun owners item =>
      (owners.insert (item.id, c.file) (vertexId components places c)).insert (item.id, "")
        (vertexId components places c)) owners) .empty

end Graph

-- The graph of an analysis.
structure Graph where
  vertices : List Graph.Vertex
  edges : List Graph.Edge
deriving DecidableEq, Repr

namespace Graph

-- The id that a conflict is shown at, by the first of its items.
def conflictOwner? (owners : OrderedMap (String × String) String) (conflict : Conflict) : Option String :=
  conflict.items.head?.bind fun item => owners.get? (item, conflict.file)

-- The components under their ids. Where two have one id the later one counts, in the place of the
-- earlier one.
def boxes (components : List Component) (places : List (String × String)) :
    OrderedMap String Component :=
  .ofList (components.map fun c => (vertexId components places c, c))

def edgeOf? (owners : OrderedMap (String × String) String) (flow : Flow) : Option Edge := do
  let source ← owners.get? (flow.source, flow.sourceFile)
  let target ← owners.get? (flow.target, flow.targetFile)
  return ⟨source, target, flow.type⟩

def build (cwd : List String) (components : List Component) (flows : List Flow) (conflicts : List Conflict) :
    Except Path.LocationError Graph := do
  let places ← locations cwd components
  let owners := owners components places
  let conflicted := conflicts.filterMap (conflictOwner? owners)
  return {
    vertices := (boxes components places).entries.map fun (id, c) =>
      ⟨id, c, locationOf places c.file, id ∈ conflicted⟩
    edges := flows.filterMap (edgeOf? owners) }

-- The part of a graph around the components whose name contains a text: these, the edges at them,
-- and what those lead to. The whole graph if there is no such component.
def focus (g : Graph) (text : String) : Graph :=
  let ids := (g.vertices.filter fun v => Text.isSubstring text v.component.name).map (·.id)
  if text = "" ∨ ids = [] then g
  else
    let edges := g.edges.filter fun e => e.source ∈ ids || e.target ∈ ids
    let shown := ids ++ edges.flatMap fun e => [e.source, e.target]
    { vertices := (g.vertices.filter (·.id ∈ shown)).mergeSort fun a b => decide (a.id ≤ b.id)
      edges := edges }

-- A backslash before every occurrence of a mark.
def escapeMark (mark : Char) (cs : List Char) : List Char :=
  cs.flatMap fun c => if c = mark then ['\\', c] else [c]

-- A text inside double quotes: only quotes are escaped.
def escape (cs : List Char) : List Char :=
  escapeMark '\x22' cs

-- What has a meaning in a record label. The backslash comes first, so that no pass escapes the
-- backslashes of an earlier one.
def recordMarks : List Char :=
  ['\\', '\x7b', '\x7d', '|', '<', '>', '\x22']

-- A text inside a record label, where braces, bars and angle brackets have a meaning too.
def escapeRecord (cs : List Char) : List Char :=
  recordMarks.foldl (fun text mark => escapeMark mark text) cs

def row (item : Item) : String :=
  item.kind.label ++ ": " ++ item.name

-- Name, location and, if there are items, a line for each of them.
def recordLabel (c : Component) (location : String) : List Char :=
  let head := escapeRecord c.name.toList ++ '|' :: escapeRecord location.toList
  let lines := c.items.flatMap fun item => escapeRecord (row item).toList ++ ['\\', 'l']
  if c.items.isEmpty then '\x7b' :: head ++ ['\x7d']
  else '\x7b' :: head ++ '|' :: lines ++ ['\x7d']

def quote (text : String) : String :=
  "\"" ++ String.ofList (escape text.toList) ++ "\""

def Vertex.line (v : Vertex) : String :=
  "  " ++ quote v.id ++ " [label=\"" ++ String.ofList (recordLabel v.component v.location) ++ "\""
    ++ (if v.conflicted then ", style=dashed, color=red" else "") ++ "];"

def Edge.line (e : Edge) : String :=
  "  " ++ quote e.source ++ " -> " ++ quote e.target ++ " [label=" ++ quote e.type ++ "];"

def lines (g : Graph) : List String :=
  ["digraph ReactGraph \x7b", "  rankdir=LR;", "  node [shape=record, fontname=Helvetica];"]
    ++ g.vertices.map Vertex.line ++ g.edges.map Edge.line ++ ["\x7d"]

def text (g : Graph) : String :=
  "\n".intercalate g.lines

-- The graph of a result as text, or the part of it around some components.
def render (cwd : List String) (r : Result) (focused : String) : Except Path.LocationError String :=
  (build cwd r.components r.flows r.conflicts).map fun g => (g.focus focused).text

end Graph

end PropFlow
