import PropFlow.Analysis
import PropFlow.Value.Json

namespace PropFlow

def Item.toValue (i : Item) : Value :=
  .table [("id", .str i.id), ("name", .str i.name), ("type", .str i.kind.label),
    ("color", .str i.color), ("flowId", .str i.flowId)]

def Component.toValue (c : Component) : Value :=
  .table [("id", .str c.name), ("filePath", .str c.file), ("name", .str c.name), ("x", .int c.x),
    ("y", .int c.y), ("width", .int c.width), ("height", .int c.height),
    ("items", .list (c.items.map Item.toValue))]

def Flow.toValue (f : Flow) : Value :=
  .table [("id", .str f.id), ("fromItem", .str f.source), ("toItem", .str f.target),
    ("type", .str f.type)]

def Conflict.toValue (c : Conflict) : Value :=
  .table [("id", .str c.id), ("description", .str c.description), ("items", .list (c.items.map .str))]

def Diagnostics.toValue (d : Diagnostics) : Value :=
  .table [("filesAnalyzed", .list (d.filesAnalyzed.map .str)),
    ("componentsFound", .list (d.componentsFound.map .str)),
    ("parseErrors", .list (d.parseErrors.map .str)), ("analysisLog", .list (d.lines.map .str))]

-- A result as data; which file an end of a flow is in is left out.
def Result.toValue (r : Result) : Value :=
  .table [("components", .list (r.components.map Component.toValue)),
    ("flows", .list (r.flows.map Flow.toValue)),
    ("conflicts", .list (r.conflicts.map Conflict.toValue)), ("debug", r.diagnostics.toValue)]

end PropFlow
