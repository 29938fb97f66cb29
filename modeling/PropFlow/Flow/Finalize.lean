import PropFlow.Component.Basic
import PropFlow.Flow.Basic
import PropFlow.OrderedMap

namespace PropFlow.Flow

-- The ends that flows may have: the items of the components, with their file and without one.
def knownEnds (components : List Component) : List (String × String) :=
  components.foldl (fun known c =>
    c.items.foldl (fun known item => (known.insert (item.id, c.file)).insert (item.id, "")) known) []

-- Whether a flow leads from a known end to a known end.
def isBetween (known : List (String × String)) (f : Flow) : Bool :=
  known.contains (f.source, f.sourceFile) && known.contains (f.target, f.targetFile)

-- Flows between items of the components, each once, in the order of their first occurrence.
def finalize (flows : List Flow) (components : List Component) : List Flow :=
  let known := knownEnds components
  flows.foldl (fun kept f =>
    if !f.isBetween known then kept
    else if f ∈ kept then kept
    else kept ++ [f]) []

-- Flows of one id together, the ids in the order of their first occurrence.
def groupById (flows : List Flow) : OrderedMap String (List Flow) :=
  flows.foldl (fun groups f => groups.alter f.id fun group => group.getD [] ++ [f]) .empty

end PropFlow.Flow
