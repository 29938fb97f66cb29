import Std.Data.HashMap
import PropFlow.Component.Basic

namespace PropFlow

-- The components found so far. Under a name and a file the one that was registered last is kept,
-- under a name alone all of them in their order.
structure Registry where
  byKey : Std.HashMap (String × String) Component
  byName : Std.HashMap String (List Component)

namespace Registry

def empty : Registry :=
  ⟨∅, ∅⟩

def register (r : Registry) (c : Component) : Registry :=
  ⟨r.byKey.insert c.key c, r.byName.insert c.name (r.byName.getD c.name [] ++ [c])⟩

def get? (r : Registry) (name file : String) : Option Component :=
  r.byKey[(name, file)]?

def latest? (r : Registry) (name : String) : Option Component :=
  (r.byName.getD name []).getLast?

-- The component that a tag stands for: one of its own file, else one of the file it is imported
-- from, else the last one of that name.
def lookupTag? (r : Registry) (name file : String) (importedFrom : Option String) :
    Option Component :=
  (r.get? name file).or ((importedFrom.bind (r.get? name ·)).or (r.latest? name))

end Registry

end PropFlow
