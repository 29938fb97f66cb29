import PropFlow.Item

namespace PropFlow

-- A component of the graph with the box it is drawn in.
structure Component where
  name : String
  file : String
  items : List Item
  x : Nat
  y : Nat
  width : Nat
  height : Nat
deriving DecidableEq, Repr, Inhabited

namespace Component

-- A box is as wide as its name and as high as its items need, and never smaller than 200 by 100.
def build (name file : String) (items : List Item) : Component where
  name := name
  file := file
  items := items
  x := 0
  y := 0
  width := max 200 (name.length * 8 + 40)
  height := max 100 (items.length * 18 + 60)

-- Two components of one name in different files are different components.
def key (c : Component) : String × String :=
  (c.name, c.file)

-- The first item of a name, among the items of some kinds if kinds are given.
def findItem? (c : Component) (name : String) (kinds : Option (List ItemKind)) : Option Item :=
  c.items.find? fun item => item.name == name && kinds.all (item.kind ∈ ·)

def itemsOf (c : Component) (kind : ItemKind) : List Item :=
  c.items.filter (·.kind == kind)

end Component

end PropFlow
