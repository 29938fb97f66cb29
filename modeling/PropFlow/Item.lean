namespace PropFlow

-- What a component holds: a state and its setter, a prop, a local function, a context it provides
-- or reads.
inductive ItemKind where
  | state
  | setter
  | prop
  | propFunction
  | function
  | contextProvider
  | contextConsumer
deriving DecidableEq, Repr, Inhabited

namespace ItemKind

def all : List ItemKind :=
  [state, setter, prop, propFunction, function, contextProvider, contextConsumer]

def label : ItemKind → String
  | state => "state"
  | setter => "setter"
  | prop => "prop"
  | propFunction => "prop-function"
  | function => "function"
  | contextProvider => "context-provider"
  | contextConsumer => "context-consumer"

def ofLabel? (label : String) : Option ItemKind :=
  all.find? fun kind => kind.label == label

def color : ItemKind → String
  | state => "#22c55e"
  | setter => "#10b981"
  | prop => "#f59e0b"
  | propFunction => "#f59e0b"
  | function => "#3b82f6"
  | contextProvider => "#ec4899"
  | contextConsumer => "#8b5cf6"

end ItemKind

structure Item where
  id : String
  name : String
  kind : ItemKind
  flowId : String
deriving DecidableEq, Repr, Inhabited

namespace Item

-- An item's id is its component's name and its key. It is shown under `name`, or under its key
-- if it has no other name.
def create (component key : String) (kind : ItemKind) (flowId : String) (name : Option String) :
    Item where
  id := component ++ "-" ++ key
  name := name.getD key
  kind := kind
  flowId := flowId

def color (item : Item) : String :=
  item.kind.color

-- The flow that values under a key take part in.
def flowOf (key : String) : String :=
  key ++ "-flow"

-- The flow that a context's values take part in.
def contextOf (key : String) : String :=
  key ++ "-context"

end Item

end PropFlow
