import PropFlow.Component.Basic
import PropFlow.OrderedMap
import PropFlow.Text.Casing
import PropFlow.Text.Search

namespace PropFlow

-- Two items of one component that seem to bring the same value.
structure Conflict where
  id : String
  description : String
  items : List String
  file : String
deriving DecidableEq, Repr, Inhabited

namespace Conflict

-- The name without one accessor word in front.
def dropAccessor : List Char → List Char
  | 'g' :: 'e' :: 't' :: rest => rest
  | 's' :: 'e' :: 't' :: rest => rest
  | 'u' :: 's' :: 'e' :: rest => rest
  | name => name

-- The name without an empty call at its end; one line feed may follow the call, and stays.
def dropCall (name : List Char) : List Char :=
  match name.reverse with
  | ')' :: '(' :: rest => rest.reverse
  | '\n' :: ')' :: '(' :: rest => ('\n' :: rest).reverse
  | _ => name

def propBase (name : String) : String :=
  Text.lower (String.ofList (dropAccessor name.toList))

def contextBase (name : String) : String :=
  Text.lower (String.ofList (dropCall (dropAccessor name.toList)))

-- Whether one of the bases contains the other.
def namesOverlap (prop consumer : String) : Bool :=
  let a := propBase prop
  let b := contextBase consumer
  a == b || Text.isSubstring b a || Text.isSubstring a b

-- A prop of a component clashes with the first context value of the component whose name
-- overlaps.
def ofProp? (c : Component) (prop : Item) : Option Conflict :=
  ((c.itemsOf .contextConsumer).find? fun consumer => namesOverlap prop.name consumer.name).map
    fun consumer =>
      { id := c.name ++ "-" ++ prop.name ++ "-conflict"
        description := c.name ++ " receives \"" ++ prop.name ++ "\" via both props and context"
        items := [prop.id, consumer.id]
        file := c.file }

def ofComponent (c : Component) : List Conflict :=
  (c.itemsOf .prop).filterMap (ofProp? c)

-- The first conflict of each id.
def detect (components : List Component) : List Conflict :=
  ((components.flatMap ofComponent).foldl
    (fun (found : OrderedMap String Conflict) conflict => found.insertIfNew conflict.id conflict)
    .empty).values

end Conflict

end PropFlow
