import PropFlow.OrderedMap
import PropFlow.Text.Quoted

namespace PropFlow

-- A value of a type that is only passed on, such as a date or a number with a fraction: all that is
-- ever asked of it. It is shown in one way inside other values and in another by itself.
structure Scalar where
  typeName : String
  isSet : Bool
  shown : String
  display : String
  written : String
  whole? : Option Int
deriving DecidableEq, Inhabited, Repr

-- Plain data. The entries of a table are in the order they were put in.
inductive Value where
  | null
  | bool (value : Bool)
  | int (value : Int)
  | scalar (value : Scalar)
  | str (value : String)
  | list (values : List Value)
  | table (entries : List (String × Value))
deriving Inhabited, Repr

-- The entries of a table.
abbrev Table := List (String × Value)

namespace Table

def get? (t : Table) (key : String) : Option Value :=
  t.lookup key

def insert (t : Table) (key : String) (value : Value) : Table :=
  OrderedMap.alterEntries key (fun _ => value) t

def insertAll (t : Table) (values : Table) : Table :=
  values.foldl (fun t (key, value) => t.insert key value) t

end Table

namespace Value

-- What counts as set: anything but nothing, zero and what is empty.
def isSet : Value → Bool
  | null => false
  | bool value => value
  | int value => value != 0
  | scalar value => value.isSet
  | str value => value != ""
  | list values => !values.isEmpty
  | table entries => !entries.isEmpty

def typeName : Value → String
  | null => "NoneType"
  | bool _ => "bool"
  | int _ => "int"
  | scalar value => value.typeName
  | str _ => "str"
  | list _ => "list"
  | table _ => "dict"

mutual
-- A value inside another one as it is shown: texts stand in quotes.
def shown : Value → String
  | null => "None"
  | bool true => "True"
  | bool false => "False"
  | int value => toString value
  | scalar value => value.shown
  | str value => Text.quoted value
  | list values => "[" ++ ", ".intercalate (shownAll values) ++ "]"
  | table entries => "\x7b" ++ ", ".intercalate (shownEntries entries) ++ "\x7d"

def shownAll : List Value → List String
  | [] => []
  | value :: rest => value.shown :: shownAll rest

def shownEntries : List (String × Value) → List String
  | [] => []
  | (key, value) :: rest => (Text.quoted key ++ ": " ++ value.shown) :: shownEntries rest
end

-- A value as it is shown by itself.
def display : Value → String
  | str value => value
  | scalar value => value.display
  | value => value.shown

mutual
-- How deep values are nested.
def depth : Value → Nat
  | list values => depthAll values + 1
  | table entries => depthEntries entries + 1
  | _ => 0

def depthAll : List Value → Nat
  | [] => 0
  | value :: rest => max value.depth (depthAll rest)

def depthEntries : List (String × Value) → Nat
  | [] => 0
  | (_, value) :: rest => max value.depth (depthEntries rest)
end

end Value

end PropFlow
