import PropFlow.Toml.Line
import PropFlow.Toml.Scalar

namespace PropFlow.Toml

-- A text that is being cut at a separator outside strings and brackets: the pieces so far and the
-- one in work, each last first.
structure Cut where
  pieces : List (List Char)
  piece : List Char
  quote : Option Char
  escaped : Bool
  depth : Nat

def Cut.step (separator : Char) (cut : Cut) (c : Char) : Cut :=
  let kept := { cut with piece := c :: cut.piece }
  match cut.quote with
  | some quote =>
    if cut.escaped then { kept with escaped := false }
    else if c = quote then { kept with quote := none }
    else { kept with escaped := c == '\\' && quote == '\x22' }
  | none =>
    if c = separator ∧ cut.depth = 0 then
      { cut with pieces := cut.piece.reverse :: cut.pieces, piece := [] }
    else if c = '[' then { kept with depth := cut.depth + 1 }
    else if c = ']' then { kept with depth := cut.depth - 1 }
    else { kept with quote := if Scan.isQuote c then some c else none }

def cutAt (separator : Char) (text : List Char) : List (List Char) :=
  let cut := text.foldl (Cut.step separator) ⟨[], [], none, false, 0⟩
  (cut.piece.reverse :: cut.pieces).reverse.map Text.trim

-- All values of an array are of one type.
def isUniform : List Value → Bool
  | [] => true
  | value :: rest => rest.all fun other => other.typeName == value.typeName

-- A value. The last character of an array is its bracket and is not looked at; places between
-- commas may be empty.
def readValue? : Nat → List Char → Option Value
  | 0, _ => none
  | fuel + 1, cs =>
    if cs = "true".toList then some (.bool true)
    else if cs = "false".toList then some (.bool false)
    else
      match cs with
      | '[' :: rest => do
        let pieces := (cutAt ',' rest.dropLast).filter (· ≠ [])
        let values ← pieces.mapM (readValue? fuel)
        guard (isUniform values)
        return .list values
      | c :: _ =>
        if Scan.isQuote c then (readString? cs).map fun text => .str (String.ofList text)
        else
          ((readInteger? cs).map .int).or (((readFraction? cs).or (readDate? cs)).map .scalar)
      | [] => none

def isBareChar (c : Char) : Bool :=
  c.isAlphanum || c == '_' || c == '-'

-- A part of a header: a bare name, or any text in quotes.
def readName? (cs : List Char) : Option String :=
  match cs with
  | [] => none
  | c :: rest =>
    if Scan.isQuote c then
      if rest.getLast? = some c ∧ 1 < rest.length then some (String.ofList rest.dropLast) else none
    else if cs.all isBareChar then some (String.ofList cs)
    else none

-- The tables that a key leads through, and the key in the last of them.
def readKey? (cs : List Char) : Option (List String) :=
  match cs with
  | [] => none
  | c :: _ =>
    if Scan.isQuote c then (readString? cs).map fun text => [String.ofList text]
    else
      match (cs.splitOn '.').filter (· ≠ []) with
      | [] => none
      | parts => some (parts.map String.ofList)

-- Tables that headers have passed through without opening them, by name.
abbrev Passed := List String

-- Changes the table that a path leads to. A list of tables stands for its last one.
def changeAt (change : Table → Option Table) : List String → Table → Option Table
  | [], t => change t
  | name :: path, t =>
    match t.get? name with
    | some (.table inner) => (changeAt change path inner).map fun new => t.insert name (.table new)
    | some (.list values) =>
      match values.getLast? with
      | some (.table inner) =>
        (changeAt change path inner).map fun new =>
          t.insert name (.list (values.dropLast ++ [.table new]))
      | _ => none
    | _ => none

-- Opens the table that a header names. Tables on the way are made where there are none. A table
-- is opened once; one that was only passed through may still be opened.
def openTable (isArray : Bool) (passed : Passed) : List String → Table → Option (Passed × Table)
  | [], _ => none
  | [name], t =>
    match t.get? name with
    | none => some (passed, t.insert name (if isArray then .list [.table []] else .table []))
    | some old =>
      if name ∈ passed then
        if isArray then none else some (passed.erase name, t)
      else
        match isArray, old with
        | true, .list values => some (passed, t.insert name (.list (values ++ [.table []])))
        | _, _ => none
  | name :: path, t =>
    match t.get? name with
    | none =>
      (openTable isArray (passed ++ [name]) path []).map fun (passed, new) =>
        (passed, t.insert name (.table new))
    | some (.table inner) =>
      (openTable isArray passed path inner).map fun (passed, new) =>
        (passed, t.insert name (.table new))
    | some (.list values) =>
      match values.getLast? with
      | some (.table inner) =>
        (openTable isArray passed path inner).map fun (passed, new) =>
          (passed, t.insert name (.list (values.dropLast ++ [.table new])))
      | _ => none
    | _ => none

-- Puts a value at a key that is not taken yet.
def putNew (value : Value) : List String → Table → Option Table
  | [], _ => none
  | [key], t => if (t.get? key).isSome then none else some (t.insert key value)
  | name :: path, t =>
    match t.get? name with
    | none => (putNew value path []).map fun new => t.insert name (.table new)
    | some (.table inner) => (putNew value path inner).map fun new => t.insert name (.table new)
    | _ => none

-- A document as far as it has been read, with the table that keys go to.
structure Reading where
  document : Table
  current : List String
  passed : Passed

def Reading.line (r : Reading) : Line → Option Reading
  | .header isArray text => do
    let names ← (cutAt '.' text).mapM readName?
    let (passed, document) ← openTable isArray r.passed names r.document
    return ⟨document, names, passed⟩
  | .pair key text => do
    let path ← readKey? (Text.trim key)
    let value ← readValue? (text.length + 1) (Text.trim text)
    let document ← changeAt (putNew value path) r.current r.document
    return { r with document := document }

-- The table that a document describes; `none` if it is malformed.
def read (text : String) : Option Table := do
  let lines ← scanLines text.toList
  let reading ← lines.foldlM Reading.line ⟨[], [], []⟩
  return reading.document

end PropFlow.Toml
