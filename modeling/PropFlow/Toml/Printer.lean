import PropFlow.Text.Quoted
import PropFlow.Toml.Reader

namespace PropFlow.Toml

def escapeChar (c : Char) : String :=
  if c = '\x22' ∨ c = '\\' then String.ofList ['\\', c]
  else if c = '\t' then "\\t"
  else if c = '\n' then "\\n"
  else if c = '\r' then "\\r"
  else if Text.isPrintable c then c.toString
  else if c.toNat < 0x10000 then "\\u" ++ Text.Utf8.hexDigits 4 c.toNat
  else "\\U" ++ Text.Utf8.hexDigits 8 c.toNat

def string (text : String) : String :=
  "\"" ++ String.join (text.toList.map escapeChar) ++ "\""

-- A key or a part of a header; in quotes unless it is a bare name.
def name (text : String) : String :=
  if text ≠ "" ∧ text.toList.all isBareChar then text else string text

mutual
def value : Value → String
  | .null => string "None"
  | .bool true => "true"
  | .bool false => "false"
  | .int n => toString n
  | .scalar value => value.written
  | .str text => string text
  | .list values => "[" ++ String.join (elements values) ++ "]"
  | .table _ => ""

def elements : List Value → List String
  | [] => []
  | v :: rest => (" " ++ value v ++ ",") :: elements rest
end

def isTable : Value → Bool
  | .table _ => true
  | _ => false

def tables (values : List Value) : List Table :=
  values.filterMap fun
    | .table entries => some entries
    | _ => none

-- The tables inside a table, with the names that headers give them.
abbrev Subtables := List (String × Table)

-- What is written for a table without its header: plain values, then arrays of tables.
structure Body where
  plain : String
  arrays : String
  subtables : Subtables

def Body.empty : Body :=
  ⟨"", "", []⟩

def Body.text (b : Body) : String :=
  b.plain ++ b.arrays

-- Tables are written level by level, each under its header and behind an empty line.
def sections (body : String → Table → Body) (written : String) : Nat → Subtables → String
  | 0, _ => written
  | _, [] => written
  | fuel + 1, level =>
    let step := fun (state : String × Subtables) (entry : String × Table) =>
      let b := body (entry.1 ++ ".") entry.2
      let inner := b.subtables.map fun (key, t) => (entry.1 ++ "." ++ key, t)
      let gap := if state.1 = "" ∨ state.1.toList.reverse.take 2 = ['\n', '\n'] then "" else "\n"
      if b.text ≠ "" ∨ inner = [] then
        (state.1 ++ gap ++ "[" ++ entry.1 ++ "]\n" ++ b.text, state.2 ++ inner)
      else
        (state.1, state.2 ++ inner)
    let (written, next) := level.foldl step (written, [])
    sections body written fuel next

-- The tables inside a table of an array; one without values of its own gets no header.
def arraySections (body : String → Table → Body) (above : String) (written : String) :
    Nat → Subtables → String
  | 0, _ => written
  | _, [] => written
  | fuel + 1, level =>
    let step := fun (state : String × Subtables) (entry : String × Table) =>
      let b := body (above ++ "." ++ entry.1 ++ ".") entry.2
      let inner := b.subtables.map fun (key, t) => (entry.1 ++ "." ++ key, t)
      let header := if b.text = "" then "" else "[" ++ above ++ "." ++ entry.1 ++ "]\n"
      (state.1 ++ header ++ b.text, state.2 ++ inner)
    let (written, next) := level.foldl step (written, [])
    arraySections body above written fuel next

-- One table of an array. Arrays inside it stand behind its empty line if it has no plain values.
def arrayBlock (body : String → Table → Body) (fuel : Nat) (above : String) (t : Table) : String :=
  let b := body (above ++ ".") t
  let (before, after) := if b.plain = "" then ("", b.arrays) else (b.text, "")
  "[[" ++ above ++ "]]\n" ++ before ++ arraySections body above ("\n" ++ after) fuel b.subtables

def bodyEntry (inner : String → Table → Body) (fuel : Nat) (above : String) (b : Body)
    (entry : String × Value) : Body :=
  let key := name entry.1
  match entry.2 with
  | .null => b
  | .table t => { b with subtables := b.subtables ++ [(key, t)] }
  | .list values =>
    if values.any isTable then
      { b with arrays := b.arrays
          ++ String.join ((tables values).map (arrayBlock inner fuel (above ++ key))) }
    else { b with plain := b.plain ++ key ++ " = " ++ value entry.2 ++ "\n" }
  | v => { b with plain := b.plain ++ key ++ " = " ++ value v ++ "\n" }

-- `above` is what stands before a key in a header.
def body : Nat → String → Table → Body
  | 0, _, _ => .empty
  | fuel + 1, above, t => t.foldl (bodyEntry (body fuel) fuel above) .empty

-- The document that describes a table.
def write (t : Table) : String :=
  let fuel := (Value.table t).depth + 1
  let top := body fuel "" t
  sections (body fuel) top.text fuel top.subtables

end PropFlow.Toml
