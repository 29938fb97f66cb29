import PropFlow.Text.Utf8
import PropFlow.Value.Basic

namespace PropFlow.Json

def unit (code : Nat) : String :=
  "\\u" ++ Text.Utf8.hexDigits 4 code

-- Characters outside ASCII are written by their code, those above the first plane as a pair.
def escape (c : Char) : String :=
  if c = '\x22' then "\\\""
  else if c = '\\' then "\\\\"
  else if c = '\n' then "\\n"
  else if c = '\r' then "\\r"
  else if c = '\t' then "\\t"
  else if c = '\x08' then "\\b"
  else if c = '\x0c' then "\\f"
  else if ' ' ≤ c ∧ c ≤ '~' then c.toString
  else if c.toNat < 0x10000 then unit c.toNat
  else
    let offset := c.toNat - 0x10000
    unit (0xD800 + offset / 0x400) ++ unit (0xDC00 + offset % 0x400)

def string (text : String) : String :=
  "\"" ++ String.join (text.toList.map escape) ++ "\""

def newline (indent : Nat) : String :=
  "\n" ++ String.ofList (List.replicate indent ' ')

-- The parts of a list or a table on lines of their own, two further in than its brackets.
def block (opening closing : String) (indent : Nat) (parts : List String) : String :=
  if parts.isEmpty then opening ++ closing
  else
    opening ++ newline (indent + 2) ++ ("," ++ newline (indent + 2)).intercalate parts
      ++ newline indent ++ closing

mutual
def render (indent : Nat) : Value → String
  | .null => "null"
  | .bool true => "true"
  | .bool false => "false"
  | .int value => toString value
  | .scalar value => value.shown
  | .str value => string value
  | .list values => block "[" "]" indent (renderAll (indent + 2) values)
  | .table entries => block "\x7b" "\x7d" indent (renderEntries (indent + 2) entries)

def renderAll (indent : Nat) : List Value → List String
  | [] => []
  | value :: rest => render indent value :: renderAll indent rest

def renderEntries (indent : Nat) : List (String × Value) → List String
  | [] => []
  | (key, value) :: rest => (string key ++ ": " ++ render indent value) :: renderEntries indent rest
end

-- A value as JSON text, indented by two.
def text (value : Value) : String :=
  render 0 value

end PropFlow.Json
