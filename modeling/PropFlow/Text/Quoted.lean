import PropFlow.Text.Printable
import PropFlow.Text.Utf8

namespace PropFlow.Text

def escapeCode (code : Nat) : String :=
  if code < 0x100 then "\\x" ++ Utf8.hexDigits 2 code
  else if code < 0x10000 then "\\u" ++ Utf8.hexDigits 4 code
  else "\\U" ++ Utf8.hexDigits 8 code

def quotedChar (quote c : Char) : String :=
  if c = quote ∨ c = '\\' then String.ofList ['\\', c]
  else if c = '\t' then "\\t"
  else if c = '\n' then "\\n"
  else if c = '\r' then "\\r"
  else if isPrintable c then c.toString
  else escapeCode c.toNat

-- A text as it is shown inside a message: in single quotes, or in double ones when that saves
-- escaping an apostrophe.
def quoted (text : String) : String :=
  let cs := text.toList
  let quote := if '\x27' ∈ cs ∧ '\x22' ∉ cs then '\x22' else '\x27'
  quote.toString ++ String.join (cs.map (quotedChar quote)) ++ quote.toString

end PropFlow.Text
