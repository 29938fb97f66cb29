import PropFlow.Text.Blank

namespace PropFlow.Toml

-- One statement of a document: the header of a table or of one more table of an array, or a key
-- with its value. Comments are gone, and a value that went over several lines is one line.
inductive Line where
  | header (isArray : Bool) (names : List Char)
  | pair (key value : List Char)
deriving DecidableEq, Repr

-- The part of a statement that is being read; texts are kept last character first. In a value,
-- `depth` brackets are open.
inductive Phase where
  | start
  | key (text : List Char)
  | keyEnd (text : List Char)
  | header (isArray : Bool) (text : List Char)
  | headerEnd (isArray : Bool) (text : List Char)
  | value (key text : List Char) (depth : Nat)
deriving DecidableEq, Repr

-- `quote` is the quote of the string that is open, and `escaped` says that the next character of
-- it is escaped.
structure Scan where
  phase : Phase
  quote : Option Char
  escaped : Bool
  comment : Bool
  lines : List Line
deriving DecidableEq, Repr

namespace Scan

def empty : Scan :=
  ⟨.start, none, false, false, []⟩

def isQuote (c : Char) : Bool :=
  c == '\x22' || c == '\x27'

def isKeyChar (c : Char) : Bool :=
  c.isAlphanum || c == '_' || c == '-' || c == '.' || decide (0x80 ≤ c.toNat)

-- The end of the text or of a line. Only an array goes on over it.
def finish (s : Scan) : Option Scan :=
  match s.quote, s.phase with
  | none, .start => some { s with comment := false }
  | none, .headerEnd isArray text =>
    some { s with phase := .start, comment := false, lines := .header isArray text.reverse :: s.lines }
  | none, .value key text _ =>
    some { s with phase := .start, comment := false, lines := .pair key.reverse text.reverse :: s.lines }
  | _, _ => none

def newline (s : Scan) : Option Scan :=
  match s.quote, s.phase with
  | none, .value key text (depth + 1) =>
    some { s with phase := .value key (' ' :: text) (depth + 1), comment := false }
  | _, _ => s.finish

-- One character of an open string.
def quoted (s : Scan) (quote c : Char) (phase : Phase) : Scan :=
  if s.escaped then { s with phase := phase, escaped := false }
  else if c = quote then { s with phase := phase, quote := none }
  else { s with phase := phase, escaped := c == '\\' && quote == '\x22' }

def push (c : Char) : Phase → Phase
  | .start => .start
  | .key text => .key (c :: text)
  | .keyEnd text => .keyEnd (c :: text)
  | .header isArray text => .header isArray (c :: text)
  | .headerEnd isArray text => .headerEnd isArray text
  | .value key text depth => .value key (c :: text) depth

-- One character outside strings and comments.
def plain (s : Scan) (c : Char) : Option Scan :=
  match s.phase with
  | .start =>
    if c = ' ' ∨ c = '\t' then some s
    else if c = '#' then some { s with comment := true }
    else if c = '[' then some { s with phase := .header false [] }
    else if c = '=' then none
    else some { s with phase := .key [c], quote := if isQuote c then some c else none }
  | .key text =>
    if c = '=' then some { s with phase := .value text [] 0 }
    else if Text.isBlank c then some { s with phase := .keyEnd text }
    else if isKeyChar c then some { s with phase := .key (c :: text) }
    else none
  | .keyEnd text =>
    if c = '=' then some { s with phase := .value text [] 0 }
    else if Text.isBlank c then some s
    else none
  | .header isArray text =>
    if c = '[' ∧ text = [] ∧ !isArray then some { s with phase := .header true [] }
    else if c = ']' then
      if isArray then
        match text with
        | ']' :: rest => some { s with phase := .headerEnd true rest }
        | _ => some { s with phase := .header true (c :: text) }
      else some { s with phase := .headerEnd false text }
    else some { s with
      phase := .header isArray (c :: text), quote := if isQuote c then some c else none }
  | .headerEnd _ _ =>
    if c = '#' then some { s with comment := true }
    else if Text.isBlank c then some s
    else none
  | .value key text depth =>
    if c = '#' then some { s with comment := true }
    else if c = '[' then some { s with phase := .value key (c :: text) (depth + 1) }
    else if c = ']' then
      match depth with
      | 0 => none
      | depth + 1 => some { s with phase := .value key (c :: text) depth }
    else some { s with
      phase := .value key (c :: text) depth, quote := if isQuote c then some c else none }

def step (s : Scan) (c : Char) : Option Scan :=
  if c = '\n' then s.newline
  else if s.comment then some s
  else
    match s.quote with
    | some quote => some (s.quoted quote c (push c s.phase))
    | none => s.plain c

end Scan

-- The statements of a document; `none` if one of them cannot be told from the next.
def scanLines (text : List Char) : Option (List Line) :=
  ((text.foldlM Scan.step Scan.empty).bind Scan.finish).map (·.lines.reverse)

end PropFlow.Toml
