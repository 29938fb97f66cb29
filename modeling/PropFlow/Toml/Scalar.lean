import PropFlow.Text.Integer
import PropFlow.Value.Basic

namespace PropFlow.Toml

def hexValue? (c : Char) : Option Nat :=
  if '0' ≤ c ∧ c ≤ '9' then some (c.toNat - '0'.toNat)
  else if 'a' ≤ c ∧ c ≤ 'f' then some (c.toNat - 'a'.toNat + 10)
  else if 'A' ≤ c ∧ c ≤ 'F' then some (c.toNat - 'A'.toNat + 10)
  else none

-- The character of a code in hexadecimal digits; half of a pair is none.
def charOfHex? (digits : List Char) : Option Char := do
  let code ← digits.foldlM (fun code c => (code * 16 + ·) <$> hexValue? c) 0
  if h : code.isValidChar then some (Char.ofNatAux code h) else none

def escapes : List (Char × Char) :=
  [('0', '\x00'), ('b', '\x08'), ('f', '\x0c'), ('n', '\n'), ('r', '\r'), ('t', '\t'),
    ('\x22', '\x22'), ('\\', '\\')]

-- The text that a basic string stands for; a quote in it has to be escaped.
def unescape : List Char → Option (List Char)
  | [] => some []
  | '\\' :: 'u' :: a :: b :: c :: d :: rest => do
    return (← charOfHex? [a, b, c, d]) :: (← unescape rest)
  | '\\' :: 'U' :: a :: b :: c :: d :: e :: f :: g :: h :: rest => do
    return (← charOfHex? [a, b, c, d, e, f, g, h]) :: (← unescape rest)
  | '\\' :: c :: rest => do
    return (← escapes.lookup c) :: (← unescape rest)
  | c :: rest => do
    guard (c ≠ '\\' ∧ c ≠ '\x22')
    return c :: (← unescape rest)

-- A string in double quotes with escapes, or in single quotes without.
def readString? : List Char → Option (List Char)
  | '\x22' :: rest => if rest.getLast? = some '\x22' then unescape rest.dropLast else none
  | '\x27' :: rest =>
    if rest.getLast? = some '\x27' ∧ '\x27' ∉ rest.dropLast then some rest.dropLast else none
  | _ => none

-- Digits with single underscores between them; no zero stands in front of others.
def readNatural? (cs : List Char) : Option Nat := do
  let digits ← Text.ungroup? cs
  guard (digits.all fun c => (Text.digitValue? c).isSome)
  guard (digits.length ≤ Text.digitLimit)
  guard (digits.head? ≠ some '0' ∨ digits.length = 1)
  return Text.decimalValue digits

def readInteger? : List Char → Option Int
  | '-' :: rest => (readNatural? rest).map fun n => -(n : Int)
  | '+' :: rest => (readNatural? rest).map Int.ofNat
  | cs => (readNatural? cs).map Int.ofNat

def isDigits (cs : List Char) : Bool :=
  !cs.isEmpty && cs.all Char.isDigit

-- Digits before and after a point, which are shown without zeros that do not count. Only numbers with
-- few digits are read: these are shown as they are written.
def readFraction? (cs : List Char) : Option Scalar := do
  let (isNegative, digits) := match cs with
    | '-' :: rest => (true, rest)
    | '+' :: rest => (false, rest)
    | _ => (false, cs)
  match digits.splitOn '.' with
  | [whole, part] =>
    guard (isDigits whole && isDigits part)
    let whole := whole.dropWhile (· = '0')
    let part := (part.reverse.dropWhile (· = '0')).reverse
    let isZero := whole.isEmpty && part.isEmpty
    guard (whole.length + part.length ≤ 15)
    guard (!whole.isEmpty || (part.takeWhile (· = '0')).length < 4)
    let sign := if isNegative && !isZero then "-" else ""
    let text := sign ++ (if whole.isEmpty then "0" else String.ofList whole) ++ "."
      ++ (if part.isEmpty then "0" else String.ofList part)
    let number : Int := Text.decimalValue whole
    return ⟨"float", !isZero, text, text, text, some (if isNegative then -number else number)⟩
  | _ => none

def daysIn (year month : Nat) : Nat :=
  if month = 2 then if year % 4 = 0 ∧ (year % 100 ≠ 0 ∨ year % 400 = 0) then 29 else 28
  else if month ∈ [4, 6, 9, 11] then 30
  else 31

-- A day of the calendar.
def readDate? (cs : List Char) : Option Scalar :=
  match cs.splitOn '-' with
  | [year, month, day] => do
    guard (year.length = 4 ∧ month.length = 2 ∧ day.length = 2)
    guard (isDigits year && isDigits month && isDigits day)
    let y := Text.decimalValue year
    let m := Text.decimalValue month
    let d := Text.decimalValue day
    guard (1 ≤ y ∧ 1 ≤ m ∧ m ≤ 12 ∧ 1 ≤ d ∧ d ≤ daysIn y m)
    let shown := "datetime.date(" ++ toString y ++ ", " ++ toString m ++ ", " ++ toString d ++ ")"
    return ⟨"datetime.date", true, shown, String.ofList cs, String.ofList cs, none⟩
  | _ => none

end PropFlow.Toml
