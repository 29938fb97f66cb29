import PropFlow.Text.Blank
import PropFlow.Text.Digit
import PropFlow.Text.Quoted

namespace PropFlow.Text

-- The longest integer, in digits, that is read from a text.
def digitLimit : Nat := 4300

inductive IntegerError where
  | malformed (text : String)
  | tooManyDigits (count : Nat)
deriving DecidableEq, Repr

def IntegerError.message : IntegerError → String
  | .malformed text =>
    "invalid literal for int() with base 10: " ++ String.ofList ((quoted text).toList.take 200)
  | .tooManyDigits count =>
    "Exceeds the limit (" ++ toString digitLimit ++ " digits) for integer string conversion: value has "
      ++ toString count ++ " digits; use sys.set_int_max_str_digits() to increase the limit"

-- The white space that may surround an integer: all of it but the four separator controls.
def isMargin (c : Char) : Bool :=
  isBlank c && !inRanges [(0x1C, 0x1F)] c.toNat

def isDigitOrJoint (c : Char) : Bool :=
  (digitValue? c).isSome || c == '_'

def decimalValue (digits : List Char) : Nat :=
  digits.foldl (fun value c => value * 10 + (digitValue? c).getD 0) 0

-- What stands between single underscores; none at either end, nor two together.
def ungroup? (cs : List Char) : Option (List Char) :=
  let groups := cs.splitOn '_'
  if [] ∈ groups then none else some groups.flatten

-- Digits with single underscores between them, and nothing but margin after them.
def readDigits (cs : List Char) : Except (Option Nat) Nat :=
  match ungroup? (cs.takeWhile isDigitOrJoint) with
  | none => .error none
  | some digits =>
    if digitLimit < digits.length then .error (some digits.length)
    else if ((cs.dropWhile isDigitOrJoint).dropWhile isMargin).isEmpty then .ok (decimalValue digits)
    else .error none

-- An integer in decimal digits of any script, with at most one sign.
def readInteger (text : String) : Except IntegerError Int :=
  let result :=
    match text.toList.dropWhile isMargin with
    | '+' :: rest => (readDigits rest).map Int.ofNat
    | '-' :: rest => (readDigits rest).map fun n => -(n : Int)
    | rest => (readDigits rest).map Int.ofNat
  match result with
  | .ok value => .ok value
  | .error none => .error (.malformed text)
  | .error (some count) => .error (.tooManyDigits count)

end PropFlow.Text
