namespace PropFlow.Text.Utf8

inductive Cause where
  | invalidStart
  | invalidContinuation
  | unexpectedEnd
deriving DecidableEq, Repr

def Cause.message : Cause → String
  | .invalidStart => "invalid start byte"
  | .invalidContinuation => "invalid continuation byte"
  | .unexpectedEnd => "unexpected end of data"

-- What stands at `position` and the `count - 1` bytes after it begins no character. `lead` is the
-- first of these bytes.
structure Malformed where
  position : Nat
  count : Nat
  lead : UInt8
  cause : Cause
deriving DecidableEq, Repr

def hexDigits (width code : Nat) : String :=
  let digits := Nat.toDigits 16 code
  String.ofList (List.replicate (width - digits.length) '0' ++ digits)

def Malformed.message (fault : Malformed) : String :=
  let place :=
    if fault.count = 1 then
      "byte 0x" ++ hexDigits 2 fault.lead.toNat ++ " in position " ++ toString fault.position
    else
      "bytes in position " ++ toString fault.position ++ "-"
        ++ toString (fault.position + fault.count - 1)
  "'utf-8' codec can't decode " ++ place ++ ": " ++ fault.cause.message

def tail : Nat × Nat :=
  (0x80, 0xBF)

-- The ranges that the bytes after a first byte have to lie in; `none` if no character starts so.
-- The narrower second ranges shut out overlong forms, surrogates and what lies above U+10FFFF.
def continuations (lead : Nat) : Option (List (Nat × Nat)) :=
  if lead < 0x80 then some []
  else if lead < 0xC2 then none
  else if lead < 0xE0 then some [tail]
  else if lead = 0xE0 then some [(0xA0, 0xBF), tail]
  else if lead = 0xED then some [(0x80, 0x9F), tail]
  else if lead < 0xF0 then some [tail, tail]
  else if lead = 0xF0 then some [(0x90, 0xBF), tail, tail]
  else if lead < 0xF4 then some [tail, tail, tail]
  else if lead = 0xF4 then some [(0x80, 0x8F), tail, tail]
  else none

-- The bits of a first byte that belong to the code point.
def leadBits (lead : Nat) : Nat :=
  if lead < 0x80 then lead
  else if lead < 0xE0 then lead % 32
  else if lead < 0xF0 then lead % 16
  else lead % 8

-- A character of which some bytes have been read: its first byte and where that stood, the bits
-- so far, how many bytes they are, and the ranges of those still to come.
structure Unfinished where
  lead : UInt8
  position : Nat
  bits : Nat
  count : Nat
  range : Nat × Nat
  more : List (Nat × Nat)

def Unfinished.malformed (p : Unfinished) (cause : Cause) : Malformed :=
  ⟨p.position, p.count, p.lead, cause⟩

-- `done` holds the characters read, last first.
def decodeFrom (done : List Char) (position : Nat) (state : Option Unfinished) :
    List UInt8 → Except Malformed (List Char)
  | [] =>
    match state with
    | none => .ok done.reverse
    | some p => .error (p.malformed .unexpectedEnd)
  | byte :: rest =>
    match state with
    | none =>
      match continuations byte.toNat with
      | none => .error ⟨position, 1, byte, .invalidStart⟩
      | some [] => decodeFrom (Char.ofNat byte.toNat :: done) (position + 1) none rest
      | some (range :: more) =>
        decodeFrom done (position + 1) (some ⟨byte, position, leadBits byte.toNat, 1, range, more⟩) rest
    | some p =>
      if p.range.1 ≤ byte.toNat ∧ byte.toNat ≤ p.range.2 then
        let bits := p.bits * 64 + byte.toNat % 64
        match p.more with
        | [] => decodeFrom (Char.ofNat bits :: done) (position + 1) none rest
        | range :: more =>
          decodeFrom done (position + 1)
            (some { p with bits := bits, count := p.count + 1, range := range, more := more }) rest
      else
        .error (p.malformed .invalidContinuation)

def decode (bytes : List UInt8) : Except Malformed String :=
  (decodeFrom [] 0 none bytes).map String.ofList

def encode (text : String) : List UInt8 :=
  text.toUTF8.data.toList

end PropFlow.Text.Utf8
