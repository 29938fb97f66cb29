namespace PropFlow

-- Where a path starts: at the working directory, at the root, or at the root written with two
-- slashes.
inductive Anchor where
  | relative
  | root
  | doubleRoot
deriving DecidableEq, Repr, Inhabited

def Anchor.text : Anchor → String
  | .relative => ""
  | .root => "/"
  | .doubleRoot => "//"

def Anchor.ofChars : List Char → Anchor
  | '/' :: '/' :: '/' :: _ => .root
  | '/' :: '/' :: _ => .doubleRoot
  | '/' :: _ => .root
  | _ => .relative

-- A path as a list of names. `..` may occur among them, `.` and the empty name do not.
structure Path where
  anchor : Anchor
  parts : List String
deriving DecidableEq, Repr, Inhabited

namespace Path

-- What stands between the slashes of a text.
def segments (text : String) : List String :=
  (text.toList.splitOn '/').map String.ofList

def ofString (text : String) : Path where
  anchor := Anchor.ofChars text.toList
  parts := (segments text).filter fun s => s != "" && s != "."

def text (p : Path) : String :=
  match p.anchor, p.parts with
  | .relative, [] => "."
  | anchor, parts => anchor.text ++ "/".intercalate parts

def absolute (parts : List String) : Path :=
  ⟨.root, parts⟩

def isAbsolute (p : Path) : Bool :=
  p.anchor != .relative

def name (p : Path) : String :=
  p.parts.getLast?.getD ""

def parent (p : Path) : Path :=
  { p with parts := p.parts.dropLast }

-- A path seen from a directory.
def join (p q : Path) : Path :=
  if q.isAbsolute then q else { p with parts := p.parts ++ q.parts }

def child (p : Path) (name : String) : Path :=
  { p with parts := p.parts ++ [name] }

-- The path with a text appended to its last name.
def withEnding (p : Path) (ending : String) : Path :=
  p.parent.child (p.name ++ ending)

-- The end of a name from its last dot on; none if that dot is the first or the last character.
def suffixOf (name : String) : String :=
  let reversed := name.toList.reverse
  let ending := reversed.takeWhile (· ≠ '.')
  let stem := (reversed.dropWhile (· ≠ '.')).drop 1
  if ending.isEmpty || stem.isEmpty then "" else String.ofList ('.' :: ending.reverse)

def suffix (p : Path) : String :=
  suffixOf p.name

-- One step of lexical normalisation; `kept` is what has been kept, last name first. A step up
-- takes the last name back, except that it is kept itself where there is nothing to take back and
-- the path does not start at the root.
def pushPart (atRoot : Bool) (kept : List String) (part : String) : List String :=
  if part = ".." then
    match kept with
    | [] => if atRoot then [] else [part]
    | last :: rest => if last = ".." then part :: kept else rest
  else
    part :: kept

-- The path without steps up, as far as that goes without asking what is a link.
def normalize (p : Path) : Path :=
  { p with parts := (p.parts.foldl (pushPart p.isAbsolute) []).reverse }

end Path

end PropFlow
