import PropFlow.Path
import PropFlow.Syntax.Node
import PropFlow.Text.Casing
import PropFlow.Text.Utf8

namespace PropFlow

open Syntax

inductive Language where
  | javascript
  | typescript
  | tsx
deriving DecidableEq, Repr, Inhabited

def Language.name : Language → String
  | javascript => "javascript"
  | typescript => "typescript"
  | tsx => "tsx"

def Language.ofName? : String → Option Language
  | "javascript" => some .javascript
  | "typescript" => some .typescript
  | "tsx" => some .tsx
  | _ => none

-- The language of a file, by the end of its name in small letters.
def Language.ofSuffix? : String → Option Language
  | ".js" => some .javascript
  | ".jsx" => some .javascript
  | ".mjs" => some .javascript
  | ".cjs" => some .javascript
  | ".ts" => some .typescript
  | ".tsx" => some .tsx
  | _ => none

-- The trees that the languages' grammars build from a text. A grammar builds a tree from every
-- text, and marks in it what it could not make sense of.
abbrev Grammar := Language → String → Node

-- Line and column of a byte, both from one on.
structure Position where
  line : Nat
  column : Nat
deriving DecidableEq, Repr

def Position.ofOffset (source : String) (offset : Nat) : Position :=
  let before := (Text.Utf8.encode source).take offset
  { line := before.count 10 + 1
    column := (before.reverse.takeWhile (· ≠ 10)).length + 1 }

inductive ParseError where
  | unreadable (why : String)
  | unsupported (suffix : String)
  | unexpected (position : Position)
  | missing (kind : String) (position : Position)
  | unlocated
deriving DecidableEq, Repr

def ParseError.message : ParseError → String
  | unreadable why => "could not read file: " ++ why
  | unsupported suffix => "unsupported file extension '" ++ suffix ++ "'"
  | unexpected position =>
    "Syntax error at line " ++ toString position.line ++ ", column " ++ toString position.column
  | missing kind position =>
    "Syntax error at line " ++ toString position.line ++ ", column " ++ toString position.column
      ++ ": missing '" ++ kind ++ "'"
  | unlocated => "Syntax error"

namespace Syntax.Node

-- A node for what a grammar could not make sense of, or one that it had to insert.
def isFault (n : Node) : Bool :=
  n.kind == "ERROR" || n.missing

-- The children that are marked as holding an error, or had to be inserted.
def suspects (n : Node) : List Node :=
  n.children.filter fun child => child.hasError || child.missing

theorem sizeAll_suspects_lt (n : Node) : sizeAll n.suspects < n.size := by
  have hfilter := sizeAll_filter_le (fun child => child.hasError || child.missing) n.children
  rw [size_eq, suspects]
  omega

-- The first fault, parents before children, with a list of nodes still to be seen.
def searchFault? : List Node → Option Node
  | [] => none
  | n :: pending => if n.isFault then some n else searchFault? (n.suspects ++ pending)
termination_by pending => sizeAll pending
decreasing_by
  have := sizeAll_suspects_lt n
  simp only [sizeAll_append, sizeAll]
  omega

def firstFault? (n : Node) : Option Node :=
  searchFault? [n]

end Syntax.Node

def ParseError.ofTree (source : String) (root : Node) : ParseError :=
  match root.firstFault? with
  | none => unlocated
  | some n =>
    if n.missing then missing n.kind (Position.ofOffset source n.start)
    else unexpected (Position.ofOffset source n.start)

-- A source file with its tree.
structure Module where
  path : Path
  language : Language
  source : String
  root : Node
deriving Inhabited, Repr

namespace Module

-- A language that is tried when a text has errors in its own: types may be annotated in every
-- file.
def fallback? : Language → Option Language
  | .javascript => some .tsx
  | _ => none

def parse (grammar : Grammar) (path : Path) (source : String) : Except ParseError Module :=
  match Language.ofSuffix? (Text.lower path.suffix) with
  | none => .error (.unsupported path.suffix)
  | some language =>
    let own := grammar language source
    if own.hasError then
      match fallback? language with
      | none => .error (.ofTree source own)
      | some other =>
        let retry := grammar other source
        if retry.hasError then .error (.ofTree source own) else .ok ⟨path, other, source, retry⟩
    else
      .ok ⟨path, language, source, own⟩

end Module

end PropFlow
