import PropFlow.Path

namespace PropFlow.Path

inductive LocationError where
  | mixed
  | empty
deriving DecidableEq, Repr

def LocationError.message : LocationError → String
  | mixed => "Can't mix absolute and relative paths"
  | empty => "no path specified"

-- What stands before the last slash of a text. Slashes at its end are dropped, unless there is
-- nothing else.
def directory (file : String) : String :=
  let head := (file.toList.reverse.dropWhile (· ≠ '/')).reverse
  let stripped := (head.reverse.dropWhile (· = '/')).reverse
  String.ofList (if stripped.isEmpty then head else stripped)

def startsAtRoot (text : String) : Bool :=
  text.toList.head? == some '/'

def sharedStart : List String → List String → List String
  | a :: as, b :: bs => if a = b then a :: sharedStart as bs else []
  | _, _ => []

-- The longest list of names that all lists start with.
def commonParts : List (List String) → List String
  | [] => []
  | parts :: rest => rest.foldl sharedStart parts

-- The deepest directory that holds all of some directories.
def common (directories : List String) : Except LocationError Path :=
  let paths := directories.map fun d => (Path.ofString d).parts
  if directories.all startsAtRoot then .ok ⟨.root, commonParts paths⟩
  else if directories.any startsAtRoot then .error .mixed
  else .ok ⟨.relative, commonParts paths⟩

-- The names that lead to a path from the root, steps up carried out. A relative path is taken from
-- the working directory.
def settled (cwd : List String) (text : String) : List String :=
  let path := Path.ofString text
  (Path.absolute (if path.isAbsolute then path.parts else cwd ++ path.parts)).normalize.parts

-- How a file is reached from a directory.
def relativeTo (cwd : List String) (base : Path) (file : String) : Except LocationError String :=
  if file = "" then .error .empty
  else
    let start := settled cwd base.text
    let goal := settled cwd file
    let shared := (sharedStart start goal).length
    .ok (Path.text ⟨.relative,
      List.replicate (start.length - shared) ".." ++ goal.drop shared⟩)

end PropFlow.Path
