import PropFlow.FileTree.RealPath
import PropFlow.Text.Casing

namespace PropFlow.Discovery

def sourceSuffixes : List String :=
  [".js", ".jsx", ".ts", ".tsx"]

-- Dependencies, version control, build output and media.
def excludedNames : List String :=
  ["node_modules", ".git", ".next", "out", "build", "dist", "media"]

def isSource (path : Path) : Bool :=
  Text.lower path.suffix ∈ sourceSuffixes

-- A directory, or an entry of one, that could not be looked at.
structure Refusal where
  path : Path
  error : FileError
deriving DecidableEq, Repr

def Refusal.message (r : Refusal) : String :=
  r.error.message r.path

structure Found where
  files : List Path
  refusals : List Refusal
deriving DecidableEq, Repr

namespace Found

def nothing : Found :=
  ⟨[], []⟩

def concat (founds : List Found) : Found :=
  ⟨founds.flatMap (·.files), founds.flatMap (·.refusals)⟩

-- What is found in the entries of a directory, in the order of their names.
def inOrder (founds : List (String × Found)) : Found :=
  concat ((founds.mergeSort fun a b => decide (a.1 ≤ b.1)).map (·.2))

end Found

-- What a file counts for.
def ofFile (path : Path) : Found :=
  if isSource path then ⟨[path], []⟩ else .nothing

-- What an entry of the directory at `here` counts for, by what a look-up of it ends at. A directory
-- is gone through by `inside` unless its name is excluded; anything else is a file, and so is a link
-- that leads nowhere.
def ofEntry (top : Entry) (budget : Nat) (here : List String) (path : Path)
    (inside : Entry.Place → Found) : Found :=
  if Entry.pathLimit < path.text.utf8ByteSize then ⟨[], [⟨path, .nameTooLong⟩]⟩
  else
    match top.follow budget here [path.name] with
    | .ok place =>
      if place.entry.sortDir then if path.name ∈ excludedNames then .nothing else inside place
      else ofFile path
    | .error e => if e.meansAbsent then ofFile path else ⟨[], [⟨path, e⟩]⟩

mutual
-- Goes through the directory that is shown as `path` and is at `here`. `jump` goes through one that a
-- link in it leads to.
def scan (top : Entry) (budget : Nat) (jump : Path → Entry.Place → Found) (path : Path)
    (here : List String) : Entry → Found
  | .dir access entries =>
    if access.listable then .inOrder (scanAll top budget jump path here entries)
    else ⟨[], [⟨path, .notPermitted⟩]⟩
  | _ => .nothing

def scanAll (top : Entry) (budget : Nat) (jump : Path → Entry.Place → Found) (path : Path)
    (here : List String) : List (String × Entry) → List (String × Found)
  | [] => []
  | (name, .file _) :: rest =>
    (name, ofEntry top budget here (path.child name) (jump (path.child name)))
      :: scanAll top budget jump path here rest
  | (name, .link _) :: rest =>
    (name, ofEntry top budget here (path.child name) (jump (path.child name)))
      :: scanAll top budget jump path here rest
  | (name, .dir access entries) :: rest =>
    (name, ofEntry top budget here (path.child name) fun _ =>
      scan top budget jump (path.child name) (here ++ [name]) (.dir access entries))
      :: scanAll top budget jump path here rest
end

-- Goes through a directory and through those that links lead to, as long as the links on the way
-- are not too many.
def scanWithin (top : Entry) : Nat → Path → Entry.Place → Found
  | 0, path, place => scan top place.budget (fun _ _ => .nothing) path place.names place.entry
  | jumps + 1, path, place => scan top place.budget (scanWithin top jumps) path place.names place.entry

-- What is found at a real path: the source files in a directory, or the file itself, whatever it is
-- called.
def findAt (disk : Disk) (root : String) (real : Path) : Except Failure Found :=
  match disk.stat real with
  | .ok place =>
    if place.entry.sortDir then .ok (scanWithin disk.top Entry.linkLimit real place) else .ok ⟨[real], []⟩
  | .error e => if e.meansAbsent then .error (.missing root) else .error (.file e real)

-- The source files under a root.
def find (disk : Disk) (root : String) : Except Failure Found :=
  match disk.expand? (Path.ofString root) with
  | none => .error .homeless
  | some path =>
    match disk.realPath path with
    | .error l => .error (.loop l)
    | .ok real => findAt disk root real

end PropFlow.Discovery
