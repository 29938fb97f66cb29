import PropFlow.FileTree.Basic

namespace PropFlow

namespace Entry

-- Where a path leads: the names of the place it is, what is there, and how many links could still
-- have been followed.
structure Place where
  names : List String
  entry : Entry
  budget : Nat
deriving Inhabited, Repr

-- The names that a link's target goes through, and where it starts.
def targetNames (target : String) : List String :=
  Path.segments target

def targetStart (here : List String) (target : String) : List String :=
  match target.toList with
  | '/' :: _ => []
  | _ => here

-- Goes from a place through a list of names. `jump` goes on behind a link.
def descend (top : Entry) (budget : Nat)
    (jump : List String → List String → Except FileError Place) (here : List String) :
    List String → Except FileError Place
  | [] =>
    match top.search? here with
    | some entry => .ok ⟨here, entry, budget⟩
    | none => .error .notFound
  | name :: rest =>
    match top.search? here with
    | none => .error .notFound
    | some (.dir access entries) =>
      if name = "" then descend top budget jump here rest
      else if access.searchable = false then .error .notPermitted
      else if name = "." then descend top budget jump here rest
      else if name = ".." then descend top budget jump here.dropLast rest
      else if nameLimit < name.utf8ByteSize then .error .nameTooLong
      else
        match entries.lookup name with
        | none => .error .notFound
        | some (.link target) => jump (targetStart here target) (targetNames target ++ rest)
        | some _ => descend top budget jump (here ++ [name]) rest
    | some _ => .error .notDirectory

-- Goes from a place through a list of names and follows at most so many links.
def follow (top : Entry) : Nat → List String → List String → Except FileError Place
  | 0 => descend top 0 fun _ _ => .error .tooManyLinks
  | budget + 1 => descend top (budget + 1) (follow top budget)

-- Whether a path leads to something of a sort. Where there is nothing the answer is no; other
-- errors remain.
def test (sort : Entry → Bool) : Except FileError Place → Except FileError Bool
  | .ok place => .ok (sort place.entry)
  | .error e => if e.meansAbsent then .ok false else .error e

def sortFile : Entry → Bool
  | .file _ => true
  | _ => false

def sortDir : Entry → Bool
  | .dir _ _ => true
  | _ => false

-- The place where a file is written: behind links, and where there is a directory to hold it.
def creationPlace (top : Entry) : Nat → List String → List String → Except FileError (List String)
  | 0, _, _ => .error .tooManyLinks
  | links + 1, here, names =>
    match names.getLast? with
    | none => .error .isDirectory
    | some name =>
      match top.follow linkLimit here names.dropLast with
      | .error e => .error e
      | .ok ⟨folder, .dir access entries, _⟩ =>
        if name = "" then .error .isDirectory
        else if access.searchable = false then .error .notPermitted
        else if name = "." ∨ name = ".." then .error .isDirectory
        else if nameLimit < name.utf8ByteSize then .error .nameTooLong
        else
          match entries.lookup name with
          | some (.dir _ _) => .error .isDirectory
          | some (.file none) => .error .notPermitted
          | some (.link target) => creationPlace top links (targetStart folder target) (targetNames target)
          | _ => .ok (folder ++ [name])
      | .ok _ => .error .notDirectory

end Entry

-- A tree of files with the directory that relative paths start from, which is reached from the root
-- by its names, and with the home directories of users; whoever asks has the empty name.
structure Disk where
  top : Entry
  cwd : List String
  homes : List (String × String)
deriving Inhabited, Repr

namespace Disk

-- The names of a path from the root on.
def names (disk : Disk) (path : Path) : List String :=
  if path.isAbsolute then path.parts else disk.cwd ++ path.parts

-- What a path leads to.
def stat (disk : Disk) (path : Path) : Except FileError Entry.Place :=
  if Entry.pathLimit < path.text.utf8ByteSize then .error .nameTooLong
  else disk.top.follow Entry.linkLimit [] (disk.names path)

-- Whether a path leads to a file. What is asked may come from the text of a module and hold a null
-- character, which no name does.
def isFile (disk : Disk) (path : Path) : Except FileError Bool :=
  if '\x00' ∈ path.text.toList then .ok false else Entry.test Entry.sortFile (disk.stat path)

def isDir (disk : Disk) (path : Path) : Except FileError Bool :=
  Entry.test Entry.sortDir (disk.stat path)

def isPresent (disk : Disk) (path : Path) : Except FileError Bool :=
  Entry.test (fun _ => true) (disk.stat path)

def read (disk : Disk) (path : Path) : Except FileError (List UInt8) :=
  match disk.stat path with
  | .ok ⟨_, .file (some bytes), _⟩ => .ok bytes
  | .ok ⟨_, .file none, _⟩ => .error .notPermitted
  | .ok _ => .error .isDirectory
  | .error e => .error e

def write (disk : Disk) (path : Path) (bytes : List UInt8) : Except FileError Disk :=
  if Entry.pathLimit < path.text.utf8ByteSize then .error .nameTooLong
  else
    (disk.top.creationPlace (Entry.linkLimit + 1) [] (disk.names path)).map fun place =>
      { disk with top := disk.top.put (.file bytes) place }

-- Makes one directory, where nothing has its name yet; a link would have.
def makeOne (disk : Disk) (path : Path) : Except FileError Disk :=
  if Entry.pathLimit < path.text.utf8ByteSize then .error .nameTooLong
  else
    match (disk.names path).getLast? with
    | none => .error .alreadyThere
    | some name =>
      match disk.top.follow Entry.linkLimit [] (disk.names path).dropLast with
      | .error e => .error e
      | .ok ⟨folder, .dir access entries, _⟩ =>
        if access.searchable = false then .error .notPermitted
        else if name ∈ ["", ".", ".."] then .error .alreadyThere
        else if Entry.nameLimit < name.utf8ByteSize then .error .nameTooLong
        else
          match entries.lookup name with
          | some _ => .error .alreadyThere
          | none => .ok { disk with top := disk.top.put .emptyDir (folder ++ [name]) }
      | .ok _ => .error .notDirectory

-- An error does not matter if there is a directory all the same.
def unlessDir (disk : Disk) (path : Path) (e : FileError) : Except (FileError × Path) Disk :=
  match disk.isDir path with
  | .ok true => .ok disk
  | .ok false => .error (e, path)
  | .error e' => .error (e', path)

-- Makes a directory, and also those above it up to so many, unless they are there.
def makeDirWithin (disk : Disk) : Nat → Path → Except (FileError × Path) Disk
  | 0, path =>
    match disk.makeOne path with
    | .ok made => .ok made
    | .error e => if e = .notFound then .error (e, path) else disk.unlessDir path e
  | above + 1, path =>
    match disk.makeOne path with
    | .ok made => .ok made
    | .error e =>
      if e = .notFound then
        (disk.makeDirWithin above path.parent).bind fun made => made.makeDirWithin 0 path
      else disk.unlessDir path e

def makeDir (disk : Disk) (path : Path) : Except (FileError × Path) Disk :=
  disk.makeDirWithin path.parts.length path

end Disk

end PropFlow
