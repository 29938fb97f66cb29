import PropFlow.Path
import PropFlow.Text.Quoted

namespace PropFlow

-- What a directory is open to: its entries can be asked for if it is listable, and be looked up by
-- their names if it is searchable.
structure Access where
  listable : Bool
  searchable : Bool
deriving DecidableEq, Inhabited, Repr

namespace Access

def full : Access :=
  ⟨true, true⟩

def unlisted : Access :=
  ⟨false, true⟩

end Access

-- A file, a symbolic link, or a directory with its entries. A file without bytes may neither be read
-- nor written.
inductive Entry where
  | file (bytes : Option (List UInt8))
  | link (target : String)
  | dir (access : Access) (entries : List (String × Entry))
deriving Inhabited, Repr

inductive FileError where
  | notFound
  | notPermitted
  | alreadyThere
  | notDirectory
  | isDirectory
  | nameTooLong
  | tooManyLinks
deriving DecidableEq, Repr

namespace FileError

def number : FileError → Nat
  | notFound => 2
  | notPermitted => 13
  | alreadyThere => 17
  | notDirectory => 20
  | isDirectory => 21
  | nameTooLong => 36
  | tooManyLinks => 40

def text : FileError → String
  | notFound => "No such file or directory"
  | notPermitted => "Permission denied"
  | alreadyThere => "File exists"
  | notDirectory => "Not a directory"
  | isDirectory => "Is a directory"
  | nameTooLong => "File name too long"
  | tooManyLinks => "Too many levels of symbolic links"

-- Whether a look-up that ends so says that there is nothing.
def meansAbsent : FileError → Bool
  | notFound => true
  | notDirectory => true
  | tooManyLinks => true
  | _ => false

-- The error as it is reported of a path.
def message (e : FileError) (path : Path) : String :=
  "[Errno " ++ toString e.number ++ "] " ++ e.text ++ ": " ++ Text.quoted path.text

end FileError

namespace Entry

-- The longest name, in bytes, that a directory can hold, and the longest path that is looked up.
def nameLimit : Nat := 255

def pathLimit : Nat := 4095

-- How many links one look-up follows.
def linkLimit : Nat := 40

def emptyDir : Entry :=
  .dir .full []

-- The entry at a place given by names alone; links are not followed.
def get? : Entry → List String → Option Entry
  | entry, [] => some entry
  | .dir _ entries, name :: rest =>
    match entries.lookup name with
    | some entry => entry.get? rest
    | none => none
  | _, _ :: _ => none

-- The same for someone who looks the names up one after the other, which takes directories that are
-- searchable.
def search? : Entry → List String → Option Entry
  | entry, [] => some entry
  | .dir access entries, name :: rest =>
    if access.searchable then
      match entries.lookup name with
      | some entry => entry.search? rest
      | none => none
    else none
  | _, _ :: _ => none

def putEntry (name : String) (entry : Entry) : List (String × Entry) → List (String × Entry)
  | [] => [(name, entry)]
  | (other, old) :: rest =>
    if other = name then (name, entry) :: rest else (other, old) :: putEntry name entry rest

-- Puts an entry at a place; directories on the way are made where there are none.
def put (top new : Entry) : List String → Entry
  | [] => new
  | name :: rest =>
    match top with
    | .dir access entries =>
      .dir access (putEntry name (put ((entries.lookup name).getD emptyDir) new rest) entries)
    | _ => .dir .full [(name, put emptyDir new rest)]

-- Gives the directory at a place another access.
def restrict (top : Entry) (access : Access) (names : List String) : Entry :=
  match top.get? names with
  | some (.dir _ entries) => top.put (.dir access entries) names
  | _ => top

mutual
-- How many links there are in a tree.
def linkCount : Entry → Nat
  | .file _ => 0
  | .link _ => 1
  | .dir _ entries => linkCountAll entries

def linkCountAll : List (String × Entry) → Nat
  | [] => 0
  | (_, entry) :: rest => linkCount entry + linkCountAll rest
end

mutual
-- How many files there are in a tree.
def fileCount : Entry → Nat
  | .file _ => 1
  | .link _ => 0
  | .dir _ entries => fileCountAll entries

def fileCountAll : List (String × Entry) → Nat
  | [] => 0
  | (_, entry) :: rest => fileCount entry + fileCountAll rest
end

end Entry

end PropFlow
