import PropFlow.FileTree.Lookup

namespace PropFlow

namespace Entry

-- What is still to be done for a real path: go through a name, or note that the link at a place
-- has been resolved.
inductive Step where
  | pass (part : String)
  | resolved (place : List String)
deriving DecidableEq, Repr

-- The name that a step goes through, if it leads anywhere.
def Step.part? : Step → Option String
  | .pass part => if part = "" ∨ part = "." then none else some part
  | .resolved _ => none

-- Links met on the way, latest first. A link without a value is being resolved.
abbrev Known := List (List String × Option (List String))

-- Replaces links by what they lead to; names that are not there are kept. A link that is met
-- while it is being resolved ends the search, and the rest is kept but for the steps up in it.
def settle (top : Entry) (jump : Known → List String → List Step → List String) (known : Known)
    (here : List String) : List Step → List String
  | [] => here
  | .resolved place :: rest => settle top jump ((place, some here) :: known) here rest
  | .pass name :: rest =>
    if name = "" ∨ name = "." then settle top jump known here rest
    else if name = ".." then settle top jump known here.dropLast rest
    else
      match top.search? (here ++ [name]) with
      | some (.link target) =>
        match known.lookup (here ++ [name]) with
        | some (some there) => settle top jump known there rest
        | some none => (Path.absolute (here ++ [name] ++ rest.filterMap Step.part?)).normalize.parts
        | none =>
          jump ((here ++ [name], none) :: known) (targetStart here target)
            ((targetNames target).map .pass ++ .resolved (here ++ [name]) :: rest)
      | _ => settle top jump known (here ++ [name]) rest

-- Resolves with at most so many links; each link of a tree is resolved once.
def settleWithin (top : Entry) : Nat → Known → List String → List Step → List String
  | 0 => settle top fun _ here _ => here
  | links + 1 => settle top (settleWithin top links)

-- A path on which a link leads back to itself.
structure LinkLoop where
  path : Path
deriving DecidableEq, Repr

def LinkLoop.message (loop : LinkLoop) : String :=
  "Symlink loop from " ++ Text.quoted loop.path.text

end Entry

-- Where a home directory is. Its text may not start from a home directory in turn.
def homePath? (home : String) : Option Path :=
  let stripped := (home.toList.reverse.dropWhile (· = '/')).reverse
  if stripped.head? = some '~' then none
  else if stripped = [] then some (Path.absolute [])
  else some (Path.ofString (String.ofList stripped))

-- A path with the home directory of a user in place of a first name that is `~` with the user's name.
-- There is none if nobody knows where that is.
def Disk.expand? (disk : Disk) (path : Path) : Option Path :=
  match path with
  | ⟨.relative, first :: rest⟩ =>
    match first.toList with
    | '~' :: user =>
      ((disk.homes.lookup (String.ofList user)).bind homePath?).map (·.join ⟨.relative, rest⟩)
    | _ => some path
  | _ => some path

-- The path of the same place that goes through no links.
def Disk.realPath (disk : Disk) (path : Path) : Except Entry.LinkLoop Path :=
  let steps := (disk.names path).map .pass
  let real := Path.absolute (disk.top.settleWithin disk.top.linkCount [] [] steps)
  match disk.stat real with
  | .error .tooManyLinks => .error ⟨real⟩
  | _ => .ok real

-- What can end an analysis.
inductive Failure where
  | missing (root : String)
  | file (error : FileError) (path : Path)
  | loop (loop : Entry.LinkLoop)
  | homeless
deriving DecidableEq, Repr

def Failure.message : Failure → String
  | missing root => "Path does not exist: " ++ root
  | file error path => error.message path
  | loop l => l.message
  | homeless => "Could not determine home directory."

end PropFlow
