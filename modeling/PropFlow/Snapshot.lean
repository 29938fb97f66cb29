import PropFlow.CommandLine.Run
import PropFlow.Toml

namespace PropFlow

-- A project written out in lines, with a tab between the fields of a line: its directories, files
-- with their bytes in hexadecimal digits, links, the directories that cannot be listed or not even be
-- searched, the home directories of users, and the syntax trees of the files, row by row.
namespace Snapshot

-- A tree whose rows are still being collected, last row first.
structure Draft where
  language : Language
  source : String
  rows : List Syntax.Row

structure State where
  top : Entry
  cwd : List String
  homes : List (String × String)
  settingsFile : Path
  drafts : List Draft

def State.empty : State :=
  ⟨.emptyDir, [], [], Path.ofString "/config.toml", []⟩

def hexBytes? : List Char → Option (List UInt8)
  | [] => some []
  | a :: b :: rest => do
    let high ← Toml.hexValue? a
    let low ← Toml.hexValue? b
    return UInt8.ofNat (high * 16 + low) :: (← hexBytes? rest)
  | [_] => none

def row? : List String → Option Syntax.Row
  | [kind, flags, start, stop, field, count] => do
    return ⟨kind, ← flags.toNat?, ← start.toNat?, ← stop.toNat?, field, ← count.toNat?⟩
  | _ => none

def State.disk (s : State) : Disk :=
  ⟨s.top, s.cwd, s.homes⟩

def source? (s : State) (path : Path) : Option String :=
  match s.disk.readText path with
  | .ok text => some text
  | .error _ => none

def State.line (s : State) (fields : List String) : Option State :=
  match fields with
  | ["cwd", path] => some { s with cwd := (Path.ofString path).parts }
  | ["settings", path] => some { s with settingsFile := Path.ofString path }
  | ["dir", path] =>
    let names := (Path.ofString path).parts
    some (if (s.top.get? names).isSome then s else { s with top := s.top.put .emptyDir names })
  | ["unlisted", path] => some { s with top := s.top.restrict .unlisted (Path.ofString path).parts }
  | ["closed", path] => some { s with top := s.top.restrict ⟨false, false⟩ (Path.ofString path).parts }
  | ["home", user, path] => some { s with homes := s.homes ++ [(user, path)] }
  | ["link", path, target] => some { s with top := s.top.put (.link target) (Path.ofString path).parts }
  | ["file", path, hex] => do
    let bytes ← hexBytes? hex.toList
    return { s with top := s.top.put (.file bytes) (Path.ofString path).parts }
  | ["tree", path, language] => do
    let draft := ⟨← Language.ofName? language, ← source? s (Path.ofString path), []⟩
    return { s with drafts := draft :: s.drafts }
  | "node" :: fields => do
    let row ← row? fields
    match s.drafts with
    | draft :: rest => return { s with drafts := { draft with rows := row :: draft.rows } :: rest }
    | [] => none
  | [""] => some s
  | _ => none

def Draft.tree? (d : Draft) : Option (Language × String × Syntax.Node) :=
  (Syntax.Node.ofRows? d.source d.rows.reverse).map fun node => (d.language, d.source, node)

-- The grammar that knows the given trees, and has an empty tree for any other text.
def grammar (trees : List (Language × String × Syntax.Node)) : Grammar := fun language source =>
  match trees.find? fun (l, text, _) => l == language && text == source with
  | some (_, _, node) => node
  | none => ⟨"program", "", 0, 0, true, false, false, none, []⟩

-- The session that a text describes.
def read? (text : String) : Option CommandLine.Session := do
  let lines := (text.toList.splitOn '\n').map fun line => (line.splitOn '\t').map String.ofList
  let s ← lines.foldlM State.line State.empty
  let trees ← s.drafts.mapM Draft.tree?
  return ⟨grammar trees, Toml.format, s.settingsFile, s.disk⟩

end Snapshot

mutual
-- The files below an entry, with their places.
def Entry.files (here : List String) : Entry → List (List String × List UInt8)
  | .file bytes => bytes.toList.map fun bytes => (here, bytes)
  | .link _ => []
  | .dir _ entries => Entry.filesAll here entries

def Entry.filesAll (here : List String) : List (String × Entry) → List (List String × List UInt8)
  | [] => []
  | (name, entry) :: rest => entry.files (here ++ [name]) ++ Entry.filesAll here rest
end

-- The files of a disk that another did not have, or had with other bytes.
def Disk.changes (old new : Disk) : List (Path × List UInt8) :=
  (new.top.files []).filterMap fun (names, bytes) =>
    match old.top.get? names with
    | some (.file before) => if before = some bytes then none else some (Path.absolute names, bytes)
    | _ => some (Path.absolute names, bytes)

end PropFlow
