import PropFlow.Component.Basic
import PropFlow.Trace

namespace PropFlow

-- What a run of the analysis has to tell besides its result.
structure Diagnostics where
  accepted : Nat
  filesAnalyzed : List String
  componentsFound : List String
  parseErrors : List String
  log : List Note
deriving DecidableEq, Repr

namespace Diagnostics

def empty : Diagnostics :=
  ⟨0, [], [], [], []⟩

-- Adds a note; an accepted component is counted too.
def note (d : Diagnostics) (n : Note) : Diagnostics :=
  let count := match n with
    | .accepted _ _ => 1
    | _ => 0
  { d with accepted := d.accepted + count, log := d.log ++ [n] }

def notes (d : Diagnostics) (ns : List Note) : Diagnostics :=
  ns.foldl note d

def fileAnalyzed (d : Diagnostics) (path : String) : Diagnostics :=
  { d with filesAnalyzed := d.filesAnalyzed ++ [path] }

def componentFound (d : Diagnostics) (c : Component) : Diagnostics :=
  { d with componentsFound :=
      d.componentsFound ++ [c.name ++ " (" ++ toString c.items.length ++ " items)"] }

def parseError (d : Diagnostics) (path message : String) : Diagnostics :=
  { d with parseErrors := d.parseErrors ++ ["Error parsing " ++ path ++ ": " ++ message] }

def directoryError (d : Diagnostics) (path message : String) : Diagnostics :=
  { d with parseErrors := d.parseErrors ++ ["Error reading directory " ++ path ++ ": " ++ message] }

def lines (d : Diagnostics) : List String :=
  d.log.map Note.text

end Diagnostics

end PropFlow
