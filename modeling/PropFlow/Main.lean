import PropFlow.Snapshot

namespace PropFlow.CommandLine

partial def readAll (input : IO.FS.Stream) (text : String) : IO String := do
  let line ← input.getLine
  if line.isEmpty then return text
  readAll input (text ++ line)

def put : Event → IO Unit
  | .print text => IO.println text
  | .printTable title columns rows => do
    IO.println title
    for cells in columns :: rows do
      IO.println ("\t".intercalate cells)
  | .out text => IO.println text
  | .err text => IO.eprintln text

def save (path : Path) (bytes : List UInt8) : IO Unit := do
  IO.FS.createDirAll path.parent.text
  IO.FS.writeBinFile path.text ⟨bytes.toArray⟩

end PropFlow.CommandLine

open PropFlow CommandLine in
-- Runs a command on the project that standard input describes, and saves the files it writes.
def main (args : List String) : IO UInt32 := do
  match Snapshot.read? (← readAll (← IO.getStdin) "") with
  | none =>
    IO.eprintln "The project on standard input cannot be read."
    return 2
  | some session =>
    let outcome := session.run args
    for event in outcome.events do
      put event
    for (path, bytes) in session.disk.changes outcome.disk do
      save path bytes
    match outcome.status with
    | .exit code => return UInt32.ofNat code
    | .aborted reason =>
      IO.eprintln reason.message
      return 2
