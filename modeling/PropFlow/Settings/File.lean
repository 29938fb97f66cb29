import PropFlow.Analysis
import PropFlow.Settings.Basic

namespace PropFlow

-- A format for documents that describe tables. A text that describes none is `none`.
structure DocumentFormat where
  read : String → Option Table
  write : Table → String

-- Why settings cannot be read or kept.
inductive SettingsFailure where
  | undecodable (fault : Text.Utf8.Malformed)
  | unknown (name : String)
  | file (error : FileError) (path : Path)
deriving DecidableEq, Repr

def SettingsFailure.message : SettingsFailure → String
  | undecodable fault => fault.message
  | unknown name => Text.quoted name
  | file error path => error.message path

namespace SettingsFile

-- The part of a document that holds the settings.
def sectionName : String := "output"

-- The whole document. One that is not there, cannot be opened or is malformed is empty; it is an
-- error if it is no text, or if a look-up is stopped on the way to it.
def document (format : DocumentFormat) (disk : Disk) (path : Path) : Except SettingsFailure Table :=
  match disk.isPresent path with
  | .error e => .error (.file e path)
  | .ok false => .ok []
  | .ok true =>
    match disk.read path with
    | .error _ => .ok []
    | .ok bytes =>
      match Text.Utf8.decode bytes with
      | .error fault => .error (.undecodable fault)
      | .ok text => .ok ((format.read (String.ofList (Text.unifyNewlines text.toList))).getD [])

-- The settings' part of a document, if it is a table.
def section? (document : Table) : Option Table :=
  match document.get? sectionName with
  | some (.table entries) => some entries
  | _ => none

def settingsOf (document : Table) : Settings :=
  Settings.initial.overlay ((section? document).getD [])

def load (format : DocumentFormat) (disk : Disk) (path : Path) : Except SettingsFailure Settings :=
  (document format disk path).map settingsOf

-- The document with values put into the settings' part; everything else stays.
def update (document values : Table) : Table :=
  document.insert sectionName (.table (((section? document).getD []).insertAll values))

-- Keeps values in the file, which is made if it is not there.
def save (format : DocumentFormat) (disk : Disk) (path : Path) (values : Table) :
    Except SettingsFailure Disk :=
  match values.find? fun (name, _) => (Setting.ofName? name).isNone with
  | some (name, _) => .error (.unknown name)
  | none =>
    match document format disk path with
    | .error e => .error e
    | .ok old =>
      match disk.makeDir path.parent with
      | .error (e, above) => .error (.file e above)
      | .ok made =>
        match made.write path (Text.Utf8.encode (format.write (update old values))) with
        | .ok saved => .ok saved
        | .error e => .error (.file e path)

end SettingsFile

end PropFlow
