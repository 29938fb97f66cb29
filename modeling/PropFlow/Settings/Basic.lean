import PropFlow.Text.Blank
import PropFlow.Text.Casing
import PropFlow.Text.Integer
import PropFlow.Value.Basic

namespace PropFlow

-- What can be set about the output.
inductive Setting where
  | format
  | showTrace
  | maxTraceLines
deriving DecidableEq, Repr

namespace Setting

def all : List Setting :=
  [format, showTrace, maxTraceLines]

def name : Setting → String
  | format => "format"
  | showTrace => "show_trace"
  | maxTraceLines => "max_trace_lines"

def ofName? (name : String) : Option Setting :=
  all.find? fun s => s.name == name

def names : List String :=
  all.map name

def initial : Setting → Value
  | format => .str "table"
  | showTrace => .bool false
  | maxTraceLines => .int 200

def outputFormats : List String :=
  ["table", "json"]

end Setting

-- Why a text is no value of a setting.
inductive SettingError where
  | unknown (name : String)
  | notBoolean (name raw : String)
  | notInteger (error : Text.IntegerError)
  | negative (name : String)
  | badFormat
deriving DecidableEq, Repr

def SettingError.message : SettingError → String
  | unknown name => Text.quoted name
  | notBoolean name raw => "expected a boolean for '" ++ name ++ "', got '" ++ raw ++ "'"
  | notInteger error => error.message
  | negative name => "'" ++ name ++ "' must not be negative"
  | badFormat => "format must be one of: " ++ ", ".intercalate Setting.outputFormats

namespace Setting

def yesWords : List String :=
  ["true", "yes", "on", "1"]

def noWords : List String :=
  ["false", "no", "off", "0"]

-- The value that a text stands for, which is of the type of the value at first.
def coerce (s : Setting) (raw : String) : Except SettingError Value :=
  match s.initial with
  | .bool _ =>
    let word := Text.lower (String.ofList (Text.trim raw.toList))
    if word ∈ yesWords then .ok (.bool true)
    else if word ∈ noWords then .ok (.bool false)
    else .error (.notBoolean s.name raw)
  | .int _ =>
    match Text.readInteger raw with
    | .ok n => if n < 0 then .error (.negative s.name) else .ok (.int n)
    | .error e => .error (.notInteger e)
  | _ => if s = format ∧ raw ∉ outputFormats then .error .badFormat else .ok (.str raw)

def coerceNamed (name raw : String) : Except SettingError Value :=
  match ofName? name with
  | some s => s.coerce raw
  | none => .error (.unknown name)

end Setting

-- Settings with their values, which a file may have set to anything.
structure Settings where
  format : Value
  showTrace : Value
  maxTraceLines : Value
deriving Repr, Inhabited

namespace Settings

def initial : Settings :=
  ⟨Setting.format.initial, Setting.showTrace.initial, Setting.maxTraceLines.initial⟩

def set (settings : Settings) (s : Setting) (value : Value) : Settings :=
  match s with
  | .format => { settings with format := value }
  | .showTrace => { settings with showTrace := value }
  | .maxTraceLines => { settings with maxTraceLines := value }

def get (settings : Settings) : Setting → Value
  | .format => settings.format
  | .showTrace => settings.showTrace
  | .maxTraceLines => settings.maxTraceLines

-- Takes over the entries of a table that are settings; others do not count.
def overlay (settings : Settings) (t : Table) : Settings :=
  t.foldl (fun settings (name, value) =>
    match Setting.ofName? name with
    | some s => settings.set s value
    | none => settings) settings

def toTable (settings : Settings) : Table :=
  Setting.all.map fun s => (s.name, settings.get s)

end Settings

end PropFlow
