import PropFlow.Text.Quoted

namespace PropFlow.CommandLine

-- Why a list of arguments is not understood.
inductive UsageError where
  | noSuchOption (name : String)
  | needsArgument (name : String)
  | takesNoValue (name : String)
  | missingParameter (name : String)
  | missingCommand
  | noSuchCommand (name : String)
  | extraArguments (arguments : List String)
deriving DecidableEq, Repr

def UsageError.message : UsageError → String
  | noSuchOption name => "No such option: " ++ name
  | needsArgument name => "Option " ++ Text.quoted name ++ " requires an argument."
  | takesNoValue name => "Option " ++ Text.quoted name ++ " does not take a value."
  | missingParameter name => "Missing parameter: " ++ name
  | missingCommand => "Missing command."
  | noSuchCommand name => "No such command " ++ Text.quoted name ++ "."
  | extraArguments [argument] => "Got unexpected extra argument (" ++ argument ++ ")"
  | extraArguments arguments => "Got unexpected extra arguments (" ++ " ".intercalate arguments ++ ")"

-- One way to write an option: what it sets, and to what if it takes no value of its own.
structure OptionForm where
  name : String
  key : String
  fixed : Option String
deriving DecidableEq, Repr

def valued (key : String) (names : List String) : List OptionForm :=
  names.map fun name => ⟨name, key, none⟩

def switch (key value : String) (names : List String) : List OptionForm :=
  names.map fun name => ⟨name, key, some value⟩

-- What one argument sets. The last option in it may still need a value.
structure Token where
  given : List (String × String)
  wanting : Option OptionForm
deriving DecidableEq, Repr

def find? (forms : List OptionForm) (name : String) : Option OptionForm :=
  forms.find? fun form => form.name == name

-- Letters behind one dash: options in a row, of which the last may be followed by its value.
def shortToken (forms : List OptionForm) (given : List (String × String)) :
    List Char → Except UsageError Token
  | [] => .ok ⟨given, none⟩
  | c :: rest =>
    let name := String.ofList ['-', c]
    match find? forms name with
    | none => .error (.noSuchOption name)
    | some form =>
      match form.fixed, rest with
      | some value, rest => shortToken forms (given ++ [(form.key, value)]) rest
      | none, [] => .ok ⟨given, some form⟩
      | none, value => .ok ⟨given ++ [(form.key, String.ofList value)], none⟩

def isLong (arg : String) : Bool :=
  "--".toList.isPrefixOf arg.toList

-- A long option, with its value behind an equals sign if it has one there.
def longToken (forms : List OptionForm) (arg : String) : Except UsageError Token :=
  let name := String.ofList (arg.toList.takeWhile (· ≠ '='))
  let attached := (arg.toList.dropWhile (· ≠ '=')).tail?.map String.ofList
  match find? forms name with
  | none => .error (.noSuchOption name)
  | some form =>
    match form.fixed, attached with
    | some value, none => .ok ⟨[(form.key, value)], none⟩
    | some _, some _ => .error (.takesNoValue name)
    | none, none => .ok ⟨[], some form⟩
    | none, some value => .ok ⟨[(form.key, value)], none⟩

def token (forms : List OptionForm) (arg : String) : Except UsageError Token :=
  if isLong arg then longToken forms arg else shortToken forms [] (arg.toList.drop 1)

def isOption (arg : String) : Bool :=
  match arg.toList with
  | '-' :: _ :: _ => true
  | _ => false

-- Options with their values, in order, and the other arguments.
structure Arguments where
  options : List (String × String)
  rest : List String
deriving DecidableEq, Repr

namespace Arguments

-- The value an option was given last.
def option? (a : Arguments) (key : String) : Option String :=
  a.options.reverse.lookup key

def has (a : Arguments) (key : String) : Bool :=
  (a.option? key).isSome

end Arguments

-- Reads options up to `--`. Unless they may be mixed, they also end at the first other argument.
def readArguments (forms : List OptionForm) (mixed : Bool) (done : Arguments) :
    List String → Except UsageError Arguments
  | [] => .ok done
  | arg :: args =>
    if arg = "--" then .ok { done with rest := done.rest ++ args }
    else if isOption arg then
      match token forms arg, args with
      | .error e, _ => .error e
      | .ok ⟨given, none⟩, args => readArguments forms mixed { done with options := done.options ++ given } args
      | .ok ⟨_, some form⟩, [] => .error (.needsArgument form.name)
      | .ok ⟨given, some form⟩, value :: args =>
        readArguments forms mixed
          { done with options := done.options ++ given ++ [(form.key, value)] } args
    else if mixed then readArguments forms mixed { done with rest := done.rest ++ [arg] } args
    else .ok { done with rest := done.rest ++ arg :: args }

-- The arguments that a command takes by position, each of which has to be there.
def positionals (names : List String) (rest : List String) : Except UsageError (List String) :=
  match names.drop rest.length with
  | name :: _ => .error (.missingParameter name)
  | [] =>
    match rest.drop names.length with
    | [] => .ok rest
    | extra => .error (.extraArguments extra)

end PropFlow.CommandLine
