namespace PropFlow

-- A map that remembers in which order its keys came. A new value for an old key takes the place
-- of the old value.
structure OrderedMap (κ α : Type) where
  entries : List (κ × α)
deriving DecidableEq, Repr, Inhabited

namespace OrderedMap

variable {κ α : Type} [DecidableEq κ]

def empty : OrderedMap κ α :=
  ⟨[]⟩

def keys (m : OrderedMap κ α) : List κ :=
  m.entries.map (·.1)

def values (m : OrderedMap κ α) : List α :=
  m.entries.map (·.2)

def get? (m : OrderedMap κ α) (key : κ) : Option α :=
  m.entries.lookup key

def contains (m : OrderedMap κ α) (key : κ) : Bool :=
  (m.get? key).isSome

def alterEntries (key : κ) (f : Option α → α) : List (κ × α) → List (κ × α)
  | [] => [(key, f none)]
  | (k, value) :: rest => if k = key then (k, f (some value)) :: rest else (k, value) :: alterEntries key f rest

-- Puts at a key what `f` makes of the value there.
def alter (m : OrderedMap κ α) (key : κ) (f : Option α → α) : OrderedMap κ α :=
  ⟨alterEntries key f m.entries⟩

def insert (m : OrderedMap κ α) (key : κ) (value : α) : OrderedMap κ α :=
  m.alter key fun _ => value

-- Keeps a value that is already there.
def insertIfNew (m : OrderedMap κ α) (key : κ) (value : α) : OrderedMap κ α :=
  m.alter key (·.getD value)

def ofList (entries : List (κ × α)) : OrderedMap κ α :=
  entries.foldl (fun m (key, value) => m.insert key value) empty

end OrderedMap

end PropFlow
