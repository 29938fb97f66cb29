namespace PropFlow.Syntax

-- The role that a child plays in its parent, where a grammar names one.
inductive Field where
  | alias | alternative | body | consequence | declaration | function | key | left | name
  | object | operator | parameter | parameters | pattern | property | right | source | value
deriving DecidableEq, Repr, Inhabited

def Field.ofName? : String → Option Field
  | "alias" => some .alias
  | "alternative" => some .alternative
  | "body" => some .body
  | "consequence" => some .consequence
  | "declaration" => some .declaration
  | "function" => some .function
  | "key" => some .key
  | "left" => some .left
  | "name" => some .name
  | "object" => some .object
  | "operator" => some .operator
  | "parameter" => some .parameter
  | "parameters" => some .parameters
  | "pattern" => some .pattern
  | "property" => some .property
  | "right" => some .right
  | "source" => some .source
  | "value" => some .value
  | _ => none

-- A node of a concrete syntax tree. `start` and `stop` are byte offsets into the module's text,
-- and `text` is what stands between them. Tokens that the grammar gives no name of their own
-- (brackets, keywords, commas) are nodes with `named = false`.
structure Node where
  kind : String
  text : String
  start : Nat
  stop : Nat
  named : Bool
  missing : Bool
  hasError : Bool
  field : Option Field
  children : List Node
deriving Inhabited, Repr

namespace Node

mutual
-- How many nodes the tree has.
def size : Node → Nat
  | ⟨_, _, _, _, _, _, _, _, children⟩ => 1 + sizeAll children

def sizeAll : List Node → Nat
  | [] => 0
  | n :: rest => n.size + sizeAll rest
end

theorem size_eq (n : Node) : n.size = 1 + sizeAll n.children := by
  cases n with
  | mk => rfl

theorem size_le_sizeAll {child : Node} {ns : List Node} (h : child ∈ ns) :
    child.size ≤ sizeAll ns := by
  induction ns with
  | nil => cases h
  | cons n rest ih =>
    rw [sizeAll]
    cases h with
    | head => omega
    | tail _ h => have := ih h; omega

theorem size_lt_of_mem {n child : Node} (h : child ∈ n.children) : child.size < n.size := by
  have := size_le_sizeAll h
  rw [size_eq n]
  omega

theorem sizeAll_append (as bs : List Node) : sizeAll (as ++ bs) = sizeAll as + sizeAll bs := by
  induction as with
  | nil => simp [sizeAll]
  | cons a rest ih => simp [sizeAll, ih, Nat.add_assoc]

theorem sizeAll_filter_le (keep : Node → Bool) (ns : List Node) :
    sizeAll (ns.filter keep) ≤ sizeAll ns := by
  induction ns with
  | nil => simp
  | cons n rest ih =>
    cases h : keep n <;> simp [h, sizeAll] <;> omega

-- Two nodes are the same node of a tree when kind and extent agree.
def same (a b : Node) : Bool :=
  a.kind == b.kind && a.start == b.start && a.stop == b.stop

def child? (n : Node) (field : Field) : Option Node :=
  n.children.find? fun child => child.field == some field

def isComment (n : Node) : Bool :=
  n.kind == "comment"

def namedChildren (n : Node) : List Node :=
  n.children.filter (·.named)

-- The named children that carry meaning: all but the comments.
def parts (n : Node) : List Node :=
  n.namedChildren.filter fun child => !child.isComment

def firstPart? (n : Node) : Option Node :=
  n.parts.head?

theorem mem_children_of_mem_namedChildren {n child : Node} (h : child ∈ n.namedChildren) :
    child ∈ n.children :=
  (List.mem_filter.mp h).1

theorem mem_namedChildren_of_mem_parts {n child : Node} (h : child ∈ n.parts) :
    child ∈ n.namedChildren :=
  (List.mem_filter.mp h).1

theorem size_lt_of_firstPart? {n child : Node} (h : n.firstPart? = some child) :
    child.size < n.size :=
  size_lt_of_mem (mem_children_of_mem_namedChildren
    (mem_namedChildren_of_mem_parts (List.mem_of_mem_head? h)))

end Node

-- A tree written out as a list of rows, parents before children. The number of children says
-- which of the following rows belong to the node. `flags` adds up 1 for a named node, 2 for one
-- the grammar had to insert and 4 for one with an error at or below it.
structure Row where
  kind : String
  flags : Nat
  start : Nat
  stop : Nat
  field : String
  childCount : Nat
deriving Repr, Inhabited

def slice (source : String) (start stop : Nat) : String :=
  String.Pos.Raw.extract source ⟨start⟩ ⟨stop⟩

def Row.toNode (row : Row) (source : String) (children : List Node) : Node where
  kind := row.kind
  text := slice source row.start row.stop
  start := row.start
  stop := row.stop
  named := row.flags.testBit 0
  missing := row.flags.testBit 1
  hasError := row.flags.testBit 2
  field := Field.ofName? row.field
  children := children

-- Rows are read from the last to the first, so that the trees below a row are complete when it
-- is reached. `pending` holds the finished trees that have no parent yet, in document order.
def Row.attach (source : String) (row : Row) (pending : Option (List Node)) : Option (List Node) := do
  let trees ← pending
  guard (row.childCount ≤ trees.length)
  return row.toNode source (trees.take row.childCount) :: trees.drop row.childCount

def Node.ofRows? (source : String) (rows : List Row) : Option Node :=
  match rows.foldr (Row.attach source) (some []) with
  | some [root] => some root
  | _ => none

end PropFlow.Syntax
