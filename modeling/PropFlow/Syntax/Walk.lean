import PropFlow.Syntax.Node

namespace PropFlow.Syntax

-- A place in a tree: a node together with the nodes above it, nearest first.
structure Site where
  node : Node
  above : List Node
deriving Inhabited, Repr

namespace Site

def top (n : Node) : Site :=
  ⟨n, []⟩

def parent? (site : Site) : Option Node :=
  site.above.head?

-- The places of the named children that are not skipped.
def enter (skip : Node → Bool) (site : Site) : List Site :=
  (site.node.namedChildren.filter fun child => !skip child).map (⟨·, site.node :: site.above⟩)

theorem map_node_enter (skip : Node → Bool) (site : Site) :
    (site.enter skip).map (·.node) = site.node.namedChildren.filter fun child => !skip child := by
  simp [enter, Function.comp_def]

theorem sizeAll_enter_lt (skip : Node → Bool) (site : Site) :
    Node.sizeAll ((site.enter skip).map (·.node)) < site.node.size := by
  have hskip := Node.sizeAll_filter_le (fun child => !skip child) site.node.namedChildren
  have hnamed := Node.sizeAll_filter_le (·.named) site.node.children
  rw [map_node_enter, Node.size_eq]
  rw [Node.namedChildren] at *
  omega

-- Depth-first visit with a list of places still to be seen.
def visit (skip : Node → Bool) : List Site → List Site
  | [] => []
  | site :: pending => site :: visit skip (site.enter skip ++ pending)
termination_by pending => Node.sizeAll (pending.map (·.node))
decreasing_by
  have := sizeAll_enter_lt skip site
  simp only [List.map_append, List.map_cons, Node.sizeAll_append, Node.sizeAll]
  omega

-- Every place at or below `site` that named children lead to, in document order. Nothing below
-- `site` that `skip` holds of is entered; `site` itself is always there.
def walkPruned (skip : Node → Bool) (site : Site) : List Site :=
  visit skip [site]

def walk (site : Site) : List Site :=
  site.walkPruned fun _ => false

end Site

end PropFlow.Syntax
