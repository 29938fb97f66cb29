import PropFlow.Proofs.Syntax.Ways

namespace PropFlow.Syntax

namespace Site

mutual
-- The places that are walked to at or below a node, by recursion on the tree: a node before what
-- is below it, and the children in turn.
def preorderFrom (skip : Node → Bool) (above : List Node) : Node → List Site
  | n@⟨_, _, _, _, _, _, _, _, children⟩ => ⟨n, above⟩ :: preorderFromAll skip (n :: above) children

def preorderFromAll (skip : Node → Bool) (above : List Node) : List Node → List Site
  | [] => []
  | n :: rest =>
    if n.entered skip then preorderFrom skip above n ++ preorderFromAll skip above rest
    else preorderFromAll skip above rest
end

def preorder (skip : Node → Bool) (site : Site) : List Site :=
  preorderFrom skip site.above site.node

-- The place at the end of a way, whatever is passed on it.
def follow? : Site → List Nat → Option Site
  | site, [] => some site
  | site, number :: way => site.below[number]?.bind fun child => child.follow? way

section Preorder

variable (skip : Node → Bool)

theorem preorderFromAll_eq (above ns : List Node) : preorderFromAll skip above ns =
    ((ns.filter (Node.entered skip)).map (Site.mk · above)).flatMap (preorder skip) := by
  induction ns with
  | nil => rfl
  | cons n rest ih =>
      rw [preorderFromAll, ih]
      by_cases henter : n.entered skip = true
      · rw [if_pos henter, List.filter_cons_of_pos henter, List.map_cons, List.flatMap_cons]
        rfl
      · rw [if_neg henter, List.filter_cons_of_neg henter]

theorem enter_eq (site : Site) : site.enter skip =
    (site.node.children.filter (Node.entered skip)).map (Site.mk · (site.node :: site.above)) := by
  rw [enter, Node.namedChildren, List.filter_filter]
  rfl

theorem preorder_eq (site : Site) :
    site.preorder skip = site :: (site.enter skip).flatMap (preorder skip) := by
  obtain ⟨⟨_, _, _, _, _, _, _, _, children⟩, above⟩ := site
  rw [preorder, preorderFrom, preorderFromAll_eq, enter_eq]

theorem mem_below_of_mem_enter {site child : Site} (h : child ∈ site.enter skip) : child ∈ site.below := by
  rw [enter_eq] at h
  obtain ⟨n, hn, rfl⟩ := List.mem_map.mp h
  exact mem_below.mpr ⟨(List.mem_filter.mp hn).1, rfl⟩

-- The pending places of a walk are seen one after the other, each with all that is below it.
theorem walkPruned_eq_preorder (site : Site) : site.walkPruned skip = site.preorder skip := by
  induction site using Site.induction with
  | step site ih =>
      rw [walkPruned_eq, preorder_eq]
      congr 1
      apply List.flatMap_congr
      intro child hchild
      exact ih child (mem_below_of_mem_enter skip hchild)

end Preorder

section Follow

variable {skip : Node → Bool} {site : Site}

-- The ways into the children from the number `start` on lead to the places that are entered there.
theorem map_follow?_waysAll {start : Nat} {trees : List Node} (h : site.node.children.drop start = trees) :
    (Node.waysAll skip start trees).map (fun reached => site.follow? reached.1) =
      ((trees.filter (Node.entered skip)).map (Site.mk · (site.node :: site.above))).flatMap fun child =>
        (child.node.ways skip).map fun reached => child.follow? reached.1 := by
  induction trees generalizing start with
  | nil => rfl
  | cons n rest ih =>
      have hrest : site.node.children.drop (start + 1) = rest := by
        rw [← List.tail_drop, h, List.tail_cons]
      have hchild : site.below[start]? = some ⟨n, site.node :: site.above⟩ := by
        rw [below, List.getElem?_map, ← List.head?_drop, h]
        rfl
      rw [Node.waysAll]
      by_cases henter : n.entered skip = true
      · rw [if_pos henter, List.filter_cons_of_pos henter, List.map_append, List.map_map, ih hrest,
          List.map_cons, List.flatMap_cons]
        congr 1
        apply List.map_congr_left
        intro reached _
        simp [Node.under, follow?, hchild]
      · rw [if_neg henter, List.filter_cons_of_neg henter, ih hrest]

theorem map_follow?_ways (site : Site) : (site.node.ways skip).map (fun reached => site.follow? reached.1) =
    (site.walkPruned skip).map some := by
  induction site using Site.induction with
  | step site ih =>
      rw [Node.ways_eq, List.map_cons, map_follow?_waysAll List.drop_zero, ← enter_eq, walkPruned_eq,
        List.map_cons, List.map_flatMap]
      congr 1
      apply List.flatMap_congr
      intro child hchild
      exact ih child (mem_below_of_mem_enter skip hchild)

end Follow

-- A walk visits the places of a tree in the order of the recursion: all that named children lead
-- to, without passing a node that is skipped, and each of them once.
theorem walkPruned_visits (skip : Node → Bool) (site : Site) :
    site.walkPruned skip = site.preorder skip ∧
      ∃ ways, Enumerates Prod.fst (fun reached => Reaches skip site.node reached.1 reached.2) ways ∧
        (site.walkPruned skip).map some = ways.map (fun reached => site.follow? reached.1) ∧
        (site.walkPruned skip).map (·.node) = ways.map (·.2) :=
  ⟨walkPruned_eq_preorder skip site, site.node.ways skip, Node.enumerates_ways skip site.node,
    (map_follow?_ways site).symm, Node.map_node_walkPruned skip site⟩

end Site

end PropFlow.Syntax
