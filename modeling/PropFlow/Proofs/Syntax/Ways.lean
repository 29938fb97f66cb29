import PropFlow.Proofs.Enumerates
import PropFlow.Proofs.Syntax.Sites

namespace PropFlow.Syntax

-- The node at the end of a way down a tree. A way holds the number of the child at every step, and
-- each step goes to a named child that is not skipped.
inductive Reaches (skip : Node → Bool) : Node → List Nat → Node → Prop where
  | here (n : Node) : Reaches skip n [] n
  | into {n child last : Node} {number : Nat} {way : List Nat} (hchild : n.children[number]? = some child)
      (hnamed : child.named = true) (hskip : skip child = false) (hway : Reaches skip child way last) :
      Reaches skip n (number :: way) last

-- What is reached among the trees of a list, the first of which has the number `start`.
def ReachesAll (skip : Node → Bool) (start : Nat) (trees : List Node) (way : List Nat) (last : Node) : Prop :=
  ∃ number rest tree, way = (start + number) :: rest ∧ trees[number]? = some tree ∧ tree.named = true ∧
    skip tree = false ∧ Reaches skip tree rest last

namespace Reaches

variable {skip : Node → Bool} {n mid last child : Node} {way : List Nat}

theorem trans {first second : List Nat} (h : Reaches skip n first mid) (hrest : Reaches skip mid second last) :
    Reaches skip n (first ++ second) last := by
  induction h with
  | here => exact hrest
  | into hchild hnamed hskip _ ih => exact into hchild hnamed hskip (ih hrest)

theorem exists_child (h : Reaches skip n way mid) (hchild : child ∈ mid.children) (hnamed : child.named = true)
    (hskip : skip child = false) : ∃ longer, Reaches skip n longer child := by
  obtain ⟨number, hnumber⟩ := List.mem_iff_getElem?.mp hchild
  exact ⟨_, h.trans (into hnumber hnamed hskip (here child))⟩

theorem mem_sites {site : Site} (h : Reaches skip site.node way last) :
    ∃ above, ⟨last, above⟩ ∈ site.sites := by
  induction way generalizing site with
  | nil =>
      cases h
      exact ⟨site.above, site.self_mem_sites⟩
  | cons number rest ih =>
      cases h with
      | @into _ child _ _ _ hchild _ _ hway =>
          have hbelow : ⟨child, site.node :: site.above⟩ ∈ site.below :=
            Site.mem_below.mpr ⟨List.mem_of_getElem? hchild, rfl⟩
          obtain ⟨above, habove⟩ := @ih ⟨child, site.node :: site.above⟩ hway
          exact ⟨above, Site.sites_subset (Site.mem_sites_of_mem_below site.self_mem_sites hbelow) habove⟩

theorem iff_all : Reaches skip n way last ↔
    (way = [] ∧ last = n) ∨ ReachesAll skip 0 n.children way last := by
  constructor
  · intro h
    cases h with
    | here => exact .inl ⟨rfl, rfl⟩
    | @into _ child _ number rest hchild hnamed hskip hway =>
        exact .inr ⟨number, rest, child, by rw [Nat.zero_add], hchild, hnamed, hskip, hway⟩
  · rintro (⟨rfl, rfl⟩ | ⟨number, rest, tree, rfl, hchild, hnamed, hskip, hway⟩)
    · exact here last
    · rw [Nat.zero_add]
      exact into hchild hnamed hskip hway

end Reaches

theorem not_reachesAll_nil {skip : Node → Bool} {start : Nat} {way : List Nat} {last : Node} :
    ¬ReachesAll skip start [] way last := by
  rintro ⟨number, rest, tree, -, htree, -⟩
  cases htree

-- Either the way goes into the first tree or among the others, which have higher numbers.
theorem reachesAll_cons {skip : Node → Bool} {start : Nat} {first : Node} {trees : List Node}
    {way : List Nat} {last : Node} : ReachesAll skip start (first :: trees) way last ↔
      (∃ rest, way = start :: rest ∧ first.named = true ∧ skip first = false ∧ Reaches skip first rest last) ∨
        ReachesAll skip (start + 1) trees way last := by
  constructor
  · rintro ⟨number, rest, tree, rfl, htree, h⟩
    cases number with
    | zero =>
        cases htree
        exact .inl ⟨rest, rfl, h⟩
    | succ number =>
        refine .inr ⟨number, rest, tree, ?_, htree, h⟩
        rw [Nat.add_assoc, Nat.add_comm 1 number]
  · rintro (⟨rest, rfl, h⟩ | ⟨number, rest, tree, rfl, htree, h⟩)
    · exact ⟨0, rest, first, rfl, rfl, h⟩
    · refine ⟨number + 1, rest, tree, ?_, htree, h⟩
      rw [Nat.add_assoc, Nat.add_comm 1 number]

namespace Node

-- The end of a way in a child, with the number of the child put before the way.
def under (number : Nat) (reached : List Nat × Node) : List Nat × Node :=
  (number :: reached.1, reached.2)

-- Whether a walk goes to a child.
def entered (skip : Node → Bool) (child : Node) : Bool :=
  !skip child && child.named

mutual
-- What a pruned walk sees, each node with the way to it.
def ways (skip : Node → Bool) : Node → List (List Nat × Node)
  | n@⟨_, _, _, _, _, _, _, _, children⟩ => ([], n) :: waysAll skip 0 children

def waysAll (skip : Node → Bool) (start : Nat) : List Node → List (List Nat × Node)
  | [] => []
  | n :: rest =>
    if n.entered skip then (n.ways skip).map (under start) ++ waysAll skip (start + 1) rest
    else waysAll skip (start + 1) rest
end

theorem ways_eq (skip : Node → Bool) (n : Node) : n.ways skip = ([], n) :: waysAll skip 0 n.children := by
  cases n
  rw [ways]

section Enumerates

variable (skip : Node → Bool)

theorem enumerates_cons {start : Nat} {first : Node} {trees : List Node}
    (hfirst : Enumerates Prod.fst (fun reached => Reaches skip first reached.1 reached.2) (first.ways skip))
    (hrest : Enumerates Prod.fst (fun reached => ReachesAll skip (start + 1) trees reached.1 reached.2)
      (waysAll skip (start + 1) trees)) :
    Enumerates Prod.fst (fun reached => ReachesAll skip start (first :: trees) reached.1 reached.2)
      (waysAll skip start (first :: trees)) := by
  rw [waysAll]
  by_cases henter : first.named = true ∧ skip first = false
  · obtain ⟨hnamed, hskip⟩ := henter
    rw [if_pos (by rw [entered, hnamed, hskip]; rfl)]
    have hafter : ∀ reached : List Nat × Node, ReachesAll skip (start + 1) trees reached.1 reached.2 →
        ∃ other rest, reached.1 = other :: rest ∧ start < other := by
      rintro ⟨-, last⟩ ⟨number, rest, tree, rfl, -⟩
      exact ⟨_, rest, rfl, by omega⟩
    have hpush : ∀ reached, (under start reached).1 = start :: reached.1 := fun _ => rfl
    apply (hfirst.behind hpush hrest hafter).congr
    rintro ⟨way, last⟩
    rw [reachesAll_cons]
    apply or_congr_left
    constructor
    · rintro ⟨⟨rest, last⟩, heq, hway⟩
      cases heq
      exact ⟨rest, rfl, hnamed, hskip, hway⟩
    · rintro ⟨rest, rfl, -, -, hway⟩
      exact ⟨(rest, last), rfl, hway⟩
  · rw [if_neg (by simpa [entered, and_comm] using henter)]
    apply hrest.congr
    intro reached
    rw [reachesAll_cons, or_iff_right]
    rintro ⟨rest, -, hnamed, hskip, -⟩
    exact henter ⟨hnamed, hskip⟩

-- A node stands before all that is below it.
theorem enumerates_self {n : Node}
    (hall : Enumerates Prod.fst (fun reached => ReachesAll skip 0 n.children reached.1 reached.2)
      (waysAll skip 0 n.children)) :
    Enumerates Prod.fst (fun reached => Reaches skip n reached.1 reached.2) (n.ways skip) := by
  rw [ways_eq]
  constructor
  · apply List.pairwise_cons.mpr
    refine ⟨fun reached hreached => ?_, hall.sorted⟩
    obtain ⟨number, rest, tree, hway, -⟩ := (hall.mem_iff reached).mp hreached
    rw [hway]
    exact List.nil_lt_cons _ _
  · intro reached
    rw [List.mem_cons, hall.mem_iff, Reaches.iff_all, Prod.ext_iff]

mutual
theorem enumerates_ways : ∀ n : Node,
    Enumerates Prod.fst (fun reached => Reaches skip n reached.1 reached.2) (n.ways skip)
  | ⟨_, _, _, _, _, _, _, _, children⟩ => enumerates_self skip (enumerates_waysAll 0 children)

theorem enumerates_waysAll (start : Nat) : ∀ trees : List Node,
    Enumerates Prod.fst (fun reached => ReachesAll skip start trees reached.1 reached.2)
      (waysAll skip start trees)
  | [] => Enumerates.nil fun _ => not_reachesAll_nil
  | first :: trees => enumerates_cons skip (enumerates_ways first) (enumerates_waysAll (start + 1) trees)
end

end Enumerates

section Walk

variable (skip : Node → Bool)

theorem map_snd_waysAll (start : Nat) (trees : List Node) : (waysAll skip start trees).map (·.2) =
    (trees.filter (entered skip)).flatMap fun n => (n.ways skip).map (·.2) := by
  induction trees generalizing start with
  | nil => rfl
  | cons n rest ih =>
      rw [waysAll]
      by_cases henter : n.entered skip = true
      · rw [if_pos henter, List.filter_cons_of_pos henter, List.flatMap_cons, List.map_append, ih,
          List.map_map]
        rfl
      · rw [if_neg henter, List.filter_cons_of_neg henter, ih]

-- The ways lead to what a walk sees, in its order.
theorem map_node_walkPruned (site : Site) :
    (site.walkPruned skip).map (·.node) = (site.node.ways skip).map (·.2) := by
  induction site using Site.induction with
  | step site ih =>
      have henter : ∀ child ∈ site.enter skip,
          (child.walkPruned skip).map (·.node) = (child.node.ways skip).map (·.2) := by
        intro child hchild
        obtain ⟨n, hn, rfl⟩ := List.mem_map.mp hchild
        have hbelow := mem_children_of_mem_namedChildren (List.mem_filter.mp hn).1
        exact ih _ (Site.mem_below.mpr ⟨hbelow, rfl⟩)
      rw [Site.walkPruned_eq, ways_eq, List.map_cons, List.map_cons, map_snd_waysAll, List.map_flatMap,
        List.flatMap_congr henter, Site.enter, List.flatMap_map, namedChildren, List.filter_filter]
      rfl

end Walk

end Node

end PropFlow.Syntax
