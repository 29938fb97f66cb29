import Mathlib.Data.List.Basic
import PropFlow.Syntax.Walk

theorem List.flatMap_filter_of_nil {α β : Type} {keep : α → Bool} {f : α → List β} {xs : List α}
    (h : ∀ x ∈ xs, keep x = false → f x = []) : (xs.filter keep).flatMap f = xs.flatMap f := by
  induction xs with
  | nil => rfl
  | cons x rest ih =>
      obtain ⟨hx, hrest⟩ := forall_mem_cons.mp h
      cases hkeep : keep x with
      | true => rw [filter_cons_of_pos hkeep, flatMap_cons, flatMap_cons, ih hrest]
      | false =>
          rw [filter_cons_of_neg (by simp [hkeep]), flatMap_cons, hx hkeep, ih hrest, nil_append]

namespace PropFlow.Syntax

namespace Node

-- Nodes of trees that are written out by hand.
def leaf (kind text : String) (field : Option Field) : Node :=
  ⟨kind, text, 0, 0, true, false, false, field, []⟩

def branch (kind : String) (field : Option Field) (children : List Node) : Node :=
  ⟨kind, "", 0, 0, true, false, false, field, children⟩

def token (text : String) : Node :=
  ⟨text, text, 0, 0, false, false, false, none, []⟩

end Node

namespace Site

-- The places of all children, tokens and comments included.
def below (site : Site) : List Site :=
  site.node.children.map (⟨·, site.node :: site.above⟩)

theorem mem_below {site child : Site} :
    child ∈ site.below ↔ child.node ∈ site.node.children ∧ child.above = site.node :: site.above := by
  constructor
  · intro h
    obtain ⟨n, hn, rfl⟩ := List.mem_map.mp h
    exact ⟨hn, rfl⟩
  · rintro ⟨hn, habove⟩
    exact List.mem_map.mpr ⟨child.node, hn, by rw [← habove]⟩

-- What passes from the places of the children to a place holds everywhere.
theorem induction {P : Site → Prop} (step : ∀ site, (∀ child ∈ site.below, P child) → P site)
    (site : Site) : P site := by
  induction h : site.node.size using Nat.strongRecOn generalizing site with
  | ind size ih =>
      refine step site fun child hchild => ih child.node.size ?_ child rfl
      rw [← h]
      exact Node.size_lt_of_mem (mem_below.mp hchild).1

mutual
-- Every place at or below a node, in document order.
def sitesFrom (above : List Node) : Node → List Site
  | n@⟨_, _, _, _, _, _, _, _, children⟩ => ⟨n, above⟩ :: sitesFromAll (n :: above) children

def sitesFromAll (above : List Node) : List Node → List Site
  | [] => []
  | n :: rest => sitesFrom above n ++ sitesFromAll above rest
end

def sites (site : Site) : List Site :=
  sitesFrom site.above site.node

theorem sitesFromAll_eq (above : List Node) (ns : List Node) :
    sitesFromAll above ns = (ns.map (Site.mk · above)).flatMap sites := by
  induction ns with
  | nil => rfl
  | cons n rest ih => rw [sitesFromAll, ih, List.map_cons, List.flatMap_cons, sites]

theorem sites_eq (site : Site) : site.sites = site :: site.below.flatMap sites := by
  obtain ⟨⟨_, _, _, _, _, _, _, _, children⟩, above⟩ := site
  rw [sites, sitesFrom, sitesFromAll_eq]
  rfl

theorem self_mem_sites (site : Site) : site ∈ site.sites := by
  rw [sites_eq]
  exact List.mem_cons_self

theorem sites_subset {site other : Site} (h : other ∈ site.sites) : other.sites ⊆ site.sites := by
  induction site using Site.induction with
  | step site ih =>
      rw [sites_eq] at h
      rcases List.mem_cons.mp h with rfl | h
      · exact List.Subset.refl _
      · obtain ⟨child, hchild, hother⟩ := List.mem_flatMap.mp h
        intro last hlast
        rw [sites_eq site]
        exact List.mem_cons_of_mem _ (List.mem_flatMap.mpr ⟨child, hchild, ih child hchild hother hlast⟩)

theorem mem_sites_of_mem_below {site other child : Site} (h : other ∈ site.sites)
    (hchild : child ∈ other.below) : child ∈ site.sites := by
  apply sites_subset h
  rw [sites_eq]
  exact List.mem_cons_of_mem _ (List.mem_flatMap.mpr ⟨child, hchild, self_mem_sites child⟩)

-- The places of the nodes above a place, nearest first.
def ancestorsFrom : List Node → List Site
  | [] => []
  | n :: above => ⟨n, above⟩ :: ancestorsFrom above

def ancestors (site : Site) : List Site :=
  ancestorsFrom site.above

theorem ancestors_of_mem_below {site child : Site} (h : child ∈ site.below) :
    child.ancestors = site :: site.ancestors := by
  rw [ancestors, (mem_below.mp h).2]
  rfl

theorem mem_sites_or_mem_ancestors {site other a : Site} (h : other ∈ site.sites)
    (ha : a ∈ other.ancestors) : a ∈ site.sites ∨ a ∈ site.ancestors := by
  induction site using Site.induction with
  | step site ih =>
      rw [sites_eq] at h
      rcases List.mem_cons.mp h with rfl | h
      · exact .inr ha
      · obtain ⟨child, hchild, hother⟩ := List.mem_flatMap.mp h
        rcases ih child hchild hother with hsites | hancestors
        · have hsubset := sites_subset (mem_sites_of_mem_below (self_mem_sites site) hchild)
          exact .inl (hsubset hsites)
        · rw [ancestors_of_mem_below hchild] at hancestors
          rcases List.mem_cons.mp hancestors with rfl | hancestors
          · exact .inl (self_mem_sites a)
          · exact .inr hancestors

-- In a whole tree everything above a place is a place of the tree.
theorem mem_sites_of_mem_ancestors {root : Node} {site a : Site} (h : site ∈ (top root).sites)
    (ha : a ∈ site.ancestors) : a ∈ (top root).sites := by
  rcases mem_sites_or_mem_ancestors h ha with hsites | hancestors
  · exact hsites
  · cases hancestors

section Walk

variable (skip : Node → Bool)

theorem visit_append (first second : List Site) :
    visit skip (first ++ second) = visit skip first ++ visit skip second := by
  fun_induction visit skip first with
  | case1 => rfl
  | case2 site pending ih =>
      rw [List.cons_append, visit, ← List.append_assoc, ih]
      rfl

theorem visit_eq_flatMap (pending : List Site) :
    visit skip pending = pending.flatMap (walkPruned skip) := by
  induction pending with
  | nil => rw [visit, List.flatMap_nil]
  | cons site rest ih =>
      rw [← List.singleton_append, visit_append, ih]
      rfl

theorem walkPruned_eq (site : Site) :
    site.walkPruned skip = site :: (site.enter skip).flatMap (walkPruned skip) := by
  rw [walkPruned, visit, List.append_nil, visit_eq_flatMap]

end Walk

theorem enter_eq_filter_below (site : Site) :
    site.enter (fun _ => false) = site.below.filter (·.node.named) := by
  simp [enter, below, Node.namedChildren, List.filter_map, Function.comp_def]

theorem walk_eq (site : Site) : site.walk = site :: (site.below.filter (·.node.named)).flatMap walk := by
  rw [walk, walkPruned_eq, enter_eq_filter_below]
  rfl

theorem self_mem_walk (site : Site) : site ∈ site.walk := by
  rw [walk_eq]
  exact List.mem_cons_self

theorem mem_walk_of_mem_below {site other child : Site} (h : other ∈ site.walk)
    (hchild : child ∈ other.below) (hnamed : child.node.named = true) : child ∈ site.walk := by
  induction site using Site.induction with
  | step site ih =>
      rw [walk_eq] at h ⊢
      apply List.mem_cons_of_mem
      rcases List.mem_cons.mp h with rfl | h
      · exact List.mem_flatMap.mpr ⟨child, List.mem_filter.mpr ⟨hchild, hnamed⟩, self_mem_walk child⟩
      · obtain ⟨next, hnext, hother⟩ := List.mem_flatMap.mp h
        exact List.mem_flatMap.mpr ⟨next, hnext, ih next (List.mem_filter.mp hnext).1 hother⟩

theorem walk_subset_sites (site : Site) : site.walk ⊆ site.sites := by
  induction site using Site.induction with
  | step site ih =>
      rw [walk_eq, sites_eq]
      apply List.cons_subset_cons
      intro last hlast
      obtain ⟨child, hchild, hlast⟩ := List.mem_flatMap.mp hlast
      have hbelow := (List.mem_filter.mp hchild).1
      exact List.mem_flatMap.mpr ⟨child, hbelow, ih child hbelow hlast⟩

-- A walk misses nothing that is to be seen at named nodes only, when only named nodes have
-- children.
theorem flatMap_walk {α : Type} (see : Site → List α) (site : Site)
    (hnamed : ∀ s ∈ site.sites, s.node.named = false → s.node.children = [] ∧ see s = []) :
    site.walk.flatMap see = site.sites.flatMap see := by
  induction site using Site.induction with
  | step site ih =>
      have hbelow : ∀ child ∈ site.below, ∀ s ∈ child.sites, s ∈ site.sites :=
        fun child hchild => sites_subset (mem_sites_of_mem_below (self_mem_sites site) hchild)
      rw [walk_eq, sites_eq site, List.flatMap_cons, List.flatMap_cons, List.flatMap_assoc,
        List.flatMap_assoc]
      congr 1
      calc
        (site.below.filter (·.node.named)).flatMap (fun child => child.walk.flatMap see) =
            (site.below.filter (·.node.named)).flatMap (fun child => child.sites.flatMap see) := by
          apply List.flatMap_congr
          intro child hchild
          have hchild := (List.mem_filter.mp hchild).1
          exact ih child hchild fun s hs => hnamed s (hbelow child hchild s hs)
        _ = site.below.flatMap (fun child => child.sites.flatMap see) := by
          apply List.flatMap_filter_of_nil
          intro child hchild hunnamed
          have hself := hbelow child hchild child (self_mem_sites child)
          obtain ⟨hleaf, hnothing⟩ := hnamed child hself hunnamed
          simp [sites_eq child, below, hleaf, hnothing]

end Site

end PropFlow.Syntax
