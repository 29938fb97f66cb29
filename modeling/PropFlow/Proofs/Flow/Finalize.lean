import PropFlow.CommandLine.Run
import PropFlow.Proofs.Graph.Depicts

-- Entries that are sorted by keys into lists are all there again when the lists are put together.
theorem List.flatMap_filter_perm {α κ : Type} [DecidableEq κ] (keyOf : α → κ) {keys : List κ}
    (h : keys.Nodup) (xs : List α) :
    (keys.flatMap fun k => xs.filter (keyOf · == k)).Perm (xs.filter (keyOf · ∈ keys)) := by
  induction keys with
  | nil => simp
  | cons k rest ih =>
      obtain ⟨hk, hrest⟩ := nodup_cons.mp h
      have hwith : (xs.filter (keyOf · ∈ k :: rest)).filter (keyOf · == k) = xs.filter (keyOf · == k) := by
        rw [filter_filter]
        apply filter_congr
        intro x _
        by_cases hx : keyOf x = k <;> simp [hx]
      have hwithout : (xs.filter (keyOf · ∈ k :: rest)).filter (fun x => !(keyOf x == k)) =
          xs.filter (keyOf · ∈ rest) := by
        rw [filter_filter]
        apply filter_congr
        intro x _
        by_cases hx : keyOf x = k
        · simp [hx, hk]
        · simp [hx]
      have hsplit := filter_append_perm (keyOf · == k) (xs.filter (keyOf · ∈ k :: rest))
      rw [hwith, hwithout] at hsplit
      rw [flatMap_cons]
      exact ((ih hrest).append_left _).trans hsplit

namespace PropFlow

-- The entries of a list that have a property, each once and in the order of their first occurrences.
structure FirstSeen {α : Type} [BEq α] (P : α → Prop) (entries kept : List α) : Prop where
  mem_iff : ∀ x, x ∈ kept ↔ x ∈ entries ∧ P x
  inOrder : kept.Pairwise fun x y => entries.idxOf x < entries.idxOf y

theorem firstSeen_filter {α : Type} [BEq α] [LawfulBEq α] {P : α → Prop} {p : α → Bool}
    (h : ∀ x, p x = true ↔ P x) (entries : List α) :
    FirstSeen P entries (entries.eraseDups.filter p) where
  mem_iff x := by rw [List.mem_filter, List.mem_eraseDups, h]
  inOrder := (List.pairwise_idxOf_eraseDups entries).sublist List.filter_sublist

namespace Flow

-- A flow both ends of which are items that are drawn under an id.
def Owned (components : List Component) (places : List (String × String)) (f : Flow) : Prop :=
  (∃ id, (Graph.owners components places).get? (f.source, f.sourceFile) = some id) ∧
    ∃ id, (Graph.owners components places).get? (f.target, f.targetFile) = some id

-- A line that leads from the id of the one end of a flow to that of the other.
def DrawnBy (components : List Component) (places : List (String × String)) (f : Flow) (line : String) : Prop :=
  ∃ source target, (Graph.owners components places).get? (f.source, f.sourceFile) = some source ∧
    (Graph.owners components places).get? (f.target, f.targetFile) = some target ∧
    line = Graph.edgeLine source target f.type

-- The ends that are known when flows are kept are those that are owned when they are drawn.
theorem mem_knownEnds_iff_owned {components : List Component} (places : List (String × String))
    {item file : String} : (item, file) ∈ knownEnds components ↔
      ∃ id, (Graph.owners components places).get? (item, file) = some id := by
  rw [mem_knownEnds_iff, ← Option.isSome_iff_exists, Graph.isSome_get?_owners_iff places]

-- It makes no difference whether repetitions or unknown ends are dropped first.
theorem finalize_eq_filter (flows : List Flow) (components : List Component) :
    finalize flows components = flows.eraseDups.filter (isBetween (knownEnds components)) := by
  rw [finalize_eq, List.eraseDups_filter]

theorem firstSeen_finalize (flows : List Flow) (components : List Component)
    (places : List (String × String)) :
    FirstSeen (Owned components places) flows (finalize flows components) := by
  rw [finalize_eq_filter]
  apply firstSeen_filter
  intro f
  rw [isBetween_iff, mem_knownEnds_iff_owned places, mem_knownEnds_iff_owned places]
  rfl

theorem finalize_finalize (flows : List Flow) (components : List Component) :
    finalize (finalize flows components) components = finalize flows components := by
  have hnodup : (finalize flows components).Nodup := by
    rw [finalize_eq]
    exact List.nodup_eraseDups _
  rw [finalize_eq_filter (finalize flows components), hnodup.eraseDups_eq, finalize_eq_filter,
    List.filter_filter]
  simp only [Bool.and_self]

theorem finalize_sublist {components more : List Component} (h : components ⊆ more) (flows : List Flow) :
    (finalize flows components).Sublist (finalize flows more) := by
  rw [finalize_eq_filter, finalize_eq_filter]
  apply List.monotone_filter_right
  exact fun f hf => isBetween_mono (knownEnds_subset h) hf

theorem exists_edge_of_owned {components : List Component} {places : List (String × String)} {f : Flow}
    (h : f.Owned components places) :
    ∃ e, Graph.edgeOf? (Graph.owners components places) f = some e ∧ f.DrawnBy components places e.written := by
  obtain ⟨⟨source, hsource⟩, target, htarget⟩ := h
  refine ⟨⟨source, target, f.type⟩, ?_, source, target, hsource, htarget, rfl⟩
  simp [Graph.edgeOf?, hsource, htarget]

-- The edges of a drawing are lines for its flows, if all ends are owned.
theorem forall₂_drawnBy_drawing {r : Result} {places : List (String × String)}
    (h : ∀ f ∈ r.flows, f.Owned r.components places) :
    List.Forall₂ (DrawnBy r.components places) r.flows
      ((Graph.drawing r places).edges.map Graph.Edge.written) := by
  rw [List.forall₂_map_right_iff]
  exact List.forall₂_filterMap fun f hf => exists_edge_of_owned (h f hf)

section Groups

variable (flows : List Flow)

theorem keys_groupById : (groupById flows).keys = (flows.map (·.id)).eraseDups :=
  OrderedMap.keys_foldl_alter (·.id) flows fun f group => group.getD [] ++ [f]

theorem entries_groupById : (groupById flows).entries =
    (flows.map (·.id)).eraseDups.map fun id => (id, flows.filter (·.id == id)) := by
  have hnodup : (groupById flows).keys.Nodup := keys_groupById flows ▸ List.nodup_eraseDups _
  have hgroup : ∀ id, ((groupById flows).get? id).getD [] = flows.filter (·.id == id) := by
    intro id
    rw [groupById, OrderedMap.getD_get?_foldl_collect Flow.id]
    rfl
  rw [OrderedMap.entries_eq_map_keys hnodup [], keys_groupById]
  simp only [hgroup]

-- A partition of flows into groups of one id each, in the order in which the ids come first.
structure Partitions (groups : OrderedMap String (List Flow)) : Prop where
  firstSeen : FirstSeen (fun _ => True) (flows.map (·.id)) groups.keys
  perm : groups.values.flatten.Perm flows
  ne_nil : ∀ group ∈ groups.values, group ≠ []
  eq_filter : ∀ id group, (id, group) ∈ groups.entries → group = flows.filter (·.id == id)

theorem partitions_groupById : Partitions flows (groupById flows) where
  firstSeen := by
    rw [keys_groupById, ← List.filter_true (flows.map (·.id)).eraseDups]
    exact firstSeen_filter (fun _ => iff_of_true rfl trivial) _
  perm := by
    rw [OrderedMap.values, entries_groupById, List.map_map, ← List.flatMap_def]
    refine (List.flatMap_filter_perm (·.id) (List.nodup_eraseDups _) flows).trans (.of_eq ?_)
    rw [List.filter_eq_self]
    intro f hf
    simpa [List.mem_eraseDups] using ⟨f, hf, rfl⟩
  ne_nil group hgroup := by
    rw [OrderedMap.values, entries_groupById, List.map_map] at hgroup
    obtain ⟨id, hid, rfl⟩ := List.mem_map.mp hgroup
    obtain ⟨f, hf, rfl⟩ := List.mem_map.mp (List.mem_eraseDups.mp hid)
    exact List.ne_nil_of_mem (List.mem_filter.mpr ⟨hf, BEq.rfl⟩)
  eq_filter id group hgroup := by
    rw [entries_groupById] at hgroup
    obtain ⟨_, -, heq⟩ := List.mem_map.mp hgroup
    cases heq
    rfl

end Groups

-- A group is what the command shows that lists the flows of one id.
theorem runCommand_flows_of_mem {s : CommandLine.Session} {path : Path} {r : Result}
    (hr : analyze s.grammar s.disk path.text = .ok r) {id : String} {group : List Flow}
    (hgroup : (id, group) ∈ (groupById r.flows).entries) :
    s.runCommand (.flows path (some id)) = s.done [CommandLine.Session.flowsTable group] := by
  have heq := (partitions_groupById r.flows).eq_filter id group hgroup
  have hne := (partitions_groupById r.flows).ne_nil group (List.mem_map_of_mem hgroup)
  rw [CommandLine.Session.runCommand, CommandLine.Session.withResult, hr]
  simp only [Option.all_some, ← heq, CommandLine.Session.listOr]
  rw [if_neg (by simpa using hne)]

-- What is kept of some flows is what can be drawn of them: the first occurrences of those whose ends
-- have an owner, each of them in a line of its own. The groups of flows are what is listed under
-- their ids.
theorem finalize_matches_drawing (flows : List Flow) (components : List Component) :
    (∀ places, FirstSeen (Owned components places) flows (finalize flows components)) ∧
    (∀ (cwd : List String) (r : Result) (text : String), r.components = components →
      r.flows = finalize flows components → Graph.render cwd r "" = .ok text →
      ∃ places g edges, Graph.locations cwd components = .ok places ∧
        Graph.build cwd r.components r.flows r.conflicts = .ok g ∧
        text = Graph.page (g.vertices.map Graph.Vertex.written) edges ∧
        List.Forall₂ (DrawnBy components places) (finalize flows components) edges) ∧
    finalize (finalize flows components) components = finalize flows components ∧
    (∀ more, components ⊆ more → (finalize flows components).Sublist (finalize flows more)) ∧
    Partitions flows (groupById flows) ∧
    (∀ (s : CommandLine.Session) (path : Path) (r : Result) (id : String) (group : List Flow),
      analyze s.grammar s.disk path.text = .ok r → r.flows = flows →
      (id, group) ∈ (groupById flows).entries →
      s.runCommand (.flows path (some id)) = s.done [CommandLine.Session.flowsTable group]) := by
  refine ⟨firstSeen_finalize flows components, ?_, finalize_finalize flows components,
    fun _ h => finalize_sublist h flows, partitions_groupById flows, ?_⟩
  · rintro cwd r text rfl hflows hrender
    obtain ⟨places, hplaces⟩ := Graph.exists_locations_of_render hrender
    have htext := Except.ok.inj (hrender.symm.trans (Graph.render_whole hplaces))
    have howned : ∀ f ∈ r.flows, f.Owned r.components places := fun f hf =>
      (((firstSeen_finalize flows r.components places).mem_iff f).mp (hflows ▸ hf)).2
    exact ⟨places, _, _, hplaces, Graph.build_eq_drawing hplaces, htext,
      hflows ▸ forall₂_drawnBy_drawing howned⟩
  · rintro s path r id group hr rfl hgroup
    exact runCommand_flows_of_mem hr hgroup

-- Flows between two components of one name: one that comes twice, one from an item that is nowhere,
-- and one that says nothing about the files, so that its ends are looked for in all of them.
namespace Handed

def between (source sourceFile targetFile : String) : Flow :=
  ⟨"theme-flow", source, "Card-theme", "prop-to-prop", sourceFile, targetFile⟩

def filed : Flow := between "Card-theme" "/app/a/Card.js" "/app/b/Card.js"

def unfiled : Flow := between "Card-useTheme" "" ""

def flows : List Flow :=
  [filed, between "Card-gone" "/app/a/Card.js" "/app/b/Card.js", filed, unfiled]

def result : Result :=
  { Graph.Twins.result with flows := finalize flows Graph.Twins.components }

theorem kept : finalize flows Graph.Twins.components = [filed, unfiled] := by
  decide +kernel

end Handed

theorem finalize_matches_drawing_handed :
    finalize Handed.flows Graph.Twins.components = [Handed.filed, Handed.unfiled] ∧
    ∃ (places : List (String × String)) (g : Graph) (edges : List String),
      Graph.render ["app"] Handed.result "" =
        .ok (Graph.page (g.vertices.map Graph.Vertex.written) edges) ∧
      List.Forall₂ (DrawnBy Graph.Twins.components places) [Handed.filed, Handed.unfiled] edges := by
  have hrender := Graph.render_whole (r := Handed.result) Graph.Twins.locations_eq
  obtain ⟨-, hdrawn, -⟩ := finalize_matches_drawing Handed.flows Graph.Twins.components
  obtain ⟨places, g, edges, -, -, htext, hedges⟩ := hdrawn ["app"] Handed.result _ rfl rfl hrender
  rw [Handed.kept] at hedges
  exact ⟨Handed.kept, places, g, edges, hrender.trans (congrArg Except.ok htext), hedges⟩

end Flow

end PropFlow
