import PropFlow.Component.Collect
import PropFlow.Proofs.Trace

namespace PropFlow

open Syntax

-- The items that a component of some name can be given.
inductive Item.Made (component : String) : Item → Prop
  | state (key : String) : Made component (create component key .state (flowOf key) none)
  | setter (key state : String) : Made component (create component key .setter (flowOf state) none)
  | consumer (key : String) :
      Made component (create component key .contextConsumer (contextOf key) (some (key ++ "()")))
  | provider (context : String) :
      Made component (create component (context ++ "Provider") .contextProvider (contextOf context) none)
  | function (key : String) : Made component (create component key .function (flowOf key) none)
  | prop (key : String) : Made component (create component key .prop (flowOf key) none)

namespace Item.Made

variable {component : String} {item : Item}

theorem kind_ne_propFunction (h : item.Made component) : item.kind ≠ .propFunction := by
  cases h <;> simp [create]

-- A prop is known by its key, and values reach it under that key.
theorem flowId_of_prop (h : item.Made component) (hkind : item.kind = .prop) :
    item.flowId = flowOf item.name := by
  cases h with
  | prop key => rfl
  | _ => cases hkind

end Item.Made

-- An item that is found by itself: a state and its setter are found together, and props last.
structure Item.Alone (component : String) (item : Item) : Prop where
  made : item.Made component
  kind_ne_state : item.kind ≠ .state
  kind_ne_setter : item.kind ≠ .setter
  kind_ne_prop : item.kind ≠ .prop

-- The names of slots that a note tells.
def Note.slotNames : Note → List String
  | statePair state setter => [state, setter]
  | _ => []

namespace Harvest

variable {component : String}

-- What a harvest becomes by notes that tell no slots and by items that are found by themselves.
inductive Adds (component : String) (h : Harvest) : Harvest → Prop
  | refl : Adds component h h
  | note {mid : Harvest} {n : Note} :
      Adds component h mid → n.isRoutine = true → n.slotNames = [] → Adds component h (mid.note n)
  | add {mid : Harvest} {item : Item} :
      Adds component h mid → item.Alone component → Adds component h (mid.add item)

namespace Adds

variable {h mid : Harvest}

theorem provider (ha : Adds component h mid) (context : String) :
    Adds component h (mid.provider component context) :=
  ha.add ⟨.provider context, nofun, nofun, nofun⟩

theorem localFunction (ha : Adds component h mid) (name : String) :
    Adds component h (mid.localFunction component name) :=
  ha.add ⟨.function name, nofun, nofun, nofun⟩

end Adds

-- The slots that the result of a state hook is taken apart into, with the stem of the setter's name.
def stateSlots? (site : Site) : Option (String × List (Option Node)) :=
  if site.node.kind = "call_expression" then
    (site.node.calleeName?.bind setterStem?).bind fun stem =>
      ((binding? site).filter (·.kind == "array_pattern")).map fun pattern => (stem, pattern.arraySlots)
  else none

def addPair (component : String) (h : Harvest) : Option (String × List (Option Node)) → Harvest
  | some (stem, slots) => h.statePair component stem slots
  | none => h

-- All that a hook adds besides a state pair comes before the pair.
theorem hookCall_adds (component : String) (h : Harvest) {site : Site} {hook : String}
    (hkind : site.node.kind = "call_expression") (hcallee : site.node.calleeName? = some hook) :
    ∃ mid, Adds component h mid ∧
      h.hookCall component site hook = mid.addPair component (stateSlots? site) := by
  rw [stateSlots?, if_pos hkind, hcallee, Option.bind_some, hookCall]
  cases setterStem? hook with
  | some stem =>
      refine ⟨h.note (.hookFound hook component), .note .refl rfl rfl, ?_⟩
      cases (binding? site).filter (·.kind == "array_pattern") <;> rfl
  | none =>
      dsimp only
      split
      · split
        · exact ⟨_, .add (.note .refl rfl rfl) ⟨.consumer _, nofun, nofun, nofun⟩, rfl⟩
        · exact ⟨_, .note .refl rfl rfl, rfl⟩
      · exact ⟨h, .refl, rfl⟩

-- The harvest with a context that a call provides, if it provides one.
def addProvided (component : String) (h : Harvest) : Option String → Harvest
  | some context => (h.note (.providerCalled context)).provider component context
  | none => h

theorem addProvided_adds (component : String) (h : Harvest) (context : Option String) :
    Adds component h (h.addProvided component context) := by
  cases context with
  | some context => exact (Adds.note .refl rfl rfl).provider context
  | none => exact .refl

theorem call_adds (h : Harvest) {site : Site} (hkind : site.node.kind = "call_expression") :
    ∃ mid, Adds component h mid ∧
      Adds component (mid.addPair component (stateSlots? site)) (h.call component site) := by
  rw [call]
  cases hcallee : site.node.calleeName? with
  | some hook =>
      obtain ⟨mid, hmid, hhook⟩ := hookCall_adds component h hkind hcallee
      exact ⟨mid, hmid, hhook ▸ addProvided_adds component _ _⟩
  | none =>
      refine ⟨h, .refl, ?_⟩
      rw [stateSlots?, if_pos hkind, hcallee]
      exact addProvided_adds component h _

theorem visit_adds_of_kind_ne (h : Harvest) {site : Site} (hkind : site.node.kind ≠ "call_expression") :
    Adds component h (h.visit component site) := by
  rw [visit, if_neg hkind]
  split
  · split
    · exact (Adds.note .refl rfl rfl).provider _
    · exact .refl
  · split
    · split
      · exact (Adds.note .refl rfl rfl).localFunction _
      · exact .refl
    · split
      · split
        · exact (Adds.note .refl rfl rfl).localFunction _
        · exact .refl
      · exact .refl

-- What one node of a body adds: notes, items that are found by themselves, and in between the state
-- pair if it calls a state hook.
theorem visit_adds (component : String) (h : Harvest) (site : Site) :
    ∃ mid, Adds component h mid ∧
      Adds component (mid.addPair component (stateSlots? site)) (h.visit component site) := by
  by_cases hkind : site.node.kind = "call_expression"
  · rw [visit, if_pos hkind]
    exact call_adds h hkind
  · refine ⟨_, visit_adds_of_kind_ne h hkind, ?_⟩
    rw [stateSlots?, if_neg hkind]
    exact .refl

-- The harvests that can come about for a component: routine notes are made, items are added that
-- the component can be given, and names are made up.
inductive Gathered (component : String) : Harvest → Prop
  | empty : Gathered component empty
  | note {h : Harvest} {n : Note} :
      Gathered component h → n.isRoutine = true → Gathered component (h.note n)
  | add {h : Harvest} {item : Item} :
      Gathered component h → item.Made component → Gathered component (h.add item)
  | slotName {h : Harvest} (slot : Option Node) (stem : String) :
      Gathered component h → Gathered component (h.slotName slot stem).2

namespace Gathered

variable {h : Harvest}

theorem append (hg : Gathered component h) {notes : List Note}
    (hnotes : ∀ n ∈ notes, n.isRoutine = true) :
    Gathered component { h with notes := h.notes ++ notes } := by
  induction notes generalizing h with
  | nil => simpa using hg
  | cons n rest ih =>
      obtain ⟨hn, hrest⟩ := List.forall_mem_cons.mp hnotes
      simpa [Harvest.note] using ih (hg.note hn) hrest

theorem statePair (hg : Gathered component h) (stem : String) (slots : List (Option Node)) :
    Gathered component (h.statePair component stem slots) := by
  unfold Harvest.statePair
  split
  · exact ((((hg.slotName _ _).slotName _ _).note rfl).add (.state _)).add (.setter _ _)
  · exact hg

theorem adds (hg : Gathered component h) {h' : Harvest} (ha : Adds component h h') :
    Gathered component h' := by
  induction ha with
  | refl => exact hg
  | note _ hroutine _ ih => exact ih.note hroutine
  | add _ hitem ih => exact ih.add hitem.made

theorem visit (hg : Gathered component h) (site : Site) :
    Gathered component (h.visit component site) := by
  obtain ⟨mid, hmid, hvisit⟩ := visit_adds component h site
  refine Gathered.adds ?_ hvisit
  cases stateSlots? site with
  | none => exact hg.adds hmid
  | some pair => exact (hg.adds hmid).statePair pair.1 pair.2

end Gathered

theorem isRoutine_of_mem_propNotes (source : PropSource) {n : Note}
    (h : n ∈ source.notes component) : n.isRoutine = true := by
  have hsteps : ∀ n ∈ source.steps, n.isRoutine = true := by
    cases source <;> simp [PropSource.steps, Note.isRoutine]
  rcases List.mem_cons.mp h with rfl | h
  · rfl
  · rcases List.mem_append.mp h with h | h
    · exact hsteps n h
    · rw [List.mem_singleton.mp h]
      rfl

theorem ofFunction_gathered (func : Node) (component : String) :
    Gathered component (ofFunction func component) := by
  have hstart : Gathered component (empty.note (.componentEntered component)) := .note .empty rfl
  unfold ofFunction
  refine Gathered.note ?_ rfl
  refine List.foldlRecOn _ _ ?_ fun h hg key _ => hg.add (.prop key)
  refine Gathered.append ?_ fun n => isRoutine_of_mem_propNotes _
  split
  · exact List.foldlRecOn _ _ hstart fun h hg site _ => hg.visit site
  · exact hstart

theorem ofClass_gathered (node : Node) (component : String) :
    Gathered component (ofClass node component) := by
  have hstart : Gathered component (empty.note (.classEntered component)) := .note .empty rfl
  exact List.foldlRecOn _ _ hstart fun h hg name _ => (hg.note rfl).add (.function name)

theorem mem_items_add {h : Harvest} {item other : Item} :
    other ∈ (h.add item).items ↔ other ∈ h.items ∨ other = item := by
  unfold add
  split
  · rename_i hmem
    constructor
    · exact Or.inl
    · rintro (hother | rfl)
      · exact hother
      · exact hmem
  · simp

@[simp] theorem items_slotName (h : Harvest) (slot : Option Node) (stem : String) :
    (h.slotName slot stem).2.items = h.items := by
  unfold slotName
  split <;> rfl

@[simp] theorem notes_slotName (h : Harvest) (slot : Option Node) (stem : String) :
    (h.slotName slot stem).2.notes = h.notes := by
  unfold slotName
  split <;> rfl

@[simp] theorem notes_add (h : Harvest) (item : Item) : (h.add item).notes = h.notes := by
  unfold add
  split <;> rfl

namespace Gathered

variable {h : Harvest}

-- Everything in a harvest is an item that the component can be given.
theorem made (hg : Gathered component h) : ∀ item ∈ h.items, item.Made component := by
  induction hg with
  | empty => simp [Harvest.empty]
  | note _ _ ih => exact ih
  | add _ hitem ih =>
      intro other hother
      rcases mem_items_add.mp hother with hother | rfl
      · exact ih other hother
      · exact hitem
  | slotName slot stem _ ih => simpa using ih

theorem isRoutine_notes (hg : Gathered component h) : ∀ n ∈ h.notes, n.isRoutine = true := by
  induction hg with
  | empty => simp [Harvest.empty]
  | note _ hn ih => exact List.forall_mem_append.mpr ⟨ih, List.forall_mem_singleton.mpr hn⟩
  | add _ _ ih => simpa using ih
  | slotName slot stem _ ih => simpa using ih

end Gathered

end Harvest

theorem Finding.gathered_of_harvest? {f : Finding} {name : String} {harvest : Harvest}
    (h : f.harvest? = some (name, harvest)) : Harvest.Gathered name harvest := by
  cases f with
  | function note func name =>
      cases h
      exact Harvest.ofFunction_gathered func _
  | klass node name =>
      cases h
      exact Harvest.ofClass_gathered node _
  | mention note => cases h

theorem Finding.made_of_component? {file : String} {f : Finding} {c : Component}
    (h : f.component? file = some c) : ∀ item ∈ c.items, item.Made c.name := by
  unfold component? at h
  split at h
  · obtain ⟨⟨name, harvest⟩, hharvest, rfl⟩ := Option.map_eq_some_iff.mp h
    exact (f.gathered_of_harvest? hharvest).made
  · cases h

end PropFlow
