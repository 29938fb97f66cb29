import Mathlib.Data.List.Nodup
import PropFlow.Proofs.Component.Items
import PropFlow.Proofs.Distinct

namespace PropFlow

open Syntax

namespace Item

-- Items in which each setter stands somewhere behind a state of its flow.
def Paired (items : List Item) : Prop :=
  ∀ before setter, before ++ [setter] <+: items → setter.kind = .setter →
    ∃ state ∈ before, state.kind = .state ∧ state.flowId = setter.flowId

namespace Paired

variable {items : List Item}

theorem concat (h : Paired items) {item : Item}
    (hitem : item.kind = .setter → ∃ state ∈ items, state.kind = .state ∧ state.flowId = item.flowId) :
    Paired (items ++ [item]) := by
  intro before setter hbefore hkind
  rcases List.prefix_concat_iff.mp hbefore with heq | hbefore
  · obtain ⟨rfl, hsingle⟩ := List.append_inj' heq rfl
    cases hsingle
    exact hitem hkind
  · exact h before setter hbefore hkind

theorem append (h : Paired items) {rest : List Item} (hrest : ∀ item ∈ rest, item.kind ≠ .setter) :
    Paired (items ++ rest) := by
  induction rest generalizing items with
  | nil => simpa using h
  | cons item rest ih =>
      obtain ⟨hitem, hrest⟩ := List.forall_mem_cons.mp hrest
      rw [List.append_cons]
      exact ih (h.concat fun hkind => absurd hkind hitem) hrest

theorem eraseDups (h : Paired items) : Paired items.eraseDups := by
  intro front setter hfront hkind
  obtain ⟨before, hbefore, rfl⟩ := List.exists_isPrefix_of_eraseDups hfront
  obtain ⟨state, hstate, hsame⟩ := h before setter hbefore hkind
  exact ⟨state, List.mem_eraseDups.mpr hstate, hsame⟩

end Paired

-- What the nodes of a body bring one after another, with the names of slots that are told on the
-- way: a setter comes right behind its state.
inductive Brought (component : String) : List Item → List String → Prop
  | nil : Brought component [] []
  | alone {items : List Item} {names : List String} {item : Item} :
      Brought component items names → item.Alone component → Brought component (items ++ [item]) names
  | pair {items : List Item} {names : List String} (state setter : String) :
      Brought component items names →
      Brought component (items ++ [create component state .state (flowOf state) none]
        ++ [create component setter .setter (flowOf state) none]) (names ++ [state, setter])

-- The items that carry the name of a slot.
def isSlot (item : Item) : Bool :=
  item.kind = .state ∨ item.kind = .setter

namespace Brought

variable {component : String} {items : List Item} {names : List String}

theorem paired (h : Brought component items names) : Paired items := by
  induction h with
  | nil =>
      intro before setter hbefore
      simp at hbefore
  | alone _ hitem ih => exact ih.concat fun hkind => absurd hkind hitem.kind_ne_setter
  | @pair items _ state setter _ ih =>
      have hstate : Paired (items ++ [create component state .state (flowOf state) none]) :=
        ih.concat nofun
      exact hstate.concat fun _ => ⟨_, List.mem_append_right _ List.mem_cons_self, rfl, rfl⟩

theorem kind_ne_prop (h : Brought component items names) : ∀ item ∈ items, item.kind ≠ .prop := by
  induction h with
  | nil => simp
  | alone _ hitem ih =>
      exact List.forall_mem_append.mpr ⟨ih, List.forall_mem_singleton.mpr hitem.kind_ne_prop⟩
  | pair state setter _ ih =>
      simp only [List.forall_mem_append, List.forall_mem_singleton]
      exact ⟨⟨ih, nofun⟩, nofun⟩

theorem map_name_slots (h : Brought component items names) :
    (items.filter isSlot).map (·.name) = names := by
  induction h with
  | nil => rfl
  | @alone _ _ item _ hitem ih =>
      have hslot : isSlot item = false := by simp [isSlot, hitem.kind_ne_state, hitem.kind_ne_setter]
      rw [List.filter_append, List.filter_cons_of_neg (by simp [hslot]), List.filter_nil,
        List.append_nil, ih]
  | pair state setter _ ih =>
      rw [List.filter_append, List.filter_append, List.map_append, List.map_append, ih,
        List.append_assoc]
      rfl

theorem mem_names_iff (h : Brought component items names) {name : String} : name ∈ names ↔
    ∃ item ∈ items, (item.kind = .state ∨ item.kind = .setter) ∧ item.name = name := by
  rw [← h.map_name_slots]
  simp [isSlot, and_assoc]

end Brought

-- An item with its key, from which the id and the name are made, and the flow of most kinds.
def Keyed (component : String) (item : Item) : Prop :=
  ∃ key, item.id = component ++ "-" ++ key ∧
    item.name = (if item.kind = .contextConsumer then key ++ "()" else key) ∧
    (item.kind ∈ [.state, .function, .prop] → item.flowId = key ++ "-flow") ∧
    (item.kind ∈ [.contextProvider, .contextConsumer] → ∃ context, item.flowId = context ++ "-context")

theorem Made.keyed {component : String} {item : Item} (h : item.Made component) : item.Keyed component := by
  cases h with
  | state key => exact ⟨key, rfl, rfl, fun _ => rfl, nofun⟩
  | setter key state => exact ⟨key, rfl, rfl, nofun, nofun⟩
  | consumer key => exact ⟨key, rfl, rfl, nofun, fun _ => ⟨key, rfl⟩⟩
  | provider context => exact ⟨context ++ "Provider", rfl, rfl, nofun, fun _ => ⟨context, rfl⟩⟩
  | function key => exact ⟨key, rfl, rfl, fun _ => rfl, nofun⟩
  | prop key => exact ⟨key, rfl, rfl, fun _ => rfl, nofun⟩

-- An item is known by its id, kind and flow: its name is made from the key in the id.
theorem Keyed.eq_of_marks {component : String} {a b : Item} (ha : a.Keyed component)
    (hb : b.Keyed component) (hid : a.id = b.id) (hkind : a.kind = b.kind)
    (hflow : a.flowId = b.flowId) : a = b := by
  obtain ⟨key, haId, haName, -⟩ := ha
  obtain ⟨key', hbId, hbName, -⟩ := hb
  have hkey : key = key' := by
    rw [haId, hbId] at hid
    exact (String.append_right_inj _).mp hid
  subst hkey
  have hname : a.name = b.name := by rw [haName, hbName, hkind]
  cases a
  cases b
  simp_all

theorem nodup_marks {component : String} {items : List Item} (hnodup : items.Nodup)
    (hkeyed : ∀ item ∈ items, item.Keyed component) :
    (items.map fun item => (item.id, item.kind, item.flowId)).Nodup := by
  refine List.Nodup.map_on (fun a ha b hb hmarks => ?_) hnodup
  obtain ⟨hid, hkind, hflow⟩ := by simpa only [Prod.mk.injEq] using hmarks
  exact (hkeyed a ha).eq_of_marks (hkeyed b hb) hid hkind hflow

end Item

namespace Harvest

variable {component : String} {h : Harvest}

theorem items_add {brought : List Item} (hitems : h.items = brought.eraseDups) (item : Item) :
    (h.add item).items = (brought ++ [item]).eraseDups := by
  rw [List.eraseDups_concat, add, hitems]
  by_cases hmem : item ∈ brought
  · rw [if_pos hmem, if_pos (List.mem_eraseDups.mpr hmem), hitems]
  · rw [if_neg hmem, if_neg (mt List.mem_eraseDups.mp hmem)]

theorem items_foldl_add {brought : List Item} (f : String → Item) (keys : List String)
    (hitems : h.items = brought.eraseDups) :
    (keys.foldl (fun h key => h.add (f key)) h).items = (brought ++ keys.map f).eraseDups := by
  induction keys generalizing h brought with
  | nil => simpa using hitems
  | cons key rest ih =>
      rw [List.foldl_cons, ih (items_add hitems (f key)), List.map_cons, List.append_assoc]
      rfl

-- The harvest after the two slots of a state hook have been named.
def afterSlots (h : Harvest) (stem : String) (first second : Option Node) : Harvest :=
  ((h.slotName first "state").2.slotName second stem).2

-- The names of the two slots.
def stateName (h : Harvest) (first : Option Node) : String :=
  (h.slotName first "state").1

def setterName (h : Harvest) (stem : String) (first second : Option Node) : String :=
  ((h.slotName first "state").2.slotName second stem).1

theorem statePair_cons_cons (h : Harvest) (stem : String) (first second : Option Node)
    (rest : List (Option Node)) : h.statePair component stem (first :: second :: rest) =
      (((h.afterSlots stem first second).note
        (.statePair (h.stateName first) (h.setterName stem first second))).add
        (.create component (h.stateName first) .state (Item.flowOf (h.stateName first)) none)).add
        (.create component (h.setterName stem first second) .setter (Item.flowOf (h.stateName first)) none) :=
  rfl

@[simp] theorem items_afterSlots (h : Harvest) (stem : String) (first second : Option Node) :
    (h.afterSlots stem first second).items = h.items := by
  simp [afterSlots]

-- The names of slots that a harvest has told.
def slotNames (h : Harvest) : List String :=
  h.notes.flatMap Note.slotNames

@[simp] theorem slotNames_note (h : Harvest) (n : Note) :
    (h.note n).slotNames = h.slotNames ++ n.slotNames := by
  simp [slotNames, note]

@[simp] theorem slotNames_add (h : Harvest) (item : Item) : (h.add item).slotNames = h.slotNames := by
  simp [slotNames]

@[simp] theorem slotNames_slotName (h : Harvest) (slot : Option Node) (stem : String) :
    (h.slotName slot stem).2.slotNames = h.slotNames := by
  simp [slotNames]

@[simp] theorem placeholders_add (h : Harvest) (item : Item) :
    (h.add item).placeholders = h.placeholders := by
  unfold add
  split <;> rfl

-- What made-up names start with.
def stems : List String :=
  ["state", "setter", "dispatch"]

theorem mem_stems_of_stateSlots? {site : Site} {pair : String × List (Option Node)}
    (hslots : stateSlots? site = some pair) : pair.1 ∈ stems := by
  have hsetter : ∀ {hook stem : String}, setterStem? hook = some stem → stem ∈ stems := by
    intro hook stem hstem
    unfold setterStem? at hstem
    split at hstem <;> cases hstem <;> decide
  unfold stateSlots? at hslots
  split at hslots
  · obtain ⟨stem, hstem, hpattern⟩ := Option.bind_eq_some_iff.mp hslots
    obtain ⟨hook, -, hstem⟩ := Option.bind_eq_some_iff.mp hstem
    obtain ⟨pattern, -, rfl⟩ := Option.map_eq_some_iff.mp hpattern
    exact hsetter hstem
  · cases hslots

-- No stem has a digit, so the number can be read off a made-up name.
theorem number_inj {stem stem' : String} (hstem : stem ∈ stems) (hstem' : stem' ∈ stems) {i j : Nat}
    (h : stem ++ toString i = stem' ++ toString j) : i = j := by
  have hstems : ∀ stem ∈ stems, stem.toList.filter Char.isDigit = [] := by decide
  have hnumber : ∀ n : Nat, (toString n).toList.filter Char.isDigit = Nat.toDigits 10 n := by
    intro n
    rw [Nat.toString_eq_ofList_toDigits, String.toList_ofList]
    exact List.filter_eq_self.mpr fun c hc => Nat.isDigit_of_mem_toDigits (by decide) (by decide) hc
  have hdigits := congrArg (fun name => name.toList.filter Char.isDigit) h
  simp only [String.toList_append, List.filter_append, hstems _ hstem, hstems _ hstem', hnumber,
    List.nil_append] at hdigits
  simpa using congrArg (fun ds => Nat.ofDigitChars 10 ds 0) hdigits

def isIdentifier (slot : Option Node) : Bool :=
  slot.any (·.kind == "identifier")

-- The slots that have been named, each with its name: an identifier names its slot, and every other
-- slot takes the next number.
inductive Named : List (Option Node × String) → Nat → Prop
  | nil : Named [] 0
  | own {given : List (Option Node × String)} {count : Nat} {n : Node} : Named given count →
      n.kind = "identifier" → Named (given ++ [(some n, n.text)]) count
  | madeUp {given : List (Option Node × String)} {count : Nat} {slot : Option Node} {stem : String} :
      Named given count → isIdentifier slot = false → stem ∈ stems →
      Named (given ++ [(slot, stem ++ toString count)]) (count + 1)

namespace Named

variable {given : List (Option Node × String)} {count : Nat}

theorem slotName (hn : Named given h.placeholders) (slot : Option Node) {stem : String}
    (hstem : stem ∈ stems) : Named (given ++ [(slot, (h.slotName slot stem).1)])
      (h.slotName slot stem).2.placeholders := by
  unfold Harvest.slotName
  cases hslot : slot.filter (·.kind == "identifier") with
  | some n =>
      obtain ⟨rfl, hkind⟩ := Option.filter_eq_some_iff.mp hslot
      exact hn.own (by simpa using hkind)
  | none =>
      refine hn.madeUp ?_ hstem
      rw [isIdentifier, ← Option.isSome_filter, hslot]
      rfl

theorem eq_text (hn : Named given count) {n : Node} {name : String} (hmem : (some n, name) ∈ given)
    (hkind : n.kind = "identifier") : name = n.text := by
  induction hn with
  | nil => cases hmem
  | own _ _ ih =>
      rcases List.mem_append.mp hmem with hmem | hmem
      · exact ih hmem
      · cases List.mem_singleton.mp hmem
        rfl
  | madeUp _ hslot _ ih =>
      rcases List.mem_append.mp hmem with hmem | hmem
      · exact ih hmem
      · cases List.mem_singleton.mp hmem
        simp [isIdentifier, hkind] at hslot

-- The names that have been made up.
def placeholderNames (given : List (Option Node × String)) : List String :=
  (given.filter fun g => !isIdentifier g.1).map Prod.snd

theorem exists_number (hn : Named given count) {name : String} (hname : name ∈ placeholderNames given) :
    ∃ stem ∈ stems, ∃ i < count, name = stem ++ toString i := by
  induction hn with
  | nil => cases hname
  | own _ hkind ih =>
      apply ih
      simpa [placeholderNames, isIdentifier, hkind] using hname
  | @madeUp _ count _ stem _ hslot hstem ih =>
      rw [placeholderNames, List.filter_append, List.filter_cons_of_pos (by simp [hslot]),
        List.map_append, List.mem_append] at hname
      rcases hname with hname | hname
      · obtain ⟨stem, hstem, i, hi, rfl⟩ := ih hname
        exact ⟨stem, hstem, i, by omega, rfl⟩
      · exact ⟨stem, hstem, count, by omega, by simpa using hname⟩

theorem nodup_placeholderNames (hn : Named given count) : (placeholderNames given).Nodup := by
  induction hn with
  | nil => exact List.nodup_nil
  | own _ hkind ih => simpa [placeholderNames, isIdentifier, hkind] using ih
  | @madeUp given count _ stem hn hslot hstem ih =>
      rw [placeholderNames, List.filter_append, List.filter_cons_of_pos (by simp [hslot]),
        List.map_append]
      refine List.nodup_append.mpr ⟨ih, by simp, ?_⟩
      intro name hname other hother
      obtain ⟨stem', hstem', i, hi, rfl⟩ := hn.exists_number hname
      rw [show other = stem ++ toString count by simpa using hother]
      intro heq
      exact absurd (number_inj hstem' hstem heq) (by omega)

end Named

-- The two slots that are named when a state hook's result is taken apart.
def namedSlots : List (Option Node) → List (Option Node)
  | first :: second :: _ => [first, second]
  | _ => []

-- The slots that the node of a site has named.
def siteSlots (site : Site) : List (Option Node) :=
  match stateSlots? site with
  | some pair => namedSlots pair.2
  | none => []

-- A harvest that holds what has been brought, each item once, and that has named the given slots.
structure Yields (component : String) (slots : List (Option Node)) (h : Harvest) : Prop where
  items : ∃ brought, Item.Brought component brought h.slotNames ∧ h.items = brought.eraseDups
  slots : ∃ given, Named given h.placeholders ∧ given.map Prod.fst = slots ∧
    given.map Prod.snd = h.slotNames

namespace Yields

variable {slots : List (Option Node)}

theorem adds (hy : Yields component slots h) {h' : Harvest} (ha : Adds component h h') :
    Yields component slots h' := by
  induction ha with
  | refl => exact hy
  | @note mid n _ _ hnames ih =>
      have hsame : (mid.note n).slotNames = mid.slotNames := by rw [slotNames_note, hnames, List.append_nil]
      refine ⟨?_, ?_⟩
      · rw [hsame]
        exact ih.items
      · rw [hsame]
        exact ih.slots
  | add _ hitem ih =>
      obtain ⟨brought, hbrought, hitems⟩ := ih.items
      refine ⟨⟨_, ?_, items_add hitems _⟩, by simpa using ih.slots⟩
      rw [slotNames_add]
      exact hbrought.alone hitem

theorem statePair (hy : Yields component slots h) {stem : String} (hstem : stem ∈ stems)
    (pattern : List (Option Node)) :
    Yields component (slots ++ namedSlots pattern) (h.statePair component stem pattern) := by
  match pattern with
  | [] => simpa [namedSlots, Harvest.statePair] using hy
  | [_] => simpa [namedSlots, Harvest.statePair] using hy
  | first :: second :: rest =>
      obtain ⟨brought, hbrought, hitems⟩ := hy.items
      obtain ⟨given, hgiven, hslots, hnames⟩ := hy.slots
      have hstate : "state" ∈ stems := by decide
      have hnamed : ((h.afterSlots stem first second).note (.statePair (h.stateName first)
          (h.setterName stem first second))).items = brought.eraseDups := by
        rw [← hitems]
        exact items_afterSlots h stem first second
      have htold : (h.statePair component stem (first :: second :: rest)).slotNames =
          h.slotNames ++ [h.stateName first, h.setterName stem first second] := by
        simp [statePair_cons_cons, afterSlots, Note.slotNames]
      have hcount : (h.statePair component stem (first :: second :: rest)).placeholders =
          (h.afterSlots stem first second).placeholders := by
        simp [statePair_cons_cons, note]
      refine ⟨⟨_, ?_, items_add (items_add hnamed _) _⟩, ?_⟩
      · rw [htold]
        exact hbrought.pair _ _
      · rw [htold, hcount]
        refine ⟨_, (hgiven.slotName first hstate).slotName second hstem, ?_, ?_⟩
        · simp [hslots, namedSlots]
        · simp [hnames, stateName, setterName]

theorem visit (hy : Yields component slots h) (site : Site) :
    Yields component (slots ++ siteSlots site) (h.visit component site) := by
  obtain ⟨mid, hmid, hvisit⟩ := visit_adds component h site
  refine adds ?_ hvisit
  unfold siteSlots
  cases hslots : stateSlots? site with
  | none => simpa [addPair] using hy.adds hmid
  | some pair => exact (hy.adds hmid).statePair (mem_stems_of_stateSlots? hslots) pair.2

theorem foldl_visit (hy : Yields component slots h) (sites : List Site) :
    Yields component (slots ++ sites.flatMap siteSlots) (sites.foldl (Harvest.visit component) h) := by
  induction sites generalizing slots h with
  | nil => simpa using hy
  | cons site rest ih =>
      rw [List.flatMap_cons, ← List.append_assoc]
      exact ih (hy.visit site)

end Yields

-- The sites of a function's body, which are walked for items.
def bodySites (func : Node) : List Site :=
  match func.body? with
  | some body => Site.walk ⟨body, [func]⟩
  | none => []

-- What the body brings, before the props.
def ofBody (func : Node) (component : String) : Harvest :=
  (bodySites func).foldl (visit component) (empty.note (.componentEntered component))

theorem ofBody_yields (func : Node) (component : String) :
    Yields component ((bodySites func).flatMap siteSlots) (ofBody func component) := by
  have hstart : Yields component [] (empty.note (.componentEntered component)) :=
    ⟨⟨[], .nil, rfl⟩, [], .nil, rfl, rfl⟩
  exact hstart.foldl_visit (bodySites func)

def propItem (component key : String) : Item :=
  .create component key .prop (Item.flowOf key) none

theorem propItem_injective (component : String) : Function.Injective (propItem component) :=
  fun _ _ h => congrArg Item.name h

theorem kind_of_mem_map_propItem {keys : List String} :
    ∀ item ∈ keys.map (propItem component), item.kind = .prop :=
  List.forall_mem_map.mpr fun _ _ => rfl

-- The harvest after the body, with the notes of the search for props.
def ofBodyNoted (func : Node) (component : String) : Harvest :=
  let body := ofBody func component
  { body with notes := body.notes ++ (PropSource.ofFunction func).notes component }

-- The props come behind what the body brings.
theorem ofFunction_eq (func : Node) (component : String) :
    let all := (PropSource.ofFunction func).names.foldl (fun h key => h.add (propItem component key))
      (ofBodyNoted func component)
    ofFunction func component = all.note (.componentDone component all.items.length) := by
  unfold ofFunction ofBodyNoted ofBody bodySites propItem
  cases func.body? <;> rfl

theorem slotNames_foldl_add (f : String → Item) (keys : List String) (h : Harvest) :
    (keys.foldl (fun h key => h.add (f key)) h).slotNames = h.slotNames := by
  induction keys generalizing h with
  | nil => rfl
  | cons key rest ih => rw [List.foldl_cons, ih, slotNames_add]

theorem slotNames_propNotes (source : PropSource) :
    (source.notes component).flatMap Note.slotNames = [] := by
  cases source <;> simp [PropSource.notes, PropSource.steps, Note.slotNames]

theorem slotNames_ofFunction (func : Node) (component : String) :
    (ofFunction func component).slotNames = (ofBody func component).slotNames := by
  rw [ofFunction_eq, slotNames_note, slotNames_foldl_add]
  simp [ofBodyNoted, slotNames, slotNames_propNotes, Note.slotNames]

theorem items_ofFunction (func : Node) (component : String) :
    ∃ brought, Item.Brought component brought (ofFunction func component).slotNames ∧
      (ofFunction func component).items =
        (brought ++ (PropSource.ofFunction func).names.map (propItem component)).eraseDups := by
  obtain ⟨brought, hbrought, hitems⟩ := (ofBody_yields func component).items
  have hnoted : (ofBodyNoted func component).items = brought.eraseDups := hitems
  refine ⟨brought, slotNames_ofFunction func component ▸ hbrought, ?_⟩
  rw [ofFunction_eq]
  exact items_foldl_add (propItem component) _ hnoted

-- Nothing that the body brings is a prop, so no prop is left out for it.
theorem eraseDups_brought_append {brought : List Item} {names : List String}
    (hbrought : Item.Brought component brought names) (keys : List String) :
    (brought ++ keys.map (propItem component)).eraseDups =
      brought.eraseDups ++ keys.eraseDups.map (propItem component) := by
  have hprops : ∀ item ∈ keys.map (propItem component), item ∉ brought := by
    intro item hitem hmem
    exact hbrought.kind_ne_prop item hmem (kind_of_mem_map_propItem item hitem)
  rw [List.eraseDups_append, List.removeAll, List.filter_eq_self.mpr (by simpa using hprops),
    List.eraseDups_map (propItem_injective component)]

-- No prop is a slot, so the slots are those of the body.
theorem mem_slotNames_ofFunction_iff (func : Node) (component name : String) :
    name ∈ (ofFunction func component).slotNames ↔ ∃ item ∈ (ofFunction func component).items,
      (item.kind = .state ∨ item.kind = .setter) ∧ item.name = name := by
  obtain ⟨brought, hbrought, hitems⟩ := items_ofFunction func component
  rw [hbrought.mem_names_iff, hitems]
  constructor
  · rintro ⟨item, hmem, hslot, hname⟩
    exact ⟨item, List.mem_eraseDups.mpr (List.mem_append_left _ hmem), hslot, hname⟩
  · rintro ⟨item, hmem, hslot, hname⟩
    rcases List.mem_append.mp (List.mem_eraseDups.mp hmem) with hmem | hprop
    · exact ⟨item, hmem, hslot, hname⟩
    · simp [kind_of_mem_map_propItem item hprop] at hslot

-- What holds of the items that a function component is given.
structure Orderly (component : String) (func : Node) (h : Harvest) : Prop where
  items_nodup : h.items.Nodup
  marks_nodup : (h.items.map fun item => (item.id, item.kind, item.flowId)).Nodup
  paired : Item.Paired h.items
  keyed : ∀ item ∈ h.items, item.Keyed component
  props_last : ∃ body props, h.items = body ++ props ∧ (∀ item ∈ body, item.kind ≠ .prop) ∧
    (∀ item ∈ props, item.kind = .prop) ∧
    props.map (·.name) = (PropSource.ofFunction func).names.eraseDups
  -- Every slot of a state hook in the body has a name: its own, or one made up for it alone.
  slots_named : ∃ given : List (Option Node × String),
    given.map Prod.fst = (bodySites func).flatMap siteSlots ∧ given.map Prod.snd = h.slotNames ∧
    (∀ n name, (some n, name) ∈ given → n.kind = "identifier" → name = n.text) ∧
    (Named.placeholderNames given).Nodup
  -- The names are those of the states and setters.
  mem_slotNames_iff : ∀ name, name ∈ h.slotNames ↔
    ∃ item ∈ h.items, (item.kind = .state ∨ item.kind = .setter) ∧ item.name = name

theorem ofFunction_orderly (func : Node) (component : String) :
    Orderly component func (ofFunction func component) := by
  obtain ⟨brought, hbrought, hitems⟩ := items_ofFunction func component
  obtain ⟨given, hgiven, hslots, hnames⟩ := (ofBody_yields func component).slots
  have hnodup : (ofFunction func component).items.Nodup := hitems ▸ List.nodup_eraseDups _
  have hkeyed : ∀ item ∈ (ofFunction func component).items, item.Keyed component :=
    fun item hitem => ((ofFunction_gathered func component).made item hitem).keyed
  constructor
  case items_nodup => exact hnodup
  case marks_nodup => exact Item.nodup_marks hnodup hkeyed
  case paired =>
    rw [hitems]
    refine (hbrought.paired.append fun item hitem => ?_).eraseDups
    simp [kind_of_mem_map_propItem item hitem]
  case keyed => exact hkeyed
  case props_last =>
    refine ⟨_, _, hitems.trans (eraseDups_brought_append hbrought _), ?_, kind_of_mem_map_propItem, ?_⟩
    · intro item hitem
      exact hbrought.kind_ne_prop item (List.mem_eraseDups.mp hitem)
    · rw [List.map_map]
      exact List.map_id _
  case slots_named =>
    refine ⟨given, hslots, ?_, fun n name => hgiven.eq_text, hgiven.nodup_placeholderNames⟩
    rw [hnames, slotNames_ofFunction]
  case mem_slotNames_iff => exact mem_slotNames_ofFunction_iff func component

end Harvest

end PropFlow
