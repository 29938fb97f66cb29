import PropFlow.Component.Registry

namespace PropFlow.Registry

-- A registry that knows a history of registrations: the last component of each key, and all
-- components of each name.
structure Records (r : Registry) (history : List Component) : Prop where
  byKey : ∀ key, r.byKey[key]? = history.reverse.find? (·.key == key)
  byName : ∀ name, r.byName.getD name [] = history.filter (·.name == name)

theorem records_empty : empty.Records [] where
  byKey key := by simp [empty]
  byName name := by simp [empty]

theorem Records.register {r : Registry} {history : List Component} (h : r.Records history)
    (c : Component) : (r.register c).Records (history ++ [c]) where
  byKey key := by
    rw [Registry.register, Std.HashMap.getElem?_insert, h.byKey, List.reverse_append,
      List.reverse_singleton, List.singleton_append, List.find?_cons]
    by_cases hkey : c.key == key <;> simp [hkey]
  byName name := by
    rw [Registry.register, Std.HashMap.getD_insert, h.byName, h.byName, List.filter_append]
    by_cases hname : c.name == name
    · simp [beq_iff_eq.mp hname]
    · simp [hname]

theorem Records.foldl_register {r : Registry} {history : List Component} (h : r.Records history)
    (components : List Component) :
    (components.foldl Registry.register r).Records (history ++ components) := by
  induction components generalizing r history with
  | nil => simpa using h
  | cons c rest ih =>
      have hnext := ih (h.register c)
      rwa [List.append_assoc, List.singleton_append] at hnext

theorem records_foldl_register (components : List Component) :
    (components.foldl register empty).Records components :=
  records_empty.foldl_register components

theorem get?_foldl_register (components : List Component) (name file : String) :
    (components.foldl register empty).get? name file =
      components.reverse.find? (·.key == (name, file)) :=
  (records_foldl_register components).byKey (name, file)

theorem latest?_foldl_register (components : List Component) (name : String) :
    (components.foldl register empty).latest? name = components.reverse.find? (·.name == name) := by
  rw [latest?, (records_foldl_register components).byName, List.getLast?_filter]

theorem mem_of_get? {components : List Component} {name file : String} {c : Component}
    (h : (components.foldl register empty).get? name file = some c) : c ∈ components := by
  rw [get?_foldl_register] at h
  exact List.mem_reverse.mp (List.mem_of_find?_eq_some h)

-- Whatever a tag stands for has been registered.
theorem mem_of_lookupTag? {components : List Component} {name file : String}
    {importedFrom : Option String} {c : Component}
    (h : (components.foldl register empty).lookupTag? name file importedFrom = some c) :
    c ∈ components := by
  rcases Option.or_eq_some_iff.mp h with hown | ⟨-, h⟩
  · exact mem_of_get? hown
  · rcases Option.or_eq_some_iff.mp h with himported | ⟨-, hlatest⟩
    · obtain ⟨source, -, hsource⟩ := Option.bind_eq_some_iff.mp himported
      exact mem_of_get? hsource
    · rw [latest?_foldl_register] at hlatest
      exact List.mem_reverse.mp (List.mem_of_find?_eq_some hlatest)

-- The last entry of a history that has a property.
def IsLast (P : Component → Prop) (history : List Component) (c : Component) : Prop :=
  ∃ before after, history = before ++ c :: after ∧ P c ∧ ∀ later ∈ after, ¬P later

theorem find?_reverse_eq_some_iff {p : Component → Bool} {history : List Component} {c : Component} :
    history.reverse.find? p = some c ↔ IsLast (p · = true) history c := by
  rw [List.find?_eq_some_iff_append]
  constructor
  · rintro ⟨hc, after, before, hreverse, hafter⟩
    refine ⟨before.reverse, after.reverse, ?_, hc, ?_⟩
    · rw [← List.reverse_reverse history, hreverse]
      simp
    · intro later hlater
      simpa using hafter later (List.mem_reverse.mp hlater)
  · rintro ⟨before, after, rfl, hc, hafter⟩
    refine ⟨hc, after.reverse, before.reverse, by simp, fun later hlater => ?_⟩
    simpa using hafter later (List.mem_reverse.mp hlater)

section Answers

variable {history : List Component} {name file : String}

theorem get?_eq_some_iff {c : Component} : (history.foldl register empty).get? name file = some c ↔
    IsLast (·.key = (name, file)) history c := by
  rw [get?_foldl_register, find?_reverse_eq_some_iff]
  simp only [beq_iff_eq]

theorem get?_eq_none_iff : (history.foldl register empty).get? name file = none ↔
    ∀ c ∈ history, c.key ≠ (name, file) := by
  simp [get?_foldl_register]

theorem latest?_eq_some_iff {c : Component} : (history.foldl register empty).latest? name = some c ↔
    IsLast (·.name = name) history c := by
  rw [latest?_foldl_register, find?_reverse_eq_some_iff]
  simp only [beq_iff_eq]

theorem latest?_eq_none_iff :
    (history.foldl register empty).latest? name = none ↔ ∀ c ∈ history, c.name ≠ name := by
  simp [latest?_foldl_register]

end Answers

-- What a tag stands for after a history of registrations, in the order of preference.
inductive StandsFor (history : List Component) (name file : String) (importedFrom : Option String)
    (c : Component) : Prop where
  | own (hlast : IsLast (·.key = (name, file)) history c)
  | imported (hown : ∀ d ∈ history, d.key ≠ (name, file)) (source : String)
      (hsource : importedFrom = some source) (hlast : IsLast (·.key = (name, source)) history c)
  | latest (hown : ∀ d ∈ history, d.key ≠ (name, file))
      (himported : ∀ source, importedFrom = some source → ∀ d ∈ history, d.key ≠ (name, source))
      (hlast : IsLast (·.name = name) history c)

theorem lookupTag?_eq_some_iff {history : List Component} {name file : String}
    {importedFrom : Option String} {c : Component} :
    (history.foldl register empty).lookupTag? name file importedFrom = some c ↔
      StandsFor history name file importedFrom c := by
  simp only [lookupTag?, Option.or_eq_some_iff, Option.bind_eq_some_iff, Option.bind_eq_none_iff,
    get?_eq_some_iff, get?_eq_none_iff, latest?_eq_some_iff]
  constructor
  · rintro (hown | ⟨hown, ⟨source, hsource, hlast⟩ | ⟨himported, hlast⟩⟩)
    · exact .own hown
    · exact .imported hown source hsource hlast
    · exact .latest hown himported hlast
  · rintro (hown | ⟨hown, source, hsource, hlast⟩ | ⟨hown, himported, hlast⟩)
    · exact .inl hown
    · exact .inr ⟨hown, .inl ⟨source, hsource, hlast⟩⟩
    · exact .inr ⟨hown, .inr ⟨himported, hlast⟩⟩

-- A component of the name is found in one of the three ways, since the last way asks for no file.
theorem lookupTag?_eq_none_iff {history : List Component} {name file : String}
    {importedFrom : Option String} :
    (history.foldl register empty).lookupTag? name file importedFrom = none ↔
      ∀ c ∈ history, c.name ≠ name := by
  simp only [lookupTag?, Option.or_eq_none_iff, Option.bind_eq_none_iff, get?_eq_none_iff,
    latest?_eq_none_iff]
  constructor
  · rintro ⟨-, -, hname⟩
    exact hname
  · intro hname
    have hkey : ∀ place, ∀ c ∈ history, c.key ≠ (name, place) :=
      fun place c hc hkey => hname c hc (congrArg Prod.fst hkey)
    exact ⟨hkey file, fun source _ => hkey source, hname⟩

-- A registry answers from the whole history of registrations, with the last component that fits best.
theorem answers_from_history (history : List Component) (name file : String)
    (importedFrom : Option String) :
    (∀ c, (history.foldl register empty).get? name file = some c ↔
      IsLast (·.key = (name, file)) history c) ∧
    ((history.foldl register empty).get? name file = none ↔ ∀ c ∈ history, c.key ≠ (name, file)) ∧
    (∀ c, (history.foldl register empty).lookupTag? name file importedFrom = some c ↔
      StandsFor history name file importedFrom c) ∧
    ((history.foldl register empty).lookupTag? name file importedFrom = none ↔
      ∀ c ∈ history, c.name ≠ name) :=
  ⟨fun _ => get?_eq_some_iff, get?_eq_none_iff, fun _ => lookupTag?_eq_some_iff, lookupTag?_eq_none_iff⟩

end PropFlow.Registry
