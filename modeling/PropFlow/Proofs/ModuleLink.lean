import PropFlow.ModuleLink
import PropFlow.Proofs.Except
import PropFlow.Proofs.FileTree.RealPath

namespace PropFlow

namespace OrderedMap

variable {κ α : Type} [DecidableEq κ]

theorem mem_alterEntries {key : κ} {f : Option α → α} {entries : List (κ × α)} {entry : κ × α}
    (h : entry ∈ alterEntries key f entries) :
    entry ∈ entries ∨ ∃ old, entry = (key, f old) ∧ ∀ value ∈ old, (key, value) ∈ entries := by
  induction entries with
  | nil =>
      obtain rfl : entry = (key, f none) := by simpa [alterEntries] using h
      exact .inr ⟨none, rfl, by simp⟩
  | cons first rest ih =>
      obtain ⟨k, value⟩ := first
      rw [alterEntries] at h
      split at h
      · rename_i hk
        subst hk
        rcases List.mem_cons.mp h with rfl | h
        · exact .inr ⟨some value, rfl, by simp⟩
        · exact .inl (List.mem_cons_of_mem _ h)
      · rcases List.mem_cons.mp h with rfl | h
        · exact .inl List.mem_cons_self
        · rcases ih h with h | ⟨old, rfl, hold⟩
          · exact .inl (List.mem_cons_of_mem _ h)
          · exact .inr ⟨old, rfl, fun v hv => List.mem_cons_of_mem _ (hold v hv)⟩

-- A map built up by keeping old values holds nothing but what was put in.
theorem mem_foldl_insertIfNew {pairs : List (κ × α)} {m : OrderedMap κ α} {entry : κ × α}
    (h : entry ∈ (pairs.foldl (fun m (key, value) => m.insertIfNew key value) m).entries) :
    entry ∈ m.entries ∨ entry ∈ pairs := by
  induction pairs generalizing m with
  | nil => exact .inl h
  | cons pair rest ih =>
      obtain ⟨key, value⟩ := pair
      rcases ih h with h | h
      · rcases mem_alterEntries h with h | ⟨old, rfl, hold⟩
        · exact .inl h
        · cases old with
          | none => exact .inr List.mem_cons_self
          | some old => exact .inl (hold old rfl)
      · exact .inr (List.mem_cons_of_mem _ h)

end OrderedMap

namespace ModuleLink

-- A path that is the real path of some file.
def IsTarget (disk : Disk) (target : Path) : Prop :=
  ∃ path, disk.isFile path = .ok true ∧ disk.realPath path = .ok target

theorem firstFile?_eq_some {disk : Disk} {paths : List Path} {path : Path}
    (h : firstFile? disk paths = .ok (some path)) : path ∈ paths ∧ disk.isFile path = .ok true := by
  induction paths with
  | nil => cases h
  | cons first rest ih =>
      rw [firstFile?] at h
      split at h
      · rename_i hfile
        cases h
        exact ⟨List.mem_cons_self, hfile⟩
      · obtain ⟨hmem, hfile⟩ := ih h
        exact ⟨List.mem_cons_of_mem _ hmem, hfile⟩
      · cases h

theorem target?_isTarget {disk : Disk} {importer target : Path} {specifier : String}
    (h : target? disk importer specifier = .ok (some target)) : IsTarget disk target := by
  unfold target? at h
  split at h
  · cases h
  · cases h
  · rename_i path hpath
    split at h
    · split at h
      · rename_i real hreal
        cases h
        unfold resolve? at hpath
        split at hpath
        · exact ⟨path, (firstFile?_eq_some hpath).2, hreal⟩
        · cases hpath
      · cases h
    · cases h

-- Where a statement names the module that it links to.
def sourceOf? (statement : Syntax.Node) : Option String :=
  if statement.kind = "import_statement" then (statement.child? .source).bind (·.stringValue?)
  else if statement.kind = "export_statement" then
    ((statement.child? .source).bind (·.stringValue?)).filter (· ≠ "")
  else none

-- The names under which a statement links to its source.
def keysOf (statement : Syntax.Node) (source : String) : List String :=
  if statement.kind = "import_statement" then importedNames statement
  else (reexportedNames statement).map (linkKey source)

-- What a statement says when its source has been looked up.
def readingOf (statement : Syntax.Node) (source : String) (target : Option Path) : Reading where
  links := target.toList.flatMap fun path => (keysOf statement source).map (·, path)
  notes :=
    if statement.kind = "import_statement" then
      target.toList.flatMap fun _ => (keysOf statement source).map (.imported · source)
    else
      .reexportFound source :: target.toList.flatMap fun _ =>
        (keysOf statement source).map (.reexported · source)

-- A statement is read by looking its source up, whatever kind it is of.
theorem ofStatement_eq (disk : Disk) (importer : Path) (statement : Syntax.Node) :
    ofStatement disk importer statement =
      match sourceOf? statement with
      | none => .ok .nothing
      | some source => (target? disk importer source).map (readingOf statement source) := by
  unfold ofStatement sourceOf?
  split
  · rename_i himport
    unfold ofImport
    cases (statement.child? .source).bind (·.stringValue?) with
    | none => rfl
    | some source =>
        rcases htarget : target? disk importer source with e | _ | path <;>
          simp [htarget, Except.map, readingOf, keysOf, himport, Reading.nothing]
  · split
    · rename_i hexport
      unfold ofExport
      cases ((statement.child? .source).bind (·.stringValue?)).filter (· ≠ "") with
      | none => rfl
      | some source =>
          rcases htarget : target? disk importer source with e | _ | path <;>
            simp [htarget, Except.map, readingOf, keysOf, hexport]
    · rfl

theorem ofStatement_isTarget {disk : Disk} {importer : Path} {statement : Syntax.Node}
    {reading : Reading} (h : ofStatement disk importer statement = .ok reading)
    {link : String × Path} (hlink : link ∈ reading.links) : IsTarget disk link.2 := by
  rw [ofStatement_eq] at h
  split at h
  · cases h
    cases hlink
  · obtain ⟨target, htarget, rfl⟩ := Except.map_eq_ok.mp h
    obtain ⟨path, hpath, hlink⟩ := List.mem_flatMap.mp hlink
    obtain ⟨name, -, rfl⟩ := List.mem_map.mp hlink
    rw [Option.mem_toList.mp hpath] at htarget
    exact target?_isTarget htarget

end ModuleLink

-- Every link of a module leads to the real path of a file.
theorem Module.links_isTarget {m : Module} {disk : Disk} {links : Links} {notes : List Note}
    (h : m.links disk = .ok (links, notes)) {target : Path} (htarget : target ∈ links.values) :
    ModuleLink.IsTarget disk target := by
  obtain ⟨readings, hreadings, heq⟩ := Except.map_eq_ok.mp h
  cases heq
  obtain ⟨link, hlink, rfl⟩ := List.mem_map.mp htarget
  rcases OrderedMap.mem_foldl_insertIfNew hlink with hlink | hlink
  · cases hlink
  · obtain ⟨reading, hreading, hlink⟩ := List.mem_flatMap.mp hlink
    obtain ⟨statement, -, hstatement⟩ := List.exists_of_mem_mapM hreadings hreading
    exact ModuleLink.ofStatement_isTarget hstatement hlink

end PropFlow
