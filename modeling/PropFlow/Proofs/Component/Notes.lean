import PropFlow.Proofs.Component.Items

namespace PropFlow

open Syntax

namespace Verdict

variable (v : Verdict)

theorem accepting_outcome (label : String) : Accepting [v.outcome label] v.accepted.toNat := by
  unfold outcome
  cases v.accepted with
  | true => exact .accepted _ _ .nil
  | false => exact .routine rfl .nil

theorem accepting_functionNotes (name : Option String) :
    Accepting (v.functionNotes name) v.accepted.toNat := by
  unfold functionNotes
  refine .routine ?_ (v.accepting_outcome _)
  split <;> rfl

theorem accepting_classNotes (name : String) : Accepting (v.classNotes name) v.accepted.toNat :=
  .routine rfl (v.accepting_outcome name)

end Verdict

namespace Finding

-- The note that a finding brings along.
def ownNote? : Finding → Option Note
  | function note _ _ => some note
  | klass _ _ => none
  | mention note => some note

-- Only a verdict accepts; what a finding brings along never does.
def Plain (f : Finding) : Prop :=
  ∀ n ∈ f.ownNote?, n.isRoutine = true

theorem plain_function {note : Note} (hnote : note.isRoutine = true) (func : Node)
    (name : Option String) : (function note func name).Plain := by
  rintro n ⟨⟩
  exact hnote

theorem plain_of_ofDeclarator {note : String → Note} (hnote : ∀ name, (note name).isRoutine = true)
    {declarator : Node} {f : Finding} (h : ofDeclarator note declarator = some f) : f.Plain := by
  unfold ofDeclarator at h
  split at h
  · cases h
    exact plain_function (hnote _) _ _
  · cases h

theorem plain_of_mem_ofDeclaration {declaration : Node} {f : Finding}
    (h : f ∈ ofDeclaration declaration) : f.Plain := by
  unfold ofDeclaration at h
  split at h
  · split at h
    · rw [List.mem_singleton.mp h]
      exact plain_function rfl _ _
    · cases h
  · split at h
    · obtain ⟨declarator, -, hdeclarator⟩ := List.mem_filterMap.mp h
      exact plain_of_ofDeclarator (fun _ => rfl) hdeclarator
    · cases h

theorem plain_of_mem_ofExportedValue {value : Node} {f : Finding} (h : f ∈ ofExportedValue value) :
    f.Plain := by
  unfold ofExportedValue at h
  split at h
  · split at h
    · rw [List.mem_singleton.mp h]
      exact plain_function rfl _ _
    · rw [List.mem_singleton.mp h]
      exact plain_function rfl _ _
  · split at h
    · rw [List.mem_singleton.mp h]
      rintro n ⟨⟩
      rfl
    · cases h

theorem plain_of_mem_ofExport {statement : Node} {f : Finding} (h : f ∈ ofExport statement) :
    f.Plain := by
  unfold ofExport at h
  split at h
  · exact plain_of_mem_ofDeclaration h
  · split at h
    · exact plain_of_mem_ofExportedValue h
    · cases h

theorem plain_of_mem_atSite {site : Site} {f : Finding} (h : f ∈ atSite site) : f.Plain := by
  unfold atSite at h
  dsimp only at h
  split at h
  · exact plain_of_mem_ofExport h
  · split at h
    · split at h
      · cases h
      · split at h
        · rw [List.mem_singleton.mp h]
          exact plain_function rfl _ _
        · cases h
    · split at h
      · split at h
        · cases h
        · exact plain_of_ofDeclarator (fun _ => rfl) (Option.mem_toList.mp h)
      · split at h
        · split at h
          · rw [List.mem_singleton.mp h]
            rintro n ⟨⟩
          · cases h
        · cases h

theorem accepting_openingNotes {f : Finding} (h : f.Plain) :
    Accepting f.openingNotes f.accepted.toNat := by
  cases f with
  | function note func name =>
      exact .routine (h note rfl) ((Verdict.ofFunction func name).accepting_functionNotes name)
  | klass node name => exact (Verdict.ofClass node).accepting_classNotes name
  | mention note => exact .routine (h note rfl) .nil

-- What is accepted is harvested.
theorem exists_harvest? {f : Finding} (h : f.accepted = true) :
    ∃ name harvest, f.harvest? = some (name, harvest) := by
  cases f with
  | function note func name => exact ⟨_, _, rfl⟩
  | klass node name => exact ⟨_, _, rfl⟩
  | mention note => simp [accepted, verdict?] at h

-- A finding is accepted in its notes as often as it gives a component.
theorem accepting_notes {f : Finding} (h : f.Plain) (file : String) :
    Accepting f.notes (f.component? file).toList.length := by
  have hopening := accepting_openingNotes h
  unfold notes component?
  cases haccepted : f.accepted with
  | false =>
      rw [haccepted] at hopening
      exact hopening
  | true =>
      rw [haccepted] at hopening
      obtain ⟨name, harvest, hharvest⟩ := exists_harvest? haccepted
      rw [hharvest]
      exact hopening.append (.of_isRoutine (f.gathered_of_harvest? hharvest).isRoutine_notes)

theorem accepting_flatMap {fs : List Finding} (h : ∀ f ∈ fs, f.Plain) (file : String) :
    Accepting (fs.flatMap notes) (fs.filterMap (component? file)).length := by
  induction fs with
  | nil => exact .nil
  | cons f rest ih =>
      obtain ⟨hf, hrest⟩ := List.forall_mem_cons.mp h
      have hnotes := (accepting_notes hf file).append (ih hrest)
      cases hc : f.component? file with
      | none =>
          rw [List.filterMap_cons_none hc]
          simpa [hc] using hnotes
      | some c =>
          rw [List.filterMap_cons_some hc, List.length_cons, Nat.add_comm]
          simpa [hc] using hnotes

end Finding

-- The notes on a module's components accept as many as there are.
theorem Module.accepting_componentNotes (m : Module) :
    Accepting m.componentNotes m.components.length := by
  apply Finding.accepting_flatMap
  intro f hf
  obtain ⟨site, -, hsite⟩ := List.mem_flatMap.mp hf
  exact Finding.plain_of_mem_atSite hsite

end PropFlow
