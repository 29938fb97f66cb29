import Mathlib.Order.Bounds.Defs
import PropFlow.Proofs.Graph

namespace PropFlow

namespace Path

section Order

-- A path is at or above another if the way to the other starts with the way to it.
instance : LE Path :=
  ⟨fun p q => p.anchor = q.anchor ∧ p.parts <+: q.parts⟩

instance : PartialOrder Path where
  le_refl _ := ⟨rfl, List.prefix_rfl⟩
  le_trans _ _ _ h h' := ⟨h.1.trans h'.1, h.2.trans h'.2⟩
  le_antisymm p q h h' := by
    have hparts : p.parts = q.parts := h.2.eq_of_length_le h'.2.length_le
    cases p
    cases q
    exact congrArg₂ Path.mk h.1 hparts

-- Of all the directories at or above those of some files the deepest is found: the others are above it.
theorem isGreatest_common {files : List String} {base : Path} (hne : files ≠ [])
    (h : ∀ file ∈ files, IsFilePath file) (hbase : common (files.map directory) = .ok base) :
    IsGreatest {d | ∀ file ∈ files, d ≤ (ofString file).parent} base := by
  rw [common_directories h] at hbase
  obtain rfl := Except.ok.inj hbase
  have hroot : ∀ file ∈ files, (ofString file).parent.anchor = .root := by
    intro file hfile
    obtain ⟨names, last, hreal, heq, -⟩ := (h file hfile).exists_directory
    rw [heq, parent_ofString_text hreal, absolute]
  constructor
  · intro file hfile
    exact ⟨(hroot file hfile).symm, commonParts_isPrefix (List.mem_map_of_mem hfile)⟩
  · intro d hd
    obtain ⟨first, hfirst⟩ := List.exists_mem_of_ne_nil files hne
    refine ⟨(hd first hfirst).1.trans (hroot first hfirst), isPrefix_commonParts (by simpa using hne) ?_⟩
    simp only [List.forall_mem_map]
    exact fun file hfile => (hd file hfile).2

end Order

-- A text that leads to something below a directory, by its names alone and with single slashes.
structure LeadsDown (location : String) : Prop where
  isRelative : (ofString location).isAbsolute = false
  parts_ne_nil : (ofString location).parts ≠ []
  up_notMem : ".." ∉ (ofString location).parts
  text_eq : (ofString location).text = location

section Below

-- Names without a slash in front of them are read as a path from the working directory.
theorem ofString_intercalate {names : List String} (hne : names ≠ [])
    (h : ∀ name ∈ names, IsRealName name) : ofString ("/".intercalate names) = ⟨.relative, names⟩ := by
  obtain ⟨first, rest, rfl⟩ := List.exists_cons_of_ne_nil hne
  have hanchor : (ofString ("/".intercalate (first :: rest))).anchor = .relative := by
    obtain ⟨c, cs, hcs, hc⟩ := exists_intercalate_eq_cons (h first List.mem_cons_self) rest
    rw [ofString, String.toList_intercalate]
    exact (congrArg Anchor.ofChars hcs).trans (ofChars_cons_of_ne hc)
  have hparts : (ofString ("/".intercalate (first :: rest))).parts = first :: rest := by
    rw [← parts_ofString_slash_append, ← text_absolute, ofString_text_absolute h, absolute]
  exact congrArg₂ Path.mk hanchor hparts

namespace LiesBelow

variable {base rest : List String} {file : String} (h : LiesBelow base file rest)
include h

theorem ofString_rest : ofString ("/".intercalate rest) = ⟨.relative, rest⟩ :=
  ofString_intercalate h.ne_nil h.isRealName_rest

theorem leadsDown : LeadsDown ("/".intercalate rest) where
  isRelative := by rw [h.ofString_rest]; rfl
  parts_ne_nil := by rw [h.ofString_rest]; exact h.ne_nil
  up_notMem := by
    rw [h.ofString_rest]
    exact fun hup => (h.isRealName_rest ".." hup).1.2.2 rfl
  text_eq := by
    rw [h.ofString_rest]
    obtain ⟨first, more, rfl⟩ := List.exists_cons_of_ne_nil h.ne_nil
    simp [text, Anchor.text]

theorem text_join : ((absolute base).join (ofString ("/".intercalate rest))).text = file := by
  rw [h.ofString_rest, h.file_eq]
  rfl

end LiesBelow

end Below

end Path

namespace Graph

-- Files are located below the deepest directory that there is above all of them. A location leads
-- back to its file from there, so no two files share one.
theorem locations_lead_down (cwd : List String) {components : List Component} (hne : components ≠ [])
    (h : ∀ c ∈ components, Path.IsFilePath c.file) :
    ∃ base, ∃ place : String → String,
      Path.common ((sources components).map Path.directory) = .ok base ∧
      locations cwd components = .ok ((sources components).map fun file => (file, place file)) ∧
      IsGreatest {d | ∀ c ∈ components, d ≤ (Path.ofString c.file).parent} base ∧
      (∀ c ∈ components, Path.LeadsDown (place c.file) ∧
        (base.join (Path.ofString (place c.file))).text = c.file) ∧
      ∀ c ∈ components, ∀ d ∈ components, c.file ≠ d.file → place c.file ≠ place d.file := by
  obtain ⟨names, place, hcommon, hlocations, hplace⟩ := exists_places cwd h
  have hback : ∀ c ∈ components, ((Path.absolute names).join (Path.ofString (place c.file))).text = c.file := by
    intro c hc
    obtain ⟨rest, hrest, hcPlace⟩ := hplace c hc
    rw [hcPlace, hrest.text_join]
  refine ⟨.absolute names, place, hcommon, hlocations, ?_, ?_, ?_⟩
  · have hsources : sources components ≠ [] := by
      obtain ⟨c, hc⟩ := List.exists_mem_of_ne_nil components hne
      exact List.ne_nil_of_mem (mem_sources.mpr ⟨c, hc, rfl⟩)
    have hgreatest := Path.isGreatest_common hsources (forall_mem_sources.mpr h) hcommon
    simpa only [forall_mem_sources] using hgreatest
  · intro c hc
    obtain ⟨rest, hrest, hcPlace⟩ := hplace c hc
    exact ⟨hcPlace ▸ hrest.leadsDown, hback c hc⟩
  · intro c hc d hd hfiles hsame
    refine hfiles ?_
    rw [← hback c hc, hsame, hback d hd]

-- Two directories whose names start alike, and beside them a file with two components.
namespace Siblings

def components : List Component :=
  [.build "App" "/app/App.js" [], .build "Card" "/app/a/Card.js" [], .build "Page" "/app/ab/Page.js" [],
    .build "Frame" "/app/App.js" []]

theorem isFilePath : ∀ c ∈ components, Path.IsFilePath c.file := by
  have happ : Path.IsFilePath "/app/App.js" := ⟨["app", "App.js"], by decide +kernel⟩
  have hcard : Path.IsFilePath "/app/a/Card.js" := ⟨["app", "a", "Card.js"], by decide +kernel⟩
  have hpage : Path.IsFilePath "/app/ab/Page.js" := ⟨["app", "ab", "Page.js"], by decide +kernel⟩
  simpa [components, Component.build] using ⟨happ, hcard, hpage, happ⟩

theorem sources_eq : sources components = ["/app/App.js", "/app/a/Card.js", "/app/ab/Page.js"] :=
  sources_of_sorted (by decide +kernel) (by decide +kernel)

theorem common_eq : Path.common ((sources components).map Path.directory) = .ok (.absolute ["app"]) := by
  rw [sources_eq]
  decide +kernel

theorem locations_eq : locations ["home"] components =
    .ok [("/app/App.js", "App.js"), ("/app/a/Card.js", "a/Card.js"), ("/app/ab/Page.js", "ab/Page.js")] := by
  rw [locations_of_common common_eq, sources_eq]
  decide +kernel

end Siblings

theorem locations_lead_down_siblings :
    Siblings.components ≠ [] ∧ (∀ c ∈ Siblings.components, Path.IsFilePath c.file) ∧
      locations ["home"] Siblings.components =
        .ok [("/app/App.js", "App.js"), ("/app/a/Card.js", "a/Card.js"), ("/app/ab/Page.js", "ab/Page.js")] ∧
      ∃ base, ∃ place : String → String,
        Path.common ((sources Siblings.components).map Path.directory) = .ok base ∧
        locations ["home"] Siblings.components =
          .ok ((sources Siblings.components).map fun file => (file, place file)) ∧
        IsGreatest {d | ∀ c ∈ Siblings.components, d ≤ (Path.ofString c.file).parent} base ∧
        (∀ c ∈ Siblings.components, Path.LeadsDown (place c.file) ∧
          (base.join (Path.ofString (place c.file))).text = c.file) ∧
        ∀ c ∈ Siblings.components, ∀ d ∈ Siblings.components,
          c.file ≠ d.file → place c.file ≠ place d.file :=
  ⟨by decide, Siblings.isFilePath, Siblings.locations_eq,
    locations_lead_down ["home"] (by decide) Siblings.isFilePath⟩

end Graph

end PropFlow
