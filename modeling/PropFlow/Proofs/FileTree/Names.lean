import PropFlow.Discovery
import PropFlow.Proofs.FileTree.Leads

namespace PropFlow

-- A text that can stand between two slashes of a path.
def Slashless (name : String) : Prop :=
  '/' ∉ name.toList

instance (name : String) : Decidable (Slashless name) :=
  inferInstanceAs (Decidable (_ ∉ _))

-- A name that is left in a path when no link and no step is in it any more.
def IsRealName (name : String) : Prop :=
  Entry.IsName name ∧ Slashless name

instance (name : String) : Decidable (IsRealName name) :=
  inferInstanceAs (Decidable (_ ∧ _))

theorem notMem_of_mem_splitOn {c : Char} {text part : List Char} (h : part ∈ text.splitOn c) :
    c ∉ part := by
  induction text generalizing part with
  | nil =>
      obtain rfl : part = [] := by simpa using h
      simp
  | cons first rest ih =>
      rw [List.splitOn_cons_eq_if_modifyHead] at h
      split at h
      · rcases List.mem_cons.mp h with rfl | h
        · simp
        · exact ih h
      · rename_i hfirst
        obtain ⟨head, tail, hsplit⟩ := List.exists_cons_of_ne_nil (List.splitOn_ne_nil c rest)
        rw [hsplit, List.modifyHead_cons] at h
        rcases List.mem_cons.mp h with rfl | h
        · intro hmem
          rcases List.mem_cons.mp hmem with heq | hmem
          · simp [heq] at hfirst
          · exact ih (hsplit ▸ List.mem_cons_self) hmem
        · exact ih (hsplit ▸ List.mem_cons_of_mem _ h)

namespace Path

theorem slashless_segments {text name : String} (h : name ∈ segments text) : Slashless name := by
  obtain ⟨part, hpart, rfl⟩ := List.mem_map.mp h
  simpa [Slashless] using notMem_of_mem_splitOn hpart

theorem slashless_ofString {text name : String} (h : name ∈ (ofString text).parts) :
    Slashless name :=
  slashless_segments (List.mem_filter.mp h).1

theorem text_absolute (names : List String) : (absolute names).text = "/" ++ "/".intercalate names := by
  cases names <;> rfl

theorem toList_text_absolute (names : List String) :
    (absolute names).text.toList = '/' :: ['/'].intercalate (names.map String.toList) := by
  rw [text_absolute, String.toList_append, String.toList_intercalate]
  rfl

theorem ofChars_slash_cons {c : Char} {rest : List Char} (h : c ≠ '/') :
    Anchor.ofChars ('/' :: c :: rest) = .root := by
  unfold Anchor.ofChars
  split
  · rename_i heq
    cases heq
    exact absurd rfl h
  · rename_i heq
    cases heq
    exact absurd rfl h
  · rfl
  · rename_i hnot
    exact absurd rfl (hnot _)

theorem ofChars_cons_of_ne {c : Char} {rest : List Char} (h : c ≠ '/') :
    Anchor.ofChars (c :: rest) = .relative := by
  unfold Anchor.ofChars
  split
  · rename_i heq
    cases heq
    exact absurd rfl h
  · rename_i heq
    cases heq
    exact absurd rfl h
  · rename_i heq
    cases heq
    exact absurd rfl h
  · rfl

-- Names that start with a real one do not start with a slash.
theorem exists_intercalate_eq_cons {first : String} (h : IsRealName first) (rest : List String) :
    ∃ c cs, ['/'].intercalate ((first :: rest).map String.toList) = c :: cs ∧ c ≠ '/' := by
  obtain ⟨⟨hempty, -⟩, hslash⟩ := h
  obtain ⟨c, cs, hcs⟩ := List.exists_cons_of_ne_nil (mt String.toList_eq_nil_iff.mp hempty)
  have hc : c ≠ '/' := by
    rintro rfl
    exact hslash (by simp [hcs])
  rw [List.map_cons, hcs]
  cases rest with
  | nil => exact ⟨c, cs, by simp, hc⟩
  | cons next rest =>
      rw [List.map_cons, List.intercalate_cons_cons]
      exact ⟨c, _, rfl, hc⟩

theorem segments_intercalate {names : List String} (hne : names ≠ [])
    (h : ∀ name ∈ names, Slashless name) : segments ("/".intercalate names) = names := by
  have hslash : ∀ part ∈ names.map String.toList, '/' ∉ part := by simpa [Slashless] using h
  have hsplit := List.splitOn_intercalate '/' hslash (by simpa using hne)
  rw [segments, String.toList_intercalate]
  simpa using congrArg (List.map String.ofList) hsplit

-- One more slash in front of a text adds an empty segment.
theorem segments_slash_append (text : String) : segments ("/" ++ text) = "" :: segments text := by
  rw [segments, String.toList_append]
  change (List.splitOn '/' ('/' :: text.toList)).map String.ofList = _
  rw [List.splitOn_cons_eq_if_modifyHead, if_pos (by simp), List.map_cons]
  rfl

theorem parts_ofString_slash_append (text : String) : (ofString ("/" ++ text)).parts = (ofString text).parts := by
  simp only [ofString, segments_slash_append]
  exact List.filter_cons_of_neg (by simp)

theorem segments_text_absolute {names : List String} (hne : names ≠ [])
    (h : ∀ name ∈ names, IsRealName name) : segments (absolute names).text = "" :: names := by
  rw [text_absolute, segments_slash_append, segments_intercalate hne fun name hname => (h name hname).2]

-- The text of a path from the root is read as that path.
theorem ofString_text_absolute {names : List String} (h : ∀ name ∈ names, IsRealName name) :
    ofString (absolute names).text = absolute names := by
  cases names with
  | nil => decide
  | cons first rest =>
      have hparts : (segments (absolute (first :: rest)).text).filter (fun s => s != "" && s != ".") =
          first :: rest := by
        rw [segments_text_absolute (by simp) h, List.filter_cons_of_neg (by simp), List.filter_eq_self]
        intro name hname
        obtain ⟨hempty, hstay, -⟩ := (h name hname).1
        simp [hempty, hstay]
      have hanchor : Anchor.ofChars (absolute (first :: rest)).text.toList = .root := by
        obtain ⟨c, cs, hcs, hc⟩ := exists_intercalate_eq_cons (h first List.mem_cons_self) rest
        rw [toList_text_absolute, hcs]
        exact ofChars_slash_cons hc
      rw [ofString, hparts, hanchor, absolute]

-- The names of a path from the root can be read off its text.
theorem text_absolute_inj {xs ys : List String} (hx : ∀ name ∈ xs, IsRealName name)
    (hy : ∀ name ∈ ys, IsRealName name) (h : (absolute xs).text = (absolute ys).text) : xs = ys := by
  have hread := congrArg ofString h
  rw [ofString_text_absolute hx, ofString_text_absolute hy] at hread
  exact congrArg Path.parts hread

theorem mem_pushPart {kept : List String} {part name : String} (hkept : ".." ∉ kept)
    (h : name ∈ pushPart true kept part) : (name ∈ kept ∨ name = part) ∧ name ≠ ".." := by
  unfold pushPart at h
  split at h
  · cases kept with
    | nil => simp at h
    | cons last rest =>
        have hlast : last ≠ ".." := by
          rintro rfl
          exact hkept List.mem_cons_self
        simp only [if_neg hlast] at h
        have hmem := List.mem_cons_of_mem last h
        exact ⟨.inl hmem, by rintro rfl; exact hkept hmem⟩
  · rename_i hpart
    rcases List.mem_cons.mp h with rfl | hmem
    · exact ⟨.inr rfl, hpart⟩
    · exact ⟨.inl hmem, by rintro rfl; exact hkept hmem⟩

theorem mem_foldl_pushPart {names kept : List String} {name : String} (hkept : ".." ∉ kept)
    (h : name ∈ names.foldl (pushPart true) kept) : (name ∈ kept ∨ name ∈ names) ∧ name ≠ ".." := by
  induction names generalizing kept with
  | nil => exact ⟨.inl h, by rintro rfl; exact hkept h⟩
  | cons part rest ih =>
      obtain ⟨hmem, hname⟩ := ih (fun hup => (mem_pushPart hkept hup).2 rfl) h
      refine ⟨?_, hname⟩
      rcases hmem with hmem | hmem
      · rcases (mem_pushPart hkept hmem).1 with hmem | rfl
        · exact .inl hmem
        · exact .inr List.mem_cons_self
      · exact .inr (List.mem_cons_of_mem _ hmem)

-- Normalisation from the root keeps some of the names and no step up.
theorem mem_normalize_absolute {names : List String} {name : String}
    (h : name ∈ (absolute names).normalize.parts) : name ∈ names ∧ name ≠ ".." := by
  have hmem : name ∈ names.foldl (pushPart true) [] := List.mem_reverse.mp h
  simpa using mem_foldl_pushPart (by simp) hmem

end Path

namespace Entry

-- The values of finished links have no other names than real ones.
def Known.AllReal (known : Known) : Prop :=
  ∀ place there, (place, some there) ∈ known → ∀ name ∈ there, IsRealName name

theorem mem_of_lookup_eq_some {known : Known} {place there : List String}
    (h : known.lookup place = some (some there)) : (place, some there) ∈ known := by
  obtain ⟨before, after, rfl, -⟩ := List.lookup_eq_some_iff.mp h
  simp

theorem isRealName_targetStart {here : List String} (h : ∀ name ∈ here, IsRealName name)
    (target : String) : ∀ name ∈ targetStart here target, IsRealName name := by
  unfold targetStart
  split
  · simp
  · exact h

-- What is kept of a path on which a link leads back to itself.
theorem isRealName_of_loop {front : List String} {rest : List Step} {name : String}
    (hfront : ∀ name ∈ front, IsRealName name) (hrest : ∀ name, .pass name ∈ rest → Slashless name)
    (h : name ∈ (Path.absolute (front ++ rest.filterMap Step.part?)).normalize.parts) :
    IsRealName name := by
  obtain ⟨hmem, hup⟩ := Path.mem_normalize_absolute h
  rcases List.mem_append.mp hmem with hmem | hmem
  · exact hfront name hmem
  · obtain ⟨step, hstep, hpart⟩ := List.mem_filterMap.mp hmem
    cases step with
    | resolved place => cases hpart
    | pass part =>
        simp only [Step.part?] at hpart
        split at hpart
        · cases hpart
        · rename_i hstay
          cases hpart
          exact ⟨isName_of_not hstay hup, hrest name hstep⟩

theorem settle_isRealName {top : Entry} {jump : Known → List String → List Step → List String}
    (hjump : ∀ known here steps, Known.AllReal known → (∀ name ∈ here, IsRealName name) →
      (∀ name, .pass name ∈ steps → Slashless name) →
      ∀ name ∈ jump known here steps, IsRealName name)
    {known : Known} {here : List String} {steps : List Step} (hknown : Known.AllReal known)
    (hhere : ∀ name ∈ here, IsRealName name) (hsteps : ∀ name, .pass name ∈ steps → Slashless name) :
    ∀ name ∈ settle top jump known here steps, IsRealName name := by
  induction steps generalizing known here with
  | nil => exact hhere
  | cons step rest ih =>
      have hrest : ∀ name, .pass name ∈ rest → Slashless name :=
        fun name hname => hsteps name (List.mem_cons_of_mem _ hname)
      cases step with
      | resolved place =>
          rw [settle]
          refine ih ?_ hhere hrest
          intro other there hother
          rcases List.mem_cons.mp hother with heq | hother
          · cases heq
            exact hhere
          · exact hknown other there hother
      | pass name =>
          have hslash := hsteps name List.mem_cons_self
          rw [settle]
          split
          · exact ih hknown hhere hrest
          · rename_i hstay
            split
            · exact ih hknown (fun name hname => hhere name ((List.dropLast_sublist here).subset hname)) hrest
            · rename_i hup
              have hname : IsRealName name := ⟨isName_of_not hstay hup, hslash⟩
              have hchild : ∀ other ∈ here ++ [name], IsRealName other := by
                intro other hother
                rcases List.mem_append.mp hother with hother | hother
                · exact hhere other hother
                · rwa [List.mem_singleton.mp hother]
              split
              · rename_i target hlink
                split
                · rename_i there hlookup
                  exact ih hknown (hknown _ _ (mem_of_lookup_eq_some hlookup)) hrest
                · exact fun other hother => isRealName_of_loop hchild hrest hother
                · refine hjump _ _ _ ?_ (isRealName_targetStart hhere target) ?_
                  · intro place there hplace
                    rcases List.mem_cons.mp hplace with heq | hplace
                    · cases heq
                    · exact hknown place there hplace
                  · intro other hother
                    rcases List.mem_append.mp hother with hother | hother
                    · obtain ⟨segment, hsegment, heq⟩ := List.mem_map.mp hother
                      cases heq
                      exact Path.slashless_segments hsegment
                    · rcases List.mem_cons.mp hother with heq | hother
                      · cases heq
                      · exact hrest other hother
              · exact ih hknown hchild hrest

theorem settleWithin_isRealName {top : Entry} {links : Nat} {known : Known} {here : List String}
    {steps : List Step} (hknown : Known.AllReal known) (hhere : ∀ name ∈ here, IsRealName name)
    (hsteps : ∀ name, .pass name ∈ steps → Slashless name) :
    ∀ name ∈ settleWithin top links known here steps, IsRealName name := by
  induction links generalizing known here steps with
  | zero =>
      rw [settleWithin]
      exact settle_isRealName (fun _ _ _ _ hhere _ => hhere) hknown hhere hsteps
  | succ links ih =>
      rw [settleWithin]
      exact settle_isRealName (fun _ _ _ hknown hhere hsteps => ih hknown hhere hsteps) hknown hhere
        hsteps

end Entry

-- Real paths start at the root, and all their names are real if the path was made of names.
theorem Disk.realPath_isRealName {disk : Disk} {path real : Path} (h : disk.realPath path = .ok real)
    (hnames : ∀ name ∈ disk.names path, Slashless name) :
    ∃ names, real = Path.absolute names ∧ ∀ name ∈ names, IsRealName name := by
  simp only [realPath] at h
  refine ⟨disk.top.settleWithin disk.top.linkCount [] [] ((disk.names path).map .pass), ?_, ?_⟩
  · split at h
    · cases h
    · exact (Except.ok.inj h).symm
  · refine Entry.settleWithin_isRealName (fun _ _ h => by cases h) (by simp) ?_
    intro name hname
    obtain ⟨other, hother, heq⟩ := List.mem_map.mp hname
    cases heq
    exact hnames name hother

end PropFlow
