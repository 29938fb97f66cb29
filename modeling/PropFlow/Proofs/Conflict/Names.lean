import PropFlow.Proofs.Conflict.Pairs
import PropFlow.Proofs.Text.Casing
import PropFlow.Proofs.Text.Search

namespace PropFlow.Conflict

-- The words of which one may stand in front of a name.
def accessors : List String :=
  ["", "get", "set", "use"]

theorem dropAccessor_isSuffix (name : List Char) : dropAccessor name <:+ name := by
  unfold dropAccessor
  split
  · exact ⟨['g', 'e', 't'], rfl⟩
  · exact ⟨['s', 'e', 't'], rfl⟩
  · exact ⟨['u', 's', 'e'], rfl⟩
  · exact List.suffix_rfl

-- Only one word is dropped: the one in front of the stem, or if there is none, one that the stem
-- begins with.
theorem dropAccessor_append_isSuffix {accessor : String} (h : accessor ∈ accessors) (stem : List Char) :
    dropAccessor (accessor.toList ++ stem) <:+ stem := by
  simp only [accessors, List.mem_cons, List.not_mem_nil, or_false] at h
  rcases h with rfl | rfl | rfl | rfl
  · exact dropAccessor_isSuffix stem
  · exact List.suffix_rfl
  · exact List.suffix_rfl
  · exact List.suffix_rfl

-- A word without a bracket that a call begins with stands in front of the name that is called.
theorem exists_eq_append_of_call (word : List Char) (hword : '(' ∉ word) {name rest : List Char}
    (h : name ++ ['(', ')'] = word ++ rest) : ∃ more, name = word ++ more := by
  rcases List.append_eq_append_iff.mp h with ⟨inner, rfl, hinner⟩ | ⟨more, hname, -⟩
  · cases inner with
    | nil => exact ⟨[], by simp⟩
    | cons c others =>
        obtain ⟨rfl, -⟩ := List.cons.inj hinner
        simp at hword
  · exact ⟨more, hname⟩

theorem dropAccessor_append_call (name : List Char) :
    dropAccessor (name ++ ['(', ')']) = dropAccessor name ++ ['(', ')'] := by
  fun_cases dropAccessor name with
  | case1 rest => rfl
  | case2 rest => rfl
  | case3 rest => rfl
  | case4 _ hget hset huse =>
      apply dropAccessor.eq_4
      · intro rest hrest
        obtain ⟨more, hmore⟩ := exists_eq_append_of_call ['g', 'e', 't'] (by decide) hrest
        exact hget more hmore
      · intro rest hrest
        obtain ⟨more, hmore⟩ := exists_eq_append_of_call ['s', 'e', 't'] (by decide) hrest
        exact hset more hmore
      · intro rest hrest
        obtain ⟨more, hmore⟩ := exists_eq_append_of_call ['u', 's', 'e'] (by decide) hrest
        exact huse more hmore

theorem dropCall_append_call (name : List Char) : dropCall (name ++ ['(', ')']) = name := by
  simp [dropCall]

theorem contextBase_append_call (name : String) : contextBase (name ++ "()") = propBase name := by
  have hlist : (name ++ "()").toList = name.toList ++ ['(', ')'] := by simp
  rw [contextBase, propBase, hlist, dropAccessor_append_call, dropCall_append_call]

-- Texts of ASCII characters that are equal up to the case of their letters.
structure SameLetters (s t : String) : Prop where
  ascii : ∀ c ∈ s.toList, c.toNat < 128
  ascii' : ∀ c ∈ t.toList, c.toNat < 128
  toLower_eq : s.toList.map Char.toLower = t.toList.map Char.toLower

theorem toList_propBase_isSuffix {stem accessor : String} (hascii : ∀ c ∈ stem.toList, c.toNat < 128)
    (haccessor : accessor ∈ accessors) :
    (propBase (accessor ++ stem)).toList <:+ stem.toList.map Char.toLower := by
  have hsuffix := dropAccessor_append_isSuffix haccessor stem.toList
  rw [propBase, String.toList_append, Text.toList_lower_of_ascii fun c hc => hascii c (hsuffix.subset hc)]
  exact hsuffix.map Char.toLower

-- Both bases are ends of one text, so that the shorter one is contained in the longer one.
theorem namesOverlap_of_sameLetters {s t p q : String} (h : SameLetters s t) (hp : p ∈ accessors)
    (hq : q ∈ accessors) : namesOverlap (p ++ s) (q ++ t ++ "()") = true := by
  have hprop := toList_propBase_isSuffix h.ascii hp
  have hcontext := toList_propBase_isSuffix h.ascii' hq
  rw [← h.toLower_eq] at hcontext
  rw [namesOverlap, contextBase_append_call]
  simp only [Bool.or_eq_true, Text.isSubstring_iff]
  rcases List.suffix_or_suffix_of_suffix hprop hcontext with hends | hends
  · exact .inr hends.isInfix
  · exact .inl (.inr hends.isInfix)

-- A prop and a context value are reported whenever their names differ only in the case of letters and in
-- an accessor word in front of either.
theorem accessors_reported :
    (∀ name, contextBase (name ++ "()") = propBase name) ∧
    ∀ s t p q, SameLetters s t → p ∈ accessors → q ∈ accessors →
      namesOverlap (p ++ s) (q ++ t ++ "()") = true ∧
      ∀ components : List Component, ∀ c ∈ components, ∀ prop ∈ c.items, ∀ consumer ∈ c.items,
        prop.kind = .prop → prop.name = p ++ s → consumer.kind = .contextConsumer →
        consumer.name = q ++ t ++ "()" → idOf c prop ∈ (detect components).map (·.id) := by
  refine ⟨contextBase_append_call, fun s t p q hletters hp hq => ?_⟩
  have hoverlap := namesOverlap_of_sameLetters hletters hp hq
  refine ⟨hoverlap, ?_⟩
  intro components c hc prop hprop consumer hconsumer hkind hname hkind' hname'
  have hconflicting : Conflicting c prop :=
    ⟨hprop, hkind, consumer, hconsumer, hkind', by rw [hname, hname', hoverlap]⟩
  exact mem_map_id_detect_iff.mpr ⟨c, hc, prop, hconflicting, rfl⟩

-- The stem begins with an accessor word of its own, which is dropped on one side only.
theorem accessors_reported_settings :
    SameLetters "Settings" "settings" ∧ propBase ("get" ++ "Settings") = "settings" ∧
      contextBase ("" ++ "settings" ++ "()") = "tings" ∧
      namesOverlap ("get" ++ "Settings") ("" ++ "settings" ++ "()") = true := by
  have hletters : SameLetters "Settings" "settings" := ⟨by simp, by simp, by simp⟩
  have hreported := accessors_reported.2 "Settings" "settings" "get" "" hletters (by decide) (by decide)
  exact ⟨hletters, by decide +kernel, by decide +kernel, hreported.1⟩

end PropFlow.Conflict
