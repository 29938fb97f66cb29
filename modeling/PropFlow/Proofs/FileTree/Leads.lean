import PropFlow.FileTree.RealPath

namespace PropFlow.Entry

-- A name that a directory can hold. The others are steps that stay or go up.
def IsName (name : String) : Prop :=
  name ≠ "" ∧ name ≠ "." ∧ name ≠ ".."

instance (name : String) : Decidable (IsName name) :=
  inferInstanceAs (Decidable (_ ∧ _ ∧ _))

theorem isName_of_not {name : String} (hstay : ¬(name = "" ∨ name = ".")) (hup : name ≠ "..") :
    IsName name :=
  ⟨fun h => hstay (.inl h), fun h => hstay (.inr h), hup⟩

-- The place where a walk ends that goes on behind every link it meets, with the number of links on
-- the way. A walk does not ask whether there is anything at a place.
inductive Leads (top : Entry) : Nat → List String → List String → List String → Prop
  | stop (here : List String) : Leads top 0 here [] here
  | stay {cost : Nat} {here rest there : List String} {name : String} :
      name = "" ∨ name = "." → Leads top cost here rest there →
      Leads top cost here (name :: rest) there
  | up {cost : Nat} {here rest there : List String} :
      Leads top cost here.dropLast rest there → Leads top cost here (".." :: rest) there
  | down {cost : Nat} {here rest there : List String} {name : String} :
      IsName name → (∀ target, top.search? (here ++ [name]) ≠ some (.link target)) →
      Leads top cost (here ++ [name]) rest there → Leads top cost here (name :: rest) there
  | jump {cost cost' : Nat} {here rest mid there : List String} {name target : String} :
      IsName name → top.search? (here ++ [name]) = some (.link target) →
      Leads top cost (targetStart here target) (targetNames target) mid →
      Leads top cost' mid rest there → Leads top (cost + cost' + 1) here (name :: rest) there

-- A place that no link is on the way to.
def Plain (top : Entry) (names : List String) : Prop :=
  ∀ front name, front ++ [name] <+: names →
    IsName name ∧ ∀ target, top.search? (front ++ [name]) ≠ some (.link target)

theorem get?_append (top : Entry) (xs ys : List String) :
    top.get? (xs ++ ys) = (top.get? xs).bind (·.get? ys) := by
  induction xs generalizing top with
  | nil => cases top <;> simp [get?]
  | cons name rest ih =>
      cases top with
      | file bytes => simp [get?]
      | link target => simp [get?]
      | dir access entries =>
          simp only [List.cons_append, get?]
          cases entries.lookup name with
          | none => rfl
          | some entry => exact ih entry

-- The first step on the way to an entry.
theorem exists_dir_of_get? {top : Entry} {name : String} {rest : List String} {entry : Entry}
    (h : top.get? (name :: rest) = some entry) :
    ∃ access entries child, top = .dir access entries ∧ entries.lookup name = some child ∧
      child.get? rest = some entry := by
  cases top with
  | file bytes => cases h
  | link target => cases h
  | dir access entries =>
      rw [get?] at h
      split at h
      · rename_i child hchild
        exact ⟨access, entries, child, rfl, hchild, h⟩
      · cases h

-- What is looked up is there.
theorem get?_of_search? {top : Entry} {names : List String} {entry : Entry}
    (h : top.search? names = some entry) : top.get? names = some entry := by
  fun_induction search? top names with
  | case1 top => cases top <;> exact h
  | case2 access entries name rest hsearch child hchild ih =>
      simp only [get?, hchild]
      exact ih h
  | case3 => cases h
  | case4 => cases h
  | case5 => cases h

theorem search?_append (top : Entry) (xs ys : List String) :
    top.search? (xs ++ ys) = (top.search? xs).bind (·.search? ys) := by
  induction xs generalizing top with
  | nil => cases top <;> simp [search?]
  | cons name rest ih =>
      cases top with
      | file bytes => simp [search?]
      | link target => simp [search?]
      | dir access entries =>
          simp only [List.cons_append, search?]
          split
          · cases entries.lookup name with
            | none => rfl
            | some entry => exact ih entry
          · rfl

-- What stands under a name in the directory at a place.
theorem search?_child {top : Entry} {here : List String} {access : Access}
    {entries : List (String × Entry)} (h : top.search? here = some (.dir access entries))
    (hopen : access.searchable = true) (name : String) :
    top.search? (here ++ [name]) = entries.lookup name := by
  rw [search?_append, h]
  simp only [Option.bind_some, search?, hopen, if_true]
  cases entries.lookup name with
  | none => rfl
  | some entry => cases entry <;> rfl

theorem exists_dir_of_search? {top : Entry} {name : String} {rest : List String} {entry : Entry}
    (h : top.search? (name :: rest) = some entry) :
    ∃ access entries child, top = .dir access entries ∧ access.searchable = true ∧
      entries.lookup name = some child ∧ child.search? rest = some entry := by
  cases top with
  | file bytes => cases h
  | link target => cases h
  | dir access entries =>
      rw [search?] at h
      split at h
      · rename_i hopen
        split at h
        · rename_i child hchild
          exact ⟨access, entries, child, rfl, hopen, hchild, h⟩
        · cases h
      · cases h

namespace Leads

theorem split {top : Entry} {cost : Nat} {here xs ys there : List String}
    (h : Leads top cost here (xs ++ ys) there) :
    ∃ cost₁ cost₂ mid, cost = cost₁ + cost₂ ∧ Leads top cost₁ here xs mid ∧
      Leads top cost₂ mid ys there := by
  induction xs generalizing here cost with
  | nil => exact ⟨0, cost, here, by omega, .stop here, h⟩
  | cons name rest ih =>
      cases h with
      | stay hname h =>
          obtain ⟨cost₁, cost₂, mid, hc, h₁, h₂⟩ := ih h
          exact ⟨cost₁, cost₂, mid, hc, .stay hname h₁, h₂⟩
      | up h =>
          obtain ⟨cost₁, cost₂, mid, hc, h₁, h₂⟩ := ih h
          exact ⟨cost₁, cost₂, mid, hc, .up h₁, h₂⟩
      | down hname hplain h =>
          obtain ⟨cost₁, cost₂, mid, hc, h₁, h₂⟩ := ih h
          exact ⟨cost₁, cost₂, mid, hc, .down hname hplain h₁, h₂⟩
      | @jump cost _ _ _ _ _ _ _ hname hlink htarget h =>
          obtain ⟨cost₁, cost₂, mid, hc, h₁, h₂⟩ := ih h
          exact ⟨cost + cost₁ + 1, cost₂, mid, by omega, .jump hname hlink htarget h₁, h₂⟩

theorem unique {top : Entry} {cost cost' : Nat} {here names there there' : List String}
    (h : Leads top cost here names there) (h' : Leads top cost' here names there') :
    cost = cost' ∧ there = there' := by
  induction h generalizing cost' there' with
  | stop here => cases h'; exact ⟨rfl, rfl⟩
  | stay hname _ ih =>
      cases h' with
      | stay _ h' => exact ih h'
      | up h' => simp at hname
      | down hname' => exact absurd hname (by simp [hname'.1, hname'.2.1])
      | jump hname' => exact absurd hname (by simp [hname'.1, hname'.2.1])
  | up _ ih =>
      cases h' with
      | stay hname h' => simp at hname
      | up h' => exact ih h'
      | down hname => exact absurd rfl hname.2.2
      | jump hname => exact absurd rfl hname.2.2
  | down hname hplain _ ih =>
      cases h' with
      | stay hname' => exact absurd hname' (by simp [hname.1, hname.2.1])
      | up => exact absurd rfl hname.2.2
      | down _ _ h' => exact ih h'
      | jump _ hlink => exact absurd hlink (hplain _)
  | jump hname hlink _ _ ihTarget ihRest =>
      cases h' with
      | stay hname' => exact absurd hname' (by simp [hname.1, hname.2.1])
      | up => exact absurd rfl hname.2.2
      | down _ hplain => exact absurd hlink (hplain _)
      | jump _ hlink' htarget' hrest' =>
          obtain rfl : _ = _ := Entry.link.inj (Option.some.inj (hlink.symm.trans hlink'))
          obtain ⟨rfl, rfl⟩ := ihTarget htarget'
          obtain ⟨rfl, rfl⟩ := ihRest hrest'
          exact ⟨rfl, rfl⟩

end Leads

namespace Plain

theorem nil (top : Entry) : Plain top [] := by
  intro front name h
  simp at h

theorem of_isPrefix {top : Entry} {names front : List String} (h : Plain top names)
    (hfront : front <+: names) : Plain top front :=
  fun before name hbefore => h before name (hbefore.trans hfront)

theorem dropLast {top : Entry} {names : List String} (h : Plain top names) :
    Plain top names.dropLast :=
  h.of_isPrefix (List.dropLast_prefix names)

theorem child {top : Entry} {here : List String} {name : String} (h : Plain top here)
    (hname : IsName name) (hlink : ∀ target, top.search? (here ++ [name]) ≠ some (.link target)) :
    Plain top (here ++ [name]) := by
  intro front last hfront
  rcases List.prefix_concat_iff.mp hfront with heq | hfront
  · obtain ⟨rfl, rfl⟩ := List.append_inj' heq rfl |>.imp id List.singleton_inj.mp
    exact ⟨hname, hlink⟩
  · exact h front last hfront

-- A walk through names that no link is under goes through no link.
theorem leads {top : Entry} {here names : List String} (h : Plain top (here ++ names)) :
    Leads top 0 here names (here ++ names) := by
  induction names generalizing here with
  | nil => simpa using Leads.stop here
  | cons name rest ih =>
      obtain ⟨hname, hlink⟩ := h here name (by simp)
      have hrest := @ih (here ++ [name]) (by simpa using h)
      exact .down hname hlink (by simpa using hrest)

end Plain

theorem plain_targetStart {top : Entry} {here : List String} (h : Plain top here)
    (target : String) : Plain top (targetStart here target) := by
  unfold targetStart
  split
  · exact Plain.nil top
  · exact h

-- The steps of a look-up that succeeds.
structure FollowSteps (top : Entry) (P : List String → List String → Place → Prop) : Prop where
  stop : ∀ here entry budget, top.search? here = some entry → P here [] ⟨here, entry, budget⟩
  stay : ∀ here name rest place, name = "" ∨ name = "." → P here rest place → P here (name :: rest) place
  up : ∀ here rest place, P here.dropLast rest place → P here (".." :: rest) place
  down : ∀ here name rest place, IsName name → name.utf8ByteSize ≤ nameLimit →
    (∀ target, top.search? (here ++ [name]) ≠ some (.link target)) →
    P (here ++ [name]) rest place → P here (name :: rest) place
  jump : ∀ here name rest place target, IsName name → top.search? (here ++ [name]) = some (.link target) →
    P (targetStart here target) (targetNames target ++ rest) place → P here (name :: rest) place

theorem FollowSteps.descend {top : Entry} {P : List String → List String → Place → Prop}
    (hsteps : FollowSteps top P) {budget : Nat}
    {jump : List String → List String → Except FileError Place} {here names : List String}
    {place : Place} (hjump : ∀ here names, jump here names = .ok place → P here names place)
    (h : descend top budget jump here names = .ok place) : P here names place := by
  induction names generalizing here with
  | nil =>
      simp only [Entry.descend] at h
      split at h
      · rename_i entry hentry
        cases h
        exact hsteps.stop here entry budget hentry
      · cases h
  | cons name rest ih =>
      simp only [Entry.descend] at h
      split at h
      · cases h
      · rename_i access entries hdir
        split at h
        · rename_i hempty
          exact hsteps.stay here name rest place (.inl hempty) (ih h)
        rename_i hempty
        split at h
        · cases h
        rename_i hopen
        split at h
        · rename_i hdot
          exact hsteps.stay here name rest place (.inr hdot) (ih h)
        rename_i hdot
        split at h
        · rename_i hup
          subst hup
          exact hsteps.up here rest place (ih h)
        rename_i hup
        have hchild := search?_child hdir (Bool.of_not_eq_false hopen) name
        split at h
        · cases h
        rename_i hshort
        split at h
        · cases h
        · rename_i target hlink
          exact hsteps.jump here name rest place target ⟨hempty, hdot, hup⟩ (hchild.trans hlink)
            (hjump _ _ h)
        · rename_i entry hnolink hentry
          refine hsteps.down here name rest place ⟨hempty, hdot, hup⟩ (Nat.le_of_not_lt hshort) ?_ (ih h)
          intro target ht
          rw [hchild, hentry] at ht
          exact hnolink target (Option.some.inj ht)
      · cases h

theorem FollowSteps.follow {top : Entry} {P : List String → List String → Place → Prop}
    (hsteps : FollowSteps top P) {budget : Nat} {here names : List String} {place : Place}
    (h : top.follow budget here names = .ok place) : P here names place := by
  induction budget generalizing here names with
  | zero =>
      rw [Entry.follow] at h
      exact hsteps.descend (fun _ _ h => by cases h) h
  | succ budget ih =>
      rw [Entry.follow] at h
      exact hsteps.descend (fun _ _ h => ih h) h

-- What a look-up finds is at the place it ends.
theorem search?_of_follow {top : Entry} {budget : Nat} {here names : List String} {place : Place}
    (h : top.follow budget here names = .ok place) : top.search? place.names = some place.entry := by
  have hsteps : FollowSteps top fun _ _ place => top.search? place.names = some place.entry :=
    { stop := fun _ _ _ h => h
      stay := fun _ _ _ _ _ h => h
      up := fun _ _ _ h => h
      down := fun _ _ _ _ _ _ _ h => h
      jump := fun _ _ _ _ _ _ _ h => h }
  exact hsteps.follow h

-- A look-up that succeeds is a walk, and ends at a place that no link is on the way to.
theorem leads_of_follow {top : Entry} {budget : Nat} {here names : List String} {place : Place}
    (hplain : Plain top here) (h : top.follow budget here names = .ok place) :
    Plain top place.names ∧ ∃ cost, Leads top cost here names place.names := by
  have hsteps : FollowSteps top fun here names place => Plain top here →
      Plain top place.names ∧ ∃ cost, Leads top cost here names place.names :=
    { stop := fun here _ _ _ hplain => ⟨hplain, 0, .stop here⟩
      stay := by
        intro here name rest place hname ih hplain
        obtain ⟨hp, cost, hl⟩ := ih hplain
        exact ⟨hp, cost, .stay hname hl⟩
      up := by
        intro here rest place ih hplain
        obtain ⟨hp, cost, hl⟩ := ih hplain.dropLast
        exact ⟨hp, cost, .up hl⟩
      down := by
        intro here name rest place hname _ hlink ih hplain
        obtain ⟨hp, cost, hl⟩ := ih (hplain.child hname hlink)
        exact ⟨hp, cost, .down hname hlink hl⟩
      jump := by
        intro here name rest place target hname hlink ih hplain
        obtain ⟨hp, cost, hl⟩ := ih (plain_targetStart hplain target)
        obtain ⟨cost₁, cost₂, mid, -, h₁, h₂⟩ := hl.split
        exact ⟨hp, _, .jump hname hlink h₁ h₂⟩ }
  exact hsteps.follow h hplain

-- A link that goes through itself is followed until there are too many of them.
theorem follow_self {top : Entry} {here more : List String} {access : Access}
    {entries : List (String × Entry)} {name target : String}
    (hdir : top.search? here = some (.dir access entries)) (hopen : access.searchable = true)
    (hname : IsName name)
    (hshort : name.utf8ByteSize ≤ nameLimit) (hlink : entries.lookup name = some (.link target))
    (hstart : targetStart here target = here) (htarget : targetNames target = name :: more)
    (budget : Nat) (rest : List String) :
    top.follow budget here (name :: rest) = .error .tooManyLinks := by
  obtain ⟨hempty, hdot, hup⟩ := hname
  induction budget generalizing rest with
  | zero =>
      simp only [follow, descend, hdir, hopen, hempty, hdot, hup, if_false, Nat.not_lt.mpr hshort,
        hlink, Bool.true_eq_false]
  | succ budget ih =>
      simp only [follow, descend, hdir, hopen, hempty, hdot, hup, if_false, Nat.not_lt.mpr hshort,
        hlink, hstart, htarget, List.cons_append, Bool.true_eq_false]
      exact ih (more ++ rest)

-- Names that are not too long to be looked up.
def Short (names : List String) : Prop :=
  ∀ name ∈ names, name.utf8ByteSize ≤ nameLimit

theorem short_of_follow {top : Entry} {budget : Nat} {here names : List String} {place : Place}
    (hshort : Short here) (h : top.follow budget here names = .ok place) : Short place.names := by
  have hsteps : FollowSteps top fun here _ place => Short here → Short place.names :=
    { stop := fun _ _ _ _ hshort => hshort
      stay := fun _ _ _ _ _ ih => ih
      up := fun _ _ _ ih hshort => ih fun name hname => hshort name ((List.dropLast_sublist _).subset hname)
      down := by
        intro here name rest place _ hname _ ih hshort
        exact ih (List.forall_mem_append.mpr ⟨hshort, List.forall_mem_singleton.mpr hname⟩)
      jump := by
        intro here name rest place target _ _ ih hshort
        apply ih
        unfold targetStart
        split
        · exact List.forall_mem_nil _
        · exact hshort }
  exact hsteps.follow h hshort

-- What is at a place is found by the names of the place, when no link is on the way.
theorem descend_of_plain {top : Entry} {budget : Nat}
    {jump : List String → List String → Except FileError Place} {here names : List String}
    {entry : Entry} (hplain : Plain top (here ++ names)) (hshort : Short names)
    (hget : top.search? (here ++ names) = some entry) :
    descend top budget jump here names = .ok ⟨here ++ names, entry, budget⟩ := by
  induction names generalizing here with
  | nil =>
      rw [List.append_nil] at hget ⊢
      simp only [descend, hget]
  | cons name rest ih =>
      obtain ⟨⟨hempty, hdot, hup⟩, hlink⟩ := hplain here name (by simp)
      obtain ⟨hname, hrest⟩ := List.forall_mem_cons.mp hshort
      have hhere := hget
      rw [search?_append, Option.bind_eq_some_iff] at hhere
      obtain ⟨folder, hfolder, hchild⟩ := hhere
      obtain ⟨access, entries, child, rfl, hopen, hlookup, -⟩ := exists_dir_of_search? hchild
      have hnolink : ∀ target, child ≠ .link target := by
        rintro target rfl
        exact hlink target ((search?_child hfolder hopen name).trans hlookup)
      have hnext := @ih (here ++ [name]) (by simpa using hplain) hrest (by simpa using hget)
      rw [List.append_assoc, List.singleton_append] at hnext
      simp only [descend, hfolder, hopen, hempty, hdot, hup, if_false, Nat.not_lt.mpr hname, hlookup,
        Bool.true_eq_false]
      cases child with
      | file bytes => exact hnext
      | link target => exact absurd rfl (hnolink target)
      | dir access entries => exact hnext

theorem follow_of_plain {top : Entry} {budget : Nat} {names : List String} {entry : Entry}
    (hplain : Plain top names) (hshort : Short names) (hget : top.search? names = some entry) :
    top.follow budget [] names = .ok ⟨names, entry, budget⟩ := by
  cases budget <;> exact descend_of_plain hplain hshort hget

theorem descend_append {top : Entry} {budget : Nat}
    {jump : List String → List String → Except FileError Place}
    (hjump : ∀ here names place, jump here names = .ok place →
      ∀ more, jump here (names ++ more) = top.follow place.budget place.names more)
    (hself : descend top budget jump = top.follow budget) {here names : List String} {place : Place}
    (h : descend top budget jump here names = .ok place) (more : List String) :
    descend top budget jump here (names ++ more) = top.follow place.budget place.names more := by
  induction names generalizing here with
  | nil =>
      simp only [descend] at h
      split at h
      · cases h
        rw [List.nil_append, hself]
      · cases h
  | cons name rest ih =>
      simp only [List.cons_append, descend] at h ⊢
      split at h
      · cases h
      · split at h
        · rename_i hempty
          rw [if_pos hempty]
          exact ih h
        rename_i hempty
        rw [if_neg hempty]
        split at h
        · cases h
        rename_i hopen
        rw [if_neg hopen]
        split at h
        · rename_i hdot
          rw [if_pos hdot]
          exact ih h
        rename_i hdot
        rw [if_neg hdot]
        split at h
        · rename_i hup
          rw [if_pos hup]
          exact ih h
        rename_i hup
        rw [if_neg hup]
        split at h
        · cases h
        rename_i hlong
        rw [if_neg hlong]
        split at h
        · cases h
        · rw [← List.append_assoc]
          exact hjump _ _ _ h more
        · exact ih h
      · cases h

-- A look-up goes on from the place where the first part of its names leads.
theorem follow_append {top : Entry} {budget : Nat} {here names : List String} {place : Place}
    (h : top.follow budget here names = .ok place) (more : List String) :
    top.follow budget here (names ++ more) = top.follow place.budget place.names more := by
  induction budget generalizing here names place more with
  | zero =>
      rw [follow] at h ⊢
      exact descend_append (fun _ _ _ h => by cases h) rfl h more
  | succ budget ih =>
      rw [follow] at h ⊢
      exact descend_append (fun _ _ _ h => ih h) rfl h more

theorem descend_append_error {top : Entry} {budget : Nat}
    {jump : List String → List String → Except FileError Place}
    (hjump : ∀ here names e, jump here names = .error e → ∀ more, jump here (names ++ more) = .error e)
    {here names : List String} {e : FileError} (h : descend top budget jump here names = .error e)
    (more : List String) : descend top budget jump here (names ++ more) = .error e := by
  induction names generalizing here with
  | nil =>
      simp only [descend] at h
      split at h
      · cases h
      · rename_i hnone
        cases more <;> simpa only [List.nil_append, descend, hnone] using h
  | cons name rest ih =>
      simp only [List.cons_append, descend] at h ⊢
      split at h
      · exact h
      · split at h
        · rename_i hempty
          rw [if_pos hempty]
          exact ih h
        rename_i hempty
        rw [if_neg hempty]
        split at h
        · rename_i hclosed
          rwa [if_pos hclosed]
        rename_i hopen
        rw [if_neg hopen]
        split at h
        · rename_i hdot
          rw [if_pos hdot]
          exact ih h
        rename_i hdot
        rw [if_neg hdot]
        split at h
        · rename_i hup
          rw [if_pos hup]
          exact ih h
        rename_i hup
        rw [if_neg hup]
        split at h
        · rename_i hlong
          rwa [if_pos hlong]
        rename_i hlong
        rw [if_neg hlong]
        split at h
        · exact h
        · rw [← List.append_assoc]
          exact hjump _ _ _ h more
        · exact ih h
      · exact h

-- A look-up that fails does so whatever comes behind its names.
theorem follow_append_error {top : Entry} {budget : Nat} {here names : List String} {e : FileError}
    (h : top.follow budget here names = .error e) (more : List String) :
    top.follow budget here (names ++ more) = .error e := by
  induction budget generalizing here names e more with
  | zero =>
      rw [follow] at h ⊢
      refine descend_append_error ?_ h more
      rintro _ _ _ ⟨⟩ _
      rfl
  | succ budget ih =>
      rw [follow] at h ⊢
      exact descend_append_error (fun _ _ _ h => ih h) h more

-- A look-up that fails finds nothing, or is stopped on the way.
theorem descend_error {top : Entry} {budget : Nat}
    {jump : List String → List String → Except FileError Place} {here names : List String}
    {e : FileError} (hjump : ∀ here names e, jump here names = .error e →
      e.meansAbsent = true ∨ e = .nameTooLong ∨ e = .notPermitted)
    (h : descend top budget jump here names = .error e) :
    e.meansAbsent = true ∨ e = .nameTooLong ∨ e = .notPermitted := by
  induction names generalizing here with
  | nil =>
      simp only [descend] at h
      split at h <;> cases h
      exact .inl rfl
  | cons name rest ih =>
      simp only [descend] at h
      split at h
      · cases h
        exact .inl rfl
      · split at h
        · exact ih h
        split at h
        · cases h
          exact .inr (.inr rfl)
        split at h
        · exact ih h
        split at h
        · exact ih h
        split at h
        · cases h
          exact .inr (.inl rfl)
        split at h
        · cases h
          exact .inl rfl
        · exact hjump _ _ e h
        · exact ih h
      · cases h
        exact .inl rfl

theorem follow_error {top : Entry} {budget : Nat} {here names : List String} {e : FileError}
    (h : top.follow budget here names = .error e) :
    e.meansAbsent = true ∨ e = .nameTooLong ∨ e = .notPermitted := by
  induction budget generalizing here names e with
  | zero =>
      rw [follow] at h
      refine descend_error ?_ h
      rintro _ _ e ⟨⟩
      exact .inl rfl
  | succ budget ih =>
      rw [follow] at h
      exact descend_error (fun _ _ _ h => ih h) h

theorem test_eq_true {sort : Entry → Bool} {found : Except FileError Place}
    (h : test sort found = .ok true) : ∃ place, found = .ok place ∧ sort place.entry = true := by
  cases found with
  | ok place => exact ⟨place, rfl, Except.ok.inj h⟩
  | error e =>
      simp only [test] at h
      split at h <;> cases h

theorem test_eq_error_iff {sort : Entry → Bool} {found : Except FileError Place} {e : FileError} :
    test sort found = .error e ↔ found = .error e ∧ e.meansAbsent = false := by
  cases found with
  | ok place => simp [test]
  | error e' =>
      simp only [test]
      split
      · rename_i habsent
        constructor
        · rintro ⟨⟩
        · rintro ⟨⟨⟩, h⟩
          rw [habsent] at h
          cases h
      · rename_i habsent
        constructor
        · rintro ⟨⟩
          exact ⟨rfl, Bool.of_not_eq_true habsent⟩
        · rintro ⟨⟨⟩, -⟩
          rfl

end PropFlow.Entry
