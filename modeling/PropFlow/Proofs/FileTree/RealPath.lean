import PropFlow.Proofs.FileTree.Leads
import PropFlow.Proofs.FileTree.Leaves

namespace PropFlow.Entry

section Steps

variable (top : Entry) (links : Nat) (known : Known) (here : List String) (rest : List Step)

theorem settleWithin_nil : settleWithin top links known here [] = here := by
  cases links <;> simp only [settleWithin, settle]

theorem settleWithin_resolved (place : List String) :
    settleWithin top links known here (.resolved place :: rest) =
      settleWithin top links ((place, some here) :: known) here rest := by
  cases links <;> simp only [settleWithin, settle]

theorem settleWithin_stay {name : String} (h : name = "" ∨ name = ".") :
    settleWithin top links known here (.pass name :: rest) =
      settleWithin top links known here rest := by
  cases links <;> simp only [settleWithin, settle, if_pos h]

theorem settleWithin_up :
    settleWithin top links known here (.pass ".." :: rest) =
      settleWithin top links known here.dropLast rest := by
  cases links <;> simp [settleWithin, settle]

variable {here}

theorem settleWithin_down {name : String} (hname : IsName name)
    (hlink : ∀ target, top.search? (here ++ [name]) ≠ some (.link target)) :
    settleWithin top links known here (.pass name :: rest) =
      settleWithin top links known (here ++ [name]) rest := by
  obtain ⟨h₁, h₂, h₃⟩ := hname
  cases links <;> simp only [settleWithin, settle, h₁, h₂, h₃, or_self, ite_false]

variable {known} {target : String}

theorem settleWithin_known {name : String} (hname : IsName name)
    (hlink : top.search? (here ++ [name]) = some (.link target)) {there : List String}
    (hknown : known.lookup (here ++ [name]) = some (some there)) :
    settleWithin top links known here (.pass name :: rest) =
      settleWithin top links known there rest := by
  obtain ⟨h₁, h₂, h₃⟩ := hname
  cases links <;>
    simp only [settleWithin, settle, h₁, h₂, h₃, or_self, ite_false, hlink, hknown]

theorem settleWithin_new {name : String} (hname : IsName name)
    (hlink : top.search? (here ++ [name]) = some (.link target))
    (hknown : known.lookup (here ++ [name]) = none) :
    settleWithin top (links + 1) known here (.pass name :: rest) =
      settleWithin top links ((here ++ [name], none) :: known) (targetStart here target)
        ((targetNames target).map .pass ++ .resolved (here ++ [name]) :: rest) := by
  obtain ⟨h₁, h₂, h₃⟩ := hname
  simp only [settleWithin, settle, h₁, h₂, h₃, or_self, ite_false, hlink, hknown]

end Steps

-- What it costs to go behind the link at a place, and where that leads.
def Resolves (top : Entry) (cost : Nat) (place there : List String) : Prop :=
  ∃ target, top.search? place = some (.link target) ∧
    Leads top cost (targetStart place.dropLast target) (targetNames target) there

theorem Resolves.unique {top : Entry} {cost cost' : Nat} {place there there' : List String}
    (h : Resolves top cost place there) (h' : Resolves top cost' place there') :
    cost = cost' ∧ there = there' := by
  obtain ⟨target, hlink, hleads⟩ := h
  obtain ⟨target', hlink', hleads'⟩ := h'
  obtain rfl : target = target' := Entry.link.inj (Option.some.inj (hlink.symm.trans hlink'))
  exact hleads.unique hleads'

-- Finished links have the places they lead to, and there is one jump left for every other link.
structure Settled (top : Entry) (links : Nat) (known : Known) : Prop where
  finished : ∀ place there, known.lookup place = some (some there) →
    ∃ cost, Resolves top cost place there
  enough : top.unseen sortLink (fun place => (known.lookup place).isSome) ≤ links

-- A walk that is still ahead is too short to go behind a link that is not finished.
def Ahead (top : Entry) (cost : Nat) (known : Known) : Prop :=
  ∀ place, known.lookup place = some none →
    ∀ cost' there, Resolves top cost' place there → cost ≤ cost'

theorem Ahead.mono {top : Entry} {cost cost' : Nat} {known known' : Known}
    (h : Ahead top cost known) (hcost : cost' ≤ cost)
    (hknown : ∀ place, known'.lookup place = some none → known.lookup place = some none) :
    Ahead top cost' known' :=
  fun place hp _ _ hr => Nat.le_trans hcost (h place (hknown place hp) _ _ hr)

theorem lookup_cons_eq {place other : List String} {value : Option (List String)} {known : Known} :
    List.lookup place ((other, value) :: known) =
      if place = other then some value else known.lookup place := by
  rw [List.lookup_cons]
  by_cases h : place = other
  · simp [h]
  · simp [h, beq_eq_false_iff_ne.mpr h]

-- The first meeting with a link uses up one jump.
theorem Settled.begin {top : Entry} {links : Nat} {known : Known} (h : Settled top links known)
    {place : List String} {target : String} (hlink : top.search? place = some (.link target))
    (hnew : known.lookup place = none) :
    ∃ links', links = links' + 1 ∧ Settled top links' ((place, none) :: known) := by
  have hlt : top.unseen sortLink (fun other => (List.lookup other ((place, none) :: known)).isSome) <
      top.unseen sortLink (fun other => (known.lookup other).isSome) := by
    refine unseen_lt ?_ (mem_leaves (get?_of_search? hlink) (by simp [leaves])) rfl (by simp [hnew]) (by simp)
    intro names hseen
    rw [lookup_cons_eq]
    split
    · rfl
    · exact hseen
  have hle := h.enough
  refine ⟨links - 1, by omega, ?_, by omega⟩
  intro other there hother
  rw [lookup_cons_eq] at hother
  split at hother
  · cases hother
  · exact h.finished other there hother

-- The end of a link's target gives the link its value.
theorem Settled.finish {top : Entry} {links cost : Nat} {known : Known} (h : Settled top links known)
    {place there : List String} (hr : Resolves top cost place there) :
    Settled top links ((place, some there) :: known) where
  finished other mid hother := by
    rw [lookup_cons_eq] at hother
    split at hother
    · rename_i heq
      subst heq
      obtain rfl : there = mid := by simpa using hother
      exact ⟨cost, hr⟩
    · exact h.finished other mid hother
  enough := by
    refine Nat.le_trans (unseen_le ?_) h.enough
    intro names hseen
    rw [lookup_cons_eq]
    split
    · rfl
    · exact hseen

-- Replacing links one after the other ends where the walk ends. A link that is met again while it
-- is being resolved would make the walk behind it shorter than itself.
theorem settleWithin_of_leads {top : Entry} {cost : Nat} {here names there : List String}
    (h : Leads top cost here names there) {links : Nat} {known : Known}
    (hsettled : Settled top links known) (hahead : Ahead top cost known) (rest : List Step) :
    ∃ links' known', Settled top links' known' ∧
      (∀ place, known'.lookup place = some none → known.lookup place = some none) ∧
      settleWithin top links known here (names.map .pass ++ rest) =
        settleWithin top links' known' there rest := by
  induction h generalizing links known rest with
  | stop here => exact ⟨links, known, hsettled, fun _ h => h, rfl⟩
  | stay hname _ ih =>
      rw [List.map_cons, List.cons_append, settleWithin_stay top links known _ _ hname]
      exact ih hsettled hahead rest
  | up _ ih =>
      rw [List.map_cons, List.cons_append, settleWithin_up]
      exact ih hsettled hahead rest
  | down hname hlink _ ih =>
      rw [List.map_cons, List.cons_append, settleWithin_down top links known _ hname hlink]
      exact ih hsettled hahead rest
  | @jump cost₁ cost₂ here names mid there name target hname hlink htarget hrest ihTarget ihRest =>
      rw [List.map_cons, List.cons_append]
      have hresolves : Resolves top cost₁ (here ++ [name]) mid := by
        refine ⟨target, hlink, ?_⟩
        rw [List.dropLast_concat]
        exact htarget
      match hknown : known.lookup (here ++ [name]) with
      | some (some place) =>
          obtain ⟨_, hplace⟩ := hsettled.finished _ _ hknown
          obtain ⟨-, rfl⟩ := hplace.unique hresolves
          rw [settleWithin_known top links _ hname hlink hknown]
          exact ihRest hsettled (hahead.mono (by omega) fun _ h => h) rest
      | some none =>
          have := hahead _ hknown _ _ hresolves
          omega
      | none =>
          obtain ⟨links, rfl, hbegun⟩ := hsettled.begin hlink hknown
          rw [settleWithin_new top links _ hname hlink hknown]
          have hahead₁ : Ahead top cost₁ ((here ++ [name], none) :: known) := by
            intro place hplace cost' there' hr
            rw [lookup_cons_eq] at hplace
            split at hplace
            · rename_i heq
              subst heq
              exact Nat.le_of_eq (hresolves.unique hr).1
            · have := hahead place hplace _ _ hr
              omega
          obtain ⟨links₁, known₁, hsettled₁, hkeep₁, hsteps₁⟩ :=
            ihTarget hbegun hahead₁ (.resolved (here ++ [name]) :: (names.map .pass ++ rest))
          rw [hsteps₁, settleWithin_resolved]
          have hkeep : ∀ place, List.lookup place ((here ++ [name], some mid) :: known₁) = some none →
              known.lookup place = some none := by
            intro place hplace
            rw [lookup_cons_eq] at hplace
            split at hplace
            · cases hplace
            · rename_i hne
              have hbegan := hkeep₁ place hplace
              rwa [lookup_cons_eq, if_neg hne] at hbegan
          obtain ⟨links₂, known₂, hsettled₂, hkeep₂, hsteps₂⟩ :=
            ihRest (hsettled₁.finish hresolves) (hahead.mono (by omega) hkeep) rest
          exact ⟨links₂, known₂, hsettled₂, fun place h => hkeep place (hkeep₂ place h), hsteps₂⟩

theorem settleWithin_linkCount {top : Entry} {cost : Nat} {names there : List String}
    (h : Leads top cost [] names there) :
    settleWithin top top.linkCount [] [] (names.map .pass) = there := by
  have hsettled : Settled top top.linkCount [] := by
    refine ⟨fun _ _ h => by simp at h, ?_⟩
    rw [linkCount_eq]
    exact unseen_le_countP
  obtain ⟨links, known, -, -, hsteps⟩ :=
    settleWithin_of_leads h hsettled (fun _ h => by simp at h) []
  rw [List.append_nil] at hsteps
  rw [hsteps, settleWithin_nil]

end PropFlow.Entry

namespace PropFlow.Disk

theorem names_absolute (disk : Disk) (names : List String) :
    disk.names (Path.absolute names) = names := rfl

theorem expand?_absolute (disk : Disk) (names : List String) :
    disk.expand? (Path.absolute names) = some (Path.absolute names) := rfl

theorem follow_of_stat {disk : Disk} {path : Path} {place : Entry.Place}
    (h : disk.stat path = .ok place) :
    disk.top.follow Entry.linkLimit [] (disk.names path) = .ok place := by
  unfold stat at h
  split at h
  · cases h
  · exact h

theorem stat_of_isFile {disk : Disk} {path : Path} (h : disk.isFile path = .ok true) :
    ∃ place bytes, disk.stat path = .ok place ∧ place.entry = .file bytes := by
  unfold isFile at h
  split at h
  · cases h
  obtain ⟨place, hstat, hsort⟩ := Entry.test_eq_true h
  cases hentry : place.entry with
  | file bytes => exact ⟨place, bytes, hstat, hentry⟩
  | link target => simp [hentry, Entry.sortFile] at hsort
  | dir access entries => simp [hentry, Entry.sortFile] at hsort

theorem stat_of_isPresent {disk : Disk} {path : Path} (h : disk.isPresent path = .ok true) :
    ∃ place, disk.stat path = .ok place := by
  obtain ⟨place, hstat, -⟩ := Entry.test_eq_true h
  exact ⟨place, hstat⟩

theorem isPresent_of_read {disk : Disk} {path : Path} {bytes : List UInt8} (h : disk.read path = .ok bytes) :
    disk.isPresent path = .ok true := by
  unfold read at h
  split at h
  · rename_i hstat
    rw [isPresent, hstat]
    rfl
  · cases h
  · cases h
  · cases h

theorem isFile_eq_true {disk : Disk} {path : Path} (h : disk.isFile path = .ok true) :
    ∃ place bytes, disk.top.follow Entry.linkLimit [] (disk.names path) = .ok place ∧
      place.entry = .file bytes := by
  obtain ⟨place, bytes, hstat, hentry⟩ := stat_of_isFile h
  exact ⟨place, bytes, follow_of_stat hstat, hentry⟩

theorem eq_of_realPath {disk : Disk} {path real : Path} {cost : Nat} {there : List String}
    (h : Entry.Leads disk.top cost [] (disk.names path) there) (hreal : disk.realPath path = .ok real) :
    real = Path.absolute there := by
  simp only [realPath, Entry.settleWithin_linkCount h] at hreal
  split at hreal
  · cases hreal
  · exact (Except.ok.inj hreal).symm

-- Paths that lead to one place have one real path.
theorem realPath_congr {disk : Disk} {path path' : Path} {cost cost' : Nat} {there : List String}
    (h : Entry.Leads disk.top cost [] (disk.names path) there)
    (h' : Entry.Leads disk.top cost' [] (disk.names path') there) :
    disk.realPath path = disk.realPath path' := by
  simp only [realPath, Entry.settleWithin_linkCount h, Entry.settleWithin_linkCount h']

-- The real path of a file is the place where the file is, and has itself for its real path.
theorem realPath_of_isFile {disk : Disk} {path real : Path} (hfile : disk.isFile path = .ok true)
    (hreal : disk.realPath path = .ok real) :
    (∃ names bytes, real = Path.absolute names ∧ disk.top.search? names = some (.file bytes)) ∧
      disk.realPath real = .ok real := by
  obtain ⟨place, bytes, hplace, hentry⟩ := isFile_eq_true hfile
  have hget := Entry.search?_of_follow hplace
  obtain ⟨hplain, cost, hleads⟩ := Entry.leads_of_follow (Entry.Plain.nil _) hplace
  have hself : Entry.Leads disk.top 0 [] (disk.names (Path.absolute place.names)) place.names :=
    hplain.leads
  obtain rfl := eq_of_realPath hleads hreal
  refine ⟨⟨place.names, bytes, rfl, hentry ▸ hget⟩, ?_⟩
  rw [← realPath_congr hleads hself, hreal]

-- What is there is also there by its real path, unless that is too long to be looked up.
theorem stat_absolute_of_stat {disk : Disk} {path : Path} {place : Entry.Place}
    (h : disk.stat path = .ok place)
    (hlimit : (Path.absolute place.names).text.utf8ByteSize ≤ Entry.pathLimit) :
    disk.stat (Path.absolute place.names) = .ok ⟨place.names, place.entry, Entry.linkLimit⟩ := by
  have hfollow := follow_of_stat h
  obtain ⟨hplain, -⟩ := Entry.leads_of_follow (.nil _) hfollow
  have hshort := Entry.short_of_follow (List.forall_mem_nil _) hfollow
  rw [stat, if_neg (Nat.not_lt.mpr hlimit), names_absolute]
  exact Entry.follow_of_plain hplain hshort (Entry.search?_of_follow hfollow)

theorem realPath_of_stat {disk : Disk} {path : Path} {place : Entry.Place}
    (h : disk.stat path = .ok place) : disk.realPath path = .ok (Path.absolute place.names) := by
  obtain ⟨-, cost, hleads⟩ := Entry.leads_of_follow (.nil _) (follow_of_stat h)
  simp only [realPath, Entry.settleWithin_linkCount hleads]
  by_cases hlimit : (Path.absolute place.names).text.utf8ByteSize ≤ Entry.pathLimit
  · rw [stat_absolute_of_stat h hlimit]
  · rw [stat, if_pos (Nat.lt_of_not_le hlimit)]

theorem stat_error {disk : Disk} {path : Path} {e : FileError} (h : disk.stat path = .error e) :
    e.meansAbsent = true ∨ e = .nameTooLong ∨ e = .notPermitted := by
  unfold stat at h
  split at h
  · cases h
    exact .inr (.inl rfl)
  · exact Entry.follow_error h

-- Whether there is a file is left open by a look-up that is stopped on the way.
theorem isFile_eq_error {disk : Disk} {path : Path} {e : FileError} (h : disk.isFile path = .error e) :
    disk.stat path = .error e ∧ (e = .nameTooLong ∨ e = .notPermitted) := by
  unfold isFile at h
  split at h
  · cases h
  obtain ⟨hstat, hpresent⟩ := Entry.test_eq_error_iff.mp h
  rcases stat_error hstat with habsent | hstopped
  · rw [hpresent] at habsent
    cases habsent
  · exact ⟨hstat, hstopped⟩

end PropFlow.Disk
