import PropFlow.Diagnostics

namespace PropFlow

-- A line on an accepted component starts with a tick and a blank.
def isTicked (line : String) : Bool :=
  ['✓', ' '].isPrefixOf line.toList

-- A text that starts with something else than a tick.
def Unticked (text : String) : Prop :=
  text.toList.head?.any (· != '✓') = true

instance (text : String) : Decidable (Unticked text) :=
  inferInstanceAs (Decidable (_ = _))

namespace Unticked

theorem append {text : String} (h : Unticked text) (rest : String) : Unticked (text ++ rest) := by
  unfold Unticked at h ⊢
  rw [String.toList_append]
  cases hchars : text.toList with
  | nil =>
      rw [hchars] at h
      cases h
  | cons c cs => rwa [hchars] at h

theorem isTicked_eq_false {text : String} (h : Unticked text) : isTicked text = false := by
  unfold Unticked at h
  unfold isTicked
  cases hchars : text.toList with
  | nil => rfl
  | cons c cs =>
      rw [hchars] at h
      have hc : ('✓' == c) = false := beq_eq_false_iff_ne.mpr (Ne.symm (bne_iff_ne.mp h))
      rw [List.isPrefixOf, hc, Bool.false_and]

end Unticked

namespace Note

-- A note that neither accepts a component nor is a free text.
def isRoutine : Note → Bool
  | message _ => false
  | accepted _ _ => false
  | _ => true

theorem unticked_text {n : Note} (h : n.isRoutine = true) : Unticked n.text := by
  cases n with
  | message text => cases h
  | accepted name reason => cases h
  | _ =>
      -- what is left of a line when everything appended is taken off again are its first words
      delta Note.text
      repeat with_reducible apply Unticked.append
      decide +kernel

theorem isTicked_text_accepted (name reason : String) : isTicked (accepted name reason).text = true := by
  have hmark : "✓ ".toList = ['✓', ' '] := by decide +kernel
  change isTicked ("✓ " ++ name ++ " identified as React component (" ++ reason ++ ")") = true
  unfold isTicked
  rw [String.append_assoc, String.append_assoc, String.append_assoc, String.toList_append, hmark]
  exact List.isPrefixOf_iff_prefix.mpr (List.prefix_append _ _)

end Note

-- Notes of which so many accept a component, and none is a free text.
inductive Accepting : List Note → Nat → Prop
  | nil : Accepting [] 0
  | routine {n : Note} {notes : List Note} {count : Nat} :
      n.isRoutine = true → Accepting notes count → Accepting (n :: notes) count
  | accepted (name reason : String) {notes : List Note} {count : Nat} :
      Accepting notes count → Accepting (.accepted name reason :: notes) (count + 1)

namespace Accepting

variable {notes notes' : List Note} {count count' : Nat}

theorem of_isRoutine (h : ∀ n ∈ notes, n.isRoutine = true) : Accepting notes 0 := by
  induction notes with
  | nil => exact .nil
  | cons n rest ih =>
      obtain ⟨hn, hrest⟩ := List.forall_mem_cons.mp h
      exact .routine hn (ih hrest)

theorem append (h : Accepting notes count) (h' : Accepting notes' count') :
    Accepting (notes ++ notes') (count + count') := by
  induction h with
  | nil => simpa using h'
  | routine hn _ ih => exact .routine hn ih
  | @accepted name reason rest count _ ih =>
      rw [Nat.add_right_comm]
      exact .accepted name reason ih

-- The lines that start with a tick are those on accepted components.
theorem countP_isTicked (h : Accepting notes count) : (notes.map Note.text).countP isTicked = count := by
  induction h with
  | nil => rfl
  | routine hn _ ih =>
      rw [List.map_cons, List.countP_cons_of_neg (by simp [(Note.unticked_text hn).isTicked_eq_false]), ih]
  | accepted name reason _ ih =>
      rw [List.map_cons, List.countP_cons_of_pos (Note.isTicked_text_accepted name reason), ih]

end Accepting

-- Accepted components are counted as they are noted.
theorem Diagnostics.notes_eq {notes : List Note} {count : Nat} (h : Accepting notes count)
    (d : Diagnostics) :
    d.notes notes = { d with accepted := d.accepted + count, log := d.log ++ notes } := by
  induction h generalizing d with
  | nil => simp [Diagnostics.notes]
  | @routine n rest count hn _ ih =>
      have hnote : d.note n = { d with log := d.log ++ [n] } := by
        cases n with
        | message text => cases hn
        | accepted name reason => cases hn
        | _ => rfl
      calc
        d.notes (n :: rest) = (d.note n).notes rest := rfl
        _ = { d with accepted := d.accepted + count, log := d.log ++ n :: rest } := by
          rw [ih, hnote]
          simp
  | @accepted name reason rest count _ ih =>
      calc
        d.notes (.accepted name reason :: rest) = (d.note (.accepted name reason)).notes rest := rfl
        _ = { d with
              accepted := d.accepted + (count + 1)
              log := d.log ++ .accepted name reason :: rest } := by
          rw [ih]
          simp [Diagnostics.note, Nat.add_right_comm, Nat.add_assoc]

end PropFlow
