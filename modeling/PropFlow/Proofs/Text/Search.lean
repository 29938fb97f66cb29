import Mathlib.Data.List.Infix
import PropFlow.Text.Search

namespace PropFlow.Text

theorem occursIn_iff {word text : List Char} : occursIn word text = true ↔ word <:+: text := by
  induction text with
  | nil => simp [occursIn]
  | cons c rest ih => simp [occursIn, ih, List.infix_cons_iff]

theorem isSubstring_iff {word text : String} :
    isSubstring word text = true ↔ word.toList <:+: text.toList :=
  occursIn_iff

end PropFlow.Text
