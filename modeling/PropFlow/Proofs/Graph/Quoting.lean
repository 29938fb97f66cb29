import Mathlib.Algebra.Group.Nat.Even
import Mathlib.Data.List.DropRight
import PropFlow.Proofs.Graph

namespace PropFlow.Graph

-- What stands between double quotes is read from the left, and a backslash goes together with the
-- character behind it.
inductive Sign where
  | plain (c : Char)
  | escaped (c : Char)
deriving DecidableEq, Repr

namespace Sign

def char : Sign → Char
  | plain c => c
  | escaped c => c

def text : Sign → List Char
  | plain c => [c]
  | escaped c => ['\\', c]

-- What a sign stands for in a string. Of the characters with a backslash only the quote loses it.
def value : Sign → List Char
  | plain c => [c]
  | escaped c => if c = '\x22' then [c] else ['\\', c]

end Sign

-- The signs of a text, unless it ends with a backslash that has nothing to go with.
def signs? : List Char → Option (List Sign)
  | [] => some []
  | '\\' :: c :: rest => (signs? rest).map (.escaped c :: ·)
  | c :: rest => if c = '\\' then none else (signs? rest).map (.plain c :: ·)

-- What is read when a sign comes first.
def Sign.prepend (sign : Sign) (read : Option (List Char × List Char)) : Option (List Char × List Char) :=
  read.map fun (value, rest) => (sign.value ++ value, rest)

-- Reads a string that has been opened: what it stands for and what follows the quote that ends it.
def readOpened? : List Char → Option (List Char × List Char)
  | [] => none
  | '\\' :: c :: rest => (Sign.escaped c).prepend (readOpened? rest)
  | c :: rest =>
    if c = '\x22' then some ([], rest)
    else if c = '\\' then none
    else (Sign.plain c).prepend (readOpened? rest)

-- Reads a string at the start of a text.
def readString? : List Char → Option (List Char × List Char)
  | '\x22' :: rest => readOpened? rest
  | _ => none

section Signs

theorem signs?_plain {c : Char} (hc : c ≠ '\\') (rest : List Char) :
    signs? (c :: rest) = (signs? rest).map (.plain c :: ·) := by
  rw [signs?.eq_3 _ _ (fun _ _ h => absurd h hc), if_neg hc]

-- A text that is made of signs is cut into these.
theorem signs?_flatMap_text {signs : List Sign} (h : .plain '\\' ∉ signs) :
    signs? (signs.flatMap Sign.text) = some signs := by
  induction signs with
  | nil => rfl
  | cons sign rest ih =>
      obtain ⟨hsign, hrest⟩ := not_or.mp (mt List.mem_cons.mpr h)
      rw [List.flatMap_cons]
      cases sign with
      | plain c =>
          have hc : c ≠ '\\' := by
            rintro rfl
            exact hsign rfl
          rw [Sign.text, List.singleton_append, signs?_plain hc, ih hrest]
          rfl
      | escaped c =>
          rw [Sign.text, List.cons_append, List.cons_append, List.nil_append, signs?, ih hrest]
          rfl

end Signs

section Reading

theorem prepend_eq_some {sign : Sign} {read : Option (List Char × List Char)} {value rest : List Char} :
    sign.prepend read = some (value, rest) ↔
      ∃ inner, read = some (inner, rest) ∧ value = sign.value ++ inner := by
  cases read with
  | none => simp [Sign.prepend]
  | some found =>
      obtain ⟨inner, rest'⟩ := found
      simp only [Sign.prepend, Option.map_some, Option.some.injEq, Prod.mk.injEq]
      grind

theorem prepend_eq_some_iff {sign : Sign} {read : Option (List Char × List Char)} {tail rest : List Char}
    {P : Prop} (h : ∀ inner, read = some (inner, rest) ↔ inner = tail ∧ P) (value : List Char) :
    sign.prepend read = some (value, rest) ↔ value = sign.value ++ tail ∧ P := by
  rw [prepend_eq_some]
  constructor
  · rintro ⟨inner, hread, rfl⟩
    obtain ⟨rfl, hP⟩ := (h inner).mp hread
    exact ⟨rfl, hP⟩
  · rintro ⟨rfl, hP⟩
    exact ⟨tail, (h tail).mpr ⟨rfl, hP⟩, rfl⟩

theorem readOpened?_plain {c : Char} (hquote : c ≠ '\x22') (hback : c ≠ '\\') (rest : List Char) :
    readOpened? (c :: rest) = (Sign.plain c).prepend (readOpened? rest) := by
  rw [readOpened?.eq_3 _ _ (fun _ _ h => absurd h hback), if_neg hquote, if_neg hback]

theorem readOpened?_quote (rest : List Char) : readOpened? ('\x22' :: rest) = some ([], rest) := by
  rw [readOpened?.eq_3 _ _ (by simp), if_pos rfl]

-- A string with no quote of its own ends where it is closed.
theorem readOpened?_flatMap_text {signs : List Sign} (hback : .plain '\\' ∉ signs)
    (hquote : .plain '\x22' ∉ signs) (rest : List Char) :
    readOpened? (signs.flatMap Sign.text ++ '\x22' :: rest) = some (signs.flatMap Sign.value, rest) := by
  induction signs with
  | nil => exact readOpened?_quote rest
  | cons sign others ih =>
      obtain ⟨hback, hbacks⟩ := not_or.mp (mt List.mem_cons.mpr hback)
      obtain ⟨hquote, hquotes⟩ := not_or.mp (mt List.mem_cons.mpr hquote)
      have hothers := ih hbacks hquotes
      rw [List.flatMap_cons, List.append_assoc, List.flatMap_cons]
      cases sign with
      | plain c =>
          have hc : c ≠ '\\' := by
            rintro rfl
            exact hback rfl
          have hc' : c ≠ '\x22' := by
            rintro rfl
            exact hquote rfl
          rw [Sign.text, List.singleton_append, readOpened?_plain hc' hc, hothers]
          rfl
      | escaped c =>
          rw [Sign.text, List.cons_append, List.cons_append, List.nil_append, readOpened?, hothers]
          rfl

-- Something is read, the closing quote at least.
theorem length_lt_of_readOpened? {cs value rest : List Char} (h : readOpened? cs = some (value, rest)) :
    rest.length < cs.length := by
  fun_induction readOpened? cs generalizing value with
  | case1 => cases h
  | case2 c tail ih =>
      obtain ⟨inner, hinner, -⟩ := prepend_eq_some.mp h
      have hlt := ih hinner
      simp only [List.length_cons]
      omega
  | case3 tail =>
      cases h
      simp
  | case4 => cases h
  | case5 c tail _ _ _ ih =>
      obtain ⟨inner, hinner, -⟩ := prepend_eq_some.mp h
      have hlt := ih hinner
      simp only [List.length_cons]
      omega

end Reading

section Backslashes

-- How many backslashes a text ends with.
def backslashes (cs : List Char) : Nat :=
  (cs.rtakeWhile (· == '\\')).length

-- A text with an even number of backslashes before each of its quotes and at its end.
def EvenlyBackslashed (cs : List Char) : Prop :=
  ∀ before rest, before ++ rest = cs → rest = [] ∨ rest.head? = some '\x22' → Even (backslashes before)

-- The same of a text that something else precedes.
def EvenFrom (before cs : List Char) : Prop :=
  ∀ inner rest, inner ++ rest = cs → rest = [] ∨ rest.head? = some '\x22' →
    Even (backslashes (before ++ inner))

theorem backslashes_concat_self (cs : List Char) : backslashes (cs ++ ['\\']) = backslashes cs + 1 := by
  simp [backslashes, List.rtakeWhile_concat_pos]

theorem backslashes_concat {c : Char} (hc : c ≠ '\\') (cs : List Char) : backslashes (cs ++ [c]) = 0 := by
  simp [backslashes, hc]

theorem not_even_concat_self {cs : List Char} (h : Even (backslashes cs)) :
    ¬Even (backslashes (cs ++ ['\\'])) := by
  rw [backslashes_concat_self, Nat.even_add_one]
  exact not_not_intro h

-- After a backslash with the character that it goes with the number is even again.
theorem even_concat_pair {cs : List Char} (h : Even (backslashes cs)) (c : Char) :
    Even (backslashes (cs ++ ['\\'] ++ [c])) := by
  by_cases hc : c = '\\'
  · subst hc
    rw [backslashes_concat_self, Nat.even_add_one]
    exact not_even_concat_self h
  · rw [backslashes_concat hc]
    exact .zero

theorem evenFrom_nil {before : List Char} : EvenFrom before [] ↔ Even (backslashes before) := by
  constructor
  · intro h
    simpa using h [] [] rfl (.inl rfl)
  · intro h inner rest hsplit _
    obtain ⟨rfl, rfl⟩ := List.append_eq_nil_iff.mp hsplit
    simpa using h

theorem evenFrom_cons {before cs : List Char} {c : Char} : EvenFrom before (c :: cs) ↔
    (c = '\x22' → Even (backslashes before)) ∧ EvenFrom (before ++ [c]) cs := by
  constructor
  · intro h
    constructor
    · rintro rfl
      simpa using h [] _ rfl (.inr rfl)
    · intro inner rest hsplit hrest
      simpa using h (c :: inner) rest (by rw [List.cons_append, hsplit]) hrest
  · rintro ⟨hquote, hothers⟩ inner rest hsplit hrest
    cases inner with
    | nil =>
        rw [List.nil_append] at hsplit
        subst hsplit
        simpa using hquote (by simpa using hrest)
    | cons first inner =>
        obtain ⟨rfl, htail⟩ := List.cons.inj hsplit
        simpa using hothers inner rest htail hrest

end Backslashes

section Escape

theorem escape_quote (cs : List Char) : escape ('\x22' :: cs) = '\\' :: '\x22' :: escape cs := rfl

theorem escape_cons {c : Char} (hc : c ≠ '\x22') (cs : List Char) : escape (c :: cs) = c :: escape cs := by
  simp [escape, escapeMark, hc]

theorem toList_quote (text : String) :
    (quote text).toList = '\x22' :: escape text.toList ++ ['\x22'] := by
  simp [quote]

-- The string ends where it is closed unless a backslash of the text goes with the closing quote, or
-- with the backslash that was put before a quote. Between signs the number of backslashes that have
-- been read last is even.
theorem readOpened?_escape_iff {before : List Char} (h : Even (backslashes before))
    (cs value rest : List Char) :
    readOpened? (escape cs ++ '\x22' :: rest) = some (value, rest) ↔ value = cs ∧ EvenFrom before cs := by
  induction cs using signs?.induct generalizing before value with
  | case1 =>
      rw [evenFrom_nil, and_iff_left h]
      simp [escape, escapeMark, readOpened?_quote, eq_comm]
  | case2 c tail ih =>
      rw [evenFrom_cons, evenFrom_cons, escape_cons (by decide)]
      by_cases hc : c = '\x22'
      · subst hc
        have hodd := not_even_concat_self h
        refine iff_of_false (fun hread => ?_) fun heven => hodd (heven.2.2.1 rfl)
        rw [escape_quote, List.cons_append, List.cons_append, readOpened?] at hread
        obtain ⟨inner, hinner, -⟩ := prepend_eq_some.mp hread
        rw [List.cons_append, readOpened?_quote] at hinner
        have hlength := congrArg List.length (Prod.mk.inj (Option.some.inj hinner)).2
        rw [List.length_append, List.length_cons] at hlength
        omega
      · rw [escape_cons hc, List.cons_append, List.cons_append, readOpened?,
          prepend_eq_some_iff (ih (even_concat_pair h c)) value, Sign.value, if_neg hc]
        simp [hc]
  | case3 tail hdangling =>
      obtain rfl : tail = [] := by
        cases tail with
        | nil => rfl
        | cons c rest => exact (hdangling c rest rfl rfl).elim
      rw [evenFrom_cons, evenFrom_nil, escape_cons (by decide)]
      have hodd := not_even_concat_self h
      refine iff_of_false (fun hread => ?_) fun heven => hodd heven.2.2
      obtain ⟨inner, hinner, -⟩ := prepend_eq_some.mp hread
      exact absurd (length_lt_of_readOpened? hinner) (lt_irrefl _)
  | case4 c tail _ hc ih =>
      have heven : Even (backslashes (before ++ [c])) := by
        rw [backslashes_concat hc]
        exact .zero
      rw [evenFrom_cons, and_iff_right fun _ => h]
      by_cases hquote : c = '\x22'
      · subst hquote
        rw [escape_quote, List.cons_append, List.cons_append, readOpened?]
        exact prepend_eq_some_iff (ih heven) value
      · rw [escape_cons hquote, List.cons_append, readOpened?_plain hquote hc]
        exact prepend_eq_some_iff (ih heven) value

end Escape

-- The id of a component is written as one string that ends where it is closed exactly if an even
-- number of backslashes stands before each of its quotes and at its end; the string is then the id.
theorem quote_vertexId_read_iff (components : List Component) (places : List (String × String))
    (c : Component) (value rest : List Char) :
    readString? ((quote (vertexId components places c)).toList ++ rest) = some (value, rest) ↔
      value = (vertexId components places c).toList ∧
        EvenlyBackslashed (vertexId components places c).toList := by
  have heven : Even (backslashes []) := .zero
  rw [toList_quote, List.cons_append, List.cons_append, readString?, List.append_assoc]
  exact readOpened?_escape_iff heven _ value rest

-- Two components of one name. The file of the first has a backslash before a quote in its name.
namespace Backslashed

def components : List Component :=
  [.build "Card" "/app/a\\\".js" [], .build "Card" "/app/b.js" []]

theorem locations_eq : locations [] components =
    .ok [("/app/a\\\".js", "a\\\".js"), ("/app/b.js", "b.js")] := by
  rw [locations_of_sorted "/app/a\\\".js" ["/app/b.js"] (by decide +kernel) (by decide +kernel)]
  decide +kernel

end Backslashed

-- The string ends in the midst of the id, at the quote that was to be part of it.
theorem quote_vertexId_cut_short : ∃ places, locations [] Backslashed.components = .ok places ∧
    ∃ c ∈ Backslashed.components, vertexId Backslashed.components places c = "Card (a\\\".js)" ∧
      readString? (quote (vertexId Backslashed.components places c)).toList =
        some ("Card (a\\\\".toList, ".js)\"".toList) := by
  refine ⟨_, Backslashed.locations_eq, _, List.mem_cons_self, ?_⟩
  decide +kernel

end PropFlow.Graph
