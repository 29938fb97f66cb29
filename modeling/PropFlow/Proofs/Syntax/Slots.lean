import Mathlib.Data.List.Chain
import PropFlow.Syntax.Pattern

namespace PropFlow.Syntax.Node

-- A node that can fill a slot of an array pattern.
def IsElement (n : Node) : Prop :=
  n.kind ∉ ["[", "]", ",", "comment"]

-- The tokens between the brackets of a pattern with these slots. A comma stands behind each slot,
-- and only behind a last slot that is filled it may be left out.
inductive SlotTokens : List (Option Node) → List Node → Prop
  | nil : SlotTokens [] []
  | last {element : Node} : element.IsElement → SlotTokens [some element] [element]
  | hole {comma : Node} {slots : List (Option Node)} {tokens : List Node} :
      comma.kind = "," → SlotTokens slots tokens → SlotTokens (none :: slots) (comma :: tokens)
  | filled {element comma : Node} {slots : List (Option Node)} {tokens : List Node} :
      element.IsElement → comma.kind = "," → SlotTokens slots tokens →
        SlotTokens (some element :: slots) (element :: comma :: tokens)

-- The children that count in a pattern: brackets around some tokens. Comments may stand anywhere.
def Encloses (pattern : Node) (tokens : List Node) : Prop :=
  ∃ opening closing, opening.kind = "[" ∧ closing.kind = "]" ∧
    pattern.children.filter (fun child => !child.isComment) = opening :: (tokens ++ [closing])

-- A pattern that is written for these slots.
def SpellsSlots (pattern : Node) (slots : List (Option Node)) : Prop :=
  ∃ tokens, SlotTokens slots tokens ∧ pattern.Encloses tokens

-- Nothing but elements and commas, and a comma between any two elements.
structure CommaSeparated (tokens : List Node) : Prop where
  isElement_or_comma : ∀ token ∈ tokens, token.IsElement ∨ token.kind = ","
  isChain : tokens.IsChain fun token next => token.kind = "," ∨ next.kind = ","

def IsBracketed (pattern : Node) : Prop :=
  ∃ tokens, CommaSeparated tokens ∧ pattern.Encloses tokens

section Steps

variable {token : Node}

theorem slotsFrom_filter_comments (pending : Option Node) (tokens : List Node) :
    slotsFrom pending (tokens.filter fun token => !token.isComment) = slotsFrom pending tokens := by
  induction tokens generalizing pending with
  | nil => rfl
  | cons token rest ih =>
      cases hcomment : token.isComment with
      | true =>
          rw [List.filter_cons_of_neg (by simp [hcomment]), ih]
          simp [slotsFrom, hcomment]
      | false =>
          rw [List.filter_cons_of_pos (by simp [hcomment])]
          simp only [slotsFrom, ih]

theorem slotsFrom_opening (h : token.kind = "[") (pending : Option Node) (rest : List Node) :
    slotsFrom pending (token :: rest) = slotsFrom pending rest := by
  simp [slotsFrom, h]

theorem slotsFrom_comma (h : token.kind = ",") (pending : Option Node) (rest : List Node) :
    slotsFrom pending (token :: rest) = pending :: slotsFrom none rest := by
  simp [slotsFrom, isComment, h]

theorem slotsFrom_element (h : token.IsElement) (pending : Option Node) (rest : List Node) :
    slotsFrom pending (token :: rest) = slotsFrom (some token) rest := by
  simp only [IsElement, List.mem_cons, List.not_mem_nil, or_false, not_or] at h
  obtain ⟨hopening, hclosing, hcomma, hcomment⟩ := h
  simp [slotsFrom, isComment, hopening, hclosing, hcomma, hcomment]

theorem slotsFrom_closing (h : token.kind = "]") (pending : Option Node) :
    slotsFrom pending [token] = pending.toList.map some := by
  cases pending with
  | none => simp [slotsFrom, isComment, h]
  | some held => simp [slotsFrom, isComment, h]

end Steps

namespace SlotTokens

variable {slots : List (Option Node)} {tokens : List Node}

-- At the start of a slot nothing is pending, whatever slots came before it.
theorem slotsFrom_eq (h : SlotTokens slots tokens) {closing : Node} (hclosing : closing.kind = "]") :
    slotsFrom none (tokens ++ [closing]) = slots := by
  induction h with
  | nil => rw [List.nil_append, slotsFrom_closing hclosing]; rfl
  | last helement =>
      rw [List.singleton_append, slotsFrom_element helement, slotsFrom_closing hclosing]
      rfl
  | hole hcomma _ ih => rw [List.cons_append, slotsFrom_comma hcomma, ih]
  | filled helement hcomma _ ih =>
      rw [List.cons_append, List.cons_append, slotsFrom_element helement, slotsFrom_comma hcomma, ih]

theorem isElement_or_comma (h : SlotTokens slots tokens) :
    ∀ token ∈ tokens, token.IsElement ∨ token.kind = "," := by
  induction h with
  | nil => simp
  | last helement => simp [helement]
  | hole hcomma _ ih => exact List.forall_mem_cons.mpr ⟨.inr hcomma, ih⟩
  | filled helement hcomma _ ih =>
      exact List.forall_mem_cons.mpr ⟨.inl helement, List.forall_mem_cons.mpr ⟨.inr hcomma, ih⟩⟩

theorem isChain (h : SlotTokens slots tokens) :
    tokens.IsChain fun token next => token.kind = "," ∨ next.kind = "," := by
  induction h with
  | nil => exact .nil
  | last _ => exact .singleton _
  | hole hcomma _ ih => exact ih.cons fun _ _ => .inl hcomma
  | filled _ hcomma _ ih => exact .cons_cons (.inr hcomma) (ih.cons fun _ _ => .inl hcomma)

theorem commaSeparated (h : SlotTokens slots tokens) : CommaSeparated tokens :=
  ⟨h.isElement_or_comma, h.isChain⟩

end SlotTokens

theorem CommaSeparated.tail {token : Node} {rest : List Node} (h : CommaSeparated (token :: rest)) :
    CommaSeparated rest :=
  ⟨(List.forall_mem_cons.mp h.isElement_or_comma).2, h.isChain.tail⟩

-- An element and the comma behind it make up one slot, so tokens are taken two at a time there.
theorem CommaSeparated.exists_slots :
    ∀ {tokens : List Node}, CommaSeparated tokens → ∃ slots, SlotTokens slots tokens
  | [], _ => ⟨[], .nil⟩
  | [token], h => by
      rcases h.isElement_or_comma token List.mem_cons_self with helement | hcomma
      · exact ⟨_, .last helement⟩
      · exact ⟨_, .hole hcomma .nil⟩
  | token :: next :: rest, h => by
      by_cases hcomma : token.kind = ","
      · obtain ⟨slots, hslots⟩ := h.tail.exists_slots
        exact ⟨_, .hole hcomma hslots⟩
      · have helement := (h.isElement_or_comma token List.mem_cons_self).resolve_right hcomma
        have hnext := (List.isChain_cons_cons.mp h.isChain).1.resolve_left hcomma
        obtain ⟨slots, hslots⟩ := h.tail.tail.exists_slots
        exact ⟨_, .filled helement hnext hslots⟩

theorem arraySlots_of_encloses {pattern : Node} {slots : List (Option Node)} {tokens : List Node}
    (h : pattern.Encloses tokens) (hslots : SlotTokens slots tokens) : pattern.arraySlots = slots := by
  obtain ⟨opening, closing, hopening, hclosing, hchildren⟩ := h
  rw [arraySlots, ← slotsFrom_filter_comments, hchildren, slotsFrom_opening hopening,
    hslots.slotsFrom_eq hclosing]

-- The slots that are read off a pattern are those that it is written for, whatever holes, comments
-- or comma at the end it has. Every pattern whose elements are kept apart by commas is written for
-- some slots.
theorem spellsSlots_iff_arraySlots {pattern : Node} {slots : List (Option Node)} :
    pattern.SpellsSlots slots ↔ pattern.IsBracketed ∧ pattern.arraySlots = slots := by
  constructor
  · rintro ⟨tokens, hslots, hencloses⟩
    exact ⟨⟨tokens, hslots.commaSeparated, hencloses⟩, arraySlots_of_encloses hencloses hslots⟩
  · rintro ⟨⟨tokens, hseparated, hencloses⟩, rfl⟩
    obtain ⟨slots, hslots⟩ := hseparated.exists_slots
    rw [arraySlots_of_encloses hencloses hslots]
    exact ⟨tokens, hslots, hencloses⟩

-- A pattern that starts with a hole, has a comment in another one and ends with a comma.
namespace Gaps

def leaf (kind text : String) (start : Nat) (named : Bool) : Node where
  kind := kind
  text := text
  start := start
  stop := start + text.utf8ByteSize
  named := named
  missing := false
  hasError := false
  field := none
  children := []

def comma (start : Nat) : Node :=
  leaf "," "," start false

def pattern : Node where
  kind := "array_pattern"
  text := "[, a, /* old */, b,]"
  start := 0
  stop := 20
  named := true
  missing := false
  hasError := false
  field := none
  children := [leaf "[" "[" 0 false, comma 1, leaf "identifier" "a" 3 true, comma 4,
    leaf "comment" "/* old */" 6 true, comma 15, leaf "identifier" "b" 17 true, comma 18,
    leaf "]" "]" 19 false]

def slots : List (Option Node) :=
  [none, some (leaf "identifier" "a" 3 true), none, some (leaf "identifier" "b" 17 true)]

theorem kind_comma (start : Nat) : (comma start).kind = "," :=
  rfl

theorem isElement_leaf (text : String) (start : Nat) : (leaf "identifier" text start true).IsElement := by
  simp [IsElement, leaf]

theorem spellsSlots_pattern : pattern.SpellsSlots slots := by
  have htokens := SlotTokens.filled (isElement_leaf "b" 17) (kind_comma 18) .nil
  have htokens := SlotTokens.filled (isElement_leaf "a" 3) (kind_comma 4) (.hole (kind_comma 15) htokens)
  exact ⟨_, .hole (kind_comma 1) htokens, leaf "[" "[" 0 false, leaf "]" "]" 19 false, rfl, rfl, rfl⟩

end Gaps

theorem spellsSlots_iff_arraySlots_gaps : Gaps.pattern.SpellsSlots Gaps.slots ∧
    Gaps.pattern.IsBracketed ∧ Gaps.pattern.arraySlots = Gaps.slots :=
  ⟨Gaps.spellsSlots_pattern, spellsSlots_iff_arraySlots.mp Gaps.spellsSlots_pattern⟩

end PropFlow.Syntax.Node
