import PropFlow.Proofs.Syntax.Ways
import PropFlow.Verdict

namespace PropFlow

open Syntax

namespace Syntax.Node

-- A grammar never has a bare token for a result of a conditional or for the right side of an
-- operation.
def NamedOperands (n : Node) : Prop :=
  ∀ site ∈ (Site.top n).sites,
    site.node.field ∈ [some .consequence, some .alternative, some .right] → site.node.named = true

instance (n : Node) : Decidable n.NamedOperands :=
  inferInstanceAs (Decidable (∀ site ∈ _, _ → _))

section Kinds

variable {n : Node}

theorem isNestedDeclaration_of_kind (h : n.kind ∈ ["jsx_element", "jsx_self_closing_element", "jsx_fragment",
    "parenthesized_expression", "ternary_expression", "binary_expression"]) : n.isNestedDeclaration = false := by
  simp only [List.mem_cons, List.not_mem_nil, or_false] at h
  rcases h with h | h | h | h | h | h <;>
    simp [isNestedDeclaration, isFunctionDeclaration, isClass, isClassDeclaration, declaratorFunction?, h]

theorem isNestedDeclaration_of_isJsx (h : n.isJsx = true) : n.isNestedDeclaration = false := by
  have hkind := of_decide_eq_true h
  apply isNestedDeclaration_of_kind
  exact List.mem_append_left ["parenthesized_expression", "ternary_expression", "binary_expression"] hkind

-- Parentheses hide no declaration.
theorem isNestedDeclaration_of_unparenthesized? {inner : Node} (h : n.unparenthesized? = some inner)
    (hinner : inner.isNestedDeclaration = false) : n.isNestedDeclaration = false := by
  by_cases hkind : n.kind = "parenthesized_expression"
  · exact isNestedDeclaration_of_kind (by simp [hkind])
  · rw [unparenthesized?, if_neg hkind] at h
    cases h
    exact hinner

end Kinds

end Syntax.Node

namespace Verdict

-- A node that belongs to a body itself and not to a declaration in it.
def Owns (body : Node) (n : Node) : Prop :=
  ∃ way, Reaches (·.isNestedDeclaration) body way n

namespace Owns

variable {body n child inner : Node}

theorem of_mem (h : Owns body n) (hchild : child ∈ n.children) (hnamed : child.named = true)
    (hnested : child.isNestedDeclaration = false) : Owns body child := by
  obtain ⟨way, hway⟩ := h
  exact hway.exists_child hchild hnamed hnested

theorem of_firstPart? (h : Owns body n) (hchild : n.firstPart? = some child)
    (hnested : child.isNestedDeclaration = false) : Owns body child := by
  have hnamed := Node.mem_namedChildren_of_mem_parts (List.mem_of_mem_head? hchild)
  obtain ⟨hmem, hnamed⟩ := List.mem_filter.mp hnamed
  exact h.of_mem hmem hnamed hnested

theorem of_unparenthesized? (h : Owns body n) (hinner : n.unparenthesized? = some inner)
    (hnested : inner.isNestedDeclaration = false) : Owns body inner := by
  fun_induction Node.unparenthesized? n with
  | case1 n hkind next hnext ih =>
      have hopen := Node.isNestedDeclaration_of_unparenthesized? hinner hnested
      exact ih (h.of_firstPart? hnext hopen) hinner
  | case2 n hkind hnone => cases hinner
  | case3 n hkind =>
      cases hinner
      exact h

theorem of_operand (h : Owns body n) (hnamed : body.NamedOperands) {field : Field}
    (hfield : field ∈ [.consequence, .alternative, .right]) (hchild : n.child? field = some child)
    (hnested : child.isNestedDeclaration = false) : Owns body child := by
  have hmem := List.mem_of_find?_eq_some hchild
  have hrole := List.find?_some hchild
  refine h.of_mem hmem ?_ hnested
  obtain ⟨way, hway⟩ : ∃ way, Reaches _ (Site.top body).node way n := h
  obtain ⟨above, hsite⟩ := hway.mem_sites
  have hbelow : ⟨child, n :: above⟩ ∈ (Site.mk n above).below := Site.mem_below.mpr ⟨hmem, rfl⟩
  apply hnamed ⟨child, n :: above⟩ (Site.mem_sites_of_mem_below hsite hbelow)
  rw [beq_iff_eq.mp hrole]
  exact List.mem_map_of_mem hfield

end Owns

section Signals

variable {body n argument : Node} {reason : Reason}

theorem exists_of_isJsxBelow {n : Option Node} (h : isJsxBelow n = true) :
    ∃ operand inner, n = some operand ∧ operand.unparenthesized? = some inner ∧ inner.isJsx = true := by
  cases hinner : n.bind (·.unparenthesized?) with
  | none =>
      rw [isJsxBelow, hinner] at h
      cases h
  | some inner =>
      rw [isJsxBelow, hinner] at h
      obtain ⟨operand, hoperand, hinner⟩ := Option.bind_eq_some_iff.mp hinner
      exact ⟨operand, inner, hoperand, hinner, h⟩

-- Conditionals and operations tell of JSX in one of their operands.
theorem operand_of_plainSignal? (h : plainSignal? argument = some reason) :
    argument.isNestedDeclaration = false ∧
      ∃ field ∈ [Field.consequence, .alternative, .right], isJsxBelow (argument.child? field) = true := by
  unfold plainSignal? at h
  split at h
  · rename_i hkind
    refine ⟨Node.isNestedDeclaration_of_kind (by simp [hkind]), ?_⟩
    split at h
    · rename_i hbelow
      rcases (Bool.or_eq_true _ _).mp hbelow with hbelow | hbelow
      · exact ⟨.consequence, by simp, hbelow⟩
      · exact ⟨.alternative, by simp, hbelow⟩
    · cases h
  · split at h
    · rename_i hkind
      refine ⟨Node.isNestedDeclaration_of_kind (by simp [hkind]), ?_⟩
      split at h
      · rename_i hbelow
        exact ⟨.right, by simp, ((Bool.and_eq_true _ _).mp hbelow).2⟩
      · cases h
    · cases h

-- Parentheses taken off, what is returned is JSX or tells of JSX.
theorem inner_of_returnSignal? (h : returnSignal? argument = some reason) :
    ∃ inner, argument.unparenthesized? = some inner ∧
      (inner.isJsx = true ∨ plainSignal? inner = some reason) := by
  have hself : argument.kind ≠ "parenthesized_expression" → argument.unparenthesized? = some argument := by
    intro hkind
    rw [Node.unparenthesized?, if_neg hkind]
  unfold returnSignal? at h
  split at h
  · rename_i hjsx
    have hkind : argument.kind ≠ "parenthesized_expression" := by
      intro hkind
      rw [Node.isJsx, hkind] at hjsx
      exact absurd hjsx (by decide)
    exact ⟨argument, hself hkind, .inl hjsx⟩
  · split at h
    · split at h
      · cases h
      · rename_i inner hinner
        split at h
        · rename_i hjsx
          exact ⟨inner, hinner, .inl hjsx⟩
        · exact ⟨inner, hinner, .inr h⟩
    · rename_i hkind
      exact ⟨argument, hself hkind, .inr h⟩

-- What a `return` shows of JSX the walk meets as well.
theorem exists_jsx_of_returnSignal? (hnamed : body.NamedOperands) (hn : Owns body n)
    (hargument : n.firstPart? = some argument) (h : returnSignal? argument = some reason) :
    ∃ jsx, Owns body jsx ∧ jsx.isJsx = true := by
  obtain ⟨inner, hinner, hsign⟩ := inner_of_returnSignal? h
  have hnested : inner.isNestedDeclaration = false := by
    rcases hsign with hjsx | hplain
    · exact Node.isNestedDeclaration_of_isJsx hjsx
    · exact (operand_of_plainSignal? hplain).1
  have hopen := Node.isNestedDeclaration_of_unparenthesized? hinner hnested
  have howns := (hn.of_firstPart? hargument hopen).of_unparenthesized? hinner hnested
  rcases hsign with hjsx | hplain
  · exact ⟨inner, howns, hjsx⟩
  · obtain ⟨-, field, hfield, hbelow⟩ := operand_of_plainSignal? hplain
    obtain ⟨operand, jsx, hoperand, hjsx, hisJsx⟩ := exists_of_isJsxBelow hbelow
    have hbare := Node.isNestedDeclaration_of_isJsx hisJsx
    have hoperandOpen := Node.isNestedDeclaration_of_unparenthesized? hjsx hbare
    have howned := howns.of_operand hnamed hfield hoperand hoperandOpen
    exact ⟨jsx, howned.of_unparenthesized? hjsx hbare, hisJsx⟩

-- A sign of JSX and the text for it: JSX anywhere, or a `return` of JSX.
def Signals (n : Node) (text : String) : Prop :=
  (n.isJsx = true ∧ text = "contains JSX") ∨
    n.kind = "return_statement" ∧
      ∃ argument reason, n.firstPart? = some argument ∧ returnSignal? argument = some reason ∧ text = reason.text

theorem signals_iff {text : String} : Signals n text ↔ ∃ reason, signal? n = some reason ∧ text = reason.text := by
  unfold Signals signal?
  by_cases hreturn : n.kind = "return_statement"
  · have hjsx : n.isJsx = false := by rw [Node.isJsx, hreturn]; rfl
    rw [if_pos hreturn, hjsx]
    constructor
    · rintro (⟨hfalse, -⟩ | ⟨-, argument, reason, hargument, hreason, htext⟩)
      · cases hfalse
      · exact ⟨reason, by rw [hargument]; exact hreason, htext⟩
    · rintro ⟨reason, hreason, htext⟩
      obtain ⟨argument, hargument, hreason⟩ := Option.bind_eq_some_iff.mp hreason
      exact .inr ⟨hreturn, argument, reason, hargument, hreason, htext⟩
  · by_cases hjsx : n.isJsx = true <;> simp [hreturn, hjsx, Reason.text]

theorem exists_jsx_of_signal? (hnamed : body.NamedOperands) (hn : Owns body n) (h : signal? n = some reason) :
    ∃ jsx, Owns body jsx ∧ jsx.isJsx = true := by
  unfold signal? at h
  split at h
  · obtain ⟨argument, hargument, hreason⟩ := Option.bind_eq_some_iff.mp h
    exact exists_jsx_of_returnSignal? hnamed hn hargument hreason
  · split at h
    · rename_i hjsx
      exact ⟨n, hn, hjsx⟩
    · cases h

theorem isSome_signal?_of_isJsx (h : n.isJsx = true) : (signal? n).isSome = true := by
  have hreturn : n.kind ≠ "return_statement" := by
    intro hkind
    rw [Node.isJsx, hkind] at h
    exact absurd h (by decide)
  rw [signal?, if_neg hreturn, if_pos h]
  rfl

end Signals

section Scan

variable {body : Node}

theorem ownNodes_eq (body : Node) : ownNodes body = (body.ways (·.isNestedDeclaration)).map (·.2) :=
  Node.map_node_walkPruned _ _

theorem mem_ownNodes {n : Node} : n ∈ ownNodes body ↔ Owns body n := by
  rw [ownNodes_eq, List.mem_map]
  constructor
  · rintro ⟨⟨way, n⟩, hmem, rfl⟩
    exact ⟨way, (Node.enumerates_ways _ body).mem_iff (way, n) |>.mp hmem⟩
  · rintro ⟨way, hway⟩
    exact ⟨(way, n), ((Node.enumerates_ways _ body).mem_iff (way, n)).mpr hway, rfl⟩

theorem isSome_findSome?_ownNodes (hnamed : body.NamedOperands) :
    ((ownNodes body).findSome? signal?).isSome = true ↔ ∃ jsx, Owns body jsx ∧ jsx.isJsx = true := by
  rw [List.findSome?_isSome_iff]
  constructor
  · rintro ⟨n, hn, hsignal⟩
    obtain ⟨reason, hreason⟩ := Option.isSome_iff_exists.mp hsignal
    exact exists_jsx_of_signal? hnamed (mem_ownNodes.mp hn) hreason
  · rintro ⟨jsx, hjsx, hisJsx⟩
    exact ⟨jsx, mem_ownNodes.mpr hjsx, isSome_signal?_of_isJsx hisJsx⟩

theorem first_of_findSome?_ownNodes {reason : Reason} (h : (ownNodes body).findSome? signal? = some reason) :
    ∃ way n, Reaches (·.isNestedDeclaration) body way n ∧ signal? n = some reason ∧
      ∀ earlier m, Reaches (·.isNestedDeclaration) body earlier m → earlier < way → signal? m = none := by
  rw [ownNodes_eq, List.findSome?_map] at h
  obtain ⟨⟨way, n⟩, hway, hreason, hfirst⟩ := (Node.enumerates_ways _ body).exists_first h
  exact ⟨way, n, hway, hreason, fun earlier m hm hlt => hfirst (earlier, m) hm hlt⟩

theorem countP_ownNodes (p : Node → Bool) : (ownNodes body).countP p =
    {way | ∃ n, Reaches (·.isNestedDeclaration) body way n ∧ p n = true}.ncard := by
  have hset : {way | ∃ n, Reaches (·.isNestedDeclaration) body way n ∧ p n = true} =
      {way | ∃ reached : List Nat × Node, Reaches (·.isNestedDeclaration) body reached.1 reached.2 ∧
        p reached.2 = true ∧ reached.1 = way} := by
    ext way
    constructor
    · rintro ⟨n, hn, hp⟩
      exact ⟨(way, n), hn, hp, rfl⟩
    · rintro ⟨⟨_, n⟩, hn, hp, rfl⟩
      exact ⟨n, hn, hp⟩
  rw [hset, (Node.enumerates_ways _ body).ncard_eq_countP (p ·.2), ownNodes_eq, List.countP_map]
  rfl

end Scan

-- A name is given when it has a character.
def Given (name : Option String) : Prop :=
  ∃ text, name = some text ∧ text ≠ ""

def Capital (name : Option String) : Prop :=
  ∃ text c rest, name = some text ∧ text.toList = c :: rest ∧ 'A' ≤ c ∧ c ≤ 'Z'

-- The names that a component may have, none among them.
def Fitting (name : Option String) : Prop :=
  ¬Given name ∨ Capital name

section Names

variable {name : Option String}

theorem isSome_filter_iff : (name.filter (· ≠ "")).isSome = true ↔ Given name := by
  cases name <;> simp [Given]

theorem any_filter_iff : (name.filter (· ≠ "")).any (!startsUppercase ·) = true ↔ ¬Fitting name := by
  cases name with
  | none => simp [Fitting, Given]
  | some text =>
      by_cases hempty : text = ""
      · simp [Fitting, Given, hempty]
      · cases hlist : text.toList with
        | nil => exact absurd (String.toList_eq_nil_iff.mp hlist) hempty
        | cons c rest =>
            have hgiven : Given (some text) := ⟨text, rfl, hempty⟩
            have hcapital : Capital (some text) ↔ 'A' ≤ c ∧ c ≤ 'Z' := by simp [Capital, hlist]
            have hfitting : Fitting (some text) ↔ 'A' ≤ c ∧ c ≤ 'Z' := by
              rw [Fitting, or_iff_right (not_not_intro hgiven), hcapital]
            rw [hfitting, Option.filter_some_pos (by simpa using hempty), Option.any_some, startsUppercase, hlist,
              Bool.not_eq_true', decide_eq_false_iff_not]

end Names

section OfFunction

variable {func : Node} {name : Option String}

theorem ofFunction_of_not_fitting (h : ¬Fitting name) : ofFunction func name = ⟨false, .smallLetter, false, 0⟩ := by
  unfold ofFunction
  rw [if_pos (any_filter_iff.mpr h)]

theorem ofFunction_of_fitting (h : Fitting name) :
    (ofFunction func name).hasJsx = (scan func).1.isSome ∧ (ofFunction func name).returns = (scan func).2 ∧
      (∀ reason, (scan func).1 = some reason → (ofFunction func name).reason = reason) ∧
      ((ofFunction func name).accepted = true ↔ (scan func).1.isSome = true ∨ Given name ∧ 0 < (scan func).2) := by
  unfold ofFunction
  rw [if_neg (any_filter_iff.not.mpr (not_not_intro h))]
  obtain ⟨signal, returns⟩ := scan func
  cases signal with
  | some reason => simp
  | none =>
      rw [← isSome_filter_iff]
      generalize (name.filter (· ≠ "")).isSome = given
      by_cases hreturns : 0 < returns
      · cases given <;> simp [hreturns]
      · simp [hreturns]

end OfFunction

-- The nodes of a function's own, with the ways to them from its body. A nested declaration and all
-- that is in it belong to others.
def OwnNode (func : Node) (way : List Nat) (n : Node) : Prop :=
  ∃ body, func.body? = some body ∧ Reaches (·.isNestedDeclaration) body way n

section OwnNodes

variable {func body : Node}

theorem ownNode_iff (hbody : func.body? = some body) {way : List Nat} {n : Node} :
    OwnNode func way n ↔ Reaches (·.isNestedDeclaration) body way n := by
  constructor
  · rintro ⟨other, hother, hway⟩
    rw [hbody] at hother
    cases hother
    exact hway
  · exact fun hway => ⟨body, hbody, hway⟩

theorem scan_of_body (hbody : func.body? = some body) : scan func =
    if body.isJsx then (some .returnsJsx, 0)
    else ((ownNodes body).findSome? signal?, (ownNodes body).countP (·.kind == "return_statement")) := by
  rw [scan, hbody]

theorem isSome_scan_iff (hnamed : ∀ body ∈ func.body?, body.NamedOperands) :
    (scan func).1.isSome = true ↔ ∃ way n, OwnNode func way n ∧ n.isJsx = true := by
  cases hbody : func.body? with
  | none => simp [scan, OwnNode, hbody]
  | some body =>
      simp only [ownNode_iff hbody, scan_of_body hbody]
      by_cases hjsx : body.isJsx = true
      · rw [if_pos hjsx]
        exact iff_of_true rfl ⟨[], body, .here body, hjsx⟩
      · rw [if_neg hjsx]
        have hiff := isSome_findSome?_ownNodes (hnamed body hbody)
        simp only [Owns, ← exists_and_right] at hiff
        rw [hiff]
        exact exists_comm

theorem scan_returns (func : Node) : (scan func).2 =
    if func.body?.any (·.isJsx) then 0
    else {way | ∃ n, OwnNode func way n ∧ n.kind = "return_statement"}.ncard := by
  cases hbody : func.body? with
  | none => simp [scan, OwnNode, hbody]
  | some body =>
      simp only [ownNode_iff hbody, scan_of_body hbody, Option.any_some]
      by_cases hjsx : body.isJsx = true
      · rw [if_pos hjsx, if_pos hjsx]
      · rw [if_neg hjsx, if_neg hjsx, countP_ownNodes]
        simp only [beq_iff_eq]

theorem scan_of_isJsx (h : func.body?.any (·.isJsx) = true) : (scan func).1 = some .returnsJsx := by
  cases hbody : func.body? with
  | none =>
      rw [hbody] at h
      cases h
  | some body =>
      rw [hbody, Option.any_some] at h
      rw [scan_of_body hbody, if_pos h]

theorem first_of_scan {reason : Reason} (h : (scan func).1 = some reason)
    (hjsx : func.body?.any (·.isJsx) = false) :
    ∃ way n, OwnNode func way n ∧ Signals n reason.text ∧
      ∀ earlier m text, OwnNode func earlier m → earlier < way → ¬Signals m text := by
  cases hbody : func.body? with
  | none =>
      rw [scan, hbody] at h
      cases h
  | some body =>
      rw [hbody, Option.any_some] at hjsx
      rw [scan_of_body hbody, if_neg (by rw [hjsx]; decide)] at h
      obtain ⟨way, n, hway, hreason, hfirst⟩ := first_of_findSome?_ownNodes h
      refine ⟨way, n, (ownNode_iff hbody).mpr hway, signals_iff.mpr ⟨reason, hreason, rfl⟩, ?_⟩
      intro earlier m text hm hlt hsignals
      obtain ⟨other, hother, -⟩ := signals_iff.mp hsignals
      rw [hfirst earlier m ((ownNode_iff hbody).mp hm) hlt] at hother
      cases hother

end OwnNodes

-- What a verdict says about the own nodes of a function. A function whose name does not fit is not
-- looked into.
structure Reports (func : Node) (name : Option String) (v : Verdict) : Prop where
  accepted_iff : v.accepted = true ↔ Fitting name ∧ (v.hasJsx = true ∨ Given name ∧ 0 < v.returns)
  hasJsx_iff : Fitting name → (v.hasJsx = true ↔ ∃ way n, OwnNode func way n ∧ n.isJsx = true)
  returns_eq : Fitting name → v.returns =
    if func.body?.any (·.isJsx) then 0
    else {way | ∃ n, OwnNode func way n ∧ n.kind = "return_statement"}.ncard
  unseen : ¬Fitting name → v.hasJsx = false ∧ v.returns = 0
  direct : v.hasJsx = true → func.body?.any (·.isJsx) = true → v.reason.text = "returns JSX directly"
  first : v.hasJsx = true → func.body?.any (·.isJsx) = false →
    ∃ way n, OwnNode func way n ∧ Signals n v.reason.text ∧
      ∀ earlier m text, OwnNode func earlier m → earlier < way → ¬Signals m text

-- The walk through a body and the look at what each `return` gives back never disagree on JSX.
theorem ofFunction_reports (func : Node) (name : Option String)
    (hnamed : ∀ body ∈ func.body?, body.NamedOperands) : Reports func name (ofFunction func name) := by
  by_cases hname : Fitting name
  · obtain ⟨hjsx, hreturns, hreason, haccepted⟩ := @ofFunction_of_fitting func name hname
    have hfound : (ofFunction func name).hasJsx = true →
        (scan func).1 = some (ofFunction func name).reason := by
      intro h
      obtain ⟨reason, hscan⟩ := Option.isSome_iff_exists.mp (hjsx ▸ h)
      rw [hscan, hreason reason hscan]
    constructor
    · rw [haccepted, hjsx, hreturns, and_iff_right hname]
    · intro _
      rw [hjsx, isSome_scan_iff hnamed]
    · intro _
      rw [hreturns, scan_returns]
    · exact absurd hname
    · intro h hbody
      rw [hreason _ (scan_of_isJsx hbody)]
      rfl
    · intro h hbody
      exact first_of_scan (hfound h) hbody
  · rw [ofFunction_of_not_fitting hname]
    constructor <;> simp [hname]

namespace Panel

def nested : Node :=
  .branch "function_declaration" none [.leaf "identifier" "Row" (some .name),
    .branch "statement_block" (some .body) [
      .branch "return_statement" none [.token "return", .leaf "jsx_self_closing_element" "<li/>" none]]]

def conditional : Node :=
  .branch "ternary_expression" none [.leaf "identifier" "ready" none, .token "?",
    .branch "parenthesized_expression" (some .consequence) [.token "(",
      .leaf "jsx_self_closing_element" "<b/>" none, .token ")"],
    .token ":", .leaf "null" "null" (some .alternative)]

-- A function with a nested function, an early `return` and a conditional one.
def panel : Node :=
  .branch "function_declaration" none [.leaf "identifier" "Panel" (some .name),
    .branch "statement_block" (some .body) [nested,
      .branch "if_statement" none [.leaf "identifier" "off" none, .branch "return_statement" none [.token "return"]],
      .branch "return_statement" none [.token "return", conditional]]]

def verdict : Verdict :=
  ⟨true, .returnsConditional, true, 2⟩

end Panel

theorem ofFunction_reports_panel :
    (∀ body ∈ Panel.panel.body?, body.NamedOperands) ∧ ofFunction Panel.panel (some "Panel") = Panel.verdict ∧
      Reports Panel.panel (some "Panel") Panel.verdict := by
  have hnamed : ∀ body ∈ Panel.panel.body?, body.NamedOperands := by decide +kernel
  have hverdict : ofFunction Panel.panel (some "Panel") = Panel.verdict := by decide +kernel
  exact ⟨hnamed, hverdict, hverdict ▸ ofFunction_reports Panel.panel (some "Panel") hnamed⟩

-- Under a name that does not fit the `return` statements are not counted.
theorem ofFunction_unseen_panel : (ofFunction Panel.panel (some "panel")).returns = 0 ∧
    {way | ∃ n, OwnNode Panel.panel way n ∧ n.kind = "return_statement"}.ncard = 2 := by
  refine ⟨by decide +kernel, ?_⟩
  have hreturns := scan_returns Panel.panel
  rw [if_neg (by decide +kernel)] at hreturns
  rw [← hreturns]
  decide +kernel

end Verdict

end PropFlow
