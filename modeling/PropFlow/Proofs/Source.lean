import PropFlow.Proofs.Syntax.Sites
import PropFlow.Source

namespace PropFlow

namespace Syntax

namespace Node

mutual
-- The first fault by a recursion over the tree.
def faultIn? : Node → Option Node
  | ⟨kind, text, start, stop, named, missing, hasError, field, children⟩ =>
    if kind = "ERROR" ∨ missing = true then
      some ⟨kind, text, start, stop, named, missing, hasError, field, children⟩
    else
      faultAmong? children

def faultAmong? : List Node → Option Node
  | [] => none
  | child :: rest =>
    if child.hasError || child.missing then child.faultIn?.or (faultAmong? rest) else faultAmong? rest
end

theorem faultIn?_eq (n : Node) : n.faultIn? = if n.isFault then some n else faultAmong? n.children := by
  obtain ⟨kind, text, start, stop, named, missing, hasError, field, children⟩ := n
  simp [faultIn?, isFault]

theorem faultAmong?_children (n : Node) : faultAmong? n.children = n.suspects.findSome? faultIn? := by
  rw [suspects]
  induction n.children with
  | nil => rfl
  | cons child rest ih =>
      rw [faultAmong?, ih, List.filter_cons]
      split
      · rw [List.findSome?_cons]
        cases child.faultIn? <;> rfl
      · rfl

-- The search finds what is first among the nodes that it has still to see.
theorem searchFault?_eq (pending : List Node) : searchFault? pending = pending.findSome? faultIn? := by
  fun_induction searchFault? pending with
  | case1 => rfl
  | case2 n pending hfault => rw [List.findSome?_cons, faultIn?_eq, if_pos hfault]
  | case3 n pending hfault ih =>
      rw [ih, List.findSome?_append, List.findSome?_cons, faultIn?_eq, if_neg hfault, faultAmong?_children]
      cases n.suspects.findSome? faultIn? <;> rfl

theorem firstFault?_eq_faultIn? (n : Node) : n.firstFault? = n.faultIn? := by
  rw [firstFault?, searchFault?_eq, List.findSome?_cons]
  cases n.faultIn? <;> rfl

end Node

namespace Site

-- A place that is marked just when there is a fault at it or below it.
def RightlyMarked (site : Site) : Prop :=
  site.node.hasError = true ↔ ∃ other ∈ site.sites, other.node.isFault = true

instance (site : Site) : Decidable site.RightlyMarked :=
  inferInstanceAs (Decidable (_ ↔ _))

theorem RightlyMarked.find?_eq_none {site : Site} (h : site.RightlyMarked)
    (hunmarked : site.node.hasError = false) :
    (site.sites.map (·.node)).find? Node.isFault = none := by
  rw [List.find?_eq_none]
  intro n hn hfault
  obtain ⟨other, hother, rfl⟩ := List.mem_map.mp hn
  rw [h.mpr ⟨other, hother, hfault⟩] at hunmarked
  cases hunmarked

-- The search among the places below another: one that is passed over has nothing to be found.
theorem faultAmong?_eq_find? {places : List Site} (hmarked : ∀ child ∈ places, child.RightlyMarked)
    (hsearch : ∀ child ∈ places,
      child.node.faultIn? = (child.sites.map (·.node)).find? Node.isFault) :
    Node.faultAmong? (places.map (·.node)) =
      ((places.flatMap sites).map (·.node)).find? Node.isFault := by
  induction places with
  | nil => rfl
  | cons child rest ih =>
      obtain ⟨hchild, hrest⟩ := List.forall_mem_cons.mp hmarked
      obtain ⟨hfirst, hothers⟩ := List.forall_mem_cons.mp hsearch
      rw [List.map_cons, Node.faultAmong?, ih hrest hothers, List.flatMap_cons, List.map_append,
        List.find?_append, hfirst]
      split
      · rfl
      · rename_i hpassed
        have hunmarked : child.node.hasError = false := by
          simp only [Bool.or_eq_true, not_or, Bool.not_eq_true] at hpassed
          exact hpassed.1
        rw [hchild.find?_eq_none hunmarked, Option.none_or]

theorem faultIn?_eq_find? (site : Site) (hmarked : ∀ other ∈ site.sites, other.RightlyMarked) :
    site.node.faultIn? = (site.sites.map (·.node)).find? Node.isFault := by
  induction site using Site.induction with
  | step site ih =>
      have hbelow : ∀ child ∈ site.below, ∀ other ∈ child.sites, other ∈ site.sites :=
        fun child hchild => sites_subset (mem_sites_of_mem_below site.self_mem_sites hchild)
      have hchildren : site.node.children = site.below.map (·.node) := by
        simp [below, Function.comp_def]
      have hin : Node.faultAmong? site.node.children =
          ((site.below.flatMap sites).map (·.node)).find? Node.isFault := by
        rw [hchildren]
        apply faultAmong?_eq_find?
        · intro child hchild
          exact hmarked child (hbelow child hchild child child.self_mem_sites)
        · intro child hchild
          exact ih child hchild fun other hother => hmarked other (hbelow child hchild other hother)
      rw [Node.faultIn?_eq, hin, sites_eq, List.map_cons, List.find?_cons]
      cases site.node.isFault <;> rfl

end Site

-- A tree whose marks can be relied on.
def Node.RightlyMarked (root : Node) : Prop :=
  ∀ site ∈ (Site.top root).sites, site.RightlyMarked

instance (root : Node) : Decidable root.RightlyMarked :=
  inferInstanceAs (Decidable (∀ _ ∈ _, _))

-- The first fault of a tree, parents before children and all children in their order.
structure Node.FirstFault (root fault : Node) : Prop where
  isFault : fault.isFault = true
  first : ∃ before after, (Site.top root).sites.map (·.node) = before ++ fault :: after ∧
    ∀ n ∈ before, n.isFault = false

namespace Node.RightlyMarked

variable {root : Node}

theorem hasError_iff (h : root.RightlyMarked) :
    root.hasError = true ↔ ∃ site ∈ (Site.top root).sites, site.node.isFault = true :=
  h (Site.top root) (Site.self_mem_sites _)

theorem faultless (h : root.RightlyMarked) (herror : root.hasError = false) :
    ∀ site ∈ (Site.top root).sites, site.node.isFault = false := by
  intro site hsite
  by_contra hfault
  have hmark := h.hasError_iff.mpr ⟨site, hsite, by simpa using hfault⟩
  rw [hmark] at herror
  cases herror

theorem exists_firstFault (h : root.RightlyMarked) (herror : root.hasError = true) :
    ∃ fault, root.firstFault? = some fault ∧ root.FirstFault fault := by
  obtain ⟨site, hsite, hfault⟩ := h.hasError_iff.mp herror
  have hfound : (((Site.top root).sites.map (·.node)).find? isFault).isSome = true := by
    rw [List.find?_isSome]
    exact ⟨site.node, List.mem_map_of_mem hsite, hfault⟩
  obtain ⟨fault, hfault⟩ := Option.isSome_iff_exists.mp hfound
  have hsearch := (firstFault?_eq_faultIn? root).trans (Site.faultIn?_eq_find? (.top root) h)
  refine ⟨fault, hsearch.trans hfault, ?_⟩
  obtain ⟨hisFault, before, after, hsplit, hbefore⟩ := List.find?_eq_some_iff_append.mp hfault
  exact ⟨hisFault, before, after, hsplit, by simpa using hbefore⟩

end Node.RightlyMarked

end Syntax

-- Line and column of a byte: the lines before its own are closed, and its own is not.
def Position.IsAt (p : Position) (source : String) (offset : Nat) : Prop :=
  ∃ lines own : List UInt8, (Text.Utf8.encode source).take offset = lines ++ own ∧
    (∀ last ∈ lines.getLast?, last = 10) ∧ 10 ∉ own ∧
    p.line = lines.count 10 + 1 ∧ p.column = own.length + 1

theorem Position.isAt_ofOffset (source : String) (offset : Nat) :
    (ofOffset source offset).IsAt source offset := by
  generalize hbefore : (Text.Utf8.encode source).take offset = before
  have hown : 10 ∉ (before.reverse.takeWhile (· ≠ 10)).reverse := by
    intro hmem
    have hne := List.all_eq_true.mp List.all_takeWhile 10 (List.mem_reverse.mp hmem)
    simp at hne
  have hsplit : before = (before.reverse.dropWhile (· ≠ 10)).reverse ++
      (before.reverse.takeWhile (· ≠ 10)).reverse := by
    rw [← List.reverse_append, List.takeWhile_append_dropWhile, List.reverse_reverse]
  refine ⟨_, _, hbefore.trans hsplit, ?_, hown, ?_, ?_⟩
  · intro last hlast
    have hstop := List.head?_dropWhile_not (· ≠ 10) before.reverse
    rw [List.getLast?_reverse, Option.mem_def] at hlast
    rw [hlast] at hstop
    simpa using hstop
  · have hcount := congrArg (List.count 10) hsplit
    rw [List.count_append, List.count_eq_zero.mpr hown, Nat.add_zero] at hcount
    rw [ofOffset, hbefore, hcount]
  · rw [ofOffset, hbefore, List.length_reverse]

namespace ParseError

open Syntax

-- The equations of the two messages about a syntax error.
theorem message_unexpected (position : Position) : (unexpected position).message =
    "Syntax error at line " ++ toString position.line ++ ", column " ++ toString position.column :=
  rfl

theorem message_missing (kind : String) (position : Position) : (missing kind position).message =
    "Syntax error at line " ++ toString position.line ++ ", column " ++ toString position.column
      ++ ": missing '" ++ kind ++ "'" :=
  rfl

-- What is said about a tree with errors: where its first fault is, and what is missing there.
theorem message_ofTree (source : String) {root : Node} (hmarked : root.RightlyMarked)
    (herror : root.hasError = true) :
    ∃ fault position, root.FirstFault fault ∧ Position.IsAt position source fault.start ∧
      (ofTree source root).message =
        "Syntax error at line " ++ toString position.line ++ ", column " ++ toString position.column
          ++ (if fault.missing then ": missing '" ++ fault.kind ++ "'" else "") := by
  obtain ⟨fault, hfound, hfirst⟩ := hmarked.exists_firstFault herror
  refine ⟨fault, _, hfirst, Position.isAt_ofOffset source fault.start, ?_⟩
  have htree : ofTree source root = if fault.missing then
      missing fault.kind (.ofOffset source fault.start)
      else unexpected (.ofOffset source fault.start) := by
    rw [ofTree, hfound]
  rw [htree]
  split
  · rw [message_missing]
    simp only [String.append_assoc]
  · rw [message_unexpected, String.append_empty]

end ParseError

namespace Module

open Syntax

variable {grammar : Grammar} {path : Path} {source : String} {language : Language}

-- What a file is parsed to: its own tree, the other one if there is another and only that one is
-- free of errors, or an error about its own.
theorem parse_cases (grammar : Grammar) (source : String)
    (hlanguage : Language.ofSuffix? (Text.lower path.suffix) = some language) :
    (grammar language source).hasError = false ∧
        parse grammar path source = .ok ⟨path, language, source, grammar language source⟩ ∨
      (grammar language source).hasError = true ∧
        (language = .javascript ∧ (grammar .tsx source).hasError = false) ∧
        parse grammar path source = .ok ⟨path, .tsx, source, grammar .tsx source⟩ ∨
      (grammar language source).hasError = true ∧
        ¬(language = .javascript ∧ (grammar .tsx source).hasError = false) ∧
        parse grammar path source = .error (.ofTree source (grammar language source)) := by
  unfold parse
  rw [hlanguage]
  cases hown : (grammar language source).hasError with
  | false => simp [hown]
  | true =>
      cases language with
      | javascript => cases hretry : (grammar .tsx source).hasError <;> simp [hown, hretry, fallback?]
      | typescript => simp [hown, fallback?]
      | tsx => simp [hown, fallback?]

-- A file is parsed just when its own tree is free of errors, or the other one of a file that has
-- another. What is parsed has no fault in it, and what is not is reported by the first fault of the
-- file's own tree.
theorem parse_succeeds_iff_unmarked
    (hlanguage : Language.ofSuffix? (Text.lower path.suffix) = some language)
    (hmarked : ∀ other, (grammar other source).RightlyMarked) :
    ((∃ m, parse grammar path source = .ok m) ↔ (grammar language source).hasError = false ∨
      language = .javascript ∧ (grammar .tsx source).hasError = false) ∧
    (∀ m, parse grammar path source = .ok m → m.root = grammar m.language source ∧
      m.root.hasError = false ∧ ∀ site ∈ (Site.top m.root).sites, site.node.isFault = false) ∧
    (∀ e, parse grammar path source = .error e → e.message ≠ "Syntax error" ∧
      ∃ fault position, (grammar language source).FirstFault fault ∧
        Position.IsAt position source fault.start ∧ e.message =
          "Syntax error at line " ++ toString position.line ++ ", column " ++ toString position.column
            ++ (if fault.missing then ": missing '" ++ fault.kind ++ "'" else "")) := by
  obtain ⟨hown, hparse⟩ | ⟨hown, hretry, hparse⟩ | ⟨hown, hretry, hparse⟩ :=
    parse_cases grammar source hlanguage
  · rw [hparse]
    refine ⟨by simp [hown], ?_, by simp⟩
    rintro m ⟨⟩
    exact ⟨rfl, hown, (hmarked language).faultless hown⟩
  · rw [hparse]
    refine ⟨by simp [hretry], ?_, by simp⟩
    rintro m ⟨⟩
    exact ⟨rfl, hretry.2, (hmarked .tsx).faultless hretry.2⟩
  · rw [hparse]
    refine ⟨by simp [hown, hretry], by simp, ?_⟩
    rintro e ⟨⟩
    obtain ⟨fault, position, hfirst, hat, hmessage⟩ :=
      ParseError.message_ofTree source (hmarked language) hown
    refine ⟨?_, fault, position, hfirst, hat, hmessage⟩
    rw [hmessage]
    intro heq
    have hlength := congrArg String.length heq
    simp only [String.length_append] at hlength
    have hstart : "Syntax error at line ".length = 21 := rfl
    have hbare : "Syntax error".length = 12 := rfl
    omega

end Module

-- A script whose second line is not closed, and two readings of it. The parenthesis is missing at
-- the end of the line; the other grammar gives up at the start.
namespace Unclosed

open Syntax

def source : String := "a;\n(b"

def path : Path := .absolute ["Unclosed.JSX"]

-- A node with an error at or below it.
def faulty (kind : String) (start : Nat) (missing : Bool) (children : List Node) : Node :=
  ⟨kind, "", start, start, true, missing, true, none, children⟩

def grammar : Grammar
  | .javascript, _ => faulty "program" 0 false
      [.branch "expression_statement" none [.leaf "identifier" "a" none, .token ";"],
        faulty "expression_statement" 3 false
          [.token "(", .leaf "identifier" "b" none, faulty ")" 5 true []]]
  | _, _ => faulty "program" 0 false [faulty "ERROR" 0 false []]

end Unclosed

theorem Module.parse_succeeds_iff_unmarked_unclosed :
    Language.ofSuffix? (Text.lower Unclosed.path.suffix) = some .javascript ∧
      (∀ other, (Unclosed.grammar other Unclosed.source).RightlyMarked) ∧
      (¬∃ m, parse Unclosed.grammar Unclosed.path Unclosed.source = .ok m) ∧
      ∃ e, parse Unclosed.grammar Unclosed.path Unclosed.source = .error e ∧
        e.message = "Syntax error at line 2, column 3: missing ')'" ∧
        ∃ fault position, (Unclosed.grammar .javascript Unclosed.source).FirstFault fault ∧
          Position.IsAt position Unclosed.source fault.start ∧ e.message =
            "Syntax error at line " ++ toString position.line ++ ", column " ++ toString position.column
              ++ (if fault.missing then ": missing '" ++ fault.kind ++ "'" else "") := by
  have hlanguage : Language.ofSuffix? (Text.lower Unclosed.path.suffix) = some .javascript := by
    decide +kernel
  have hmarked : ∀ other, (Unclosed.grammar other Unclosed.source).RightlyMarked := by
    intro other
    cases other <;> decide +kernel
  obtain ⟨hsucceeds, -, hreported⟩ := parse_succeeds_iff_unmarked hlanguage hmarked
  have hparse : parse Unclosed.grammar Unclosed.path Unclosed.source = .error (.missing ")" ⟨2, 3⟩) := by
    have htree : ParseError.ofTree Unclosed.source (Unclosed.grammar .javascript Unclosed.source) =
        .missing ")" ⟨2, 3⟩ := by decide +kernel
    obtain ⟨hown, -⟩ | ⟨-, ⟨-, hretry⟩, -⟩ | ⟨-, -, hparse⟩ :=
      parse_cases Unclosed.grammar Unclosed.source hlanguage
    · cases hown
    · cases hretry
    · exact hparse.trans (congrArg Except.error htree)
  refine ⟨hlanguage, hmarked, ?_, _, hparse, by decide +kernel, (hreported _ hparse).2⟩
  rw [hsucceeds]
  decide

end PropFlow
