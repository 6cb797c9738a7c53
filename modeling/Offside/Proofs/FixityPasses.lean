import Offside.Proofs.BlockStructure
import Offside.Proofs.FixityPropagation
import Offside.Proofs.FixityRows

/-!
# Fixities found twice

The fixities of a text are found by a scan of its tokens before the text is
parsed, and they can be read off the nodes of its tree.  In a text in which
nothing is malformed, the keywords of fixities begin a declaration, label a
field, or label a selection.  A scan is misled only by the last of these.
-/

namespace Offside

open DeclaredFixity
open Phrase

/-! ### Fixities in a tree -/

/-- The fixity that a node declares, unless its precedence is too large. -/
def DeclaredFixity.ofNode? (tree : Tree) : Option DeclaredFixity := do
  let declared ← View.FixityDecl.ofTree? tree
  let keyword ← tree.childTokens.find? fun token => (associativity? token.kind).isSome
  let associativity ← declared.associativity
  let precedence ← declared.precedence
  let operator ← declared.operator
  return ⟨if declared.isType then .type else .value, operator, ⟨associativity, precedence⟩,
    keyword.span.start⟩

namespace Tree

def declaredFixities (root : Tree) : List DeclaredFixity :=
  root.descendants.filterMap ofNode?

def selected? (tree : Tree) : Option Token :=
  if tree.isOfKind .exprRecordAccess then
    tree.childTokens.reverse.find? fun token => token.kind.isLabel
  else none

def selections (root : Tree) : List Nat :=
  (root.descendants.filterMap selected?).map fun token => token.span.start

end Tree

/-! ### Scanning a part of a text -/

namespace DeclaredFixity

def scanned (tokens : List Token) : List Token :=
  tokens.filter fun token => token.kind.isSignificant

@[simp]
theorem scanned_append (left right : List Token) :
    scanned (left ++ right) = scanned left ++ scanned right :=
  List.filter_append _ _

variable {token : Token}

theorem scanned_cons_of_pos (significant : token.kind.isSignificant = true) (rest : List Token) :
    scanned (token :: rest) = token :: scanned rest := by
  simp [scanned, significant]

theorem scanned_cons_of_neg (hidden : token.kind.isSignificant = false) (rest : List Token) :
    scanned (token :: rest) = scanned rest := by
  simp [scanned, hidden]

theorem not_isSignificant_of_isTrivia {kind : TokenKind} (isTrivia : kind.isTrivia = true) :
    kind.isSignificant = false := by
  rw [← Bool.not_eq_true]
  intro significant
  exact nomatch isTrivia.symm.trans (Grammar.not_isTrivia_of_isVisible
    (Grammar.isVisible_of_isSignificant significant))

variable {isSelection : Nat → Bool}

/--
Whatever comes behind the tokens, a scan finds the declarations in them and
otherwise only what begins at selections.
-/
def Passes (isSelection : Nat → Bool) (tokens : List Token) (declared : List DeclaredFixity) :
    Prop :=
  ∀ rest, ∃ found, collect (scanned tokens ++ rest) = found ++ collect rest ∧
    (found.filter fun fixity => !isSelection fixity.offset) = declared

namespace Passes

theorem nil : Passes isSelection [] [] :=
  fun _ => ⟨[], rfl, rfl⟩

theorem append {left right : List Token} {early late : List DeclaredFixity}
    (first : Passes isSelection left early) (second : Passes isSelection right late) :
    Passes isSelection (left ++ right) (early ++ late) := by
  intro rest
  obtain ⟨foundLate, collectLate, filterLate⟩ := second rest
  obtain ⟨foundEarly, collectEarly, filterEarly⟩ := first _
  refine ⟨foundEarly ++ foundLate, ?_, ?_⟩
  · rw [scanned_append, List.append_assoc, collectEarly, collectLate, List.append_assoc]
  · rw [List.filter_append, filterEarly, filterLate]

theorem insignificant (hidden : token.kind.isSignificant = false) :
    Passes isSelection [token] [] := by
  intro rest
  refine ⟨[], ?_, rfl⟩
  rw [scanned_cons_of_neg hidden]
  rfl

theorem cons {tokens : List Token} {declared : List DeclaredFixity}
    (unmatched : ∀ associativity, associativity? token.kind = some associativity → ∀ rest,
      match? associativity token.span.start (scanned tokens ++ rest) = none)
    (passes : Passes isSelection tokens declared) :
    Passes isSelection (token :: tokens) declared := by
  by_cases hidden : token.kind.isSignificant = false
  · exact (insignificant hidden).append passes
  intro rest
  obtain ⟨found, isCollected, isDeclared⟩ := passes rest
  refine ⟨found, ?_, isDeclared⟩
  rw [scanned_cons_of_pos (Bool.not_eq_false _ ▸ hidden), List.cons_append, collect]
  cases keyword : associativity? token.kind with
  | none => exact isCollected
  | some associativity =>
    rw [Option.bind_some, unmatched associativity keyword rest]
    exact isCollected

theorem selection (selected : isSelection token.span.start = true) :
    Passes isSelection [token] [] := by
  by_cases hidden : token.kind.isSignificant = false
  · exact insignificant hidden
  intro rest
  rw [scanned_cons_of_pos (Bool.not_eq_false _ ▸ hidden)]
  refine ⟨_, collect.eq_def _, ?_⟩
  rw [List.filter_eq_nil_iff]
  intro found member
  obtain ⟨associativity, -, isFound⟩ := Option.bind_eq_some_iff.mp (Option.mem_toList.mp member)
  rw [offset_of_match? isFound, selected]
  exact Bool.false_ne_true

end Passes

end DeclaredFixity

/-! ### Rows of children -/

namespace Tree

/-- A significant token that comes first among the shapes of a row is the first that is scanned. -/
theorem scanned_of_head? {row : List Tree} {token : Token}
    (first : (shapes row).head? = some (.leaf token))
    (significant : token.kind.isSignificant = true) :
    ∃ more, scanned (forestLeaves row) = token :: more := by
  obtain ⟨rest, isRow⟩ := List.head?_eq_some_iff.mp first
  obtain ⟨left, right, rfl, blank, -⟩ :=
    shapes_eq_append_leaf (isRow.trans (List.nil_append _).symm)
  have hidden : scanned (forestLeaves left) = [] :=
    List.filter_eq_nil_iff.mpr fun token member => by
      simp [not_isSignificant_of_isTrivia (isTrivia_of_blank blank token member)]
  rw [forestLeaves_append, scanned_append, hidden]
  exact ⟨_, scanned_cons_of_pos significant _⟩

variable {isSelection : Nat → Bool}

/-- The tree is passed over by a scan, up to what it declares. -/
def PassesOver (isSelection : Nat → Bool) (tree : Tree) : Prop :=
  Passes isSelection tree.leaves (tree.nodes.filterMap ofNode?)

theorem passes_forest {row : List Tree} (harmless : Shape.harmless (shapes row) = true)
    (inner : ∀ tree ∈ row, tree.isNode = true → PassesOver isSelection tree) :
    Passes isSelection (forestLeaves row) ((forestNodes row).filterMap ofNode?) := by
  induction row with
  | nil => exact .nil
  | cons tree rest ih =>
    have innerRest := fun child member => inner child (List.mem_cons_of_mem tree member)
    cases tree with
    | node kind span error children =>
      rw [shapes, shape?, Option.toList_some, List.singleton_append, Shape.harmless,
        Bool.and_eq_true] at harmless
      rw [forestNodes, List.filterMap_append]
      exact (inner _ List.mem_cons_self rfl).append (ih harmless.2 innerRest)
    | leaf token =>
      rw [forestLeaves, leaves, List.singleton_append]
      by_cases isTrivia : token.kind.isTrivia = true
      · rw [shapes, shape?, if_pos isTrivia] at harmless
        exact (Passes.insignificant (not_isSignificant_of_isTrivia isTrivia)).append
          (ih harmless innerRest)
      rw [shapes, shape?, if_neg isTrivia, Option.toList_some, List.singleton_append,
        Shape.harmless, Bool.and_eq_true] at harmless
      refine .cons (fun associativity declares following => ?_) (ih harmless.2 innerRest)
      have isWord : (Shape.leaf token).isFixityWord = true :=
        List.contains_iff_mem.mpr (mem_fixityWords declares)
      have followed := harmless.1
      rw [isWord, Bool.not_true, Bool.false_or, Option.any_eq_true] at followed
      obtain ⟨next, first, noPrecedence⟩ := followed
      cases next with
      | node kind children => cases noPrecedence
      | leaf next =>
        rw [Shape.isNoPrecedence, Bool.and_eq_true, decide_eq_true_eq] at noPrecedence
        obtain ⟨more, isScanned⟩ := scanned_of_head? first noPrecedence.1
        rw [isScanned]
        exact match?_eq_none noPrecedence.2 _ _ _

end Tree

namespace Tree

theorem scanned_of_leaves {row : List Tree} {tokens : List Token}
    (leavesOnly : shapes row = tokens.map Shape.leaf) :
    forestNodes row = [] ∧ row.filterMap token? = forestLeaves row ∧
      scanned (forestLeaves row) = scanned tokens := by
  induction row generalizing tokens with
  | nil =>
    rw [List.map_eq_nil_iff.mp leavesOnly.symm]
    exact ⟨rfl, rfl, rfl⟩
  | cons tree rest ih =>
    rw [shapes] at leavesOnly
    cases tree with
    | node kind span error children =>
      cases tokens with
      | nil => cases leavesOnly
      | cons token tokens => cases leavesOnly
    | leaf token =>
      rw [forestNodes, forestLeaves, leaves, List.singleton_append,
        show (leaf token :: rest).filterMap token? = token :: rest.filterMap token? from rfl]
      by_cases isTrivia : token.kind.isTrivia = true
      · rw [shape?, if_pos isTrivia] at leavesOnly
        obtain ⟨noNodes, same, isScanned⟩ := ih leavesOnly
        rw [noNodes, same, scanned_cons_of_neg (not_isSignificant_of_isTrivia isTrivia)]
        exact ⟨rfl, rfl, isScanned⟩
      · rw [shape?, if_neg isTrivia] at leavesOnly
        cases tokens with
        | nil => cases leavesOnly
        | cons first tokens =>
          obtain ⟨isFirst, later⟩ := List.cons.inj leavesOnly
          obtain ⟨noNodes, same, isScanned⟩ := ih later
          rw [noNodes, same, Shape.leaf.inj isFirst]
          refine ⟨rfl, rfl, ?_⟩
          show scanned ([first] ++ forestLeaves rest) = scanned ([first] ++ tokens)
          rw [scanned_append, scanned_append, isScanned]

theorem findSome?_scanned {α : Type} {look : Token → Option α}
    (significant : ∀ token, (look token).isSome = true → token.kind.isSignificant = true)
    (tokens : List Token) : tokens.findSome? look = (scanned tokens).findSome? look := by
  induction tokens with
  | nil => rfl
  | cons token rest ih =>
    by_cases hidden : token.kind.isSignificant = true
    · rw [scanned_cons_of_pos hidden, List.findSome?_cons, List.findSome?_cons, ih]
    · have nothing : look token = none := by
        rw [← Option.not_isSome_iff_eq_none]
        exact fun found => hidden (significant token found)
      rw [scanned_cons_of_neg (Bool.not_eq_true _ ▸ hidden), List.findSome?_cons, nothing, ih]

theorem find?_scanned {test : Token → Bool}
    (significant : ∀ token, test token = true → token.kind.isSignificant = true)
    (tokens : List Token) : tokens.find? test = (scanned tokens).find? test := by
  rw [List.find?_eq_findSome?_guard, List.find?_eq_findSome?_guard]
  exact findSome?_scanned (fun token found => significant token (by simpa using found)) tokens

theorem isSignificant_of_isSome_associativity? {kind : TokenKind}
    (declares : (associativity? kind).isSome = true) : kind.isSignificant = true := by
  revert declares
  cases kind <;> intro declares <;> first | rfl | cases declares

section Direct

variable {tree : Tree} {draft : FixityDraft} {back : List Token}
  (direct : scanned tree.childTokens = draft.front ++ back)
include direct

theorem find?_keyword_of_direct :
    tree.childTokens.find? (fun token => (associativity? token.kind).isSome) =
      some draft.keyword := by
  rw [find?_scanned fun _ => isSignificant_of_isSome_associativity?, direct,
    FixityDraft.front, List.cons_append, List.find?_cons, draft.declares, Option.isSome_some]

theorem findSome?_associativity_of_direct :
    tree.childTokens.findSome? (fun token => associativity? token.kind) =
      some draft.associativity := by
  rw [findSome?_scanned fun _ => isSignificant_of_isSome_associativity?, direct,
    FixityDraft.front, List.cons_append, List.findSome?_cons, draft.declares]

/--
The view of a node says what its tokens say, as far as they are there, wherever
the operator stands.
-/
theorem ofTree?_of_direct (isDecl : tree.isOfKind .fixityDecl = true)
    (behind : ∀ token ∈ back, token ∈ draft.operator)
    (leaves : scanned tree.leaves = draft.tokens) :
    View.FixityDecl.ofTree? tree = some (draft.view tree.span) := by
  have ofKind (kind : TokenKind) (significant : kind.isSignificant = true) :
      tree.childTokens.find? (fun token => token.kind = kind) =
        (draft.front ++ back).find? fun token => token.kind = kind := by
    have ofKind (token : Token) (same : decide (token.kind = kind) = true) :
        token.kind.isSignificant = true := by
      rw [of_decide_eq_true same]
      exact significant
    rw [← direct, find?_scanned ofKind]
  have noInteger : ∀ token ∈ back, token.kind ≠ .integer := fun token member =>
    of_decide_eq_false (draft.test_operator (fun kind => kind = .integer) false (by decide) _
      (behind token member))
  have noType : ∀ token ∈ back, token.kind ≠ .keyword .typeWord := fun token member =>
    of_decide_eq_false (draft.test_operator (fun kind => kind = .keyword .typeWord) false
      (by decide) _ (behind token member))
  have isTokens : tree.significantTokens = draft.tokens := by
    rw [significantTokens, tokens_eq_leaves]
    exact leaves
  simp only [View.FixityDecl.ofTree?, isDecl, childToken?, View.FixityDecl.target?,
    View.firstText?, findSome?_associativity_of_direct direct, isTokens, draft.find?_operator,
    draft.find?_name, ofKind .integer rfl, ofKind (.keyword .typeWord) rfl,
    draft.find?_digits _ noInteger, draft.find?_space _ noType]
  rfl

theorem ofNode?_of_direct
    (isView : View.FixityDecl.ofTree? tree = some (draft.view tree.span)) :
    ofNode? tree = draft.declared? := by
  rw [ofNode?, isView, find?_keyword_of_direct direct, FixityDraft.declared?]
  simp only [FixityDraft.view]
  cases draft.digits.bind fun digits => Literal.byte? digits.text <;> cases draft.operator <;> rfl

end Direct

variable {span : Span} {error : Option Diagnostic} {children : List Tree}

theorem ofNode?_fixityDecl {row : FixityRow} (isRow : shapes children = row.tokens.map Shape.leaf) :
    ofNode? (node .fixityDecl span error children) = row.declared? := by
  obtain ⟨-, sameTokens, isScanned⟩ := scanned_of_leaves isRow
  have rowScanned : scanned (forestLeaves children) = row.draft.tokens := by
    rw [row.tokens_draft, isScanned]
    exact List.filter_eq_self.mpr row.isSignificant_tokens
  rw [← row.declared?_draft]
  have direct := (congrArg scanned sameTokens).trans rowScanned
  exact ofNode?_of_direct direct (ofTree?_of_direct direct rfl
    (fun _ member => Option.mem_toList.mp member) rowScanned)

/-! ### Whole trees -/

theorem exists_label_of_spelled (spelled : shapes children ∈ production .exprRecordAccess) :
    ∃ front label back, children = front ++ leaf label :: back ∧ shapes back = [] ∧
      label.kind.isLabel = true ∧ ∀ shape ∈ shapes front, shape.avoids fixityWords [] = true := by
  obtain ⟨record, inRecord, _, ⟨dot, inDot, _, ⟨_, ⟨label, rfl, isLabel⟩, rfl⟩, rfl⟩, same⟩ :=
    spelled
  have split : shapes children = (record ++ dot) ++ .leaf label :: [] := by
    rw [← same]
    simp
  obtain ⟨front, back, rfl, isFront, isBack⟩ := shapes_eq_append_leaf split
  refine ⟨front, label, back, rfl, isBack, isLabel, ?_⟩
  rw [isFront]
  let pattern : Pattern := expr * token .dot
  exact Pattern.avoids_of_mem (show pattern.avoids fixityWords [] = true from rfl)
    (Language.append_mem_mul inRecord inDot)

theorem not_isLabel_of_isTrivia {kind : TokenKind} (isTrivia : kind.isTrivia = true) :
    kind.isLabel = false := by
  cases kind <;> first | rfl | cases isTrivia

theorem selected?_eq_some {front back : List Tree} {label : Token} (blank : shapes back = [])
    (isLabel : label.kind.isLabel = true) :
    (node .exprRecordAccess span error (front ++ leaf label :: back)).selected? = some label := by
  have behind : (back.filterMap token?).reverse.find? (fun token => token.kind.isLabel) = none := by
    rw [List.find?_eq_none]
    intro token member
    obtain ⟨tree, inBack, isToken⟩ := List.mem_filterMap.mp (List.mem_reverse.mp member)
    have isLeaf : token ∈ tree.leaves := by
      cases tree with
      | leaf other => exact List.mem_singleton.mpr (Option.some.inj isToken).symm
      | node kind span error children => cases isToken
    have isTrivia := isTrivia_of_blank blank token
      (forestLeaves_eq_flatMap back ▸ List.mem_flatMap_of_mem inBack isLeaf)
    rw [not_isLabel_of_isTrivia isTrivia]
    exact Bool.false_ne_true
  have split : (front ++ leaf label :: back).filterMap token? =
      front.filterMap token? ++ label :: back.filterMap token? := by
    rw [List.filterMap_append]
    rfl
  show ((front ++ leaf label :: back).filterMap token?).reverse.find? _ = some label
  rw [split, List.reverse_append, List.reverse_cons, List.append_assoc, List.find?_append, behind,
    Option.none_or, List.singleton_append, List.find?_cons, isLabel]

/-- Every selection is listed, and no declaration begins where one of them does. -/
structure Sorts (isSelection : Nat → Bool) (nodes : List Tree) : Prop where
  selected : ∀ node ∈ nodes, ∀ label ∈ selected? node, isSelection label.span.start = true
  declared : ∀ node ∈ nodes, ∀ fixity ∈ ofNode? node, isSelection fixity.offset = false

theorem Sorts.mono {chosen all : List Tree} (sorts : Sorts isSelection all) (among : chosen ⊆ all) :
    Sorts isSelection chosen :=
  ⟨fun node member => sorts.selected node (among member),
    fun node member => sorts.declared node (among member)⟩

theorem ofNode?_eq_none {kind : NodeKind} (other : kind ≠ .fixityDecl) (span : Span)
    (error : Option Diagnostic) (children : List Tree) :
    ofNode? (node kind span error children) = none := by
  have notDecl : (node kind span error children).isOfKind .fixityDecl = false :=
    decide_eq_false fun same => other (Option.some.inj same)
  rw [ofNode?, View.FixityDecl.ofTree?, notDecl]
  rfl

theorem passesOver_fixityDecl (spelled : shapes children ∈ production .fixityDecl)
    (sorts : Sorts isSelection (node .fixityDecl span error children).nodes) :
    PassesOver isSelection (node .fixityDecl span error children) := by
  obtain ⟨row, isRow⟩ := FixityRow.exists_of_spelled spelled
  obtain ⟨noNodes, -, isScanned⟩ := scanned_of_leaves isRow
  have declares : ofNode? (node .fixityDecl span error children) = row.declared? :=
    ofNode?_fixityDecl isRow
  have counts : ∀ fixity ∈ row.declared?, isSelection fixity.offset = false := by
    rw [← declares]
    exact sorts.declared _ List.mem_cons_self
  intro rest
  refine ⟨row.declared?.toList, ?_, ?_⟩
  · rw [leaves, isScanned, scanned, List.filter_eq_self.mpr row.isSignificant_tokens,
      row.collect_tokens]
  · rw [nodes, noNodes, List.filterMap_cons, declares]
    cases isDeclared : row.declared? with
    | none => rfl
    | some fixity =>
      rw [isDeclared] at counts
      rw [Option.toList_some, List.filter_cons, counts fixity rfl]
      rfl

theorem passesOver_selection (spelled : shapes children ∈ production .exprRecordAccess)
    (sorts : Sorts isSelection (node .exprRecordAccess span error children).nodes)
    (inner : ∀ tree ∈ children, tree.isNode = true → PassesOver isSelection tree) :
    PassesOver isSelection (node .exprRecordAccess span error children) := by
  obtain ⟨front, label, back, rfl, blank, isLabel, avoids⟩ := exists_label_of_spelled spelled
  have selects : isSelection label.span.start = true :=
    sorts.selected _ List.mem_cons_self label (selected?_eq_some blank isLabel)
  have ahead : Passes isSelection (forestLeaves front) ((forestNodes front).filterMap ofNode?) :=
    passes_forest (Shape.harmless_of_avoids avoids) fun tree member =>
      inner tree (List.mem_append_left _ member)
  have behind : Passes isSelection (forestLeaves back) ((forestNodes back).filterMap ofNode?) :=
    passes_forest (by rw [blank]; rfl) fun tree member =>
      inner tree (List.mem_append_right _ (List.mem_cons_of_mem _ member))
  rw [PassesOver, nodes, List.filterMap_cons_none rfl, leaves, forestLeaves_append,
    forestNodes_append, List.filterMap_append]
  exact ahead.append ((Passes.selection selects).append behind)

variable {table? : Option OperatorTable}

theorem passesOver_of_formed : (row : List Tree) →
    (∀ shape ∈ shapes row, shape.Formed table?) → Sorts isSelection (forestNodes row) →
      ∀ tree ∈ row, tree.isNode = true → PassesOver isSelection tree
  | [], _, _ => List.forall_mem_nil _
  | leaf _ :: rest, formed, sorts => by
    refine List.forall_mem_cons.mpr ⟨by rintro ⟨⟩, passesOver_of_formed rest ?_ sorts⟩
    exact fun shape member => formed shape (List.mem_append_right _ member)
  | node kind span error children :: rest, formed, sorts => by
    obtain ⟨own, later⟩ := List.forall_mem_cons.mp formed
    refine List.forall_mem_cons.mpr ⟨fun _ => ?_,
      passesOver_of_formed rest later (sorts.mono (List.subset_append_right _ _))⟩
    have within : Sorts isSelection (node kind span error children).nodes :=
      sorts.mono (List.subset_append_left _ _)
    cases own with
    | node spelled parts =>
      have inner := passesOver_of_formed children parts
        (within.mono (List.subset_cons_self _ _))
      by_cases declared : kind = .fixityDecl
      · subst declared
        exact passesOver_fixityDecl spelled.1 within
      by_cases selected : kind = .exprRecordAccess
      · subst selected
        exact passesOver_selection spelled.1 within inner
      rw [PassesOver, nodes, List.filterMap_cons_none (ofNode?_eq_none declared _ _ _), leaves]
      exact passes_forest (harmless_of_spelled declared selected spelled.1) inner

end Tree

/-! ### Offsets -/

namespace Token

theorem Laid.le_start {offset : Nat} {tokens : List Token} (laid : Laid offset tokens) :
    ∀ token ∈ tokens, offset ≤ token.span.start := by
  induction tokens generalizing offset with
  | nil => nofun
  | cons first rest ih =>
    intro token member
    rcases List.mem_cons.mp member with rfl | later
    · rw [laid.1]
    · exact (Nat.le_add_right _ _).trans (ih laid.2 token later)

theorem Laid.pairwise {offset : Nat} {tokens : List Token} (laid : Laid offset tokens) :
    tokens.Pairwise fun left right =>
      left.span.start + left.text.utf8ByteSize ≤ right.span.start := by
  induction tokens generalizing offset with
  | nil => exact .nil
  | cons first rest ih =>
    refine .cons (fun token member => ?_) (ih laid.2)
    rw [laid.1]
    exact Laid.le_start laid.2 token member

end Token

namespace Layout

theorem text_ne_empty_of_isSignificant (tabWidth : Nat) (source : String) :
    ∀ token ∈ tokens tabWidth source, token.kind.isSignificant = true → token.text ≠ "" := by
  intro token member significant
  have notVirtual : token.kind.isVirtual = false := by
    rw [TokenKind.isSignificant, Bool.and_eq_true] at significant
    simpa using significant.2
  refine Token.text_ne_empty_of_mem_scanFrom source.toList 0 0 token
    (mem_scan_of_mem_tokens member notVirtual) fun isEnd => ?_
  rw [isEnd] at notVirtual
  cases notVirtual

end Layout

namespace Tree

theorem mem_forestSeats_of_leaf (parent : NodeKind) (address : List Nat) (index : Nat)
    {row : List Tree} {token : Token} (member : leaf token ∈ row) :
    ∃ seat ∈ forestSeats parent address index row, seat.token = token ∧ seat.parent = parent := by
  obtain ⟨front, back, rfl⟩ := List.append_of_mem member
  refine ⟨⟨token, parent, address⟩, ?_, rfl, rfl⟩
  rw [forestSeats_append]
  exact List.mem_append_right _ List.mem_cons_self

mutual

theorem mem_seatsAt_of_child {kind : NodeKind} {token : Token} {node : Tree}
    (isKind : node.kind? = some kind) (child : leaf token ∈ node.children) (parent : NodeKind)
    (address : List Nat) (index : Nat) : (tree : Tree) → node ∈ tree.nodes →
      ∃ seat ∈ tree.seatsAt parent address index, seat.token = token ∧ seat.parent = kind
  | leaf _, member => absurd member List.not_mem_nil
  | .node other span error children, member => by
    rcases List.mem_cons.mp member with rfl | below
    · cases isKind
      exact mem_forestSeats_of_leaf _ _ _ child
    · exact mem_forestSeats_of_child isKind child other (index :: address) 0 children below

theorem mem_forestSeats_of_child {kind : NodeKind} {token : Token} {node : Tree}
    (isKind : node.kind? = some kind) (child : leaf token ∈ node.children) (parent : NodeKind)
    (address : List Nat) (index : Nat) : (row : List Tree) → node ∈ forestNodes row →
      ∃ seat ∈ forestSeats parent address index row, seat.token = token ∧ seat.parent = kind
  | [], member => absurd member List.not_mem_nil
  | tree :: rest, member => by
    rw [forestSeats]
    rcases List.mem_append.mp member with first | later
    · obtain ⟨seat, inTree, isSeat⟩ :=
        mem_seatsAt_of_child isKind child parent address index tree first
      exact ⟨seat, List.mem_append_left _ inTree, isSeat⟩
    · obtain ⟨seat, inRest, isSeat⟩ :=
        mem_forestSeats_of_child isKind child parent address (index + 1) rest later
      exact ⟨seat, List.mem_append_right _ inRest, isSeat⟩

end

variable {tree : Tree}

/-- Two tokens with text that begin at the same place stand below nodes of the same kind. -/
theorem kind_eq_of_start_eq (laid : Token.Laid 0 tree.leaves) {left right : Tree}
    (inLeft : left ∈ tree.nodes) (inRight : right ∈ tree.nodes) {leftKind rightKind : NodeKind}
    (isLeft : left.kind? = some leftKind) (isRight : right.kind? = some rightKind)
    {one other : Token} (oneBelow : leaf one ∈ left.children)
    (otherBelow : leaf other ∈ right.children) (oneSpelled : one.text ≠ "")
    (otherSpelled : other.text ≠ "") (same : one.span.start = other.span.start) :
    leftKind = rightKind := by
  obtain ⟨first, inFirst, rfl, rfl⟩ := mem_seatsAt_of_child isLeft oneBelow .error [] 0 tree inLeft
  obtain ⟨second, inSecond, rfl, rfl⟩ :=
    mem_seatsAt_of_child isRight otherBelow .error [] 0 tree inRight
  by_contra distinct
  rw [← map_token_seatsAt .error [] 0] at laid
  have apart := laid.pairwise
  rw [List.pairwise_map] at apart
  let Differ (left right : Seat) : Prop := left.token.text ≠ "" → right.token.text ≠ "" →
    left.token.span.start ≠ right.token.span.start
  have symmetric : Std.Symm Differ :=
    ⟨fun _ _ differ spelled otherSpelled => (differ otherSpelled spelled).symm⟩
  have differ : (tree.seatsAt .error [] 0).Pairwise Differ := by
    refine apart.imp fun {left right} before spelled _ same => spelled ?_
    rw [← String.utf8ByteSize_eq_zero_iff]
    omega
  exact differ.forall inFirst inSecond (fun equal => distinct (congrArg Seat.parent equal))
    oneSpelled otherSpelled same

theorem isNode_of_shape? {kind : NodeKind} {row : List Shape}
    (same : tree.shape? = some (.node kind row)) : tree.isNode = true := by
  cases tree with
  | leaf token =>
    rw [shape?] at same
    split at same <;> cases same
  | node kind span error children => rfl

theorem leaf_mem_of_mem_childTokens {token : Token} (member : token ∈ tree.childTokens) :
    leaf token ∈ tree.children := by
  obtain ⟨child, inChildren, isToken⟩ := List.mem_filterMap.mp member
  cases child with
  | leaf other =>
    cases isToken
    exact inChildren
  | node kind span error children => cases isToken

theorem selected?_spec {label : Token} (selected : tree.selected? = some label) :
    tree.kind? = some .exprRecordAccess ∧ leaf label ∈ tree.children ∧
      label.kind.isLabel = true := by
  rw [selected?] at selected
  split at selected
  · next isAccess =>
      have isLabel := List.find?_some selected
      exact ⟨of_decide_eq_true isAccess, leaf_mem_of_mem_childTokens
        (List.mem_reverse.mp (List.mem_of_find?_eq_some selected)), isLabel⟩
  · cases selected

theorem ofNode?_spec {declared : DeclaredFixity}
    (isDeclared : DeclaredFixity.ofNode? tree = some declared) :
    tree.kind? = some .fixityDecl ∧ ∃ keyword, leaf keyword ∈ tree.children ∧
      keyword.kind ∈ fixityWords ∧ declared.offset = keyword.span.start := by
  obtain ⟨view, isView, isDeclared⟩ := Option.bind_eq_some_iff.mp isDeclared
  obtain ⟨keyword, isKeyword, isDeclared⟩ := Option.bind_eq_some_iff.mp isDeclared
  obtain ⟨associativity, -, isDeclared⟩ := Option.bind_eq_some_iff.mp isDeclared
  obtain ⟨precedence, -, isDeclared⟩ := Option.bind_eq_some_iff.mp isDeclared
  obtain ⟨operator, -, isDeclared⟩ := Option.bind_eq_some_iff.mp isDeclared
  have isKind : tree.kind? = some .fixityDecl := by
    rw [View.FixityDecl.ofTree?] at isView
    split at isView
    · next isDecl => exact of_decide_eq_true isDecl
    · cases isView
  have found := List.find?_some isKeyword
  obtain ⟨associativity, declares⟩ := Option.isSome_iff_exists.mp found
  refine ⟨isKind, keyword, leaf_mem_of_mem_childTokens (List.mem_of_find?_eq_some isKeyword),
    mem_fixityWords declares, ?_⟩
  rw [← Option.some.inj isDeclared]

theorem sorts_selections (laid : Token.Laid 0 tree.leaves)
    (spelled : ∀ token ∈ tree.leaves, token.kind.isSignificant = true → token.text ≠ "") :
    Sorts (fun offset => tree.selections.contains offset) tree.nodes := by
  have memLeaves {node : Tree} {token : Token} (inNodes : node ∈ tree.nodes)
      (below : leaf token ∈ node.children) : token ∈ tree.leaves := by
    obtain ⟨kind, isKind⟩ : ∃ kind, node.kind? = some kind := by
      cases node with
      | leaf token => cases below
      | node kind span error children => exact ⟨kind, rfl⟩
    obtain ⟨seat, inSeats, rfl, -⟩ := mem_seatsAt_of_child isKind below .error [] 0 tree inNodes
    rw [← map_token_seatsAt .error [] 0]
    exact List.mem_map_of_mem inSeats
  have significant (kind : TokenKind) (isLabel : kind.isLabel = true) :
      kind.isSignificant = true := by
    cases kind <;> first | rfl | cases isLabel
  refine ⟨fun node inNodes label isLabel => ?_, fun node inNodes fixity isDeclared => ?_⟩
  · rw [List.contains_iff_mem, selections, descendants_eq_nodes]
    exact List.mem_map_of_mem (List.mem_filterMap.mpr ⟨node, inNodes, isLabel⟩)
  · rw [← Bool.not_eq_true, List.contains_iff_mem, selections, descendants_eq_nodes, List.mem_map]
    rintro ⟨label, inLabels, same⟩
    obtain ⟨access, inTree, isSelected⟩ := List.mem_filterMap.mp inLabels
    obtain ⟨isAccess, labelBelow, isLabel⟩ := selected?_spec isSelected
    obtain ⟨isDecl, keyword, keywordBelow, isKeyword, isOffset⟩ := ofNode?_spec isDeclared
    have keywordSignificant : keyword.kind.isSignificant = true := by
      generalize keyword.kind = kind at isKeyword
      revert kind
      decide
    have kinds := kind_eq_of_start_eq laid inTree inNodes isAccess isDecl labelBelow keywordBelow
      (spelled label (memLeaves inTree labelBelow) (significant _ isLabel))
      (spelled keyword (memLeaves inNodes keywordBelow) keywordSignificant)
      (same.trans isOffset)
    cases kinds

end Tree

/-! ### Whole texts -/

namespace Parse

open DeclaredFixity

/--
If a parse is finished and nothing in the text is malformed, the fixities found
by the scan that do not begin at the label of a selection are those that the
nodes of the tree declare, in the same order.  So the scan finds what the tree
declares if and only if it finds nothing at the labels of selections.  The
fixities returned are those given and those that the scan finds, if they are
collected.
-/
theorem scan_eq_declared_iff (options : ParseOptions) (seed : OperatorTable)
    (isCancelled : Nat → Bool) (source : String)
    (finished : (run options seed isCancelled source).cancelled = false)
    (clean : (run options seed isCancelled source).parse.hasErrors = false) :
    let root := (run options seed isCancelled source).parse.root
    let found := scan (Layout.tokens options.tabWidth source)
    (found.filter fun fixity => !root.selections.contains fixity.offset) = root.declaredFixities ∧
      (found = root.declaredFixities ↔ ∀ fixity ∈ found, fixity.offset ∉ root.selections) ∧
      (options.collectsFixities = true →
        (run options seed isCancelled source).parse.operators = seed.declare found) := by
  intro root found
  let job : Job := ⟨options, seed, isCancelled, source⟩
  obtain ⟨row, isRoot, formed⟩ := job.formed_root finished clean
  have isLeaves : root.leaves = Layout.tokens options.tabWidth source :=
    job.leaves_root_run
  have sorts := Tree.sorts_selections (isLeaves ▸ Layout.laid_tokens options.tabWidth source)
    (isLeaves ▸ Layout.text_ne_empty_of_isSignificant options.tabWidth source)
  have passes : Tree.PassesOver root.selections.contains root := by
    have formed : ∀ shape ∈ Tree.shapes [root], shape.Formed job.table? := by
      rw [Tree.shapes, isRoot]
      exact List.forall_mem_singleton.mpr formed
    refine Tree.passesOver_of_formed [root] formed ?_ root List.mem_cons_self
      (Tree.isNode_of_shape? isRoot)
    rw [Tree.forestNodes, Tree.forestNodes, List.append_nil]
    exact sorts
  have filtered : (found.filter fun fixity => !root.selections.contains fixity.offset) =
      root.declaredFixities := by
    obtain ⟨all, collected, filtered⟩ := passes []
    rw [List.append_nil, collect, List.append_nil, isLeaves] at collected
    rw [Tree.declaredFixities, Tree.descendants_eq_nodes, ← filtered]
    exact congrArg _ collected
  refine ⟨filtered, ?_, fun collects =>
    (job.operators_eq_openingTable collects).trans (if_pos collects)⟩
  rw [← filtered, eq_comm, List.filter_eq_self]
  refine forall_congr' fun fixity => imp_congr_right fun _ => ?_
  rw [Bool.not_eq_true', ← Bool.not_eq_true, List.contains_iff_mem]

/-- A declaration, and a selection that looks like the beginning of one. -/
theorem scan_eq_declared_iff_selecting :
    (run {} .standard (fun _ => false) "infixl 6 f as +\nx = r.infixr").cancelled = false ∧
      (run {} .standard (fun _ => false) "infixl 6 f as +\nx = r.infixr").parse.hasErrors =
        false ∧
      scan (Layout.tokens 8 "infixl 6 f as +\nx = r.infixr") =
        [⟨.value, "+", ⟨.left, 6⟩, 0⟩] ∧
      (scan (Layout.tokens 8 "infixl 6 f as +\nx = r.infixr") =
          (run {} .standard (fun _ => false)
            "infixl 6 f as +\nx = r.infixr").parse.root.declaredFixities ↔
        ∀ fixity ∈ scan (Layout.tokens 8 "infixl 6 f as +\nx = r.infixr"),
          fixity.offset ∉ (run {} .standard (fun _ => false)
            "infixl 6 f as +\nx = r.infixr").parse.root.selections) :=
  ⟨by decide +kernel, by decide +kernel, by decide +kernel,
    (scan_eq_declared_iff {} .standard _ _ (by decide +kernel) (by decide +kernel)).2.1⟩

/--
The tokens behind the label of a selection can look like a declaration.  Then
the scan finds a fixity that the text does not declare, and it is returned.
-/
theorem scan_finds_selection :
    (ofSource "x = r.infixr 0 f as + 1").hasErrors = false ∧
      (ofSource "x = r.infixr 0 f as + 1").root.declaredFixities = [] ∧
      scan (Layout.tokens 8 "x = r.infixr 0 f as + 1") = [⟨.value, "+", ⟨.right, 0⟩, 6⟩] ∧
      (ofSource "x = r.infixr 0 f as + 1").operators.fixity .value "+" = ⟨.right, 0⟩ ∧
      OperatorTable.standard.fixity .value "+" = ⟨.left, 6⟩ := by
  decide +kernel

end Parse

end Offside
