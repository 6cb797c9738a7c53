import Mathlib.Data.List.Nodup
import Offside.Proofs.Cancellation
import Offside.Proofs.Places

/-!
# Faults of tokens and layout are reported

A token at fault is a child of an error node, and an error node that blames a
token has that token first.  What productions build keeps this up node by node,
so it holds of the tree of every text.

What is missing is reported by an error node that holds nothing.  A second
report at the same place is dropped, but only the place of the last report is
remembered.  That is enough, because no run goes back: the places of reports
grow with the place that is reached.
-/

namespace Offside.Tree

open Grammar (State)

/-! ### Leaves and the nodes above them -/

theorem parent_of_mem_forestPlaces : (above : List NodeKind) → (row : List Tree) →
    ∀ placed ∈ forestPlaces above row,
      (leaf placed.token ∈ row ∧ placed.above = above) ∨
        ∃ node ∈ forestNodes row, leaf placed.token ∈ node.children ∧
          placed.above.head? = node.kind?
  | _, [] => List.forall_mem_nil _
  | above, leaf _ :: rest => by
    refine List.forall_mem_cons.mpr ⟨.inl ⟨List.mem_cons_self, rfl⟩, fun placed member => ?_⟩
    rcases parent_of_mem_forestPlaces above rest placed member with ⟨child, isAbove⟩ | parent
    · exact .inl ⟨List.mem_cons_of_mem _ child, isAbove⟩
    · exact .inr parent
  | above, node kind _ _ children :: rest => by
    refine List.forall_mem_append.mpr ⟨fun placed member => .inr ?_, fun placed member => ?_⟩
    · rcases parent_of_mem_forestPlaces (kind :: above) children placed member with
        ⟨child, isAbove⟩ | ⟨inner, isInner, parent⟩
      · exact ⟨_, List.mem_cons_self, child, by rw [isAbove]; rfl⟩
      · exact ⟨inner, List.mem_append_left _ (List.mem_cons_of_mem _ isInner), parent⟩
    · rcases parent_of_mem_forestPlaces above rest placed member with
        ⟨child, isAbove⟩ | ⟨inner, isInner, parent⟩
      · exact .inl ⟨List.mem_cons_of_mem _ child, isAbove⟩
      · exact .inr ⟨inner, List.mem_append_right _ isInner, parent⟩

/-! ### Nodes that report -/

/--
What a node says about faults: which of its children are tokens at fault, and
what its diagnostic blames.
-/
structure Reporting (tree : Tree) : Prop where
  /-- Tokens at fault are children of error nodes only. -/
  faulty : ∀ token, leaf token ∈ tree.children → State.triviaCause? token.kind ≠ none →
    tree.kind? = some .error
  /-- A fault that the grammar does not see is alone in a node that reports it. -/
  hidden : ∀ token, leaf token ∈ tree.children → token.kind.isVisible = false →
    ∀ cause, State.triviaCause? token.kind = some cause →
      tree.children = [leaf token] ∧ ∃ diagnostic, tree.error? = some diagnostic ∧
        diagnostic.cause = cause
  /-- A token that is blamed comes first. -/
  blamed : ∀ diagnostic ∈ tree.error?, Grammar.IsGeneral diagnostic.cause ∨
    ∃ token rest, tree.children = leaf token :: rest ∧
      State.triviaCause? token.kind = some diagnostic.cause
  /-- Error nodes say what is wrong. -/
  payload : tree.kind? = some .error → tree.error?.isSome = true

section Children

variable {kind : NodeKind} {diagnostic : Diagnostic} {children : List Tree}

def Clear (row : List Tree) : Prop :=
  ∀ token, leaf token ∈ row → State.triviaCause? token.kind = none

theorem reporting_construct (construct : kind ≠ .error) (clear : Clear children)
    (span : Span) : Reporting (node kind span none children) where
  faulty token child fault := absurd (clear token child) fault
  hidden token child _ cause fault :=
    absurd (fault.symm.trans (clear token child)) (Option.some_ne_none cause)
  blamed _ isError := absurd isError (Option.not_mem_none _)
  payload isError := absurd (Option.some.inj isError) construct

theorem reporting_general (general : Grammar.IsGeneral diagnostic.cause)
    (clear : Clear children) (openedAt : Nat) :
    Reporting (ofChildren .error (some diagnostic) openedAt children) where
  faulty _ _ _ := rfl
  hidden token child _ cause fault :=
    absurd (fault.symm.trans (clear token child)) (Option.some_ne_none cause)
  blamed _ isError := .inl (by cases isError; exact general)
  payload _ := rfl

theorem reporting_fault {token : Token}
    (named : State.triviaCause? token.kind = some diagnostic.cause) (openedAt : Nat) :
    Reporting (ofChildren .error (some diagnostic) openedAt [leaf token]) where
  faulty _ _ _ := rfl
  hidden other child _ cause fault := by
    cases List.mem_singleton.mp child
    exact ⟨rfl, _, rfl, Option.some.inj (named.symm.trans fault)⟩
  blamed _ isError := .inr ⟨token, [], rfl, by cases isError; exact named⟩
  payload _ := rfl

theorem general_or_named {cause : Cause} {kind : TokenKind} (fits : Grammar.Fits cause kind) :
    Grammar.IsGeneral cause ∨ State.triviaCause? kind = some cause := by
  rcases fits with misfit | fixity
  · cases kind with
    | error fault => exact .inr (by rw [misfit]; rfl)
    | _ => exact .inl (.inl misfit)
  · exact .inl (.inr fixity)

theorem reporting_skip {token : Token} (fits : Grammar.Fits diagnostic.cause token.kind)
    (visible : token.kind.isVisible = true) (sound : ∀ token, leaf token ∈ children →
      State.triviaCause? token.kind = none ∨ token.kind.isVisible = true) (openedAt : Nat) :
    Reporting (ofChildren .error (some diagnostic) openedAt (leaf token :: children)) where
  faulty _ _ _ := rfl
  hidden other child hidden cause fault := by
    rcases List.mem_cons.mp child with isFirst | later
    · cases isFirst
      exact absurd visible (by rw [hidden]; exact Bool.false_ne_true)
    · rcases sound other later with harmless | seen
      · exact absurd (fault.symm.trans harmless) (Option.some_ne_none cause)
      · exact absurd seen (by rw [hidden]; exact Bool.false_ne_true)
  blamed _ isError := by
    cases isError
    exact (general_or_named fits).imp_right fun named => ⟨token, children, rfl, named⟩
  payload _ := rfl

end Children

/-! ### Rows without faults -/

/-- No token at fault is left in the row, and the nodes in it say what is wrong. -/
structure Accounted (row : List Tree) : Prop where
  clear : Clear row
  nodes : ∀ node ∈ forestNodes row, Reporting node

theorem accounted_nil : Accounted [] :=
  ⟨fun _ member => absurd member List.not_mem_nil, List.forall_mem_nil _⟩

theorem accounted_leaves {tokens : List Token}
    (harmless : ∀ token ∈ tokens, State.triviaCause? token.kind = none) :
    Accounted (tokens.map .leaf) := by
  refine ⟨fun token child => ?_, ?_⟩
  · obtain ⟨other, member, same⟩ := List.mem_map.mp child
    cases same
    exact harmless token member
  · rw [forestNodes_map_leaf]
    exact List.forall_mem_nil _

theorem accounted_append {left right : List Tree} :
    Accounted (left ++ right) ↔ Accounted left ∧ Accounted right := by
  constructor
  · rintro ⟨clear, nodes⟩
    rw [forestNodes_append, List.forall_mem_append] at nodes
    exact ⟨⟨fun token child => clear token (List.mem_append_left _ child), nodes.1⟩,
      ⟨fun token child => clear token (List.mem_append_right _ child), nodes.2⟩⟩
  · rintro ⟨left, right⟩
    refine ⟨fun token child => ?_, ?_⟩
    · exact (List.mem_append.mp child).elim (left.clear token) (right.clear token)
    · rw [forestNodes_append]
      exact List.forall_mem_append.mpr ⟨left.nodes, right.nodes⟩

theorem accounted_ofChildren {kind : NodeKind} {error : Option Diagnostic} {openedAt : Nat}
    {children : List Tree} (reporting : Reporting (ofChildren kind error openedAt children))
    (inner : ∀ node ∈ forestNodes children, Reporting node) :
    Accounted [ofChildren kind error openedAt children] where
  clear token child := nomatch List.mem_singleton.mp child
  nodes := by
    rw [forestNodes, forestNodes, List.append_nil]
    exact List.forall_mem_cons.mpr ⟨reporting, inner⟩

end Offside.Tree

namespace Offside.Grammar

open Offside.Tree

variable {sourceLength : Nat}

namespace Grafts

variable {allowed : TokenKind → Bool} {pending left : List Token} {row : List Tree}

theorem sound (grafts : Grafts sourceLength allowed pending row left) :
    ∀ token, .leaf token ∈ row → State.triviaCause? token.kind = none ∨
      token.kind.isVisible = true ∧ allowed token.kind = true := by
  induction grafts with
  | done => exact fun _ member => absurd member List.not_mem_nil
  | leaf sound _ _ ih =>
    intro token child
    rcases List.mem_cons.mp child with isFirst | later
    · cases isFirst
      exact sound.imp_left And.right
    · exact ih token later
  | fault _ _ _ _ _ ih =>
    intro token child
    exact ih token ((List.mem_cons.mp child).resolve_left nofun)

theorem reporting (grafts : Grafts sourceLength allowed pending row left) :
    ∀ node ∈ forestNodes row, Reporting node := by
  induction grafts with
  | done => exact List.forall_mem_nil _
  | leaf _ _ _ ih => exact ih
  | fault openedAt _ named _ _ ih =>
    exact List.forall_mem_cons.mpr ⟨reporting_fault named openedAt, ih⟩

theorem accounted (grafts : Grafts sourceLength allowed pending row left)
    (proper : ∀ problem, allowed (.error problem) = false) : Accounted row := by
  refine ⟨fun token child => ?_, grafts.reporting⟩
  rcases grafts.sound token child with harmless | ⟨visible, isAllowed⟩
  · exact harmless
  · revert visible isAllowed
    cases token.kind with
    | error problem =>
      rw [proper problem]
      nofun
    | layoutError => nofun
    | _ => exact fun _ _ => rfl

end Grafts

theorem ne_error_of_isConstruct {kind : NodeKind} (construct : isConstruct kind = true) :
    kind ≠ .error := by
  rintro rfl
  cases construct

theorem ne_error_of_isLoose {kind : NodeKind} (loose : isLoose kind = true) : kind ≠ .error := by
  rintro rfl
  cases loose

theorem Builds.accounted {depth : Nat} {phase : Phase} {first second : List Tree × List Token}
    (builds : Builds sourceLength depth phase first second) (before : Accounted first.1) :
    Accounted second.1 := by
  induction builds with
  | stay => exact before
  | trans _ _ left right => exact right (left before)
  | graft _ phase _ grafts =>
    exact accounted_append.mpr ⟨before, grafts.accounted fun _ => by cases phase <;> rfl⟩
  | join _ _ grafts => exact accounted_append.mpr ⟨before, grafts.accounted fun _ => rfl⟩
  | skip _ _ openedAt _ visible _ fits grafts =>
    refine accounted_append.mpr ⟨before, accounted_ofChildren ?_ grafts.reporting⟩
    exact reporting_skip fits visible
      (fun token child => (grafts.sound token child).imp_right And.left) openedAt
  | report _ _ _ _ openedAt general =>
    obtain ⟨outside, inside⟩ := accounted_append.mp before
    exact accounted_append.mpr ⟨outside,
      accounted_ofChildren (reporting_general general inside.clear openedAt) inside.nodes⟩
  | node _ _ _ loose _ ih =>
    have inside := ih accounted_nil
    exact accounted_append.mpr ⟨before, accounted_ofChildren
      (reporting_construct (ne_error_of_isLoose loose) inside.clear _) inside.nodes⟩
  | enclose _ _ construct _ ih =>
    have inside := ih accounted_nil
    exact accounted_append.mpr ⟨before, accounted_ofChildren
      (reporting_construct (ne_error_of_isConstruct construct) inside.clear _) inside.nodes⟩
  | chain _ _ _ ih =>
    have inside := ih accounted_nil
    have construct : NodeKind.instanceChain ≠ .error := nofun
    exact accounted_append.mpr ⟨before, accounted_ofChildren
      (reporting_construct construct inside.clear _) inside.nodes⟩
  | abandon _ _ ih => exact accounted_append.mpr ⟨before, ih accounted_nil⟩
  | wrap _ _ loose _ ih =>
    obtain ⟨outside, inner⟩ := accounted_append.mp before
    have inside := ih inner
    exact accounted_append.mpr ⟨outside, accounted_ofChildren
      (reporting_construct (ne_error_of_isLoose loose) inside.clear _) inside.nodes⟩
  | nest _ _ _ ih | within _ ih => exact ih before
  | block _ opens closes _ ih =>
    refine accounted_append.mpr ⟨ih (accounted_append.mpr ⟨before, ?_⟩), ?_⟩
    · exact accounted_leaves (List.forall_mem_singleton.mpr (by rw [opens]; rfl))
    · exact accounted_leaves fun token member => by rw [closes.isEnd token member]; rfl

theorem reporting_root (options : ParseOptions) (seed : OperatorTable) (source : String) :
    ∀ node ∈ (Parse.withTable options seed source).root.descendants, Reporting node := by
  obtain ⟨span, row, stop, root, builds⟩ := Parse.builds_root options seed source
  have accounted := builds.accounted accounted_nil
  have last : Accounted [.leaf (Token.virtual .eof stop)] :=
    accounted_leaves (List.forall_mem_singleton.mpr rfl)
  have children := accounted_append.mpr ⟨accounted, last⟩
  rw [root, descendants_eq_nodes]
  have construct : NodeKind.wholeModule ≠ .error := nofun
  exact List.forall_mem_cons.mpr
    ⟨reporting_construct construct children.clear span, children.nodes⟩

end Offside.Grammar

namespace Offside

/-- The faults of tokens and of the layout are reported in the tree, and no others are. -/
structure Tree.ReportsFaults (root : Tree) : Prop where
  /-- A token at fault stands under an error node. -/
  skipped : ∀ placed ∈ root.places, ∀ fault, placed.token.kind = .error fault →
    placed.isSkipped = true
  /-- The mark of a layout fault is alone in a node that reports this fault. -/
  layout : ∀ node ∈ root.descendants, ∀ token fault, .leaf token ∈ node.children →
    token.kind = .layoutError fault → node.kind? = some .error ∧
      node.children = [.leaf token] ∧
      ∃ diagnostic, node.error? = some diagnostic ∧ diagnostic.cause = .layout fault
  /-- A comment that never closes is alone in a node that reports it. -/
  comment : ∀ node ∈ root.descendants, ∀ token, .leaf token ∈ node.children →
    token.kind = .error .unterminatedComment → node.kind? = some .error ∧
      node.children = [.leaf token] ∧
      ∃ diagnostic, node.error? = some diagnostic ∧
        diagnostic.cause = .lex .unterminatedComment
  /-- What a diagnostic says about a token is true of the first token in its node. -/
  lexical : ∀ node ∈ root.descendants, node.kind? = some .error → ∀ diagnostic ∈ node.error?,
    (∀ fault, diagnostic.cause = .lex fault →
      ∃ token, node.tokens.head? = some token ∧ token.kind = .error fault) ∧
    (∀ fault, diagnostic.cause = .layout fault →
      ∃ token, node.tokens.head? = some token ∧ token.kind = .layoutError fault)
  /-- Where nothing is reported, no token is at fault. -/
  clean : root.diagnostics = [] → ∀ token ∈ root.tokens,
    (∀ fault, token.kind ≠ .error fault) ∧ ∀ fault, token.kind ≠ .layoutError fault

namespace Tree

open Grammar (State)

theorem kind_of_triviaCause? {kind : TokenKind} {cause : Cause}
    (named : State.triviaCause? kind = some cause) :
    (∀ fault, cause = .lex fault → kind = .error fault) ∧
      ∀ fault, cause = .layout fault → kind = .layoutError fault := by
  cases kind with
  | error fault =>
    cases named
    exact ⟨fun other same => by cases same; rfl, nofun⟩
  | layoutError fault =>
    cases named
    exact ⟨nofun, fun other same => by cases same; rfl⟩
  | _ => cases named

section Reported

variable {root : Tree} (reporting : ∀ node ∈ root.descendants, Reporting node)
include reporting

theorem parent_of_fault (inner : root.isNode = true) {placed : Placed}
    (member : placed ∈ root.places) (fault : State.triviaCause? placed.token.kind ≠ none) :
    placed.isSkipped = true ∧
      ∃ node ∈ root.descendants, node.kind? = some .error := by
  rcases parent_of_mem_forestPlaces [] [root] placed (List.mem_append_left _ member) with
    ⟨isRoot, -⟩ | ⟨node, isNode, child, above⟩
  · rw [← List.mem_singleton.mp isRoot] at inner
    cases inner
  · rw [forestNodes, forestNodes, List.append_nil, ← descendants_eq_nodes] at isNode
    have isError := (reporting node isNode).faulty placed.token child fault
    rw [isError] at above
    refine ⟨?_, node, isNode, isError⟩
    rw [Placed.isSkipped, List.contains_iff_mem]
    exact List.mem_of_head? above

theorem alone_of_hidden {node : Tree} (member : node ∈ root.descendants) {token : Token}
    (child : leaf token ∈ node.children) (hidden : token.kind.isVisible = false) {cause : Cause}
    (named : State.triviaCause? token.kind = some cause) :
    node.kind? = some .error ∧ node.children = [leaf token] ∧
      ∃ diagnostic, node.error? = some diagnostic ∧ diagnostic.cause = cause :=
  ⟨(reporting node member).faulty token child (by rw [named]; exact Option.some_ne_none cause),
    (reporting node member).hidden token child hidden cause named⟩

theorem head_of_blamed {node : Tree} (member : node ∈ root.descendants)
    {diagnostic : Diagnostic} (isError : diagnostic ∈ node.error?)
    (specific : ¬ Grammar.IsGeneral diagnostic.cause) :
    ∃ token, node.tokens.head? = some token ∧
      State.triviaCause? token.kind = some diagnostic.cause := by
  obtain ⟨token, rest, children, named⟩ :=
    ((reporting node member).blamed diagnostic isError).resolve_left specific
  refine ⟨token, ?_, named⟩
  cases node with
  | leaf => cases isError
  | node kind span error row =>
    rw [tokens_eq_leaves, show row = leaf token :: rest from children]
    rfl

theorem reportsFaults_of_reporting (inner : root.isNode = true) : root.ReportsFaults where
  skipped placed member fault isFault :=
    (parent_of_fault reporting inner member (by rw [isFault]; nofun)).1
  layout node member token fault child isFault :=
    alone_of_hidden reporting member child (by rw [isFault]; rfl) (by rw [isFault]; rfl)
  comment node member token child isFault :=
    alone_of_hidden reporting member child (by rw [isFault]; rfl) (by rw [isFault]; rfl)
  lexical node member _ diagnostic isError := by
    refine ⟨fun fault isCause => ?_, fun fault isCause => ?_⟩
    · obtain ⟨token, first, named⟩ := head_of_blamed reporting member isError
        (by rw [isCause, Grammar.IsGeneral]; simp)
      exact ⟨token, first, (kind_of_triviaCause? named).1 fault isCause⟩
    · obtain ⟨token, first, named⟩ := head_of_blamed reporting member isError
        (by rw [isCause, Grammar.IsGeneral]; simp)
      exact ⟨token, first, (kind_of_triviaCause? named).2 fault isCause⟩
  clean silent token member := by
    have harmless : State.triviaCause? token.kind = none := by
      by_contra fault
      rw [tokens_eq_leaves, ← map_token_placesIn [] root] at member
      obtain ⟨placed, isPlaced, rfl⟩ := List.mem_map.mp member
      obtain ⟨-, node, isNode, isError⟩ := parent_of_fault reporting inner isPlaced fault
      have reported := (reporting node isNode).payload isError
      rw [List.filterMap_eq_nil_iff.mp silent node isNode] at reported
      cases reported
    refine ⟨fun fault isFault => ?_, fun fault isFault => ?_⟩
    · rw [isFault] at harmless
      cases harmless
    · rw [isFault] at harmless
      cases harmless

end Reported

end Tree

namespace Parse

/--
The tree of every text reports the faults of its tokens and of its layout.
Tokens at fault stand under error nodes, the marks of layout faults and the
comments that never close are alone in nodes that report them, and what a
diagnostic says about a token is true of the first token in its node.
-/
theorem root_reportsFaults (options : ParseOptions) (seed : OperatorTable) (source : String) :
    (withTable options seed source).root.ReportsFaults := by
  refine Tree.reportsFaults_of_reporting (Grammar.reporting_root options seed source) ?_
  obtain ⟨span, row, stop, root, -⟩ := builds_root options seed source
  rw [root]
  rfl

/--
In the tree of every run the error nodes about something missing have spans
that differ from each other.  An error node about the grammar that holds
anything holds a token that the grammar sees.
-/
theorem reports_apart (options : ParseOptions) (seed : OperatorTable) (isCancelled : Nat → Bool)
    (source : String) :
    (((run options seed isCancelled source).parse.root.descendants.filter Tree.isGap).map
        Tree.span).Nodup ∧
      ∀ node ∈ (run options seed isCancelled source).parse.root.descendants,
        node.isSyntactic = true → node.children ≠ [] →
          ∃ token ∈ node.tokens, token.kind.isVisible = true := by
  let job : Job := ⟨options, seed, isCancelled, source⟩
  obtain ⟨span, children, nodes⟩ := job.descendants_root_run
  have draws := job.ending_synchronous
  rw [nodes]
  constructor
  · rw [List.filter_cons_of_neg (by rintro ⟨⟩)]
    refine List.Nodup.of_map Span.start ?_
    rw [List.map_map]
    exact draws.apart
  · intro node member isSyntactic filled
    rcases List.mem_cons.mp member with rfl | inside
    · cases isSyntactic
    · rw [Tree.tokens_eq_leaves]
      refine (draws.filled node inside isSyntactic).resolve_left fun isGap => filled ?_
      exact List.isEmpty_iff.mp (Bool.and_eq_true_iff.mp isGap).2

end Parse

end Offside
