import Offside.Proofs.Construction
import Offside.Proofs.Places

/-!
# Settled rows

The marks that a construct takes are those of whole blocks, unless the text
ends inside one of them.  So the children of the root are settled: each of
them fits there, and no block is left open among them before the text ends.
That holds of the children of a chain of instances as well, where what
separates two instances stands next to an `else`.
-/

namespace Offside.Grammar

open Offside.Tree (forestLeaves forestMarks Seated Balanced Beside IsLink IsChainRow)

variable {sourceLength : Nat} {allowed : TokenKind → Bool}

/-! ### The end of the text -/

theorem AtEnd.cons {token : Token} {rest : List Token} (atEnd : AtEnd (token :: rest))
    (onward : token.kind ≠ .eof) : token.kind.isVisible = false ∧ AtEnd rest := by
  cases visible : token.kind.isVisible with
  | true =>
    refine absurd (atEnd token ?_) onward
    rw [List.find?_cons_of_pos (by exact visible)]
    rfl
  | false =>
    rw [AtEnd, List.find?_cons_of_neg (by simp [visible])] at atEnd
    exact ⟨rfl, atEnd⟩

theorem AtEnd.append {taken rest : List Token} (atEnd : AtEnd (taken ++ rest))
    (onward : ∀ token ∈ taken, token.kind ≠ .eof) :
    (∀ token ∈ taken, token.kind.isVisible = false) ∧ AtEnd rest := by
  induction taken with
  | nil => exact ⟨List.forall_mem_nil _, atEnd⟩
  | cons token others ih =>
    obtain ⟨first, later⟩ := List.forall_mem_cons.mp onward
    obtain ⟨hidden, atEnd⟩ := AtEnd.cons atEnd first
    exact (ih atEnd later).imp_left fun hiddenLater =>
      List.forall_mem_cons.mpr ⟨hidden, hiddenLater⟩

variable {depth : Nat} {phase : Phase} {first second : List Tree × List Token} {row : List Tree}

theorem Builds.atEnd (builds : Builds sourceLength depth phase first second)
    (atEnd : AtEnd first.2) : AtEnd second.2 := by
  obtain ⟨taken, -, pending, onward⟩ := builds.takes
  rw [pending] at atEnd
  exact (atEnd.append onward).2

/-! ### Marks -/

theorem not_isBlockMark_of_hidden {kind : TokenKind} (hidden : kind.isVisible = false) :
    kind.isBlockMark = false := by
  cases kind with
  | layoutStart | layoutSep | layoutEnd => cases hidden
  | _ => rfl

theorem forestMarks_of_plain : {row : List Tree} →
    (∀ token ∈ forestLeaves row, token.kind.isBlockMark = false) → forestMarks row = []
  | [], _ => rfl
  | .leaf _ :: _, plain => by
    obtain ⟨own, others⟩ := List.forall_mem_cons.mp plain
    rw [forestMarks, Tree.blockMarks, own, forestMarks_of_plain others]
    rfl
  | .node .. :: _, plain => by
    obtain ⟨own, others⟩ := List.forall_mem_append.mp plain
    rw [forestMarks, Tree.blockMarks, forestMarks_of_plain own, ite_self,
      forestMarks_of_plain others]
    rfl

theorem blockMarks_ofChildren {kind : NodeKind} (other : kind ≠ .error)
    (error : Option Diagnostic) (openedAt : Nat) (children : List Tree) :
    (Tree.ofChildren kind error openedAt children).blockMarks = forestMarks children := by
  rw [Tree.ofChildren, Tree.blockMarks, if_neg other]

theorem not_atEnd_of_isBlockMark {token : Token} (isMark : token.kind.isBlockMark = true)
    (rest : List Token) : ¬ AtEnd (token :: rest) := by
  intro atEnd
  have onward : token.kind ≠ .eof := by
    intro isEof
    rw [isEof] at isMark
    cases isMark
  rw [not_isBlockMark_of_hidden (atEnd.cons onward).1] at isMark
  cases isMark

theorem not_isProper_of_isBlockMark {kind : TokenKind} (isMark : kind.isBlockMark = true) :
    ¬ isProper kind = true := by
  cases kind with
  | layoutStart | layoutSep | layoutEnd => exact Bool.false_ne_true
  | _ => cases isMark

theorem Grafts.marks {pending left : List Token}
    (grafts : Grafts sourceLength allowed pending row left) :
    (∀ mark ∈ forestMarks row, mark.isBlockMark = true ∧ allowed mark = true) ∧
      (AtEnd pending → forestMarks row = []) := by
  induction grafts with
  | done => exact ⟨nofun, fun _ => rfl⟩
  | @leaf token _ _ _ sound onward _ ih =>
    rw [forestMarks, Tree.blockMarks]
    split
    · next isMark =>
        rcases sound with ⟨hidden, -⟩ | ⟨visible, isAllowed⟩
        · rw [not_isBlockMark_of_hidden hidden] at isMark
          cases isMark
        · refine ⟨List.forall_mem_cons.mpr ⟨⟨isMark, isAllowed⟩, ih.1⟩, fun atEnd => ?_⟩
          rw [(atEnd.cons onward).1] at visible
          cases visible
    · exact ⟨ih.1, fun atEnd => ih.2 (atEnd.cons onward).2⟩
  | fault _ hidden _ _ _ ih =>
    exact ⟨ih.1, fun atEnd => ih.2 (atEnd.cons (ne_eof_of_hidden hidden)).2⟩

/--
The marks that are added are those of whole blocks, up to one that is left
open where the text ends.
-/
def Whole (base : Nat) (first second : List Tree × List Token) : Prop :=
  ∃ more depth, forestMarks second.1 = forestMarks first.1 ++ more ∧
    depthAfter base more = some (base + depth) ∧ (depth = 0 ∨ AtEnd second.2) ∧
    (AtEnd first.2 → more = [])

/-- How many blocks of the construct are open at a phase of it. -/
def Phase.base? : Phase → Option Nat
  | .spelling | .item _ => some 0
  | .block _ => some 1
  | _ => none

namespace Whole

variable {base : Nat} {first second third : List Tree × List Token}

theorem of_eq (same : forestMarks second.1 = forestMarks first.1) : Whole base first second :=
  ⟨[], 0, by rw [same, List.append_nil], rfl, .inl rfl, fun _ => rfl⟩

theorem trans (left : Whole base first second) (right : Whole base second third)
    (started : AtEnd first.2 → AtEnd second.2) (ended : AtEnd second.2 → AtEnd third.2) :
    Whole base first third := by
  obtain ⟨one, open_, row, placed, closed, nothing⟩ := left
  obtain ⟨two, more, rowAfter, placedAfter, closedAfter, nothingAfter⟩ := right
  refine ⟨one ++ two, open_ + more, by rw [rowAfter, row, List.append_assoc], ?_, ?_,
    fun atEnd => by rw [nothing atEnd, nothingAfter (started atEnd)]; rfl⟩
  · rw [depthAfter_append, placed, Option.bind_some]
    rcases closed with rfl | atEnd
    · rw [Nat.add_zero, placedAfter, Nat.zero_add]
    · have noMore : more = 0 := by
        rw [nothingAfter atEnd, depthAfter_nil, Option.some.injEq] at placedAfter
        omega
      rw [nothingAfter atEnd, noMore, depthAfter_nil, Nat.add_zero]
  · rcases closed with rfl | atEnd
    · rw [Nat.zero_add]
      exact closedAfter
    · exact .inr (ended atEnd)

theorem deeper (whole : Whole 0 first second) (base : Nat) : Whole base first second := by
  obtain ⟨more, depth, row, placed, closed, nothing⟩ := whole
  refine ⟨more, depth, row, ?_, closed, nothing⟩
  have shifted := depthAfter_add base placed
  rw [Nat.zero_add] at shifted
  rw [shifted, Nat.zero_add, Nat.add_comm]

end Whole

theorem depthAfter_separators {marks : List TokenKind}
    (separators : ∀ mark ∈ marks, mark = .layoutSep) : depthAfter 1 marks = some 1 := by
  induction marks with
  | nil => rfl
  | cons mark rest ih =>
    obtain ⟨rfl, later⟩ := List.forall_mem_cons.mp separators
    exact ih later

theorem Builds.whole (builds : Builds sourceLength depth phase first second) {base : Nat}
    (isBase : phase.base? = some base) : Whole base first second := by
  have closed {row children : List Tree} {pending left : List Token} {kind : NodeKind}
      {openedAt : Nat} (other : kind ≠ .error) (body : Whole 0 ([], pending) (children, left))
      (base : Nat) :
      Whole base (row, pending) (row ++ [.ofChildren kind none openedAt children], left) := by
    obtain ⟨more, depth, marks, placed, closed, nothing⟩ := body
    have own : forestMarks children = more := marks
    have whole : Whole 0 (row, pending)
        (row ++ [.ofChildren kind none openedAt children], left) := by
      refine ⟨more, depth, ?_, placed, closed, nothing⟩
      rw [Tree.forestMarks_append, forestMarks, blockMarks_ofChildren other, own]
      simp [forestMarks]
    exact whole.deeper base
  induction builds generalizing base with
  | stay => exact .of_eq rfl
  | trans left right ihLeft ihRight =>
    exact (ihLeft isBase).trans (ihRight isBase) left.atEnd right.atEnd
  | @graft _ phase row _ _ new grafts =>
    obtain ⟨marks, ended⟩ := grafts.marks
    have placed : depthAfter base (forestMarks new) = some (base + 0) := by
      have plain (proper : ∀ mark ∈ forestMarks new, isProper mark = true) :
          depthAfter 0 (forestMarks new) = some 0 := by
        rw [List.eq_nil_iff_forall_not_mem.mpr fun mark member =>
          not_isProper_of_isBlockMark (marks mark member).1 (proper mark member)]
        rfl
      cases phase with
      | spelling | item encloses =>
        cases isBase
        exact plain fun mark member => (marks mark member).2
      | block encloses =>
        cases isBase
        refine depthAfter_separators fun mark member => ?_
        obtain ⟨isMark, isAllowed⟩ := marks mark member
        rw [Phase.allows, Bool.or_eq_true, decide_eq_true_eq] at isAllowed
        exact isAllowed.resolve_left (not_isProper_of_isBlockMark isMark)
      | links | top => cases isBase
    exact ⟨forestMarks new, 0, Tree.forestMarks_append row new, placed, .inl rfl, ended⟩
  | skip =>
    refine .of_eq ?_
    rw [Tree.forestMarks_append]
    exact List.append_nil _
  | report _ _ _ _ _ _ _ _ plain =>
    refine .of_eq ?_
    rw [Tree.forestMarks_append, Tree.forestMarks_append, forestMarks_of_plain plain]
    rfl
  | @node _ phase _ _ _ _ kind _ _ loose _ ih =>
    refine closed ?_ (ih rfl) base
    rintro rfl
    cases loose
  | enclose _ _ construct _ ih =>
    refine closed ?_ (ih rfl) base
    rintro rfl
    cases construct
  | abandon _ _ ih =>
    obtain ⟨more, depth, marks, placed, closed, nothing⟩ := ih isBase
    refine ⟨more, depth, ?_, placed, closed, nothing⟩
    rw [Tree.forestMarks_append, marks]
    rfl
  | @wrap _ _ _ _ _ _ _ kind _ loose _ ih =>
    obtain ⟨more, depth, marks, placed, closed, nothing⟩ := ih isBase
    have other : kind ≠ .error := by
      rintro rfl
      cases loose
    refine ⟨more, depth, ?_, placed, closed, nothing⟩
    rw [Tree.forestMarks_append, forestMarks, blockMarks_ofChildren other, marks]
    simp [forestMarks]
  | nest _ _ _ ih => exact ih isBase
  | @block _ _ row start _ left close children opens closes _ ih =>
    cases isBase
    obtain ⟨more, depth, all, placed, closed, -⟩ := ih rfl
    have marks : forestMarks children = forestMarks row ++ .layoutStart :: more := by
      rw [all]
      simp [forestMarks, Tree.blockMarks, opens, TokenKind.isBlockMark]
    have onward (rest : List Token) : ¬ AtEnd (start :: rest) :=
      not_atEnd_of_isBlockMark (by rw [opens]; rfl) rest
    rcases closes with ⟨stop, rfl, isEnd⟩ | ⟨rfl, atEnd⟩
    · have noneOpen := closed.resolve_right (not_atEnd_of_isBlockMark (by rw [isEnd]; rfl) left)
      refine ⟨.layoutStart :: more ++ [.layoutEnd], 0, ?_, ?_, .inl rfl,
        fun atEnd => absurd atEnd (onward _)⟩
      · rw [Tree.forestMarks_append, marks]
        simp [forestMarks, Tree.blockMarks, isEnd, TokenKind.isBlockMark]
      · rw [noneOpen] at placed
        rw [List.cons_append, depthAfter_cons, depthAfterMark, Option.bind_some,
          depthAfter_append, placed]
        rfl
    · refine ⟨.layoutStart :: more, 1 + depth, ?_, ?_, .inr atEnd,
        fun atEnd => absurd atEnd (onward _)⟩
      · rw [List.map_nil, List.append_nil, marks]
      · rw [Nat.zero_add]
        exact placed
  | within _ ih =>
    cases isBase
    exact (ih rfl).deeper 1
  | join | chain => cases isBase

/-! ### Children of an open node -/

/--
The children of the open node fit, and a block is left open in one of them only
if the text ends there.
-/
structure Settled (fits : Tree → Prop) (sheet : List Tree × List Token) : Prop where
  fits : ∀ child ∈ sheet.1, fits child
  balanced : Balanced sheet.1
  closed : ∀ child ∈ sheet.1, child.isNode = true →
    openBlocks child.blockMarks = 0 ∨ AtEnd sheet.2

/-- Children without marks, and nodes that hold whole blocks, always fit. -/
structure Fitting (fits : Tree → Prop) : Prop where
  blank : ∀ {tree : Tree}, tree.blockMarks = [] → fits tree
  whole : ∀ {kind : NodeKind} {span : Span} {error : Option Diagnostic} {children : List Tree}
    {depth : Nat}, kind ≠ .instanceChain →
    depthAfter 0 (Tree.node kind span error children).blockMarks = some depth →
      fits (.node kind span error children)

theorem fitting_seated : Fitting Seated :=
  ⟨Tree.seated_of_no_marks, Tree.seated_of_depthAfter⟩

theorem fitting_isLink : Fitting IsLink where
  blank {tree} noMarks := by
    cases tree with
    | leaf token =>
      intro isMark
      simp [Tree.blockMarks, isMark] at noMarks
    | node kind span error children => exact ⟨0, by rw [noMarks]; rfl⟩
  whole _ whole := ⟨_, whole⟩

theorem settled_nil (fits : Tree → Prop) (pending : List Token) : Settled fits ([], pending) :=
  ⟨nofun, Tree.balanced_nil, nofun⟩

section Settling

variable {fits : Tree → Prop} {row new : List Tree} {pending left : List Token} {depth : Nat}

theorem Settled.snoc (settled : Settled fits (row, pending)) {tree : Tree} (treeFits : fits tree)
    (closed : tree.isNode = true → openBlocks tree.blockMarks = 0 ∨ AtEnd left)
    (ended : AtEnd pending → AtEnd left ∧ tree.blockMarks = []) :
    Settled fits (row ++ [tree], left) where
  fits := List.forall_mem_append.mpr ⟨settled.fits, List.forall_mem_singleton.mpr treeFits⟩
  balanced := by
    refine settled.balanced.snoc ?_
    by_cases atEnd : AtEnd pending
    · exact .inl (ended atEnd).2
    · exact .inr fun node member isNode =>
        (settled.closed node member isNode).resolve_right atEnd
  closed := List.forall_mem_append.mpr
    ⟨fun child member isNode => (settled.closed child member isNode).imp_right fun atEnd =>
      (ended atEnd).1, List.forall_mem_singleton.mpr closed⟩

theorem Settled.graft (settled : Settled fits (row, pending)) (fitting : Fitting fits)
    (leaves : ∀ token : Token, allowed token.kind = true → fits (.leaf token))
    (grafts : Grafts sourceLength allowed pending new left) : Settled fits (row ++ new, left) := by
  induction grafts generalizing row with
  | done =>
    rw [List.append_nil]
    exact settled
  | @leaf token rest _ more sound onward _ ih =>
    rw [← List.singleton_append, ← List.append_assoc]
    have blank (hidden : token.kind.isVisible = false) : (Tree.leaf token).blockMarks = [] := by
      rw [Tree.blockMarks, not_isBlockMark_of_hidden hidden]
      rfl
    refine ih (settled.snoc ?_ nofun fun atEnd => ?_)
    · exact sound.elim (fun trivium => fitting.blank (blank trivium.1))
        fun seen => leaves token seen.2
    · obtain ⟨hidden, later⟩ := atEnd.cons onward
      exact ⟨later, blank hidden⟩
  | fault openedAt hidden _ _ _ ih =>
    rw [← List.singleton_append, ← List.append_assoc]
    exact ih (settled.snoc (fitting.blank rfl) (fun _ => .inl rfl)
      fun atEnd => ⟨(atEnd.cons (ne_eof_of_hidden hidden)).2, rfl⟩)

theorem Settled.node (settled : Settled fits (row, pending)) (fitting : Fitting fits)
    {kind : NodeKind} (loose : isLoose kind = true) {encloses : Bool} {children : List Tree}
    (body : Builds sourceLength depth encloses ([], pending) (children, left)) (openedAt : Nat) :
    Settled fits (row ++ [.ofChildren kind none openedAt children], left) := by
  obtain ⟨more, opened, marks, placed, closed, nothing⟩ := body.whole rfl
  have own : (Tree.ofChildren kind none openedAt children).blockMarks = more := by
    rw [blockMarks_ofChildren (by rintro rfl; cases loose)]
    exact marks
  rw [← own] at placed
  refine settled.snoc (fitting.whole (by rintro rfl; cases loose) placed)
    (fun _ => closed.imp_left fun zero => ?_) fun atEnd => ⟨body.atEnd atEnd, ?_⟩
  · rw [openBlocks_of_depthAfter placed, zero]
    rfl
  · rw [own, nothing atEnd]

end Settling

/-! ### Chains of instances -/

/-- Between the kinds of tokens that join two instances, an `else` is next to every separator. -/
theorem next_of_mem_joints : ∀ kinds ∈ joints, ∀ index < kinds.length,
    kinds[index]? = some .layoutSep →
      kinds[index + 1]? = some (.keyword .elseWord) ∨
        (kinds.take index).getLast? = some (.keyword .elseWord) := by
  decide

theorem firstVisible_eq (tokens : List Token) :
    firstVisible tokens =
      ((tokens.filter fun token => token.kind.isVisible).map Token.kind).head? := by
  rw [firstVisible, List.head?_map, List.head?_filter]

theorem beside_join {new : List Tree} (beside : Beside row [])
    (joint : ((forestLeaves new).filter fun token => token.kind.isVisible).map Token.kind ∈
      joints) : Beside (row ++ new) [] := by
  intro front token back split isSep
  have fresh (middle : List Tree) (isNew : new = middle ++ .leaf token :: back) :
      IsNextToElse (forestLeaves (row ++ middle)) (forestLeaves back ++ []) := by
    have visible : token.kind.isVisible = true := by
      rw [isSep]
      rfl
    rw [isNew, Tree.forestLeaves_append, forestLeaves, Tree.leaves, List.filter_append,
      List.filter_append, List.filter_singleton, visible, List.map_append, List.map_append] at joint
    rw [IsNextToElse, firstVisible_eq, firstVisible_eq, Tree.forestLeaves_append, List.append_nil,
      List.filter_reverse, List.map_reverse, List.head?_reverse, List.filter_append,
      List.map_append, List.getLast?_append]
    generalize ((forestLeaves middle).filter _).map _ = before at joint ⊢
    generalize ((forestLeaves back).filter _).map _ = after at joint ⊢
    have next := next_of_mem_joints _ joint before.length (by simp) (by simp [isSep])
    simp only [List.take_left, List.getElem?_append_right (Nat.le_succ _)] at next
    refine next.imp (fun isNext => ?_) fun isLast => by rw [isLast]; rfl
    simpa [List.head?_eq_getElem?] using isNext
  rcases append_eq_append_cons split with ⟨rest, isRow, rfl⟩ | ⟨middle, rfl, isNew⟩
  · have next := (beside front token rest isRow isSep).widen [] (forestLeaves new)
    simpa using next
  · exact fresh middle isNew

/-- The children of a chain that is being read. -/
structure Chaining (sheet : List Tree × List Token) : Prop extends Settled IsLink sheet where
  beside : Beside sheet.1 []

theorem blockMarks_of_forestMarks (noMarks : forestMarks row = []) :
    ∀ tree ∈ row, tree.blockMarks = [] := by
  induction row with
  | nil => nofun
  | cons tree rest ih =>
    rw [forestMarks, List.append_eq_nil_iff] at noMarks
    exact List.forall_mem_cons.mpr ⟨noMarks.1, ih noMarks.2⟩

theorem Chaining.append {new : List Tree} {pending left : List Token}
    (chaining : Chaining (row, pending)) (settled : Settled IsLink (row ++ new, left))
    (others : ∀ tree ∈ new, tree.isNode = true ∨ tree.blockMarks = []) :
    Chaining (row ++ new, left) := by
  refine ⟨settled, (chaining.beside.widen _).append fun tree member token isLeaf isSep => ?_⟩
  rcases others tree member with isNode | noMarks
  · rw [isLeaf] at isNode
    cases isNode
  · rw [isLeaf, Tree.blockMarks, isSep] at noMarks
    cases noMarks

theorem Builds.chaining (builds : Builds sourceLength depth phase first second)
    (isLinks : phase = .links) (chaining : Chaining first) : Chaining second := by
  have node {row : List Tree} {pending left : List Token} {tree : Tree}
      (chaining : Chaining (row, pending)) (settled : Settled IsLink (row ++ [tree], left))
      (isNode : tree.isNode = true) : Chaining (row ++ [tree], left) :=
    chaining.append settled (List.forall_mem_singleton.mpr (.inl isNode))
  induction builds with
  | stay => exact chaining
  | trans _ _ left right => exact right isLinks (left isLinks chaining)
  | graft _ _ _ grafts =>
    subst isLinks
    have noMarks := List.eq_nil_iff_forall_not_mem.mpr fun mark member =>
      not_isProper_of_isBlockMark (grafts.marks.1 mark member).1 (grafts.marks.1 mark member).2
    refine chaining.append (chaining.toSettled.graft fitting_isLink
      (fun token proper isMark => absurd proper (not_isProper_of_isBlockMark isMark)) grafts)
      fun tree member => .inr (blockMarks_of_forestMarks noMarks tree member)
  | skip _ _ _ skips =>
    subst isLinks
    cases skips
  | report _ _ _ _ _ _ _ framed =>
    rcases framed with rfl | ⟨encloses, isItem⟩
    · rw [List.append_nil] at chaining
      exact node chaining (chaining.toSettled.snoc (fitting_isLink.blank rfl)
        (fun _ => .inl rfl) fun atEnd => ⟨atEnd, rfl⟩) rfl
    · rw [isLinks] at isItem
      cases isItem
  | node _ openedAt _ loose body =>
    exact node chaining (chaining.toSettled.node fitting_isLink loose body openedAt) rfl
  | join _ _ grafts joint =>
    refine ⟨chaining.toSettled.graft fitting_isLink (fun token isJoint isMark => ?_) grafts,
      beside_join chaining.beside joint⟩
    rw [Grammar.isJoint, Bool.or_eq_true, decide_eq_true_eq, decide_eq_true_eq] at isJoint
    refine isJoint.resolve_right fun isElse => ?_
    rw [isElse] at isMark
    cases isMark
  | enclose | abandon | wrap | nest | block | within | chain => cases isLinks

/-! ### Below the root -/

theorem Builds.settled (builds : Builds sourceLength depth phase first second)
    (isTop : phase = .top) (settled : Settled Seated first) : Settled Seated second := by
  induction builds with
  | stay => exact settled
  | trans _ _ left right => exact right isTop (left isTop settled)
  | graft _ _ _ grafts =>
    exact settled.graft fitting_seated (fun token _ => Tree.seated_leaf token) grafts
  | skip _ _ _ _ visible onward =>
    refine settled.snoc (fitting_seated.blank rfl) (fun _ => .inl rfl) fun atEnd => ?_
    rw [(atEnd.cons onward).1] at visible
    cases visible
  | report _ _ _ _ _ _ _ framed =>
    rcases framed with rfl | ⟨encloses, isItem⟩
    · rw [List.append_nil] at settled
      exact settled.snoc (fitting_seated.blank rfl) (fun _ => .inl rfl)
        fun atEnd => ⟨atEnd, rfl⟩
    · rw [isTop] at isItem
      cases isItem
  | node _ openedAt _ loose body => exact settled.node fitting_seated loose body openedAt
  | @chain _ _ _ left children openedAt body =>
    have chaining := body.chaining rfl ⟨settled_nil IsLink _, Tree.beside_nil []⟩
    have row : IsChainRow children :=
      ⟨chaining.fits, chaining.balanced, chaining.beside⟩
    refine settled.snoc (row.seated _ none) (fun _ => ?_) fun atEnd => ⟨body.atEnd atEnd, ?_⟩
    · by_cases atEnd : AtEnd left
      · exact .inr atEnd
      · exact .inl (Tree.openBlocks_links row.links fun node member isNode =>
          (chaining.closed node member isNode).resolve_right atEnd)
    · obtain ⟨taken, leaves, pending, onward⟩ := body.takes
      dsimp only at pending
      rw [pending] at atEnd
      refine forestMarks_of_plain fun token member => ?_
      rw [show forestLeaves children = taken from leaves] at member
      exact not_isBlockMark_of_hidden ((atEnd.append onward).1 token member)
  | enclose | abandon | wrap | nest | block | within | join => cases isTop

end Offside.Grammar
