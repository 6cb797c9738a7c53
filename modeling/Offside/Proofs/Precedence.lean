import Offside.Proofs.FixityPropagation
import Offside.Proofs.SpelledModules

/-!
# Operators bind as declared

The precedences of a table stay below their bound when the fixities of a text
are added to it.  If all fixities count from the beginning and nothing is
reported, every chain node of the tree joins two operands with an operator,
and a chain that is an operand binds more tightly than the chain around it, or
as tightly with both operators associating to the same side.
-/

namespace Offside

/-! ### Bounded tables -/

/-- No precedence of the table exceeds the largest one that can be declared. -/
def OperatorTable.Bounded (table : OperatorTable) : Prop :=
  ∀ entry ∈ table.entries, entry.2.precedence ≤ Fixity.maxPrecedence

instance (table : OperatorTable) : Decidable table.Bounded :=
  inferInstanceAs (Decidable (∀ entry ∈ table.entries, _))

variable {table : OperatorTable}

namespace OperatorTable

theorem Bounded.insert (bounded : table.Bounded) (space : Namespace) (operator : String)
    {fixity : Fixity} (small : fixity.precedence ≤ Fixity.maxPrecedence) :
    (table.insert space operator fixity).Bounded := by
  intro entry member
  rcases List.mem_cons.mp member with rfl | old
  · exact small
  · exact bounded entry (List.mem_of_mem_filter old)

theorem Bounded.stored? (bounded : table.Bounded) {space : Namespace} {operator : String}
    {fixity : Fixity} (found : table.stored? space operator = some fixity) :
    fixity.precedence ≤ Fixity.maxPrecedence := by
  obtain ⟨before, after, split, -⟩ := List.lookup_eq_some_iff.mp found
  exact bounded ((space, operator), fixity) (by rw [split]; simp)

theorem Bounded.fixity (bounded : table.Bounded) (space : Namespace) (operator : String) :
    (table.fixity space operator).precedence ≤ Fixity.maxPrecedence := by
  rw [OperatorTable.fixity]
  match found : table.get? space operator with
  | none => decide
  | some fixity => exact bounded.stored? found

end OperatorTable

namespace DeclaredFixity

theorem byte?_le {text : String} {value : Nat} (read : Literal.byte? text = some value) :
    value ≤ Fixity.maxPrecedence := by
  rw [Literal.byte?] at read
  split at read
  · split at read
    · next small =>
        rw [Option.some.injEq] at read
        exact Nat.le_of_lt_succ (read ▸ small)
    · cases read
  · cases read

theorem match?_le {associativity : Associativity} {offset : Nat} {tokens : List Token}
    {declared : DeclaredFixity} (matched : match? associativity offset tokens = some declared) :
    declared.fixity.precedence ≤ Fixity.maxPrecedence := by
  cases tokens with
  | nil => cases matched
  | cons digits rest =>
    rw [match?.eq_def] at matched
    dsimp only at matched
    split at matched
    · obtain ⟨precedence, read, matched⟩ := Option.bind_eq_some_iff.mp matched
      obtain ⟨operator, -, rfl⟩ := Option.map_eq_some_iff.mp matched
      exact byte?_le read
    · cases matched

theorem collect_le (tokens : List Token) :
    ∀ declared ∈ collect tokens, declared.fixity.precedence ≤ Fixity.maxPrecedence := by
  induction tokens with
  | nil => nofun
  | cons token rest ih =>
    intro declared member
    rw [collect, List.mem_append, Option.mem_toList] at member
    rcases member with found | later
    · obtain ⟨associativity, -, matched⟩ := Option.bind_eq_some_iff.mp found
      exact match?_le matched
    · exact ih declared later

theorem mem_of_mem_firsts {declared : DeclaredFixity} {all : List DeclaredFixity}
    (member : declared ∈ firsts all) : declared ∈ all := by
  induction all with
  | nil => cases member
  | cons first rest ih =>
    rcases List.mem_cons.mp member with rfl | later
    · exact List.mem_cons_self
    · exact List.mem_cons_of_mem _ (ih (List.mem_of_mem_filter later))

end DeclaredFixity

theorem OperatorTable.Bounded.declare (bounded : table.Bounded) {declared : List DeclaredFixity}
    (small : ∀ found ∈ declared, found.fixity.precedence ≤ Fixity.maxPrecedence) :
    (table.declare declared).Bounded := by
  refine List.foldlRecOn (motive := OperatorTable.Bounded) _ _ bounded
    fun reached holds found member => ?_
  exact holds.insert _ _ (small found (DeclaredFixity.mem_of_mem_firsts member))

theorem Parse.openingTable_bounded {seed : OperatorTable} (bounded : seed.Bounded)
    (options : ParseOptions) (tokens : List Token) :
    (openingTable options seed tokens).Bounded := by
  rw [openingTable]
  split
  · exact bounded.declare (DeclaredFixity.collect_le _)
  · exact bounded

/-! ### Shapes of chains -/

namespace Tree

theorem forall₂_childNodes : (children : List Tree) →
    (∀ shape ∈ shapes children, shape.token? = none) →
      List.Forall₂ (fun tree shape => tree.shape? = some shape) (children.filter isNode)
        (shapes children)
  | [], _ => .nil
  | leaf token :: rest, nodes => by
    rw [shapes, shape?] at nodes ⊢
    by_cases isTrivia : token.kind.isTrivia = true
    · rw [if_pos isTrivia] at nodes ⊢
      exact forall₂_childNodes rest nodes
    · rw [if_neg isTrivia] at nodes
      cases nodes _ List.mem_cons_self
  | node kind span error children :: rest, nodes => by
    exact .cons rfl (forall₂_childNodes rest fun shape member =>
      nodes shape (List.mem_cons_of_mem _ member))

theorem significant_forestLeaves : (children : List Tree) →
    (∀ shape ∈ shapes children, ∃ token, shape = .leaf token ∧ token.kind.isSignificant = true) →
      (forestLeaves children).filter (fun token => token.kind.isSignificant) =
        (shapes children).filterMap Shape.token?
  | [], _ => rfl
  | leaf token :: rest, tokens => by
    rw [shapes, shape?] at tokens ⊢
    rw [forestLeaves, leaves, List.singleton_append]
    by_cases isTrivia : token.kind.isTrivia = true
    · rw [if_pos isTrivia] at tokens ⊢
      have hidden : ¬ token.kind.isSignificant = true := by
        simp [TokenKind.isSignificant, TokenKind.isInsignificant, isTrivia]
      rw [List.filter_cons, if_neg hidden]
      exact significant_forestLeaves rest tokens
    · rw [if_neg isTrivia] at tokens ⊢
      obtain ⟨_, ⟨rfl⟩, significant⟩ := tokens _ List.mem_cons_self
      have kept := significant_forestLeaves rest fun shape member =>
        tokens shape (List.mem_cons_of_mem _ member)
      rw [List.filter_cons, if_pos significant, kept]
      rfl
  | node kind span error children :: rest, tokens => by
    obtain ⟨_, same, -⟩ := tokens _ List.mem_cons_self
    cases same

theorem isSignificant_of_isName {kind : TokenKind} (isName : kind.isName = true) :
    kind.isSignificant = true := by
  cases kind <;> first | rfl | cases isName

theorem leaf_of_operator {row : List Shape} (spelled : row ∈ production .operator) :
    ∀ shape ∈ row, ∃ token, shape = .leaf token ∧ token.kind.isSignificant = true := by
  have lone {kinds : TokenKind → Bool} {row : List Shape}
      (member : row ∈ (Phrase.tokenIn kinds : Language Shape))
      (significant : ∀ kind, kinds kind = true → kind.isSignificant = true) :
      ∀ shape ∈ row, ∃ token, shape = .leaf token ∧ token.kind.isSignificant = true := by
    obtain ⟨_, ⟨token, rfl, isKind⟩, rfl⟩ := member
    intro shape isIn
    exact ⟨token, List.mem_singleton.mp isIn, significant _ isKind⟩
  have tick : ∀ kind : TokenKind, decide (kind = .backtick) = true →
      kind.isSignificant = true := by
    intro kind isTick
    rw [of_decide_eq_true isTick]
    rfl
  rcases spelled with ⟨front, inFront, _, ⟨name, inName, back, inBack, rfl⟩, rfl⟩ | isLone
  · simp only [List.mem_append]
    rintro shape (isFront | isName | isBack)
    · exact lone inFront tick shape isFront
    · exact lone inName (fun _ => isSignificant_of_isName) shape isName
    · exact lone inBack tick shape isBack
  · refine lone isLone fun kind isOperator => ?_
    cases kind <;> first | rfl | cases isOperator

theorem spelling_of_shape? {tree : Tree} {row : List Shape}
    (isShape : tree.shape? = some (.node .operator row)) (spelled : row ∈ production .operator) :
    tree.spelling = Shape.spelling row := by
  cases tree with
  | leaf token =>
    rw [shape?] at isShape
    split at isShape <;> cases isShape
  | node kind span error children =>
    cases isShape
    rw [spelling, significantTokens, tokens_eq_leaves, leaves,
      significant_forestLeaves children (leaf_of_operator spelled), Shape.spelling]

end Tree

theorem Tree.isOfKind_of_shape? {tree : Tree} {shape : Shape} (same : tree.shape? = some shape)
    (kind : NodeKind) : tree.isOfKind kind = shape.isOfKind kind := by
  cases tree with
  | leaf token =>
    rw [shape?] at same
    split at same <;> cases same
    rfl
  | node own span error children =>
    cases same
    simp [isOfKind, kind?, Shape.isOfKind]

namespace Grammar.Level

variable {level : Level} {table : OperatorTable} {tree : Tree}

variable {row : List Shape}

theorem token?_of_chain (spelled : row ∈ production level.nodeKind) :
    ∀ shape ∈ row, shape.token? = none := by
  have part {accepts : NodeKind → Bool} {row : List Shape}
      (member : row ∈ (Phrase.nodeIn accepts : Language Shape)) :
      ∀ shape ∈ row, shape.token? = none := by
    obtain ⟨_, ⟨kind, children, rfl, -⟩, rfl⟩ := member
    intro shape isIn
    rw [List.mem_singleton.mp isIn, Shape.token?]
  cases level with
  | expr | binder | type =>
    obtain ⟨front, inFront, _, ⟨operator, inOperator, back, inBack, rfl⟩, rfl⟩ := spelled
    simp only [List.mem_append]
    rintro shape (isFront | isOperator | isBack)
    · exact part inFront shape isFront
    · exact part inOperator shape isOperator
    · exact part inBack shape isBack

theorem childNodes_of_formed (isShape : tree.shape? = some (.node level.nodeKind row))
    (formed : (Shape.node level.nodeKind row).Formed (some table)) :
    ∃ left operator right, tree.childNodes = [left, operator, right] ∧
      ∃ first spelled second, row = [first, .node .operator spelled, second] ∧
        left.shape? = some first ∧ operator.shape? = some (.node .operator spelled) ∧
        right.shape? = some second ∧ operator.spelling = Shape.spelling spelled := by
  cases formed with
  | node rows parts =>
    obtain ⟨first, spelled, second, rfl, -⟩ := rows.2 table rfl level rfl
    cases tree with
    | leaf token =>
      rw [Tree.shape?] at isShape
      split at isShape <;> cases isShape
    | node kind span error children =>
      rw [Tree.shape?, Option.some.injEq, Shape.node.injEq] at isShape
      have below := Tree.forall₂_childNodes children
        (isShape.2.symm ▸ token?_of_chain rows.1)
      rw [isShape.2] at below
      obtain ⟨left, _, isLeft, more, nodes⟩ := List.forall₂_cons_right_iff.mp below
      obtain ⟨operator, _, isOperator, last, rfl⟩ := List.forall₂_cons_right_iff.mp more
      obtain ⟨right, _, isRight, noOther, rfl⟩ := List.forall₂_cons_right_iff.mp last
      cases List.forall₂_nil_right_iff.mp noOther
      refine ⟨left, operator, right, nodes, first, spelled, second, rfl, isLeft, isOperator,
        isRight, Tree.spelling_of_shape? isOperator ?_⟩
      cases parts (.node .operator spelled) (by simp) with
      | node rows _ => exact rows.1

theorem fixityOf_of_formed {shape : Shape} (isShape : tree.shape? = some shape)
    (formed : shape.Formed (some table)) (isChain : shape.isOfKind level.nodeKind = true) :
    level.fixityOf table tree = level.shapeFixity table shape := by
  cases shape with
  | leaf token => cases isChain
  | node kind row =>
    cases of_decide_eq_true isChain
    obtain ⟨left, operator, right, nodes, first, spelled, second, rfl, -, -, -, same⟩ :=
      childNodes_of_formed isShape formed
    rw [fixityOf, nodes]
    exact congrArg _ same

theorem leans_of_formed (isShape : tree.shape? = some (.node level.nodeKind row))
    (formed : (Shape.node level.nodeKind row).Formed (some table)) : level.Leans table tree := by
  obtain ⟨left, operator, right, nodes, first, spelled, second, rfl, isLeft, isOperator, isRight,
    same⟩ := childNodes_of_formed isShape formed
  have fixity := fixityOf_of_formed isShape formed (decide_eq_true rfl)
  cases formed with
  | node rows parts =>
    obtain ⟨_, _, _, ⟨rfl⟩, atLeft, atRight⟩ := rows.2 table rfl level rfl
    refine ⟨left, operator, right, nodes, ?_, fun isChain => ?_, fun isChain => ?_⟩
    · rw [Tree.isOfKind_of_shape? isOperator]
      rfl
    · rw [Tree.isOfKind_of_shape? isLeft] at isChain
      rw [fixity, fixityOf_of_formed isLeft (parts _ List.mem_cons_self) isChain]
      exact atLeft isChain
    · rw [Tree.isOfKind_of_shape? isRight] at isChain
      rw [fixity, fixityOf_of_formed isRight (parts _ (by simp)) isChain]
      exact atRight isChain

end Grammar.Level

/-! ### Clean trees -/

/--
If all fixities of a text count from its beginning and nothing is reported, the
operands of every chain node stop where the fixities of the table returned say.
-/
theorem Job.chain_nodes_lean (job : Job) (collects : job.options.collectsFixities = true)
    (clean : job.run.parse.hasErrors = false) (level : Grammar.Level) :
    ∀ node ∈ job.run.parse.root.descendants, node.isOfKind level.nodeKind = true →
      level.Leans job.run.parse.operators node := by
  obtain ⟨reading, ⟨onward, new, row, -, formed⟩, pictures⟩ := job.adds_of_clean clean
  obtain ⟨span, children, nodes⟩ := job.descendants_root_run
  intro node member isChain
  rw [nodes] at member
  rcases List.mem_cons.mp member with rfl | inner
  · exact Grammar.isLeaning_of_isSimple rfl _ _ _ _ level isChain
  · have known : job.openingReading.table? job.scene.setting =
        some job.run.parse.operators := by
      rw [← onward.table, Grammar.Reading.table?, pictures.operators, operators_run]
      exact if_neg (by simp [scene, Parse.setting, collects])
    rw [known] at formed
    have shapes : Tree.shapes (Grammar.shown job.scene job.ending.2) = new.shapes := by
      rw [shown_ending, Tree.shapes_reverse, ← pictures.row, row]
      exact congrArg Shape.Row.shapes (List.append_nil new)
    rw [← shapes] at formed
    obtain ⟨kind, isKind, rows, parts⟩ := Tree.formed_forestNodes _ formed node inner
    rw [Tree.isOfKind, isKind] at isChain
    cases of_decide_eq_true isChain
    cases node with
    | leaf token => cases isKind
    | node kind span error children =>
      cases isKind
      exact Grammar.Level.leans_of_formed rfl (.node rows parts)

namespace Parse

/--
If all fixities of a text count from its beginning and nothing in it is
malformed, every chain node has exactly three nodes below it, an operand, an
operator and an operand, and an operand that is a chain of the same kind binds
more tightly than the chain around it, or as tightly with both operators
associating to the same side.  The fixities are those of the table returned.
-/
theorem chain_nodes_nest (options : ParseOptions) (seed : OperatorTable)
    (isCancelled : Nat → Bool) (source : String) (collects : options.collectsFixities = true)
    (bounded : seed.Bounded) (clean : (run options seed isCancelled source).parse.hasErrors = false)
    (level : Grammar.Level) :
    ∀ node ∈ (run options seed isCancelled source).parse.root.descendants,
      node.isOfKind level.nodeKind = true →
        level.Joins (run options seed isCancelled source).parse.operators node := by
  intro node member isChain
  let job : Job := ⟨options, seed, isCancelled, source⟩
  refine (job.chain_nodes_lean collects clean level node member isChain).joins ?_
  rw [job.operators_eq_openingTable collects]
  exact (openingTable_bounded bounded options _).fixity _ _

/-- Four operators, one of them a qualified name between backticks. -/
theorem chain_nodes_nest_qualified :
    OperatorTable.standard.Bounded ∧
      (run {} .standard (fun _ => false) "x = a * b `M.f` c <> d <> e").parse.hasErrors =
        false ∧
      ((run {} .standard (fun _ => false)
        "x = a * b `M.f` c <> d <> e").parse.root.descendants.filter
        (Tree.isOfKind .exprBinary)).length = 4 ∧
      ∀ node ∈
        (run {} .standard (fun _ => false) "x = a * b `M.f` c <> d <> e").parse.root.descendants,
        node.isOfKind .exprBinary = true → Grammar.Level.expr.Joins
          (run {} .standard (fun _ => false) "x = a * b `M.f` c <> d <> e").parse.operators
          node :=
  ⟨by decide +kernel, by decide +kernel, by decide +kernel,
    chain_nodes_nest {} .standard _ _ rfl (by decide +kernel) (by decide +kernel) .expr⟩

end Parse

end Offside
