import Offside.Proofs.LineBlocks
import Offside.Proofs.NestingDepth
import Offside.Proofs.NestingProductions

/-!
# Constructs inside constructs of their own kind

For each of six constructs there is a line with any number of them, one inside
the other.  Five of them take levels of nesting, so the line is refused as soon
as there are more than there are levels.  Local declarations take none: there is
no bound on how deep one `where` can stand in another.
-/

namespace Offside

open Grammar

/-- Constructs that can stand inside one of their own kind. -/
inductive Nestable where
  | exprParens
  | exprCase
  | exprDo
  | typeParens
  | binderParens
  | whereClause
deriving DecidableEq, Repr

namespace Nestable

def kind : Nestable → NodeKind
  | exprParens => .exprParens
  | exprCase => .exprCase
  | exprDo => .exprDo
  | typeParens => .typeParens
  | binderParens => .binderParens
  | whereClause => .whereClause

/-! ### Lines -/

/-- The words of the construct in front of the one inside it. -/
def opening : Nestable → List Sight
  | exprParens | typeParens | binderParens => [⟨.openParen, "("⟩]
  | exprCase =>
    [⟨.keyword .caseWord, "case"⟩, ⟨.integer, "1"⟩, ⟨.keyword .ofWord, "of"⟩,
      ⟨.lowerName, "a"⟩, ⟨.arrow, "->"⟩]
  | exprDo => [⟨.keyword .doWord, "do"⟩]
  | whereClause =>
    [⟨.lowerName, "x"⟩, ⟨.equals, "="⟩, ⟨.integer, "1"⟩, ⟨.keyword .whereWord, "where"⟩]

def closing : Nestable → List Sight
  | exprParens | typeParens | binderParens => [⟨.closeParen, ")"⟩]
  | exprCase | exprDo | whereClause => []

def core : Nestable → List Sight
  | exprParens | exprCase | exprDo => [⟨.integer, "1"⟩]
  | typeParens => [⟨.upperName, "A"⟩]
  | binderParens => [⟨.lowerName, "a"⟩]
  | whereClause => [⟨.lowerName, "x"⟩, ⟨.equals, "="⟩, ⟨.integer, "1"⟩]

/-- The words of as many constructs, one inside the other. -/
def nested (construct : Nestable) : (count : Nat) → List Sight
  | 0 => construct.core
  | count + 1 => construct.opening ++ (construct.nested count ++ construct.closing)

def declaration (construct : Nestable) (words : List Sight) : List Sight :=
  match construct with
  | exprParens | exprCase | exprDo => ⟨.lowerName, "x"⟩ :: ⟨.equals, "="⟩ :: words
  | typeParens => ⟨.lowerName, "x"⟩ :: ⟨.doubleColon, "::"⟩ :: words
  | binderParens => ⟨.lowerName, "x"⟩ :: (words ++ [⟨.equals, "="⟩, ⟨.integer, "1"⟩])
  | whereClause => words

/-- The line with as many constructs, one inside the other. -/
def line (construct : Nestable) (count : Nat) : String :=
  Sight.joined (construct.declaration (construct.nested count))

example : exprCase.line 2 = "x = case 1 of a -> case 1 of a -> 1" := by decide +kernel

example : whereClause.line 2 = "x = 1 where x = 1 where x = 1" := by decide +kernel

/-! ### What the grammar sees of the lines -/

/-- The words in front with the mark of the block that they open. -/
def markedOpening : Nestable → List Sight
  | exprCase =>
    [⟨.keyword .caseWord, "case"⟩, ⟨.integer, "1"⟩, ⟨.keyword .ofWord, "of"⟩,
      ⟨.layoutStart, ""⟩, ⟨.lowerName, "a"⟩, ⟨.arrow, "->"⟩]
  | exprDo => [⟨.keyword .doWord, "do"⟩, ⟨.layoutStart, ""⟩]
  | whereClause =>
    [⟨.lowerName, "x"⟩, ⟨.equals, "="⟩, ⟨.integer, "1"⟩, ⟨.keyword .whereWord, "where"⟩,
      ⟨.layoutStart, ""⟩]
  | construct => construct.opening

def markedClosing : Nestable → Sight
  | exprParens | typeParens | binderParens => ⟨.closeParen, ")"⟩
  | exprCase | exprDo | whereClause => ⟨.layoutEnd, ""⟩

/-- The words of as many constructs, one inside the other, with their marks. -/
def marked (construct : Nestable) : (count : Nat) → List Sight
  | 0 => construct.core
  | count + 1 => construct.markedOpening ++ (construct.marked count ++ [construct.markedClosing])

def block? : Nestable → Option Layout.Block
  | exprCase => some .ofBlock
  | exprDo => some .doBlock
  | whereClause => some .whereBlock
  | _ => none

variable {construct : Nestable} {block : Layout.Block}

/-- Where the construct opens a block, its words and marks in front of the one inside it. -/
theorem withStarts_opening (opens : construct.block? = some block) (pending : Bool)
    (words : List Sight) :
    ∃ front inside, construct.markedOpening = front ++ Sight.startOf inside ∧
      Sight.withStarts pending (construct.opening ++ words) =
        Sight.startOf pending ++ (front ++ Sight.withStarts inside words) := by
  cases construct with
  | exprCase => exact ⟨exprCase.markedOpening, false, rfl, rfl⟩
  | exprDo => exact ⟨exprDo.opening, true, rfl, rfl⟩
  | whereClause => exact ⟨whereClause.opening, true, rfl, rfl⟩
  | _ => cases opens

theorem blocksOf_opening (opens : construct.block? = some block) (words : List Sight) :
    Sight.blocksOf (construct.opening ++ words) = Sight.blocksOf words + 1 := by
  have one : Sight.blocksOf construct.opening = 1 := by
    cases construct <;> first | rfl | cases opens
  rw [Sight.blocksOf] at one ⊢
  rw [List.countP_append, one, Nat.add_comm, Sight.blocksOf]

/-- With the ends that come at the end of the line, the words are as the grammar sees them. -/
theorem withStarts_nested (opens : construct.block? = some block) (pending : Bool) (count : Nat) :
    Sight.withStarts pending (construct.nested count) ++
        List.replicate (Sight.blocksOf (construct.nested count)) ⟨.layoutEnd, ""⟩ =
      Sight.startOf pending ++ construct.marked count := by
  have bare : construct.closing = [] ∧ construct.markedClosing = ⟨.layoutEnd, ""⟩ := by
    cases construct <;> first | exact ⟨rfl, rfl⟩ | cases opens
  induction count generalizing pending with
  | zero => cases construct <;> cases pending <;> rfl
  | succ count ih =>
    obtain ⟨front, inside, split, starts⟩ :=
      withStarts_opening opens pending _
    rw [nested, marked, bare.1, bare.2, List.append_nil, starts, blocksOf_opening opens,
      List.replicate_succ', split]
    simp only [List.append_assoc]
    rw [← List.append_assoc (Sight.withStarts inside _), ih inside]
    simp only [List.append_assoc]

theorem isBlockLine_nested (opens : construct.block? = some block) (pending : Bool) (count : Nat) :
    Sight.isBlockLine block pending (construct.nested count) = true := by
  induction count generalizing pending with
  | zero => cases construct <;> cases opens <;> rfl
  | succ count ih =>
    cases construct with
    | exprCase =>
      cases opens
      rw [nested, closing, List.append_nil]
      exact ih false
    | exprDo =>
      cases opens
      rw [nested, closing, List.append_nil]
      exact Bool.and_eq_true_iff.mpr ⟨Bool.or_true _, ih true⟩
    | whereClause =>
      cases opens
      rw [nested, closing, List.append_nil]
      exact ih true
    | _ => cases opens

theorem nested_subset (construct : Nestable) (count : Nat) :
    construct.nested count ⊆ construct.opening ++ (construct.core ++ construct.closing) := by
  induction count with
  | zero => exact List.subset_append_of_subset_right _ (List.subset_append_left _ _)
  | succ count ih =>
    exact List.append_subset.mpr ⟨List.subset_append_left _ _, List.append_subset.mpr
      ⟨ih, List.subset_append_of_subset_right _ (List.subset_append_right _ _)⟩⟩

theorem declaration_subset (construct : Nestable) {words others : List Sight}
    (fewer : words ⊆ others) : construct.declaration words ⊆ construct.declaration others := by
  cases construct with
  | binderParens =>
    exact List.cons_subset_cons _ (List.append_subset.mpr
      ⟨List.subset_append_of_subset_left _ fewer, List.subset_append_right _ _⟩)
  | whereClause => exact fewer
  | _ => exact List.cons_subset_cons _ (List.cons_subset_cons _ fewer)

theorem forall_mem_line {test : Sight → Prop} (known : ∀ word ∈ construct.declaration
      (construct.opening ++ (construct.core ++ construct.closing)), test word) (count : Nat) :
    ∀ word ∈ construct.declaration (construct.nested count), test word :=
  fun word member =>
    known word (construct.declaration_subset (construct.nested_subset count) member)

theorem marked_eq_nested (bare : construct.block? = none) (count : Nat) :
    construct.marked count = construct.nested count := by
  induction count with
  | zero => rfl
  | succ count ih =>
    rw [marked, ih]
    cases construct <;> first | rfl | cases bare

theorem lexemes_line (tabWidth : Nat) (construct : Nestable) (count : Nat) :
    (Lexeme.group (Layout.tokens tabWidth (construct.line count))).map
        (fun lexeme => Sight.ofToken lexeme.token) =
        construct.declaration (construct.marked count) ++ [⟨.eof, ""⟩] ∧
      ∀ lexeme ∈ Lexeme.group (Layout.tokens tabWidth (construct.line count)),
        Reading.isHarmless lexeme.trivia = true := by
  cases opens : construct.block? with
  | none =>
    rw [marked_eq_nested opens]
    refine lexemes_joined tabWidth (forall_mem_line ?_ count)
    cases construct <;> first | decide +kernel | cases opens
  | some block =>
    have areWords : ∀ word ∈ construct.declaration (construct.nested count),
        (word.IsWord ∧ word.kind.isSolid = true) ∧ '\n' ∉ word.text.toList ∧ word.text ≠ "" := by
      refine forall_mem_line ?_ count
      cases construct <;> decide +kernel
    have fits : Sight.isBlockLine block false
        (construct.declaration (construct.nested count)) = true := by
      have inside := isBlockLine_nested opens false count
      cases construct <;> first | exact inside | cases opens
    obtain ⟨shown, harmless⟩ := lexemes_blockLine tabWidth block
      (fun word member => (areWords word member).1) (fun word member => (areWords word member).2)
      fits
    refine ⟨shown.trans ?_, harmless⟩
    rw [← List.append_assoc]
    refine congrArg (· ++ [_]) ?_
    have inside := withStarts_nested opens false count
    cases construct with
    | exprCase | exprDo =>
      exact congrArg ([⟨.lowerName, "x"⟩, ⟨.equals, "="⟩] ++ ·) inside
    | whereClause => exact inside
    | _ => cases opens

/-! ### How the lines are read -/

/-- The sketch of the number that stands for every value. -/
def number : Sketch :=
  .node .exprLiteral none [.leaf .integer "1"]

/-- The sketch of what stands inside all of the constructs. -/
def innermost : Nestable → Sketch
  | exprParens | exprCase | exprDo => number
  | typeParens => .node .typeConstructor none [.leaf .upperName "A"]
  | binderParens => .node .binderVar none [.leaf .lowerName "a"]
  | whereClause => .node .valueDecl none [.leaf .lowerName "x",
      .node .unguardedRhs none [.leaf .equals "=", number]]

def around (construct : Nestable) (inner : Sketch) : Sketch :=
  match construct with
  | exprParens | typeParens | binderParens =>
    .node construct.kind none [.leaf .openParen "(", inner, .leaf .closeParen ")"]
  | exprCase => .node .exprCase none [.leaf (.keyword .caseWord) "case", number,
      .leaf (.keyword .ofWord) "of", .leaf .layoutStart "",
      .node .caseBranch none [.node .binderVar none [.leaf .lowerName "a"],
        .node .unguardedRhs none [.leaf .arrow "->", inner]], .leaf .layoutEnd ""]
  | exprDo => .node .exprDo none [.leaf (.keyword .doWord) "do", .leaf .layoutStart "",
      .node .doDiscard none [inner], .leaf .layoutEnd ""]
  | whereClause => .node .valueDecl none [.leaf .lowerName "x",
      .node .unguardedRhs none [.leaf .equals "=", number],
      .node .whereClause none [.leaf (.keyword .whereWord) "where", .leaf .layoutStart "", inner,
        .leaf .layoutEnd ""]]

/-- The sketch of as many constructs, one inside the other. -/
def sketch (construct : Nestable) : (count : Nat) → Sketch
  | 0 => construct.innermost
  | count + 1 => construct.around (construct.sketch count)

def declared (construct : Nestable) (inner : Sketch) : Sketch :=
  match construct with
  | exprParens | exprCase | exprDo => .node .valueDecl none [.leaf .lowerName "x",
      .node .unguardedRhs none [.leaf .equals "=", inner]]
  | typeParens => .node .signature none [.leaf .lowerName "x", .leaf .doubleColon "::", inner]
  | binderParens => .node .valueDecl none [.leaf .lowerName "x", inner,
      .node .unguardedRhs none [.leaf .equals "=", number]]
  | whereClause => inner

/-- The levels of nesting that as many constructs take, one inside the other. -/
def levels (construct : Nestable) : (count : Nat) → Nat
  | 0 => 1
  | count + 1 =>
    match construct with
    | exprParens | exprDo => construct.levels count + 1
    | exprCase => max 2 (construct.levels count) + 1
    | typeParens | binderParens => construct.levels count + 2
    | whereClause => construct.levels count

theorem lt_levels (guarded : construct ≠ whereClause) (count : Nat) :
    count < construct.levels count := by
  induction count with
  | zero => exact Nat.one_pos
  | succ count ih =>
    cases construct with
    | whereClause => exact absurd rfl guarded
    | _ => simp only [levels]; omega

theorem levels_whereClause (count : Nat) : whereClause.levels count = 1 := by
  induction count with
  | zero => rfl
  | succ count ih => exact ih

section Reading

variable {ground : Ground} {rest : List Sight} {done : List Sketch}

theorem marked_succ_append (construct : Nestable) (count : Nat) (rest : List Sight) :
    construct.marked (count + 1) ++ rest =
      construct.markedOpening ++ (construct.marked count ++ construct.markedClosing :: rest) := by
  rw [marked, List.append_assoc, List.append_assoc]
  rfl

theorem length_marked_pos (construct : Nestable) (count : Nat) :
    0 < (construct.marked count).length := by
  cases count <;> cases construct <;> exact Nat.succ_pos _

theorem carries_number (ends : CoreExpr.endsExpr (frontKind rest) = true) :
    Carries ground 3 (.call .expr) true 1 ⟨⟨.integer, "1"⟩ :: rest, done⟩
      ⟨rest, done ++ [number]⟩ :=
  CoreExpr.expr_of_atom (.exprAtom_integer) nofun ends

theorem carries_exprParens (count : Nat) (ends : CoreExpr.endsExpr (frontKind rest) = true) :
    Carries ground (3 * count + 3) (.call .expr) true (exprParens.levels count)
      ⟨exprParens.marked count ++ rest, done⟩ ⟨rest, done ++ [exprParens.sketch count]⟩ := by
  induction count generalizing rest done with
  | zero => exact carries_number ends
  | succ count ih =>
    rw [marked_succ_append]
    refine CoreExpr.expr_of_atom (.exprAtom_parens (ih rfl) ?_) nofun ends
    cases count <;> rfl

theorem carries_exprCase (count : Nat) (ends : CoreExpr.endsExpr (frontKind rest) = true) :
    Carries ground (3 * count + 3) (.call .expr) true (exprCase.levels count)
      ⟨exprCase.marked count ++ rest, done⟩ ⟨rest, done ++ [exprCase.sketch count]⟩ := by
  induction count generalizing rest done with
  | zero => exact carries_number ends
  | succ count ih =>
    have enough : 3 ≤ 3 * count + 3 := Nat.le_add_left _ _
    have noType : TokenKind.arrow ≠ .doubleColon := nofun
    have binder : Carries ground 3 (.call .binder) true 2
        ⟨⟨.lowerName, "a"⟩ :: ⟨.arrow, "->"⟩ ::
          (exprCase.marked count ++ ⟨.layoutEnd, ""⟩ :: rest), []⟩
        ⟨⟨.arrow, "->"⟩ :: (exprCase.marked count ++ ⟨.layoutEnd, ""⟩ :: rest),
          [.node .binderVar none [.leaf .lowerName "a"]]⟩ :=
      .binder_of_atom (.binderAtom_lower nofun) rfl rfl noType
    have levels : exprCase.levels (count + 1) =
        max 1 (max 2 (exprCase.levels count)) + 1 := by
      rw [levels]
      omega
    rw [marked_succ_append, levels]
    exact CoreExpr.expr_of_atom (.exprAtom_case ((carries_number rfl).mono enough) rfl
      (binder.mono enough) (ih rfl)) nofun ends

theorem noBind_exprDo (count : Nat) : ∀ word ∈ exprDo.marked count, word.kind ≠ .leftArrow := by
  induction count with
  | zero => decide
  | succ count ih =>
    exact List.forall_mem_append.mpr ⟨by decide, List.forall_mem_append.mpr ⟨ih, by decide⟩⟩

theorem carries_exprDo (count : Nat) (ends : CoreExpr.endsExpr (frontKind rest) = true)
    (noBind : ∀ word ∈ rest, word.kind ≠ .leftArrow) :
    Carries ground (3 * count + 3) (.call .expr) true (exprDo.levels count)
      ⟨exprDo.marked count ++ rest, done⟩ ⟨rest, done ++ [exprDo.sketch count]⟩ := by
  induction count generalizing rest done with
  | zero => exact carries_number ends
  | succ count ih =>
    have noBindLater : ∀ word ∈ (⟨.layoutEnd, ""⟩ :: rest : List Sight), word.kind ≠ .leftArrow :=
      List.forall_mem_cons.mpr ⟨nofun, noBind⟩
    have front : (frontKind (exprDo.marked count ++ ⟨.layoutEnd, ""⟩ :: rest)).isSignificant =
        true ∧ frontKind (exprDo.marked count ++ ⟨.layoutEnd, ""⟩ :: rest) ≠
          .keyword .letWord := by
      cases count <;> exact ⟨rfl, nofun⟩
    have taken := exprDo.length_marked_pos count
    have split : exprDo.marked (count + 1) ++ rest =
        ⟨.keyword .doWord, "do"⟩ :: ⟨.layoutStart, ""⟩ ::
          (exprDo.marked count ++ ⟨.layoutEnd, ""⟩ :: rest) :=
      marked_succ_append _ count rest
    rw [split]
    refine CoreExpr.expr_of_atom (.exprAtom_do front.1 front.2
      (List.forall_mem_append.mpr ⟨noBind_exprDo count, noBindLater⟩) (ih rfl noBindLater) ?_)
      nofun ends
    simp only [List.length_append, List.length_cons]
    omega

theorem carries_typeParens (count : Nat) (noArgument : seesTypeAtom.glance? rest = some false)
    (noOperator : (operatorName .type).glance? rest = some none)
    (noArrow : frontKind rest ≠ .arrow) (noFatArrow : frontKind rest ≠ .fatArrow) :
    Carries ground (2 * count + 2) (.call .type) true (typeParens.levels count)
      ⟨typeParens.marked count ++ rest, done⟩ ⟨rest, done ++ [typeParens.sketch count]⟩ := by
  induction count generalizing rest done with
  | zero => exact .type_of_atom .typeAtom_upper nofun noArgument noOperator noArrow noFatArrow
  | succ count ih =>
    have split : typeParens.marked (count + 1) ++ rest =
        ⟨.openParen, "("⟩ :: (typeParens.marked count ++ ⟨.closeParen, ")"⟩ :: rest) :=
      marked_succ_append _ count rest
    rw [split]
    refine .type_of_atom (.typeAtom_parens ?_ ?_ (ih rfl rfl nofun nofun)) nofun noArgument
      noOperator noArrow noFatArrow
    · cases count <;> rfl
    · cases count <;> rfl

theorem carries_binderParens (count : Nat) (noAt : frontKind rest ≠ .atSign) :
    Carries ground (3 * count + 1) (.call .binderAtom) true (binderParens.levels count)
      ⟨binderParens.marked count ++ rest, done⟩ ⟨rest, done ++ [binderParens.sketch count]⟩ := by
  induction count generalizing rest done with
  | zero => exact .binderAtom_lower noAt
  | succ count ih =>
    have noType : TokenKind.closeParen ≠ .doubleColon := nofun
    have noClass : (seesAny classNames).glance?
        (binderParens.marked count ++ ⟨.closeParen, ")"⟩ :: rest) = some false := by
      cases count <;> rfl
    rw [marked_succ_append]
    exact .binderAtom_parens (.binder_of_atom (ih nofun) noClass rfl noType)

theorem carries_whereClause (count : Nat) (ends : CoreExpr.endsExpr (frontKind rest) = true)
    (noWhere : frontKind rest ≠ .keyword .whereWord) :
    Carries ground (count + 3) valueDecl () 1 ⟨whereClause.marked count ++ rest, done⟩
      ⟨rest, done ++ [whereClause.sketch count]⟩ := by
  induction count generalizing rest done with
  | zero =>
    exact .valueDecl_of_rhs (.whileSeen (.unseen rfl))
      (.unguardedRhs nofun (carries_number ends) noWhere)
  | succ count ih =>
    have split : whereClause.marked (count + 1) ++ rest =
        ⟨.lowerName, "x"⟩ :: ⟨.equals, "="⟩ :: ⟨.integer, "1"⟩ ::
          ⟨.keyword .whereWord, "where"⟩ :: ⟨.layoutStart, ""⟩ ::
            (whereClause.marked count ++ ⟨.layoutEnd, ""⟩ :: rest) :=
      marked_succ_append _ count rest
    have named : ∃ later, whereClause.marked count ++ ⟨.layoutEnd, ""⟩ :: rest =
        ⟨.lowerName, "x"⟩ :: ⟨.equals, "="⟩ :: later := by
      cases count <;> exact ⟨_, rfl⟩
    obtain ⟨later, named⟩ := named
    have inner := @ih (⟨.layoutEnd, ""⟩ :: rest)
      [.leaf (.keyword .whereWord) "where", .leaf .layoutStart ""] rfl nofun
    have taken : rest.length + 1 <
        (whereClause.marked count ++ ⟨.layoutEnd, ""⟩ :: rest).length := by
      have taken := whereClause.length_marked_pos count
      simp only [List.length_append, List.length_cons]
      omega
    rw [split]
    rw [named] at inner taken ⊢
    exact .valueDecl_of_rhs (.whileSeen (.unseen rfl)) (.rhs_where
      ((carries_number rfl).mono (Nat.le_add_left 3 _)) rfl (.localDecl_value inner) taken)

theorem carries_binderParens_value (count : Nat) :
    Carries ground (3 * count + 3) valueDecl () (binderParens.levels count)
      ⟨binderParens.declaration (binderParens.marked count) ++ [⟨.eof, ""⟩], []⟩
      ⟨[⟨.eof, ""⟩], [binderParens.declared (binderParens.sketch count)]⟩ := by
  have behind : TokenKind.equals ≠ .atSign ∧ TokenKind.eof ≠ .keyword .whereWord :=
    ⟨nofun, nofun⟩
  let value : List Sight := [⟨.equals, "="⟩, ⟨.integer, "1"⟩, ⟨.eof, ""⟩]
  have sees : seesBinderAtom.glance? (binderParens.marked count ++ value) = some true := by
    cases count <;> rfl
  have atom : Carries ground (3 * count + 3) (.call .binderAtom) true
      (binderParens.levels count) ⟨binderParens.marked count ++ value, [.leaf .lowerName "x"]⟩
      ⟨value, [.leaf .lowerName "x", binderParens.sketch count]⟩ :=
    .mono (carries_binderParens count behind.1) (Nat.le_add_right _ 2)
  have taken : value.length < (binderParens.marked count ++ value).length := by
    have taken := binderParens.length_marked_pos count
    rw [List.length_append]
    omega
  have levels : max (max (binderParens.levels count) 0) 1 = binderParens.levels count := by
    have deeper : count < binderParens.levels count := lt_levels (by decide) count
    omega
  rw [declaration, List.cons_append, List.append_assoc]
  exact (Carries.valueDecl_of_rhs (.whileSeen (.seen sees (.ignore atom) taken (.unseen rfl)))
    (.unguardedRhs nofun (.mono (carries_number rfl) (Nat.le_add_left 3 (3 * count)))
      behind.2)).of_need levels

theorem carries_declaration (construct : Nestable) (count : Nat) :
    Carries ground (3 * count + 3) decl () (construct.levels count)
      ⟨construct.declaration (construct.marked count) ++ [⟨.eof, ""⟩], []⟩
      ⟨[⟨.eof, ""⟩], [construct.declared (construct.sketch count)]⟩ := by
  have noWhere : TokenKind.eof ≠ .keyword .whereWord := nofun
  cases construct with
  | exprParens => exact .decl_value (carries_exprParens count rfl) noWhere
  | exprCase => exact .decl_value (carries_exprCase count rfl) noWhere
  | exprDo => exact .decl_value (carries_exprDo count rfl (by decide)) noWhere
  | typeParens =>
    exact .decl_signature (.mono (carries_typeParens count rfl rfl nofun nofun) (by omega))
  | binderParens =>
    refine .decl_of_valueDecl ?_ (carries_binderParens_value count)
    cases count <;> nofun
  | whereClause =>
    have inside : Carries ground (3 * count + 3) valueDecl () 1
        ⟨whereClause.marked count ++ [⟨.eof, ""⟩], []⟩
        ⟨[⟨.eof, ""⟩], [whereClause.sketch count]⟩ :=
      .mono (carries_whereClause count rfl noWhere) (by omega)
    rw [levels_whereClause]
    cases count with
    | zero => exact .decl_of_valueDecl nofun inside
    | succ count => exact .decl_of_valueDecl nofun inside

theorem carries_line (never : ∀ count, ground.setting.isCancelled count = false)
    (construct : Nestable) (count : Nat) :
    Carries ground (3 * count + 3) wholeModule false (construct.levels count)
      ⟨construct.declaration (construct.marked count) ++ [⟨.eof, ""⟩], []⟩
      ⟨[], [construct.declared (construct.sketch count), .leaf .eof ""]⟩ := by
  have item : Carries ground (3 * count + 3) decl () (construct.levels count) _ _ :=
    construct.carries_declaration count
  have named : ∃ later, construct.declaration (construct.marked count) ++ [⟨.eof, ""⟩] =
      ⟨.lowerName, "x"⟩ :: later ∧ 0 < later.length := by
    cases construct <;> cases count <;> exact ⟨_, rfl, Nat.succ_pos _⟩
  obtain ⟨later, named, positive⟩ := named
  rw [named] at item ⊢
  have front : ∀ kind, TokenKind.lowerName ≠ kind →
      frontKind (⟨.lowerName, "x"⟩ :: later) ≠ kind := fun _ => id
  exact .wholeModule (front _ nofun)
    (.topLevel never (front _ nofun) rfl item (Nat.succ_lt_succ positive))

end Reading

theorem lt_length_marked (construct : Nestable) (count : Nat) :
    count < (construct.marked count).length := by
  induction count with
  | zero => exact construct.length_marked_pos 0
  | succ count ih =>
    have positive : 0 < construct.markedOpening.length := by
      cases construct <;> exact Nat.succ_pos _
    rw [marked, List.length_append, List.length_append]
    omega

theorem length_le_declaration (construct : Nestable) (words : List Sight) :
    words.length ≤ (construct.declaration words).length := by
  cases construct <;> simp only [declaration, List.length_cons, List.length_append] <;> omega

theorem readWhole?_line (construct : Nestable) (count : Nat) :
    (construct.levels count ≤ maxDepth → ∃ reading,
      (Job.ofSource (construct.line count)).readWhole? = some (false, reading) ∧
      Shape.sketches reading.row.shapes =
        [construct.declared (construct.sketch count), .leaf .eof ""]) ∧
    (maxDepth < construct.levels count →
      (Job.ofSource (construct.line count)).readWhole? = none) := by
  obtain ⟨shown, harmless⟩ := lexemes_line 8 construct count
  refine Job.readWhole?_of_carries _ shown harmless (carries_line (fun _ => rfl) construct count) ?_
  have long := construct.lt_length_marked count
  have longer := construct.length_le_declaration (construct.marked count)
  rw [List.length_append]
  omega

end Nestable

/-! ### Paths -/

mutual

/-- The kinds of the nodes above each leaf of a sketch, innermost first. -/
def Sketch.pathsIn (above : List NodeKind) : Sketch → List (List NodeKind)
  | .leaf _ _ => [above]
  | .node kind _ children => forestPaths (kind :: above) children

/-- The kinds of the nodes above each leaf in a row of sketches. -/
def Sketch.forestPaths (above : List NodeKind) : List Sketch → List (List NodeKind)
  | [] => []
  | sketch :: rest => sketch.pathsIn above ++ forestPaths above rest

end

theorem Tree.exists_placed_of_mem_forestPaths : (above : List NodeKind) → (row : List Tree) →
    ∀ path ∈ Sketch.forestPaths above (Shape.sketches (Tree.shapes row)),
      ∃ placed ∈ Tree.forestPlaces above row, placed.above = path
  | _, [] => List.forall_mem_nil _
  | above, .leaf token :: rest => by
    have later : ∀ path ∈ Sketch.forestPaths above (Shape.sketches (Tree.shapes rest)),
        ∃ placed ∈ Tree.forestPlaces above (.leaf token :: rest), placed.above = path := by
      intro path member
      obtain ⟨placed, inside, same⟩ := exists_placed_of_mem_forestPaths above rest path member
      exact ⟨placed, List.mem_cons_of_mem _ inside, same⟩
    rw [Tree.shapes, Tree.shape?]
    split
    · exact later
    · exact List.forall_mem_cons.mpr ⟨⟨⟨token, above⟩, List.mem_cons_self, rfl⟩, later⟩
  | above, .node kind _ _ children :: rest => by
    refine List.forall_mem_append.mpr ⟨fun path member => ?_, fun path member => ?_⟩
    · obtain ⟨placed, inside, same⟩ :=
        exists_placed_of_mem_forestPaths (kind :: above) children path member
      exact ⟨placed, List.mem_append_left _ inside, same⟩
    · obtain ⟨placed, inside, same⟩ := exists_placed_of_mem_forestPaths above rest path member
      exact ⟨placed, List.mem_append_right _ inside, same⟩

namespace Nestable

/-- The kinds of the nodes between the construct inside and what is around the outer one. -/
def wrapping : Nestable → List NodeKind
  | exprCase => [.unguardedRhs, .caseBranch, .exprCase]
  | exprDo => [.doDiscard, .exprDo]
  | whereClause => [.whereClause, .valueDecl]
  | construct => [construct.kind]

theorem count_wrapping (construct : Nestable) (above : List NodeKind) :
    (construct.wrapping ++ above).count construct.kind = above.count construct.kind + 1 := by
  have one : construct.wrapping.count construct.kind = 1 := by
    cases construct <;> rfl
  rw [List.count_append, one, Nat.add_comm]

theorem pathsIn_around (construct : Nestable) (inner : Sketch) (above : List NodeKind) :
    inner.pathsIn (construct.wrapping ++ above) ⊆ (construct.around inner).pathsIn above := by
  intro path member
  cases construct <;>
    simp only [around, wrapping, Sketch.pathsIn, Sketch.forestPaths, List.cons_append,
      List.nil_append, List.mem_append, List.mem_cons] at member ⊢ <;>
    simp only [member, true_or, or_true]

/-- On some path of the constructs there are as many of their kind as there are constructs. -/
theorem exists_path_sketch (construct : Nestable) (count : Nat) (above : List NodeKind) :
    ∃ path ∈ (construct.sketch count).pathsIn above,
      path.count construct.kind = above.count construct.kind + count := by
  induction count generalizing above with
  | zero =>
    cases construct with
    | _ => exact ⟨_, List.mem_cons_self, by simp [kind]⟩
  | succ count ih =>
    obtain ⟨path, member, counted⟩ := ih _
    refine ⟨path, construct.pathsIn_around _ _ member, ?_⟩
    rw [counted, construct.count_wrapping]
    omega

/-- The kinds of the nodes between the constructs and the root. -/
def sheltering : Nestable → List NodeKind
  | exprParens | exprCase | exprDo => [.unguardedRhs, .valueDecl]
  | typeParens => [.signature]
  | binderParens => [.valueDecl]
  | whereClause => []

theorem pathsIn_declared (construct : Nestable) (inner : Sketch) (above : List NodeKind) :
    inner.pathsIn (construct.sheltering ++ above) ⊆ (construct.declared inner).pathsIn above := by
  intro path member
  cases construct <;>
    simp only [declared, sheltering, Sketch.pathsIn, Sketch.forestPaths, List.cons_append,
      List.nil_append, List.mem_append, List.mem_cons] at member ⊢ <;>
    simp only [member, true_or, or_true]

theorem count_le_countP (construct : Nestable) (guarded : construct ≠ whereClause)
    (above : List NodeKind) : above.count construct.kind ≤ above.countP NodeKind.isEnclosing := by
  refine List.countP_mono_left fun kind _ same => ?_
  rw [eq_of_beq same]
  cases construct <;> first | rfl | exact absurd rfl guarded

theorem ofSource_line_of_levels_le {construct : Nestable} {count : Nat}
    (fits : construct.levels count ≤ maxDepth) :
    (Parse.ofSource (construct.line count)).hasErrors = false ∧
      ∃ placed ∈ (Parse.ofSource (construct.line count)).root.places,
        placed.above.count construct.kind = count := by
  obtain ⟨reading, read, sketches⟩ := (construct.readWhole?_line count).1 fits
  obtain ⟨-, clean, root⟩ := Job.run_of_readWhole? _ read
  refine ⟨clean, ?_⟩
  obtain ⟨path, member, counted⟩ :=
    construct.exists_path_sketch count _
  have inRoot : path ∈ (Shape.node .wholeModule reading.row.shapes).sketch.pathsIn [] := by
    rw [Shape.sketch, sketches]
    exact List.mem_append_left _ (construct.pathsIn_declared _ _ member)
  have found := Tree.exists_placed_of_mem_forestPaths []
    [(Job.ofSource (construct.line count)).run.parse.root] path
  rw [Tree.shapes, root, Tree.forestPlaces, Tree.forestPlaces, List.append_nil] at found
  obtain ⟨placed, inside, rfl⟩ := found (List.mem_append_left _ inRoot)
  refine ⟨placed, inside, counted.trans ?_⟩
  cases construct <;> exact Nat.zero_add count

theorem hasErrors_line_of_lt_levels {construct : Nestable} {count : Nat}
    (deep : maxDepth < construct.levels count) :
    (Parse.ofSource (construct.line count)).hasErrors = true := by
  exact Job.hasErrors_of_readWhole?_eq_none _ ((construct.readWhole?_line count).2 deep)

end Nestable

namespace Parse

/--
On no path are there more than `maxDepth` nodes of the five guarded kinds, taken
together.  So the constructs are nested no deeper than that if and only if the
`where` clauses are, and nothing bounds these: a line with any number of local
declarations inside each other is read without a fault.  A line with `maxDepth`
or more of another construct inside each other is refused, and a line that is
not refused has all of them on one path.
-/
theorem nesting_bounded_except_where (options : ParseOptions) (seed : OperatorTable)
    (source : String) :
    (∀ placed ∈ (withTable options seed source).root.places,
        placed.above.countP NodeKind.isEnclosing ≤ maxDepth) ∧
      ((∀ placed ∈ (withTable options seed source).root.places, ∀ construct : Nestable,
          placed.above.count construct.kind ≤ maxDepth) ↔
        ∀ placed ∈ (withTable options seed source).root.places,
          placed.above.count .whereClause ≤ maxDepth) ∧
      (∀ count, (ofSource (Nestable.whereClause.line count)).hasErrors = false) ∧
      (∀ construct : Nestable, construct ≠ .whereClause → ∀ count, maxDepth ≤ count →
        (ofSource (construct.line count)).hasErrors = true) ∧
      ∀ (construct : Nestable) (count : Nat),
        (ofSource (construct.line count)).hasErrors = false →
          ∃ placed ∈ (ofSource (construct.line count)).root.places,
            placed.above.count construct.kind = count := by
  have bounded := countP_places_root options seed source
  refine ⟨bounded, ⟨fun every placed member => every placed member .whereClause, ?_⟩,
    fun count => ?_, fun construct guarded count many => ?_, fun construct count clean => ?_⟩
  · intro shallow placed member construct
    by_cases guarded : construct = .whereClause
    · rw [guarded]
      exact shallow placed member
    · exact (construct.count_le_countP guarded placed.above).trans (bounded placed member)
  · refine (Nestable.ofSource_line_of_levels_le ?_).1
    rw [Nestable.levels_whereClause]
    decide
  · exact Nestable.hasErrors_line_of_lt_levels
      (Nat.lt_of_le_of_lt many (Nestable.lt_levels guarded count))
  · refine (Nestable.ofSource_line_of_levels_le (Nat.le_of_not_lt fun deep => ?_)).2
    rw [Nestable.hasErrors_line_of_lt_levels deep] at clean
    cases clean

/-- One `where` more than there are levels, each inside the next. -/
theorem where_nested_past_maxDepth :
    (ofSource (Nestable.whereClause.line 101)).hasErrors = false ∧
      ∃ placed ∈ (ofSource (Nestable.whereClause.line 101)).root.places,
        maxDepth < placed.above.count .whereClause := by
  have fits : Nestable.whereClause.levels 101 ≤ maxDepth := by
    rw [Nestable.levels_whereClause]
    decide
  obtain ⟨clean, placed, member, counted⟩ := Nestable.ofSource_line_of_levels_le fits
  exact ⟨clean, placed, member, (by decide : maxDepth < 101).trans_le counted.ge⟩

end Parse

end Offside
