import Offside.Proofs.CoreRoundTrip

/-!
# How nested constructs are read

The productions in which a construct can stand in another of its kind, as steps
from stage to stage: parentheses in types and binders, distinctions of cases,
blocks of statements, and declarations with local ones.  Each step tells how
many levels of nesting the construct takes; a `where` takes none.
-/

namespace Offside.Grammar

open CoreExpr (endsExpr frontKind_ne)

namespace Carries

variable {ground : Ground} {calls need further : Nat}
  {ahead middle rest : List Sight} {done : List Sketch} {source : Stage}

/-! ### Blocks -/

theorem searchFrom_eq_false {wanted : Sight → Bool} {stops : List TokenKind} (depth : Nat)
    {lexemes : List Lexeme}
    (unwanted : ∀ lexeme ∈ lexemes, wanted (Sight.ofToken lexeme.token) = false) :
    State.searchFrom wanted stops depth lexemes = false := by
  fun_induction State.searchFrom wanted stops depth lexemes with
  | case1 | case2 | case4 | case6 => rfl
  | case3 depth lexeme later kind _ found =>
    have other : wanted ⟨kind, lexeme.token.text⟩ = false := unwanted lexeme List.mem_cons_self
    rw [other, Bool.and_false] at found
    cases found
  | case5 _ _ _ _ _ _ _ _ ih | case7 _ _ _ _ _ _ _ _ _ _ ih | case8 _ _ _ _ _ _ _ _ _ ih =>
    exact ih (List.forall_mem_cons.mp unwanted).2

theorem search {wanted : Sight → Bool} {stops : List TokenKind}
    (unwanted : ∀ word ∈ ahead, wanted word = false) :
    Carries ground calls (.search wanted stops) false 0 ⟨ahead, done⟩ ⟨ahead, done⟩ := by
  refine of_reads le_rfl fun _ reading _ _ isAt => ⟨reading, ?_, isAt, rfl, rfl⟩
  have seen : reading.ahead.map (fun lexeme => Sight.ofToken lexeme.token) = ahead :=
    isAt.faces.ahead
  rw [Script.read?, searchFrom_eq_false 0 fun lexeme member => unwanted _ (seen ▸
    List.mem_map_of_mem member)]

variable {start stop name : String} {inner : Sketch} {children : List Sketch}

theorem block_item {item : Script Unit} {required : Option (List TokenKind)}
    (significant : (frontKind ahead).isSignificant = true)
    (inside : Carries ground calls item () need
      ⟨ahead, done ++ [.leaf .layoutStart start]⟩
      ⟨⟨.layoutEnd, stop⟩ :: rest, done ++ [.leaf .layoutStart start] ++ [inner]⟩)
    (takes : rest.length + 1 < ahead.length) :
    Carries ground calls (block item required) () need
      ⟨⟨.layoutStart, start⟩ :: ahead, done⟩
      ⟨rest, done ++ [.leaf .layoutStart start, inner, .leaf .layoutEnd stop]⟩ := by
  have noEnd : ¬ (frontKind ahead = .layoutEnd || frontKind ahead = .eof) = true := by
    intro ends
    revert significant
    rcases Bool.or_eq_true_iff.mp ends with isEnd | isEof
    · rw [of_decide_eq_true isEnd]
      decide
    · rw [of_decide_eq_true isEof]
      decide
  have noSeparator : frontKind ahead ≠ .layoutSep := by
    intro isSeparator
    rw [isSeparator] at significant
    cases significant
  have kind : Grammar.kind.glance? ahead = some (frontKind ahead) := rfl
  have first : Carries ground calls (blockRound item required true) (.yield false) need
      ⟨ahead, done ++ [.leaf .layoutStart start]⟩
      ⟨⟨.layoutEnd, stop⟩ :: rest, done ++ [.leaf .layoutStart start] ++ [inner]⟩ := by
    refine after (glance kind) ?_
    rw [if_neg noEnd, if_neg noSeparator]
    exact before (progress inside takes) (after (glance rfl) (pure _ _))
  have last : Carries ground calls (blockRound item required false) (.done false) 0
      ⟨⟨.layoutEnd, stop⟩ :: rest, done ++ [.leaf .layoutStart start] ++ [inner]⟩
      ⟨rest, done ++ [.leaf .layoutStart start] ++ [inner] ++ [.leaf .layoutEnd stop]⟩ := by
    refine after (glance rfl) ?_
    cases required with
    | none => exact after (ignore expect) (pure _ _)
    | some first => exact after (ignore expect) (pure _ _)
  rw [List.append_cons, List.append_cons]
  exact after expect (ignore ((loop (.yield first takes (.done last))).of_need (Nat.max_zero need)))

/-! ### Statements and cases -/

theorem statement_expr (noLet : frontKind ahead ≠ .keyword .letWord)
    (noBind : ∀ word ∈ ahead, word.kind ≠ .leftArrow)
    (body : Carries ground calls (.call .expr) true need ⟨ahead, []⟩ ⟨rest, [inner]⟩) :
    Carries ground calls statement () need ⟨ahead, done⟩
      ⟨rest, done ++ [.node .doDiscard none [inner]]⟩ :=
  ignore (node (after (unseen noLet)
    (after (search fun word member => decide_eq_false (noBind word member))
      (before (ignore body) (pure _ _)))))

theorem exprAtom_do {word : String} (significant : (frontKind ahead).isSignificant = true)
    (noLet : frontKind ahead ≠ .keyword .letWord) (noBind : ∀ word ∈ ahead, word.kind ≠ .leftArrow)
    (body : Carries ground calls (.call .expr) true need ⟨ahead, []⟩
      ⟨⟨.layoutEnd, stop⟩ :: rest, [inner]⟩) (takes : rest.length + 1 < ahead.length) :
    Carries ground calls exprAtom true need
      ⟨⟨.keyword .doWord, word⟩ :: ⟨.layoutStart, start⟩ :: ahead, done⟩
      ⟨rest, done ++ [.node .exprDo none [.leaf (.keyword .doWord) word, .leaf .layoutStart start,
        .node .doDiscard none [inner], .leaf .layoutEnd stop]]⟩ :=
  after (glance rfl) (nodeOf (after bump
    (block_item significant (statement_expr noLet noBind body) takes)))

theorem binder_of_atom {binder : List Sketch}
    (atom : Carries ground calls (.call .binderAtom) true need ⟨ahead, done⟩
      ⟨rest, binder⟩)
    (noClass : (seesAny classNames).glance? ahead = some false)
    (noOperator : (operatorName .binder).glance? rest = some none)
    (noType : frontKind rest ≠ .doubleColon) :
    Carries ground (calls + 2) (.call .binder) true (need + 1) ⟨ahead, done⟩
      ⟨rest, binder⟩ :=
  call (level (before (chain_of_operand .binder (after (glance noClass) atom) noOperator)
    (after (unseen noType) (pure _ _))))

theorem exprAtom_case {caseText ofText arrow : String} {tested binder : Sketch}
    {later : List Sight} (test : Carries ground calls (.call .expr) true need
      ⟨ahead, [.leaf (.keyword .caseWord) caseText]⟩
      ⟨⟨.keyword .ofWord, ofText⟩ :: ⟨.layoutStart, start⟩ :: middle,
        [.leaf (.keyword .caseWord) caseText, tested]⟩)
    (significant : (frontKind middle).isSignificant = true)
    (bind_ : Carries ground calls (.call .binder) true further ⟨middle, []⟩
      ⟨⟨.arrow, arrow⟩ :: later, [binder]⟩) {deepest : Nat}
    (body : Carries ground calls (.call .expr) true deepest ⟨later, [.leaf .arrow arrow]⟩
      ⟨⟨.layoutEnd, stop⟩ :: rest, [.leaf .arrow arrow, inner]⟩) :
    Carries ground calls exprAtom true (max need (max further deepest))
      ⟨⟨.keyword .caseWord, caseText⟩ :: ahead, done⟩
      ⟨rest, done ++ [.node .exprCase none [.leaf (.keyword .caseWord) caseText, tested,
        .leaf (.keyword .ofWord) ofText, .leaf .layoutStart start,
        .node .caseBranch none [binder, .node .unguardedRhs none [.leaf .arrow arrow, inner]],
        .leaf .layoutEnd stop]]⟩ := by
  have noComma : ∀ {kind : TokenKind} {text : String} {words : List Sight}, kind ≠ .comma →
      frontKind (⟨kind, text⟩ :: words) ≠ .comma := id
  have noWhere : TokenKind.layoutEnd ≠ .keyword .whereWord := nofun
  have takes : rest.length + 1 < middle.length := by
    have taken := bind_.shrinks
    have taken' := body.shrinks
    simp only [List.length_cons] at taken taken'
    omega
  have branches : Carries ground calls (block caseBranch (some binderStarts)) ()
      (max further deepest)
      ⟨⟨.layoutStart, start⟩ :: middle, [.leaf (.keyword .caseWord) caseText, tested,
        .leaf (.keyword .ofWord) ofText]⟩
      ⟨rest, [.leaf (.keyword .caseWord) caseText, tested, .leaf (.keyword .ofWord) ofText,
        .leaf .layoutStart start, .node .caseBranch none
          [binder, .node .unguardedRhs none [.leaf .arrow arrow, inner]],
        .leaf .layoutEnd stop]⟩ :=
    block_item significant (ignore (nodeOf (bind (separated (.last (ignore bind_) (noComma nofun)))
      (unguardedRhs nofun body noWhere)))) takes
  exact after (glance rfl) (nodeOf (after bump (bind (separated (.last (ignore test)
    (noComma nofun))) (after expect branches))))

/-! ### Parentheses in binders and types -/

theorem binderAtom_parens {left right : String} {inner : List Sketch}
    (inside : Carries ground calls (.call .binder) true need
      ⟨ahead, [.leaf .openParen left]⟩ ⟨⟨.closeParen, right⟩ :: rest, inner⟩) :
    Carries ground (calls + 1) (.call .binderAtom) true (need + 1)
      ⟨⟨.openParen, left⟩ :: ahead, done⟩
      ⟨rest, done ++ [.node .binderParens none (inner ++ [.leaf .closeParen right])]⟩ :=
  call (level (node (after (glance rfl) (after bump (before (ignore inside)
    (after expectClosing (pure _ _)))))))

theorem type_of_atom
    (atom : Carries ground calls typeAtom true need ⟨ahead, done⟩ ⟨rest, children⟩)
    (noForall : frontKind ahead ≠ .keyword .forallWord)
    (noArgument : seesTypeAtom.glance? rest = some false)
    (noOperator : (operatorName .type).glance? rest = some none)
    (noArrow : frontKind rest ≠ .arrow) (noFatArrow : frontKind rest ≠ .fatArrow) :
    Carries ground (calls + 2) (.call .type) true (need + 1) ⟨ahead, done⟩
      ⟨rest, children⟩ :=
  call (level (after (unseen noForall) (before (before (chain_of_operand .type
    (before atom (after (glance noArgument) (pure _ _))) noOperator)
    (after (unseen noArrow) (pure _ _))) (after (unseen noFatArrow) (pure _ _)))))

theorem typeAtom_upper {text : String} :
    Carries ground calls typeAtom true 0 ⟨⟨.upperName, text⟩ :: rest, done⟩
      ⟨rest, done ++ [.node .typeConstructor none [.leaf .upperName text]]⟩ :=
  after (glance rfl) single

theorem typeAtom_parens {left right : String} {inner : List Sketch}
    (noOperator : seesTypeOperatorName.glance? (⟨.openParen, left⟩ :: ahead) = some false)
    (noRow : seesRow.glance? ahead = some false)
    (inside : Carries ground calls (.call .type) true need
      ⟨ahead, [.leaf .openParen left]⟩ ⟨⟨.closeParen, right⟩ :: rest, inner⟩) :
    Carries ground calls typeAtom true (need + 1) ⟨⟨.openParen, left⟩ :: ahead, done⟩
      ⟨rest, done ++ [.node .typeParens none (inner ++ [.leaf .closeParen right])]⟩ :=
  after (glance rfl) (enter (node (after (glance noOperator) (after bump (after (glance noRow)
    (before (before inside (after (unseen nofun) (after (unseen nofun) (pure _ _))))
      (after expectClosing (answer leave _))))))))

/-! ### Declarations -/

theorem valueDecl_of_rhs {binders : List Sketch}
    (heads : Carries ground calls binderAtoms () need ⟨ahead, [.leaf .lowerName name]⟩
      ⟨middle, binders⟩)
    (value : Carries ground calls (rhs .equals) () further ⟨middle, binders⟩
      ⟨rest, children⟩) :
    Carries ground calls valueDecl () (max need further)
      ⟨⟨.lowerName, name⟩ :: ahead, done⟩ ⟨rest, done ++ [.node .valueDecl none children]⟩ :=
  ignore (nodeOf (after bump (bind heads value)))

theorem rhs_where {sign word : String} {value : Sketch}
    (body : Carries ground calls (.call .expr) true need ⟨ahead, [.leaf .equals sign]⟩
      ⟨⟨.keyword .whereWord, word⟩ :: ⟨.layoutStart, start⟩ :: middle,
        [.leaf .equals sign, value]⟩) (significant : (frontKind middle).isSignificant = true)
    {answer : Bool} (declared : Carries ground calls (.call .localDecl) answer further
      ⟨middle, [.leaf (.keyword .whereWord) word, .leaf .layoutStart start]⟩
      ⟨⟨.layoutEnd, stop⟩ :: rest,
        [.leaf (.keyword .whereWord) word, .leaf .layoutStart start, inner]⟩)
    (takes : rest.length + 1 < middle.length) :
    Carries ground calls (rhs .equals) () (max need further)
      ⟨⟨.equals, sign⟩ :: ahead, done⟩
      ⟨rest, done ++ [.node .unguardedRhs none [.leaf .equals sign, value],
        .node .whereClause none [.leaf (.keyword .whereWord) word, .leaf .layoutStart start, inner,
          .leaf .layoutEnd stop]]⟩ := by
  have clause : Carries ground calls localDecls () further
      ⟨⟨.layoutStart, start⟩ :: middle, [.leaf (.keyword .whereWord) word]⟩
      ⟨rest, [.leaf (.keyword .whereWord) word, .leaf .layoutStart start, inner,
        .leaf .layoutEnd stop]⟩ :=
    block_item significant (ignore declared) takes
  rw [List.append_cons]
  exact after (unseen nofun) (bind (ignore (nodeOf (after expect (ignore body))))
    (after (seen rfl) (ignore (nodeOf (after bump clause)))))

theorem localDecl_value {sign : String} {target : Stage}
    (inside : Carries ground calls valueDecl () need
      ⟨⟨.lowerName, name⟩ :: ⟨.equals, sign⟩ :: ahead, done⟩ target) :
    Carries ground (calls + 1) (.call .localDecl) false need
      ⟨⟨.lowerName, name⟩ :: ⟨.equals, sign⟩ :: ahead, done⟩ target :=
  call (after (glance rfl) (after (glance rfl) (after (glance rfl) (before inside (pure _ _)))))

theorem decl_of_valueDecl {target : Stage} (noType : frontKind ahead ≠ .doubleColon)
    (inside : Carries ground calls valueDecl () need ⟨⟨.lowerName, name⟩ :: ahead, done⟩
      target) : Carries ground calls decl () need ⟨⟨.lowerName, name⟩ :: ahead, done⟩ target := by
  have next : (kindAt 1).glance? (⟨.lowerName, name⟩ :: ahead) = some (frontKind ahead) := rfl
  refine after (glance rfl) (after (glance next) ?_)
  rw [if_neg noType]
  exact inside

theorem decl_signature {colons : String} (type_ : Carries ground calls (.call .type) true need
      ⟨ahead, [.leaf .lowerName name, .leaf .doubleColon colons]⟩ ⟨rest, children⟩) :
    Carries ground calls decl () need
      ⟨⟨.lowerName, name⟩ :: ⟨.doubleColon, colons⟩ :: ahead, done⟩
      ⟨rest, done ++ [.node .signature none children]⟩ :=
  after (glance rfl) (after (glance rfl) (ignore (nodeOf (after bump (after bump
    (ignore type_))))))

end Carries

end Offside.Grammar
