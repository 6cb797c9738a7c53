import Offside.Proofs.Carrying
import Offside.Proofs.SpelledModules

/-!
# How plain expressions are read

Each production of the grammar that a plain expression uses, as a step from
stage to stage: which words it takes, which node it adds, and how many levels
of nesting it needs.
-/

namespace Offside.Grammar

namespace Carries

variable {ground : Ground} {calls need further : Nat}
  {ahead middle rest : List Sight} {done : List Sketch} {source : Stage}

/-! ### Operands -/

theorem exprPostfix_of_atom
    (atom : Carries ground calls exprAtom true need source ⟨rest, done⟩)
    (noSelection : frontKind rest ≠ .dot) (noUpdate : frontKind rest ≠ .openBrace) :
    Carries ground calls exprPostfix true need source ⟨rest, done⟩ :=
  before atom (after (loop (.done (after (after (unseen noSelection) (pure _ _))
    (after (after (unseen noUpdate) (pure _ _)) (pure _ _))))) (pure _ _))

theorem exprApp_of_exprPostfix
    (postfix_ : Carries ground calls exprPostfix true need source ⟨rest, done⟩)
    (noArgument : seesArgument.glance? rest = some false) :
    Carries ground calls exprApp true need source ⟨rest, done⟩ :=
  before postfix_ (after (glance noArgument) (pure _ _))

theorem argument_of_exprPostfix {answer : Bool}
    (postfix_ : Carries ground calls exprPostfix answer need ⟨ahead, done⟩ source)
    (noType : frontKind ahead ≠ .atSign) :
    Carries ground calls argument () need ⟨ahead, done⟩ source :=
  after (unseen noType) (ignore postfix_)

variable {children : List Sketch} {text left right sign : String}

theorem exprApp_arguments {function : Sketch}
    (postfix_ : Carries ground calls exprPostfix true need source
      ⟨middle, done ++ [function]⟩) (argumentAhead : seesArgument.glance? middle = some true)
    (turns : Turns ground calls (whileRound seesArgument argument) () () further
      ⟨middle, [function]⟩ ⟨rest, children⟩) :
    Carries ground calls exprApp true (max need further) source
      ⟨rest, done ++ [.node .exprApp none children]⟩ :=
  bind postfix_ (after (glance argumentAhead) (before (wrap (whileSeen turns)) (pure _ _)))

theorem operand_of_app
    (app : Carries ground calls exprApp true need ⟨ahead, done⟩ source)
    (noMinus : (seesOperator "-").glance? ahead = some false) :
    Carries ground (calls + 1) (.call .operand) true need ⟨ahead, done⟩ source :=
  call (after (glance noMinus) app)

theorem operand_negate {first second : Sketch}
    (operand : Carries ground calls (.call .operand) true need
      ⟨ahead, [.leaf .operator "-"]⟩ ⟨rest, [first, second]⟩) :
    Carries ground (calls + 1) (.call .operand) true (need + 1)
      ⟨⟨.operator, "-"⟩ :: ahead, done⟩
      ⟨rest, done ++ [.node .exprNegate none [first, second]]⟩ :=
  call (after (glance rfl) (enter (nodeOf (after bump (before (ignore operand) leave)))))

/-! ### Chains of operators -/

theorem lookup (space : Namespace) (operator : String) :
    Carries ground calls (.lookup space operator) (ground.table.get? space operator) 0 source
      source :=
  of_reads le_rfl fun _ reading _ _ isAt =>
    ⟨reading, by rw [Script.read?, isAt.faces.operators], isAt, rfl, rfl⟩

theorem reportsUnknown :
    Carries ground calls .reportsUnknown ground.setting.reportsUnknown 0 source source :=
  of_reads le_rfl fun _ reading _ _ isAt => ⟨reading, rfl, isAt, rfl, rfl⟩

theorem sighting_operator :
    Carries ground calls .sighting (.token .operator text) 0
      ⟨⟨.operator, text⟩ :: rest, done⟩ ⟨⟨.operator, text⟩ :: rest, done⟩ := by
  refine of_reads le_rfl fun _ reading _ _ isAt => ⟨reading, ?_, isAt, rfl, rfl⟩
  have front := isAt.faces.ahead
  cases unread : reading.ahead with
  | nil => rw [unread] at front; cases front
  | cons lexeme later =>
    rw [unread] at front
    have seen := (List.cons.inj front).1
    have kind : lexeme.token.kind = .operator := congrArg Sight.kind seen
    have text : lexeme.token.text = text := congrArg Sight.text seen
    rw [Script.read?, Reading.sighting, unread, List.head?_cons, Option.map_some,
      Option.getD_some, State.foundOf, kind, text]

theorem chain_of_operand (level : Level) {least : Nat} {parent : Option ChainOperator}
    (operand : Carries ground calls (operandOf level) true need source ⟨rest, done⟩)
    (ends : (operatorName level).glance? rest = some none) :
    Carries ground (calls + 1) (.call (.chain level least parent)) true need source
      ⟨rest, done⟩ :=
  call (before operand (after (loop (.done (after (after (glance ends) (pure _ _)) (pure _ _))))
    (pure _ _)))

theorem operatorNode (quiet : ground.setting.reportsUnknown = false) (operator : ChainOperator) :
    Carries ground calls (operatorNode .expr operator none) () 0
      ⟨⟨.operator, text⟩ :: rest, done⟩
      ⟨rest, done ++ [.node .operator none [.leaf .operator text]]⟩ := by
  have known : Carries ground calls (isUnknown .expr operator) false 0
      ⟨⟨.operator, text⟩ :: rest, done⟩ ⟨⟨.operator, text⟩ :: rest, done⟩ :=
    after (unseen nofun) (after (quiet ▸ reportsUnknown) (pure _ _))
  exact after known (after sighting_operator
    (after (ignore (nodeOf (after (unseen nofun) bump))) (pure _ _)))

theorem operatorAhead :
    Carries ground calls (operatorAhead .expr)
      (some ⟨text, (ground.table.get? .value text).getD Fixity.default⟩) 0
      ⟨⟨.operator, text⟩ :: rest, done⟩ ⟨⟨.operator, text⟩ :: rest, done⟩ :=
  after (glance rfl) (after (lookup .value text) (pure _ _))

theorem chain_binary (quiet : ground.setting.reportsUnknown = false) {left right : Sketch}
    (first : Carries ground calls (.call .operand) true need source
      ⟨⟨.operator, text⟩ :: middle, done ++ [left]⟩)
    (second : ∀ least parent, Carries ground calls (.call (.chain .expr least parent)) true
      further ⟨middle, [left, .node .operator none [.leaf .operator text]]⟩
      ⟨rest, [left, .node .operator none [.leaf .operator text], right]⟩)
    (ends : (operatorName .expr).glance? rest = some none) :
    Carries ground (calls + 1) (.call (.chain .expr 0 none)) true
      (max need (further + 1)) source
      ⟨rest, done ++ [.node .exprBinary none
        [left, .node .operator none [.leaf .operator text], right]]⟩ := by
  have wrapped : Carries ground calls
      (chainRound .expr 0 none (true, none))
      (.yield (true, some ⟨text, (ground.table.get? .value text).getD Fixity.default⟩))
      (further + 1) ⟨⟨.operator, text⟩ :: middle, done ++ [left]⟩
      ⟨rest, done ++ [.node .exprBinary none
        [left, .node .operator none [.leaf .operator text], right]]⟩ :=
    after operatorAhead (before (wrap (after (operatorNode quiet _)
      (enter (before (ignore (second _ _)) leave)))) (pure _ _))
  have turns := Turns.yield wrapped (Nat.lt_succ_of_le (second 0 none).shrinks)
    (.done (after (after (glance ends) (pure _ _)) (pure _ _)))
  exact call (bind first (before ((loop turns).of_need rfl) (pure _ _)))

theorem expr_of_chain
    (inside : Carries ground calls (.call (.chain .expr 0 none)) true need source
      ⟨rest, done⟩)
    (noType : frontKind rest ≠ .doubleColon) :
    Carries ground (calls + 1) (.call .expr) true (need + 1) source ⟨rest, done⟩ :=
  call (level (before inside (after (unseen noType) (pure _ _))))

/-! ### Expressions that need no brackets -/

theorem exprAtom_lower :
    Carries ground calls exprAtom true 0 ⟨⟨.lowerName, text⟩ :: rest, done⟩
      ⟨rest, done ++ [.node .exprVar none [.leaf .lowerName text]]⟩ :=
  after (glance rfl) single

theorem exprAtom_proper {qualified : Bool} :
    Carries ground calls exprAtom true 0 ⟨⟨Token.properKind qualified, text⟩ :: rest, done⟩
      ⟨rest, done ++ [.node .exprConstructor none [.leaf (Token.properKind qualified) text]]⟩ := by
  cases qualified with
  | false => exact after (glance rfl) single
  | true => exact after (glance rfl) single

theorem exprAtom_integer :
    Carries ground calls exprAtom true 0 ⟨⟨.integer, text⟩ :: rest, done⟩
      ⟨rest, done ++ [.node .exprLiteral none [.leaf .integer text]]⟩ :=
  after (glance rfl) single

theorem exprAtom_parens {inner : List Sketch}
    (inside : Carries ground calls (.call .expr) true need ⟨ahead, [.leaf .openParen left]⟩
      ⟨⟨.closeParen, right⟩ :: rest, inner⟩)
    (noOperator : seesOperatorName.glance? (⟨.openParen, left⟩ :: ahead) = some false) :
    Carries ground calls exprAtom true need ⟨⟨.openParen, left⟩ :: ahead, done⟩
      ⟨rest, done ++ [.node .exprParens none (inner ++ [.leaf .closeParen right])]⟩ :=
  after (glance rfl) (node (after (glance noOperator)
    (after bump (before (ignore inside) (after expectClosing (pure _ _))))))

theorem exprAtom_emptyArray :
    Carries ground calls exprAtom true 0
      ⟨⟨.openSquare, left⟩ :: ⟨.closeSquare, right⟩ :: rest, done⟩
      ⟨rest, done ++ [.node .exprArray none
        [.leaf .openSquare left, .leaf .closeSquare right]]⟩ :=
  after (glance rfl) (nodeOf (after bump (after (after (seen rfl) (pure _ _)) expectClosing)))

theorem exprAtom_array {items : List Sketch} (notClosed : frontKind ahead ≠ .closeSquare)
    (turns : Turns ground calls (separatedRound .comma (Grammar.ignore (.call .expr))) () ()
      need ⟨ahead, [.leaf .openSquare left]⟩ ⟨⟨.closeSquare, right⟩ :: rest, items⟩) :
    Carries ground calls exprAtom true need ⟨⟨.openSquare, left⟩ :: ahead, done⟩
      ⟨rest, done ++ [.node .exprArray none (items ++ [.leaf .closeSquare right])]⟩ :=
  after (glance rfl) (nodeOf (after bump (before (after (unseen notClosed) (separated turns))
    expectClosing)))

theorem recordField {value : Script Unit} {kind : TokenKind} {label colon : String}
    (isLabel : kind.isLabel = true) (inside : Carries ground calls value () need
      ⟨ahead, [.leaf kind label, .leaf .colon colon]⟩ ⟨rest, children⟩) :
    Carries ground calls (recordField value) () need
      ⟨⟨kind, label⟩ :: ⟨.colon, colon⟩ :: ahead, done⟩
      ⟨rest, done ++ [.node .recordField none children]⟩ := by
  have front : Grammar.kind.glance? (⟨kind, label⟩ :: ⟨.colon, colon⟩ :: ahead) = some kind := rfl
  refine ignore (nodeOf (after (glance front) ?_))
  rw [if_pos isLabel]
  exact after bump (after eat inside)

theorem exprAtom_emptyRecord :
    Carries ground calls exprAtom true 0
      ⟨⟨.openBrace, left⟩ :: ⟨.closeBrace, right⟩ :: rest, done⟩
      ⟨rest, done ++ [.node .exprRecord none
        [.leaf .openBrace left, .leaf .closeBrace right]]⟩ :=
  after (glance rfl) (nodeOf (after bump (after (after (seen rfl) (pure _ _)) expectClosing)))

theorem exprAtom_record {fields : List Sketch} (notClosed : frontKind ahead ≠ .closeBrace)
    (turns : Turns ground calls
      (separatedRound .comma (Grammar.recordField (Grammar.ignore (.call .expr)))) () () need
      ⟨ahead, [.leaf .openBrace left]⟩ ⟨⟨.closeBrace, right⟩ :: rest, fields⟩) :
    Carries ground calls exprAtom true need ⟨⟨.openBrace, left⟩ :: ahead, done⟩
      ⟨rest, done ++ [.node .exprRecord none (fields ++ [.leaf .closeBrace right])]⟩ :=
  after (glance rfl) (nodeOf (after bump (before (after (unseen notClosed) (separated turns))
    expectClosing)))

theorem exprAtom_conditional {third : Nat} {later : List Sight}
    {ifText thenText elseText : String} {tested chosen : List Sketch}
    (test : Carries ground calls (.call .expr) true need
      ⟨ahead, [.leaf (.keyword .ifWord) ifText]⟩
      ⟨⟨.keyword .thenWord, thenText⟩ :: middle, tested⟩)
    (yes : Carries ground calls (.call .expr) true further
      ⟨middle, tested ++ [.leaf (.keyword .thenWord) thenText]⟩
      ⟨⟨.keyword .elseWord, elseText⟩ :: later, chosen⟩)
    (no : Carries ground calls (.call .expr) true third
      ⟨later, chosen ++ [.leaf (.keyword .elseWord) elseText]⟩ ⟨rest, children⟩) :
    Carries ground calls exprAtom true (max need (max further third))
      ⟨⟨.keyword .ifWord, ifText⟩ :: ahead, done⟩
      ⟨rest, done ++ [.node .exprIf none children]⟩ :=
  after (glance rfl) (nodeOf (after bump (bind (ignore test) (after expect
    (bind (ignore yes) (after expect (ignore no)))))))

theorem binderAtom_lower (noAt : frontKind rest ≠ .atSign) :
    Carries ground (calls + 1) (.call .binderAtom) true 1 ⟨⟨.lowerName, text⟩ :: rest, done⟩
      ⟨rest, done ++ [.node .binderVar none [.leaf .lowerName text]]⟩ := by
  have noNext : (kindAt 1).glance? (⟨.lowerName, text⟩ :: rest) = some (frontKind rest) := rfl
  refine call (level (node (after (glance rfl) (after (glance noNext) ?_))))
  rw [if_neg noAt]
  exact after bump (pure _ _)

theorem exprAtom_lambda {arrow : String} {binders : List Sketch}
    (binderAhead : seesBinderAtom.glance? ahead = some true) (turns : Turns ground calls
      (whileRound seesBinderAtom (Grammar.ignore (.call .binderAtom))) () () need
      ⟨ahead, [.leaf .backslash sign]⟩ ⟨⟨.arrow, arrow⟩ :: middle, binders⟩)
    (body : Carries ground calls (.call .expr) true further
      ⟨middle, binders ++ [.leaf .arrow arrow]⟩ ⟨rest, children⟩) :
    Carries ground calls exprAtom true (max need further)
      ⟨⟨.backslash, sign⟩ :: ahead, done⟩
      ⟨rest, done ++ [.node .exprLambda none children]⟩ :=
  after (glance rfl) (nodeOf (after bump (after (glance binderAhead)
    (bind (whileSeen turns) (after expect (ignore body))))))

/-! ### A text with one definition -/

theorem unguardedRhs {separator : TokenKind} (noPipe : separator ≠ .pipe)
    (body : Carries ground calls (.call .expr) true need ⟨ahead, [.leaf separator sign]⟩
      ⟨rest, children⟩) (noWhere : frontKind rest ≠ .keyword .whereWord) :
    Carries ground calls (rhs separator) () need ⟨⟨separator, sign⟩ :: ahead, done⟩
      ⟨rest, done ++ [.node .unguardedRhs none children]⟩ :=
  after (unseen noPipe) (before (ignore (nodeOf (after expect (ignore body))))
    (after (unseen noWhere) (pure _ _)))

theorem decl_value {name : String}
    (body : Carries ground calls (.call .expr) true need ⟨ahead, [.leaf .equals sign]⟩
      ⟨rest, children⟩) (noWhere : frontKind rest ≠ .keyword .whereWord) :
    Carries ground calls decl () need
      ⟨⟨.lowerName, name⟩ :: ⟨.equals, sign⟩ :: ahead, done⟩
      ⟨rest, done ++ [.node .valueDecl none
        [.leaf .lowerName name, .node .unguardedRhs none children]]⟩ :=
  after (glance rfl) (after (glance rfl) (ignore (nodeOf (after bump
    (after (whileSeen (.unseen rfl)) (unguardedRhs nofun body noWhere))))))

theorem forgetBrackets : Carries ground calls .forgetBrackets () 0 source source :=
  of_reads le_rfl fun _ _ _ _ isAt =>
    ⟨_, rfl, ⟨⟨isAt.faces.operators, isAt.faces.ahead, isAt.faces.harmless⟩,
      isAt.row⟩, rfl, rfl⟩

theorem poll (never : ∀ count, ground.setting.isCancelled count = false) :
    Carries ground calls .poll false 0 source source :=
  of_reads le_rfl fun _ reading _ _ isAt =>
    ⟨{ reading with polls := reading.polls + 1 }, by rw [Script.read?, never],
      ⟨⟨isAt.faces.operators, isAt.faces.ahead, isAt.faces.harmless⟩, isAt.row⟩,
      rfl, rfl⟩

theorem read?_progress {reader : Reader} (item : Script Unit) (reading : Reading) :
    (Grammar.progress item).read? reader reading =
      (item.read? reader reading).bind fun outcome =>
        (if outcome.2.position = reading.position then misfit [] else Pure.pure ()).read? reader
          outcome.2 :=
  rfl

theorem progress {item : Script Unit} {target : Stage}
    (carries : Carries ground calls item () need source target)
    (takes : target.ahead.length < source.ahead.length) :
    Carries ground calls (progress item) () need source target where
  shrinks := carries.shrinks
  reads bound reading base enough isAt rounds deep := by
    obtain ⟨next, read, isNext, depth, position⟩ :=
      carries.reads bound reading base enough isAt rounds deep
    have moved : next.position ≠ reading.position := by omega
    refine ⟨next, ?_, isNext, depth, position⟩
    rw [read?_progress, read, Option.bind_some, if_neg moved]
    rfl
  fails bound reading base enough isAt rounds within deep := by
    rw [read?_progress, carries.fails bound reading base enough isAt rounds within deep]
    rfl

theorem topLevelItem {target : Stage} (item : Carries ground calls decl () need source target)
    (takes : target.ahead.length < source.ahead.length)
    (ends : (seesAny itemEnds).glance? target.ahead = some true) :
    Carries ground calls topLevelItem () need source target :=
  after forgetBrackets (before (progress item takes) (after (glance ends) (pure _ _)))

theorem topLevel {ending : String} (never : ∀ count, ground.setting.isCancelled count = false)
    (noSeparator : frontKind ahead ≠ .layoutSep)
    (itemAhead : (seesAny [.layoutEnd, .eof]).glance? ahead = some false)
    (item : Carries ground calls decl () need ⟨ahead, []⟩ ⟨[⟨.eof, ending⟩], children⟩)
    (takes : 1 < ahead.length) :
    Carries ground calls topLevel false need ⟨ahead, []⟩ ⟨[⟨.eof, ending⟩], children⟩ := by
  have noSeparators : ∀ {ahead : List Sight} {done : List Sketch}, frontKind ahead ≠ .layoutSep →
      Carries ground calls (Grammar.whileSeen (Grammar.eat .layoutSep) (Pure.pure ())) () 0
        ⟨ahead, done⟩ ⟨ahead, done⟩ :=
    fun absent => loop (.done (after (after (unseen absent) (pure _ _)) (pure _ _)))
  have first : Carries ground calls topRound (.yield false) need ⟨ahead, []⟩
      ⟨[⟨.eof, ending⟩], children⟩ :=
    after (noSeparators noSeparator) (after (glance itemAhead) (before (topLevelItem item takes rfl)
      (pure _ _)))
  have second : Carries ground calls topRound (.done false) 0 ⟨[⟨.eof, ending⟩], children⟩
      ⟨[⟨.eof, ending⟩], children⟩ :=
    after (noSeparators nofun) (after (glance rfl) (pure _ _))
  refine .of_need (loop (.yield (after (poll never) first) ?_ (.done (after (poll never) second))))
    (Nat.max_zero need)
  exact takes

theorem wholeModule {ending : String} (noModule : frontKind ahead ≠ .keyword .moduleWord)
    (items : Carries ground calls Grammar.topLevel false need ⟨ahead, []⟩
      ⟨[⟨.eof, ending⟩], children⟩) :
    Carries ground calls wholeModule false need ⟨ahead, []⟩
      ⟨[], children ++ [.leaf .eof ending]⟩ :=
  before (after (unseen noModule) items) (after (whileSeen (.unseen rfl)) (after bump (pure _ _)))

end Carries

end Offside.Grammar

namespace Offside.Job

open Grammar

variable (job : Job)

/-- A text is read against the fixities that are known at its beginning. -/
@[reducible]
def ground : Ground :=
  ⟨job.scene.setting, Parse.openingTable job.options job.seed job.tokens⟩

theorem readWhole?_of_carries {words : List Sight} {row : List Sketch} {calls need : Nat}
    (shown : (Lexeme.group job.tokens).map (fun lexeme => Sight.ofToken lexeme.token) = words)
    (harmless : ∀ lexeme ∈ Lexeme.group job.tokens, Reading.isHarmless lexeme.trivia = true)
    (carries : Carries job.ground calls wholeModule false need ⟨words, []⟩ ⟨[], row⟩)
    (few : calls ≤ 16 * words.length) :
    (need ≤ maxDepth → ∃ reading, job.readWhole? = some (false, reading) ∧
      Shape.sketches reading.row.shapes = row) ∧
    (maxDepth < need → job.readWhole? = none) := by
  have isAt : job.openingReading.IsAt job.ground.table ⟨words, []⟩ [] :=
    ⟨⟨rfl, shown, harmless⟩, [], rfl, nofun, rfl⟩
  have rounds : job.scene.setting.rounds = words.length + 2 := by
    rw [← shown, List.length_map]
    rfl
  have enough : calls ≤ callBound job.scene.setting.rounds := by
    rw [callBound]
    omega
  have short : words.length < job.scene.setting.rounds := by
    omega
  constructor
  · intro deep
    obtain ⟨reading, read, ⟨-, new, all, -, sketches⟩, -⟩ :=
      carries.reads _ _ [] enough isAt short ((Nat.zero_add _).trans_le deep)
    rw [List.append_nil] at all
    exact ⟨reading, read, all ▸ sketches⟩
  · intro deep
    exact carries.fails _ _ [] enough isAt short (Nat.zero_le _) ((Nat.zero_add _).symm ▸ deep)

end Offside.Job
