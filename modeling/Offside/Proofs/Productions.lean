import Mathlib.Computability.Language
import Mathlib.Order.CompletePartialOrder
import Offside.Proofs.CleanReading

/-!
# Productions

The grammar as a table: for every kind of node, the rows of children that a
node of that kind may have in a text in which nothing is malformed.  A row is
a word over shapes, and a production is a language of such words.  A shape is
formed if the children of every node in it spell the production of the node.
-/

namespace Offside

open scoped Computability
open Offside.Grammar (Sight)

/-! ### Patterns -/

/-- A pattern for rows of children. -/
inductive Pattern where
  /-- No row at all. -/
  | never
  /-- The empty row. -/
  | empty
  /-- A token of one of the kinds. -/
  | tokenIn (kinds : TokenKind → Bool)
  /-- A token of the kind whose text passes the test. -/
  | spelled (kind : TokenKind) (texts : String → Bool)
  /-- A node of one of the kinds. -/
  | nodeIn (accepts : NodeKind → Bool)
  /-- A node of the kind whose children fit a pattern. -/
  | nodeWith (kind : NodeKind) (children : Pattern)
  /-- One of two patterns. -/
  | either (left right : Pattern)
  /-- One pattern behind the other. -/
  | both (left right : Pattern)
  /-- A pattern any number of times. -/
  | star (part : Pattern)

instance : Zero Pattern := ⟨.never⟩

instance : One Pattern := ⟨.empty⟩

instance : Add Pattern := ⟨.either⟩

instance : Mul Pattern := ⟨.both⟩

instance : KStar Pattern := ⟨.star⟩

/-- What rows are made of, whether as patterns or as languages. -/
class Phrasing (P : Type) where
  /-- A token of one of the kinds. -/
  tokenIn : (TokenKind → Bool) → P
  /-- A token of the kind whose text passes the test. -/
  spelled : TokenKind → (String → Bool) → P
  /-- A node of one of the kinds. -/
  nodeIn : (NodeKind → Bool) → P
  /-- A node of the kind whose children fit. -/
  nodeWith : NodeKind → P → P

namespace Phrase

def one (accepts : Shape → Prop) : Language Shape :=
  {word | ∃ shape, accepts shape ∧ word = [shape]}

def tokenWhere (accepts : Sight → Bool) : Language Shape :=
  one fun shape => ∃ token, shape = .leaf token ∧ accepts (Sight.ofToken token) = true

/-- The shape is a node of the kind whose children spell a word of the language. -/
def Holds (kind : NodeKind) (children : Language Shape) (shape : Shape) : Prop :=
  ∃ row, shape = .node kind row ∧ row ∈ children

def HasKind (accepts : NodeKind → Bool) (shape : Shape) : Prop :=
  ∃ kind row, shape = .node kind row ∧ accepts kind = true

end Phrase

instance : Phrasing Pattern where
  tokenIn := .tokenIn
  spelled := .spelled
  nodeIn := .nodeIn
  nodeWith := .nodeWith

instance : Phrasing (Language Shape) where
  tokenIn kinds := Phrase.tokenWhere fun sight => kinds sight.kind
  spelled kind texts := Phrase.tokenWhere fun sight => sight.kind = kind && texts sight.text
  nodeIn accepts := Phrase.one (Phrase.HasKind accepts)
  nodeWith kind children := Phrase.one (Phrase.Holds kind children)

def Pattern.language : Pattern → Language Shape
  | never => 0
  | empty => 1
  | tokenIn kinds => Phrasing.tokenIn kinds
  | spelled kind texts => Phrasing.spelled kind texts
  | nodeIn accepts => Phrasing.nodeIn accepts
  | nodeWith kind children => Phrasing.nodeWith kind children.language
  | either left right => left.language + right.language
  | both left right => left.language * right.language
  | star part => part.language∗

namespace Phrase

variable {P : Type} [Phrasing P]

def tokenIn (kinds : TokenKind → Bool) : P :=
  Phrasing.tokenIn kinds

def token (kind : TokenKind) : P :=
  tokenIn fun other => other = kind

def keyword (word : Keyword) : P :=
  token (.keyword word)

def word (spelling : String) : P :=
  Phrasing.spelled .lowerName fun text => text = spelling

def minus : P :=
  Phrasing.spelled .operator fun text => text = "-"

def nodeWith (kind : NodeKind) (children : P) : P :=
  Phrasing.nodeWith kind children

def nodeIn (accepts : NodeKind → Bool) : P :=
  Phrasing.nodeIn accepts

def node (kind : NodeKind) : P :=
  nodeIn fun other => other = kind

theorem one_mono {accepts wider : Shape → Prop}
    (implies : ∀ shape, accepts shape → wider shape) : one accepts ≤ one wider := by
  rintro _ ⟨shape, accepted, rfl⟩
  exact ⟨shape, implies shape accepted, rfl⟩

theorem tokenIn_mono {accepts wider : TokenKind → Bool}
    (implies : ∀ kind, accepts kind = true → wider kind = true) :
    (tokenIn accepts : Language Shape) ≤ tokenIn wider := by
  rintro _ ⟨_, ⟨token, rfl, accepted⟩, rfl⟩
  exact ⟨_, ⟨token, rfl, implies _ accepted⟩, rfl⟩

variable {accepts : NodeKind → Bool}

theorem nodeIn_mono {wider : NodeKind → Bool}
    (implies : ∀ kind, accepts kind = true → wider kind = true) :
    (nodeIn accepts : Language Shape) ≤ nodeIn wider := by
  rintro _ ⟨_, ⟨kind, row, rfl, accepted⟩, rfl⟩
  exact ⟨_, ⟨kind, row, rfl, implies kind accepted⟩, rfl⟩

theorem node_le {kind : NodeKind} (accepted : accepts kind = true) :
    (node kind : Language Shape) ≤ nodeIn accepts :=
  nodeIn_mono fun _ same => by
    rw [of_decide_eq_true same]
    exact accepted

theorem token_le {accepts : TokenKind → Bool} {kind : TokenKind} (accepted : accepts kind = true) :
    (token kind : Language Shape) ≤ tokenIn accepts :=
  tokenIn_mono fun _ same => by
    rw [of_decide_eq_true same]
    exact accepted

theorem Holds.hasKind {kind : NodeKind} {children : Language Shape} {shape : Shape}
    (holds : Holds kind children shape) (accepted : accepts kind = true) :
    HasKind accepts shape := by
  obtain ⟨row, rfl, -⟩ := holds
  exact ⟨kind, row, rfl, accepted⟩

theorem HasKind.mono {wider : NodeKind → Bool} {shape : Shape} (has : HasKind accepts shape)
    (implies : ∀ kind, accepts kind = true → wider kind = true) : HasKind wider shape := by
  obtain ⟨kind, row, rfl, accepted⟩ := has
  exact ⟨kind, row, rfl, implies kind accepted⟩

variable [One P] [Add P] [Mul P] [KStar P]

def maybe (part : P) : P :=
  1 + part

def many (part : P) : P :=
  part * part∗

def separated (separator : TokenKind) (part : P) : P :=
  part * (token separator * part)∗

def items (item : P) : P :=
  separated .layoutSep item

def someBlock (item : P) : P :=
  token .layoutStart * (items item * token .layoutEnd)

def block (item : P) : P :=
  token .layoutStart * (maybe (items item) * token .layoutEnd)

def between (bracket : Bracket) (part : P) : P :=
  token (.opening bracket) * (part * token (.closing bracket))

def listed (bracket : Bracket) (part : P) : P :=
  between bracket (maybe (separated .comma part))

/-! ### Classes of nodes -/

/-- A type; constraints in parentheses stand where a type can. -/
def isTypeTerm (kind : NodeKind) : Bool :=
  kind.isType || kind = .constraints

def isOperand (kind : NodeKind) : Bool :=
  kind.isExpr && kind ≠ .exprBinary && kind ≠ .exprTyped

def isArgument (kind : NodeKind) : Bool :=
  isOperand kind && kind ≠ .exprApp && kind ≠ .exprNegate

theorem isExpr_of_isOperand {kind : NodeKind} (operand : isOperand kind = true) :
    kind.isExpr = true :=
  (Bool.and_eq_true_iff.mp (Bool.and_eq_true_iff.mp operand).1).1

theorem isOperand_of_isArgument {kind : NodeKind} (argument : isArgument kind = true) :
    isOperand kind = true :=
  (Bool.and_eq_true_iff.mp (Bool.and_eq_true_iff.mp argument).1).1

def isLocalDecl (kind : NodeKind) : Bool :=
  kind = .signature || kind = .valueDecl || kind = .patternBinding

def isStatement (kind : NodeKind) : Bool :=
  kind = .doBind || kind = .doLet || kind = .doDiscard

def isGuard (kind : NodeKind) : Bool :=
  kind = .guard || kind = .patternGuard

def isImportItem (kind : NodeKind) : Bool :=
  kind = .itemValue || kind = .itemOperator || kind = .itemType ||
    kind = .itemTypeOperator || kind = .itemClass || kind = .itemKind

def isExportItem (kind : NodeKind) : Bool :=
  isImportItem kind || kind = .itemModule

def expr : P :=
  nodeIn NodeKind.isExpr

def binder : P :=
  nodeIn NodeKind.isBinder

def type : P :=
  nodeIn isTypeTerm

def localDecl : P :=
  nodeIn isLocalDecl

/-! ### Parts that several productions share -/

def label : P :=
  tokenIn TokenKind.isLabel

def properName : P :=
  tokenIn fun kind => Grammar.classNames.contains kind

def operatorName : P :=
  tokenIn fun kind => kind = .operator || kind = .qualifiedOperator || kind = .colon

def fixityKeyword : P :=
  tokenIn fun kind => (DeclaredFixity.associativity? kind).isSome

def rhsSign : P :=
  tokenIn fun kind => kind = .equals || kind = .arrow

def rhs : P :=
  (many (node .guardedRhs) + node .unguardedRhs) * maybe (node .whereClause)

/-- A field of a record with its value, or standing for itself. -/
def field (value : P) : P :=
  label * (token .colon * value) + token .lowerName

theorem field_mono {value wider : Language Shape} (le : value ≤ wider) :
    field value ≤ field wider :=
  sup_le_sup (mul_le_mul_right (mul_le_mul_right le _) _) le_rfl

def update : P :=
  between .brace (separated .comma (node .recordUpdateField))

def typeRow : P :=
  maybe (separated .comma (node .rowField)) * maybe (node .rowTail)

def instanceHead : P :=
  maybe (token .lowerName * token .doubleColon) *
    (maybe (node .constraints * token .fatArrow) * node .constraint)

def superclassArrow : P :=
  Phrasing.spelled .operator fun text => text = "<=" || text = "⇐"

/-- The superclasses of a class and the arrow behind them. -/
def superclasses : P :=
  maybe (node .constraints * superclassArrow)

def kinded : P :=
  token .upperName * (token .doubleColon * type)

def parameterized : P :=
  token .upperName * (node .typeVarBinding)∗

def instanceJoint : P :=
  maybe (token .layoutSep) * (keyword .elseWord * maybe (token .layoutSep))

end Phrase

open Phrase

/-- What the rows of children of a node of the kind look like. -/
def pattern : NodeKind → Pattern
  | .wholeModule =>
    maybe (node .moduleHeader) *
      ((block (nodeIn NodeKind.isDecl) +
          maybe (token .layoutSep) * maybe (items (nodeIn NodeKind.isDecl))) *
        maybe (token .eof))
  | .moduleHeader =>
    keyword .moduleWord *
      (node .moduleName * (maybe (node .exportList) * keyword .whereWord))
  | .moduleName => properName
  | .exportList => listed .paren (nodeIn isExportItem)
  | .importDecl =>
    keyword .importWord * (node .moduleName * (maybe (word "hiding") *
      (maybe (node .importList) * maybe (node .importAlias))))
  | .importList => listed .paren (nodeIn isImportItem)
  | .importAlias => word "as" * node .moduleName
  | .itemValue => token .lowerName
  | .itemOperator => between .paren operatorName
  | .itemType => token .upperName * maybe (node .dataMembers)
  | .itemTypeOperator => keyword .typeWord * between .paren operatorName
  | .itemClass => keyword .classWord * token .upperName
  | .itemKind => word "kind" * token .upperName
  | .itemModule => keyword .moduleWord * node .moduleName
  | .dataMembers =>
    between .paren (token .doubleDot + maybe (separated .comma (token .upperName)))
  | .valueDecl => token .lowerName * (binder∗ * rhs)
  | .signature => token .lowerName * (token .doubleColon * type)
  | .patternBinding => binder * rhs
  | .dataDecl =>
    keyword .dataWord * (parameterized *
      maybe (token .equals * separated .pipe (node .dataCtor)))
  | .dataCtor => token .upperName * type∗
  | .typeSynonym => keyword .typeWord * (parameterized * (token .equals * type))
  | .newtypeDecl =>
    keyword .newtypeWord * (parameterized * (token .equals * node .dataCtor))
  | .roleDecl =>
    keyword .typeWord * (word "role" * (token .upperName * (token .lowerName)∗))
  | .kindSignature =>
    (keyword .dataWord + keyword .typeWord + keyword .newtypeWord) * kinded +
      keyword .classWord * (superclasses * kinded)
  | .classDecl =>
    keyword .classWord * (superclasses * (parameterized *
      (maybe (node .funDeps) * maybe (node .classBody))))
  | .classBody => keyword .whereWord * block (node .signature)
  | .funDeps => token .pipe * separated .comma (node .funDep)
  | .funDep => (token .lowerName)∗ * (token .arrow * (token .lowerName)∗)
  | .instanceChain => node .instanceDecl * (instanceJoint * node .instanceDecl)∗
  | .instanceDecl =>
    keyword .instanceWord * (instanceHead * maybe (node .instanceBody))
  | .instanceBody => keyword .whereWord * block localDecl
  | .deriveDecl =>
    keyword .deriveWord *
      (maybe (keyword .newtypeWord) * (keyword .instanceWord * instanceHead))
  | .foreignImport =>
    keyword .foreignWord * (keyword .importWord *
      (token .lowerName * (token .doubleColon * type)))
  | .foreignData =>
    keyword .foreignWord * (keyword .importWord * (keyword .dataWord * kinded))
  | .fixityDecl =>
    fixityKeyword * (token .integer * (maybe (keyword .typeWord) *
      (tokenIn TokenKind.isName * (word "as" * tokenIn DeclaredFixity.isOperator))))
  | .constraints =>
    between .paren (separated .comma (node .constraint)) + node .constraint +
      between .paren (separated .comma type)
  | .constraint => properName * type∗
  | .unguardedRhs => rhsSign * expr
  | .guardedRhs => token .pipe * (separated .comma (nodeIn isGuard) * (rhsSign * expr))
  | .guard => expr
  | .patternGuard => binder * (token .leftArrow * expr)
  | .whereClause => keyword .whereWord * someBlock localDecl
  | .exprLiteral => tokenIn TokenKind.isLiteral
  | .exprVar => tokenIn fun kind => kind = .lowerName || kind = .qualifiedLower
  | .exprConstructor => properName
  | .exprOpName => between .paren operatorName
  | .exprHole => token .hole
  | .exprSection => token .underscore
  | .exprParens => between .paren expr
  | .exprArray => listed .square expr
  | .exprRecord => listed .brace (nodeWith .recordField (field expr))
  | .recordField => field (expr + binder)
  | .exprRecordAccess => expr * (token .dot * label)
  | .exprRecordUpdate => expr * update
  | .recordUpdateField => label * (update + token .equals * expr)
  | .exprApp => expr * many (node .typeArg + nodeIn isArgument)
  | .typeArg => token .atSign * type
  | .exprBinary => expr * (node .operator * expr)
  | .operator =>
    token .backtick * (tokenIn TokenKind.isName * token .backtick) + operatorName
  | .exprNegate => minus * nodeIn isOperand
  | .exprTyped => expr * (token .doubleColon * type)
  | .exprLambda => token .backslash * (many binder * (token .arrow * expr))
  | .exprIf =>
    keyword .ifWord * (expr * (keyword .thenWord * (expr * (keyword .elseWord * expr))))
  | .exprCase =>
    keyword .caseWord * (separated .comma expr *
      (keyword .ofWord * someBlock (node .caseBranch)))
  | .caseBranch => separated .comma binder * rhs
  | .exprLet => keyword .letWord * (node .letBindings * (keyword .inWord * expr))
  | .letBindings => someBlock localDecl
  | .exprDo =>
    tokenIn (fun kind => kind = .keyword .doWord || kind = .qualifiedDo) *
      someBlock (nodeIn isStatement)
  | .exprAdo =>
    tokenIn (fun kind => kind = .keyword .adoWord || kind = .qualifiedAdo) *
      (block (nodeIn isStatement) * (keyword .inWord * expr))
  | .doBind => binder * (token .leftArrow * expr)
  | .doLet => keyword .letWord * node .letBindings
  | .doDiscard => expr
  | .binderWildcard => token .underscore
  | .binderVar => token .lowerName
  | .binderNamed => token .lowerName * (token .atSign * binder)
  | .binderLiteral =>
    tokenIn TokenKind.isLiteral +
      minus * tokenIn fun kind => kind = .integer || kind = .number
  | .binderConstructor => properName * binder∗
  | .binderRecord => listed .brace (nodeWith .recordField (field binder))
  | .binderArray => listed .square binder
  | .binderParens => between .paren binder
  | .binderBinary => binder * (node .operator * binder)
  | .binderTyped => binder * (token .doubleColon * type)
  | .typeForall =>
    keyword .forallWord * (many (node .typeVarBinding) * (token .dot * type))
  | .typeVarBinding =>
    between .paren (maybe (token .atSign) *
        (token .lowerName * (token .doubleColon * type))) +
      token .atSign * token .lowerName + token .lowerName
  | .typeConstrained => type * (token .fatArrow * type)
  | .typeArrow => type * (token .arrow * type)
  | .typeBinary => type * (node .operator * type)
  | .typeApp => type * many type
  | .typeVar => token .lowerName
  | .typeConstructor => properName
  | .typeWildcard => token .underscore
  | .typeHole => token .hole
  | .typeString => tokenIn TokenKind.isString
  | .typeInt => token .integer + minus * token .integer
  | .typeOpName =>
    between .paren (tokenIn fun kind => kind = .operator || kind = .qualifiedOperator)
  | .typeParens => between .paren type
  | .typeRecord => between .brace typeRow
  | .typeRow => between .paren typeRow
  | .rowField => label * (token .doubleColon * type)
  | .rowTail => token .pipe * type
  | .typeKinded => type * (token .doubleColon * type)
  | .error => 0

/-- The rows of children that a node of the kind may have. -/
def production (kind : NodeKind) : Language Shape :=
  (pattern kind).language

/-! ### What a pattern never asks for -/

/-- The shape is neither one of the tokens nor one of the nodes. -/
def Shape.avoids (tokens : List TokenKind) (nodes : List NodeKind) : Shape → Bool
  | .leaf token => !tokens.contains token.kind
  | .node kind _ => !nodes.contains kind

namespace Pattern

/-- The pattern asks for none of the tokens and none of the nodes. -/
def avoids (tokens : List TokenKind) (nodes : List NodeKind) : Pattern → Bool
  | never => true
  | empty => true
  | tokenIn kinds => !tokens.any kinds
  | spelled kind _ => !tokens.contains kind
  | nodeIn accepts => !nodes.any accepts
  | nodeWith kind _ => !nodes.contains kind
  | either left right => left.avoids tokens nodes && right.avoids tokens nodes
  | both left right => left.avoids tokens nodes && right.avoids tokens nodes
  | star part => part.avoids tokens nodes

theorem avoids_of_mem {tokens : List TokenKind} {nodes : List NodeKind} {pattern : Pattern}
    (avoids : pattern.avoids tokens nodes = true) {row : List Shape}
    (fits : row ∈ pattern.language) : ∀ shape ∈ row, shape.avoids tokens nodes = true := by
  induction pattern generalizing row with
  | never => exact absurd fits (Language.notMem_zero row)
  | empty =>
    rw [fits]
    nofun
  | tokenIn kinds =>
    obtain ⟨_, ⟨token, rfl, accepted⟩, rfl⟩ := fits
    intro shape member
    rw [List.mem_singleton.mp member, Shape.avoids, Bool.not_eq_true', ← Bool.not_eq_true,
      List.contains_iff_mem]
    intro listed
    rw [Pattern.avoids, Bool.not_eq_true', List.any_eq_false] at avoids
    exact avoids _ listed accepted
  | spelled kind texts =>
    obtain ⟨_, ⟨token, rfl, accepted⟩, rfl⟩ := fits
    intro shape member
    have isKind : token.kind = kind :=
      of_decide_eq_true (Bool.and_eq_true_iff.mp accepted).1
    rw [List.mem_singleton.mp member, Shape.avoids, isKind]
    exact avoids
  | nodeIn accepts =>
    obtain ⟨_, ⟨kind, children, rfl, accepted⟩, rfl⟩ := fits
    intro shape member
    rw [List.mem_singleton.mp member, Shape.avoids, Bool.not_eq_true', ← Bool.not_eq_true,
      List.contains_iff_mem]
    intro listed
    rw [Pattern.avoids, Bool.not_eq_true', List.any_eq_false] at avoids
    exact avoids _ listed accepted
  | nodeWith kind children =>
    obtain ⟨_, ⟨row, rfl, -⟩, rfl⟩ := fits
    intro shape member
    rw [List.mem_singleton.mp member]
    exact avoids
  | either left right inLeft inRight =>
    obtain ⟨avoidsLeft, avoidsRight⟩ := Bool.and_eq_true_iff.mp avoids
    rcases fits with fitsLeft | fitsRight
    · exact inLeft avoidsLeft fitsLeft
    · exact inRight avoidsRight fitsRight
  | both left right inLeft inRight =>
    obtain ⟨avoidsLeft, avoidsRight⟩ := Bool.and_eq_true_iff.mp avoids
    obtain ⟨front, fitsLeft, back, fitsRight, rfl⟩ := fits
    intro shape member
    rcases List.mem_append.mp member with early | late
    · exact inLeft avoidsLeft fitsLeft shape early
    · exact inRight avoidsRight fitsRight shape late
  | star part inPart =>
    intro shape member
    obtain ⟨rows, rfl, parts⟩ := Language.mem_kstar.mp fits
    obtain ⟨piece, inRows, inPiece⟩ := List.mem_flatten.mp member
    exact inPart avoids (parts piece inRows) shape inPiece

end Pattern

/-! ### Formed shapes -/

namespace Shape

def isOfKind (kind : NodeKind) : Shape → Bool
  | leaf _ => false
  | node own _ => own = kind

def token? : Shape → Option Token
  | leaf token => some token
  | node _ _ => none

def spelling (row : List Shape) : String :=
  Token.operatorText (row.filterMap token?)

end Shape

namespace Grammar

/-- The fixity that a table gives the operator of a chain node. -/
def Level.shapeFixity (level : Level) (table : OperatorTable) : Shape → Fixity
  | .node _ [_, .node _ row, _] => table.fixity level.space (Shape.spelling row)
  | _ => Fixity.default

/--
The row joins two operands with an operator.  The left operand has stopped at
the operator, and the right one takes only what binds tightly enough.
-/
def Level.LeansRow (level : Level) (table : OperatorTable) (children : List Shape) : Prop :=
  ∃ left row right, children = [left, .node .operator row, right] ∧
    let fixity := table.fixity level.space (Shape.spelling row)
    (left.isOfKind level.nodeKind = true →
      fixity.precedence < leastRight (level.shapeFixity table left) ∧
        Chainable (level.shapeFixity table left) fixity) ∧
    (right.isOfKind level.nodeKind = true →
      leastRight fixity ≤ (level.shapeFixity table right).precedence ∧
        Chainable fixity (level.shapeFixity table right))

/-- The rows of the production; if the table is known, those of chains lean as it says. -/
def rowsOf (table? : Option OperatorTable) (kind : NodeKind) : Language Shape :=
  {row | row ∈ production kind ∧
    ∀ table ∈ table?, ∀ level : Level, level.nodeKind = kind → level.LeansRow table row}

theorem production_le_rowsOf {kind : NodeKind} (simple_ : isSimple kind = true)
    (table? : Option OperatorTable) : production kind ≤ rowsOf table? kind := by
  refine fun row member => ⟨member, fun table _ level same => ?_⟩
  subst same
  cases level <;> cases simple_

end Grammar

/-- The children of every node of the shape spell the production of the node. -/
inductive Shape.Formed (table? : Option OperatorTable) : Shape → Prop where
  | leaf (token : Token) : Formed table? (.leaf token)
  | node {kind : NodeKind} {children : List Shape} (spelled : children ∈ Grammar.rowsOf table? kind)
      (parts : ∀ child ∈ children, Formed table? child) : Formed table? (.node kind children)

end Offside
