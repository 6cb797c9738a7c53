import Offside.Proofs.SpacedWords

/-!
# Core expressions

A small language of expressions, apart from how they are written: names,
constructors, whole numbers, applications, operators, negation, arrays,
records, conditions and functions.  An expression is written on one line with
single blanks between the words and brackets around every part that is not a
single word, and it can be read back from the sketch of a tree.
-/

namespace Offside

open Grammar (Sight)

/-- A text that is a single token of the kind. -/
structure Word (kind : TokenKind) where
  text : String
  isWord : Sight.IsWord ⟨kind, text⟩
deriving DecidableEq

namespace Word

variable {kind : TokenKind}

def sight (word : Word kind) : Sight :=
  ⟨kind, word.text⟩

def ofText? (kind : TokenKind) (text : String) : Option (Word kind) :=
  if isWord : Sight.IsWord ⟨kind, text⟩ then some ⟨text, isWord⟩ else none

@[simp]
theorem ofText?_text (word : Word kind) : ofText? kind word.text = some word :=
  dif_pos word.isWord

end Word

/-- Expressions, apart from how they are written. -/
inductive CoreExpr where
  | var (name : Word .lowerName)
  | con (qualified : Bool) (name : Word (Token.properKind qualified))
  | int (digits : Word .integer)
  /-- A function with at least one argument. -/
  | app (function first : CoreExpr) (others : List CoreExpr)
  | binary (left : CoreExpr) (operator : Word .operator) (right : CoreExpr)
  | negate (operand : CoreExpr)
  | array (items : List CoreExpr)
  | record (fields : List (Word .lowerName × CoreExpr))
  | conditional (test yes no : CoreExpr)
  /-- A function of at least one variable. -/
  | lambda (first : Word .lowerName) (others : List (Word .lowerName)) (body : CoreExpr)

namespace CoreExpr

@[elab_as_elim, induction_eliminator]
theorem induct {motive : CoreExpr → Prop} (var : ∀ name, motive (var name))
    (con : ∀ qualified name, motive (con qualified name)) (int : ∀ digits, motive (int digits))
    (app : ∀ function first others, motive function → motive first →
      (∀ other ∈ others, motive other) → motive (app function first others))
    (binary : ∀ left operator right, motive left → motive right →
      motive (binary left operator right))
    (negate : ∀ operand, motive operand → motive (negate operand))
    (array : ∀ items, (∀ item ∈ items, motive item) → motive (array items))
    (record : ∀ fields, (∀ field ∈ fields, motive field.2) → motive (record fields))
    (conditional : ∀ test yes no, motive test → motive yes → motive no →
      motive (conditional test yes no))
    (lambda : ∀ first others body, motive body → motive (lambda first others body))
    (expr : CoreExpr) : motive expr :=
  @CoreExpr.rec motive _
    _ _
    var con int app binary negate array record conditional lambda
    nofun (fun _ _ first rest => List.forall_mem_cons.mpr ⟨first, rest⟩)
    nofun (fun _ _ first rest => List.forall_mem_cons.mpr ⟨first, rest⟩)
    (fun _ _ value => value) expr

/-! ### Writing -/

def isAtom : CoreExpr → Bool
  | var _ | con _ _ | int _ => true
  | _ => false

/-- Parentheses around the words of a part, unless it is a single word. -/
def bracketed (part : CoreExpr) (words : List Sight) : List Sight :=
  if part.isAtom then words else ⟨.openParen, "("⟩ :: (words ++ [⟨.closeParen, ")"⟩])

mutual

def words : CoreExpr → List Sight
  | var name => [name.sight]
  | con _ name => [name.sight]
  | int digits => [digits.sight]
  | app function first others =>
    bracketed function function.words ++ (bracketed first first.words ++ (partWords others).flatten)
  | binary left operator right =>
    bracketed left left.words ++ operator.sight :: bracketed right right.words
  | negate operand => ⟨.operator, "-"⟩ :: bracketed operand operand.words
  | array items =>
    ⟨.openSquare, "["⟩ :: ([⟨.comma, ","⟩].intercalate (partWords items) ++ [⟨.closeSquare, "]"⟩])
  | record fields =>
    ⟨.openBrace, "\x7b"⟩ ::
      ([⟨.comma, ","⟩].intercalate (fieldWords fields) ++ [⟨.closeBrace, "\x7d"⟩])
  | conditional test yes no =>
    ⟨.keyword .ifWord, "if"⟩ :: (bracketed test test.words ++
      ⟨.keyword .thenWord, "then"⟩ :: (bracketed yes yes.words ++
        ⟨.keyword .elseWord, "else"⟩ :: bracketed no no.words))
  | lambda first others body =>
    ⟨.backslash, "\\"⟩ :: ((first :: others).map Word.sight ++
      ⟨.arrow, "->"⟩ :: bracketed body body.words)

def partWords : List CoreExpr → List (List Sight)
  | [] => []
  | part :: rest => bracketed part part.words :: partWords rest

def fieldWords : List (Word .lowerName × CoreExpr) → List (List Sight)
  | [] => []
  | (label, value) :: rest =>
    (label.sight :: ⟨.colon, ":"⟩ :: bracketed value value.words) :: fieldWords rest

end

def line (expr : CoreExpr) : String :=
  Sight.joined (⟨.lowerName, "x"⟩ :: ⟨.equals, "="⟩ :: expr.words)

/-! ### Levels of nesting -/

/-- The levels that a part takes: parentheses open an expression of its own. -/
def bracketedLevels (part : CoreExpr) (levels : Nat) : Nat :=
  if part.isAtom then 0 else levels + 1

mutual

/--
How many guarded productions are entered at once while the words of an
expression are read, besides the expression itself: the parts of arrays,
records, conditions and functions are expressions again, and so is what stands
in parentheses; a right operand and a negated one take a level, too.
-/
def levels : CoreExpr → Nat
  | var _ => 0
  | con _ _ => 0
  | int _ => 0
  | app function first others =>
    max (bracketedLevels function function.levels)
      (max (bracketedLevels first first.levels) (mostLevels 0 others))
  | binary left _ right =>
    max (bracketedLevels left left.levels) (bracketedLevels right right.levels + 1)
  | negate operand => bracketedLevels operand operand.levels + 1
  | array items => mostLevels 1 items
  | record fields => mostFieldLevels fields
  | conditional test yes no =>
    max (bracketedLevels test test.levels + 1)
      (max (bracketedLevels yes yes.levels + 1) (bracketedLevels no no.levels + 1))
  | lambda _ _ body => bracketedLevels body body.levels + 1

/-- The most levels that one of several parts takes, if each takes some of its own. -/
def mostLevels (own : Nat) : List CoreExpr → Nat
  | [] => 0
  | part :: rest => max (bracketedLevels part part.levels + own) (mostLevels own rest)

/-- The most levels that the value of one of several fields takes. -/
def mostFieldLevels : List (Word .lowerName × CoreExpr) → Nat
  | [] => 0
  | (_, value) :: rest => max (bracketedLevels value value.levels + 1) (mostFieldLevels rest)

end

/-! ### Parts -/

def part (expr : CoreExpr) : List Sight :=
  bracketed expr expr.words

def fieldPart (field : Word .lowerName × CoreExpr) : List Sight :=
  field.1.sight :: ⟨.colon, ":"⟩ :: field.2.part

/-- The levels that an expression takes as a part of another one. -/
def partLevels (expr : CoreExpr) : Nat :=
  bracketedLevels expr expr.levels

theorem partWords_eq_map (parts : List CoreExpr) : partWords parts = parts.map part := by
  induction parts with
  | nil => rw [partWords, List.map_nil]
  | cons first rest ih => rw [partWords, ih, List.map_cons, part]

theorem fieldWords_eq_map (fields : List (Word .lowerName × CoreExpr)) :
    fieldWords fields = fields.map fieldPart := by
  induction fields with
  | nil => rw [fieldWords, List.map_nil]
  | cons first rest ih => rw [fieldWords, ih, List.map_cons, fieldPart, part]

theorem mostLevels_eq_foldr (own : Nat) (parts : List CoreExpr) :
    mostLevels own parts = parts.foldr (fun part most => max (part.partLevels + own) most) 0 := by
  induction parts with
  | nil => rw [mostLevels, List.foldr_nil]
  | cons first rest ih => rw [mostLevels, ih, List.foldr_cons, partLevels]

theorem mostFieldLevels_eq_foldr (fields : List (Word .lowerName × CoreExpr)) :
    mostFieldLevels fields =
      fields.foldr (fun field most => max (field.2.partLevels + 1) most) 0 := by
  induction fields with
  | nil => rw [mostFieldLevels, List.foldr_nil]
  | cons first rest ih => rw [mostFieldLevels, ih, List.foldr_cons, partLevels]

/-- The first word of a part: a name, a number or a parenthesis. -/
def startsPart : TokenKind → Bool
  | .lowerName | .upperName | .qualifiedUpper | .integer | .openParen => true
  | _ => false

theorem part_eq_cons (expr : CoreExpr) :
    ∃ first rest, expr.part = first :: rest ∧ startsPart first.kind = true := by
  cases expr with
  | con qualified name => cases qualified <;> exact ⟨_, _, rfl, rfl⟩
  | _ => exact ⟨_, _, rfl, rfl⟩

/-! ### The words are words -/

theorem isPlain_sight {kind : TokenKind} (word : Word kind) (solid : kind.isSolid = true)
    (opensNone : Layout.Block.ofKeyword? kind = none) : word.sight.IsPlain :=
  ⟨⟨word.isWord, solid⟩, opensNone⟩

theorem isPlain_bracketed (expr : CoreExpr) {words : List Sight}
    (plain : ∀ word ∈ words, word.IsPlain) : ∀ word ∈ bracketed expr words, word.IsPlain := by
  rw [bracketed]
  split
  · exact plain
  · rw [List.forall_mem_cons, List.forall_mem_append]
    exact ⟨by decide +kernel, plain, by decide +kernel⟩

theorem isPlain_intercalate {lists : List (List Sight)}
    (plain : ∀ words ∈ lists, ∀ word ∈ words, word.IsPlain) :
    ∀ word ∈ [⟨.comma, ","⟩].intercalate lists, word.IsPlain := by
  have comma : Sight.IsPlain ⟨.comma, ","⟩ := by decide +kernel
  induction lists with
  | nil => nofun
  | cons first rest ih =>
    obtain ⟨head, tail⟩ := List.forall_mem_cons.mp plain
    cases rest with
    | nil => simpa using head
    | cons second others =>
      rw [List.intercalate_cons_cons, List.forall_mem_append, List.forall_mem_append,
        List.forall_mem_singleton]
      exact ⟨⟨head, comma⟩, ih tail⟩

theorem isPlain_of_mem_words (expr : CoreExpr) : ∀ word ∈ expr.words, word.IsPlain := by
  induction expr with
  | var name =>
    rw [words, List.forall_mem_singleton]
    exact isPlain_sight name rfl rfl
  | con qualified name =>
    rw [words, List.forall_mem_singleton]
    exact isPlain_sight name (by cases qualified <;> rfl) (by cases qualified <;> rfl)
  | int digits =>
    rw [words, List.forall_mem_singleton]
    exact isPlain_sight digits rfl rfl
  | app function first others ihFunction ihFirst ihOthers =>
    rw [words, partWords_eq_map, List.forall_mem_append, List.forall_mem_append]
    refine ⟨isPlain_bracketed function ihFunction, isPlain_bracketed first ihFirst, ?_⟩
    rw [List.forall_mem_flatten, List.forall_mem_map]
    exact fun other member => isPlain_bracketed other (ihOthers other member)
  | binary left operator right ihLeft ihRight =>
    rw [words, List.forall_mem_append, List.forall_mem_cons]
    exact ⟨isPlain_bracketed left ihLeft, isPlain_sight operator rfl rfl,
      isPlain_bracketed right ihRight⟩
  | negate operand ih =>
    rw [words, List.forall_mem_cons]
    exact ⟨by decide +kernel, isPlain_bracketed operand ih⟩
  | array items ih =>
    rw [words, List.forall_mem_cons, List.forall_mem_append, partWords_eq_map]
    refine ⟨by decide +kernel, isPlain_intercalate ?_, by decide +kernel⟩
    rw [List.forall_mem_map]
    exact fun item member => isPlain_bracketed item (ih item member)
  | record fields ih =>
    rw [words, List.forall_mem_cons, List.forall_mem_append, fieldWords_eq_map]
    refine ⟨by decide +kernel, isPlain_intercalate ?_, by decide +kernel⟩
    rw [List.forall_mem_map]
    intro field member
    rw [fieldPart, List.forall_mem_cons, List.forall_mem_cons]
    exact ⟨isPlain_sight field.1 rfl rfl, by decide +kernel,
      isPlain_bracketed field.2 (ih field member)⟩
  | conditional test yes no ihTest ihYes ihNo =>
    rw [words, List.forall_mem_cons, List.forall_mem_append, List.forall_mem_cons,
      List.forall_mem_append, List.forall_mem_cons]
    exact ⟨by decide +kernel, isPlain_bracketed test ihTest, by decide +kernel,
      isPlain_bracketed yes ihYes, by decide +kernel, isPlain_bracketed no ihNo⟩
  | lambda first others body ih =>
    have names : ∀ word ∈ (first :: others).map Word.sight, word.IsPlain :=
      List.forall_mem_map.mpr fun name _ => isPlain_sight name rfl rfl
    rw [words, List.forall_mem_cons, List.forall_mem_append]
    refine ⟨by decide +kernel, names, ?_⟩
    rw [List.forall_mem_cons]
    exact ⟨by decide +kernel, isPlain_bracketed body ih⟩

theorem isPlain_of_mem_line (expr : CoreExpr) :
    ∀ word ∈ ⟨.lowerName, "x"⟩ :: ⟨.equals, "="⟩ :: expr.words, word.IsPlain := by
  rw [List.forall_mem_cons, List.forall_mem_cons]
  exact ⟨by decide +kernel, by decide +kernel, expr.isPlain_of_mem_words⟩

/-! ### Reading back -/

mutual

/-- The expression that a sketch stands for; parentheses are forgotten. -/
def ofSketch? : Sketch → Option CoreExpr
  | .node .exprVar _ [.leaf .lowerName text] => (Word.ofText? .lowerName text).map var
  | .node .exprConstructor _ [.leaf .upperName text] =>
    (Word.ofText? (Token.properKind false) text).map (con false)
  | .node .exprConstructor _ [.leaf .qualifiedUpper text] =>
    (Word.ofText? (Token.properKind true) text).map (con true)
  | .node .exprLiteral _ [.leaf .integer text] => (Word.ofText? .integer text).map int
  | .node .exprParens _ [_, inner, _] => ofSketch? inner
  | .node .exprApp _ (function :: first :: others) => do
    return app (← ofSketch? function) (← ofSketch? first) (← ofSketches? others)
  | .node .exprBinary _ [left, .node .operator _ [.leaf .operator text], right] => do
    return binary (← ofSketch? left) (← Word.ofText? .operator text) (← ofSketch? right)
  | .node .exprNegate _ [_, operand] => (ofSketch? operand).map negate
  | .node .exprArray _ children => (ofSketches? children).map array
  | .node .exprRecord _ children => (ofFields? children).map record
  | .node .exprIf _ [_, test, _, yes, _, no] => do
    return conditional (← ofSketch? test) (← ofSketch? yes) (← ofSketch? no)
  | .node .exprLambda _ (_ :: rest) => do
    match ← ofLambda? rest with
    | (first :: others, body) => some (lambda first others body)
    | ([], _) => none
  | _ => none

/-- The expressions in a row; commas and brackets are passed over. -/
def ofSketches? : List Sketch → Option (List CoreExpr)
  | [] => some []
  | .leaf _ _ :: rest => ofSketches? rest
  | sketch :: rest => do return (← ofSketch? sketch) :: (← ofSketches? rest)

/-- The fields in a row; commas and braces are passed over. -/
def ofFields? : List Sketch → Option (List (Word .lowerName × CoreExpr))
  | [] => some []
  | .leaf _ _ :: rest => ofFields? rest
  | .node .recordField _ [.leaf .lowerName label, _, value] :: rest => do
    return (← Word.ofText? .lowerName label, ← ofSketch? value) :: (← ofFields? rest)
  | _ => none

def ofLambda? : List Sketch → Option (List (Word .lowerName) × CoreExpr)
  | [.leaf .arrow _, body] => do return ([], ← ofSketch? body)
  | .node .binderVar _ [.leaf .lowerName text] :: rest => do
    let name ← Word.ofText? .lowerName text
    let (names, body) ← ofLambda? rest
    return (name :: names, body)
  | _ => none

end

variable {sketch : Sketch}

theorem ofSketches?_cons {expr : CoreExpr} (read : ofSketch? sketch = some expr)
    (rest : List Sketch) : ofSketches? (sketch :: rest) = (ofSketches? rest).map (expr :: ·) := by
  cases sketch with
  | leaf kind text => simp [ofSketch?] at read
  | node kind cause children =>
    rw [ofSketches?, read]
    · cases ofSketches? rest <;> rfl
    · nofun

theorem ofSketches?_of_forall₂ {exprs : List CoreExpr} {sketches : List Sketch}
    (read : List.Forall₂ (fun expr sketch => ofSketch? sketch = some expr) exprs sketches) :
    ofSketches? sketches = some exprs := by
  induction read with
  | nil => rw [ofSketches?]
  | cons first _ ih => rw [ofSketches?_cons first, ih, Option.map_some]

def IsField (field : Word .lowerName × CoreExpr) (sketch : Sketch) : Prop :=
  ∃ colon value, sketch = .node .recordField none
    [.leaf .lowerName field.1.text, colon, value] ∧ ofSketch? value = some field.2

theorem ofFields?_cons {field : Word .lowerName × CoreExpr} (read : IsField field sketch)
    (rest : List Sketch) : ofFields? (sketch :: rest) = (ofFields? rest).map (field :: ·) := by
  obtain ⟨colon, value, rfl, read⟩ := read
  rw [ofFields?, Word.ofText?_text, read]
  cases ofFields? rest <;> rfl

/--
The items of a list between brackets: if words are passed over and each item is
read from its sketch, the items are read from their sketches with words between
and around them.
-/
theorem read_listed {ι : Type} {decode : List Sketch → Option (List ι)} {IsItem : ι → Sketch → Prop}
    (stops : decode [] = some [])
    (skips : ∀ kind text rest, decode (.leaf kind text :: rest) = decode rest)
    (takes : ∀ {item sketch}, IsItem item sketch → ∀ rest,
      decode (sketch :: rest) = (decode rest).map (item :: ·))
    {items : List ι} {sketches : List Sketch} (read : List.Forall₂ IsItem items sketches)
    (left separator right : TokenKind) (before between behind : String) :
    decode (.leaf left before :: (sketches.intersperse (.leaf separator between) ++
      [.leaf right behind])) = some items := by
  rw [skips]
  induction read with
  | nil => rw [List.intersperse_nil, List.nil_append, skips, stops]
  | cons first later ih =>
    cases later with
    | nil =>
      rw [List.intersperse_singleton, List.singleton_append, takes first, skips, stops,
        Option.map_some]
    | cons second others =>
      rw [List.intersperse_cons_cons, List.cons_append, takes first, List.cons_append, skips, ih,
        Option.map_some]

theorem ofLambda?_names (names : List (Word .lowerName)) {arrow : String} {body : CoreExpr}
    (read : ofSketch? sketch = some body) :
    ofLambda? (names.map (fun name => .node .binderVar none [.leaf .lowerName name.text]) ++
      [.leaf .arrow arrow, sketch]) = some (names, body) := by
  induction names with
  | nil =>
    rw [List.map_nil, List.nil_append, ofLambda?, read]
    rfl
  | cons name rest ih =>
    rw [List.map_cons, List.cons_append, ofLambda?, Word.ofText?_text]
    simp only [ih]
    rfl

end CoreExpr

end Offside
