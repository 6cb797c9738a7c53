import Mathlib.Data.List.Forall2
import Offside.Proofs.CoreExpressions
import Offside.Proofs.CoreProductions

/-!
# Reading core expressions back

The words of a core expression are read to a tree that stands for the
expression, if there are enough levels of nesting.  The proof follows the
expression: every part is read as something that needs no brackets, since it
is a single word or stands in parentheses, and the production of the whole
puts the parts together.  The levels that an expression takes are exact, so
with fewer levels something is reported.
-/

namespace Offside

open Grammar

namespace CoreExpr

/-! ### What follows a part -/

/-- Kinds of words in front of which every expression ends. -/
def endsExpr : TokenKind → Bool
  | .closing _ | .comma | .keyword .thenWord | .keyword .elseWord | .keyword .ofWord
  | .keyword .whereWord | .layoutEnd | .eof => true
  | _ => false

section Ahead

variable {ahead : List Sight}

theorem frontKind_ne {test : TokenKind → Bool} {kind : TokenKind}
    (holds : test (frontKind ahead) = true) (fails : test kind = false) :
    frontKind ahead ≠ kind := by
  rintro rfl
  rw [holds] at fails
  cases fails

theorem glance_seesArgument :
    seesArgument.glance? ahead =
      some (isExprAtomStart (frontKind ahead) || frontKind ahead = .atSign) :=
  rfl

theorem noArgument_of_endsExpr (ends : endsExpr (frontKind ahead) = true) :
    seesArgument.glance? ahead = some false := by
  rw [glance_seesArgument]
  revert ends
  generalize frontKind ahead = kind
  unfold endsExpr
  split <;> intro ends <;> first | rfl | cases ends

theorem argument_of_startsPart (starts : startsPart (frontKind ahead) = true) :
    seesArgument.glance? ahead = some true := by
  rw [glance_seesArgument]
  revert starts
  generalize frontKind ahead = kind
  unfold startsPart
  split <;> intro starts <;> first | rfl | cases starts

theorem noMinus_of_frontKind (noSign : frontKind ahead ≠ .operator) :
    (seesOperator "-").glance? ahead = some false := by
  have glanced : (seesOperator "-").glance? ahead =
      some (frontKind ahead = .operator && (sightAt ahead 0).text = "-") := rfl
  rw [glanced, decide_eq_false noSign, Bool.false_and]

theorem noOperator_of_endsExpr (ends : endsExpr (frontKind ahead) = true) :
    (operatorName .expr).glance? ahead = some none := by
  rw [operatorName, Script.glance?_bind, Script.glance?]
  rw [frontKind] at ends
  generalize sightAt ahead 0 = sight at ends ⊢
  obtain ⟨kind, text⟩ := sight
  cases kind <;> first | rfl | cases ends

end Ahead

variable {ground : Ground} {calls : Nat} {rest : List Sight}
  {done : List Sketch} {expr : CoreExpr} {sketch : Sketch}

/-! ### Parts -/

/-- As a part, the expression is read to the sketch, which stands for it. -/
structure ReadsPart (ground : Ground) (expr : CoreExpr) (sketch : Sketch) : Prop where
  standsFor : ofSketch? sketch = some expr
  carries : ∀ calls rest done, 8 * expr.part.length ≤ calls →
    Carries ground calls exprAtom true expr.partLevels ⟨expr.part ++ rest, done⟩
      ⟨rest, done ++ [sketch]⟩

/-- By itself, the expression is read to the sketch, which stands for it. -/
structure ReadsWhole (ground : Ground) (expr : CoreExpr) (sketch : Sketch) : Prop where
  standsFor : ofSketch? sketch = some expr
  carries : ∀ calls rest done, 8 * expr.words.length + 8 ≤ calls →
    endsExpr (frontKind rest) = true →
    Carries ground calls (.call .expr) true (expr.levels + 1) ⟨expr.words ++ rest, done⟩
      ⟨rest, done ++ [sketch]⟩

theorem startsPart_part (expr : CoreExpr) (rest : List Sight) :
    startsPart (frontKind (expr.part ++ rest)) = true := by
  obtain ⟨first, others, words, starts⟩ := expr.part_eq_cons
  rw [words]
  exact starts

theorem length_part_pos (expr : CoreExpr) : 0 < expr.part.length := by
  obtain ⟨first, others, words, -⟩ := expr.part_eq_cons
  rw [words]
  exact Nat.succ_pos _

namespace ReadsPart

theorem toPostfix (reads : ReadsPart ground expr sketch)
    (enough : 8 * expr.part.length ≤ calls) (noSelection : frontKind rest ≠ .dot)
    (noUpdate : frontKind rest ≠ .openBrace) :
    Carries ground calls exprPostfix true expr.partLevels ⟨expr.part ++ rest, done⟩
      ⟨rest, done ++ [sketch]⟩ :=
  .exprPostfix_of_atom (reads.carries calls rest done enough) noSelection noUpdate

theorem toArgument (reads : ReadsPart ground expr sketch)
    (enough : 8 * expr.part.length ≤ calls) (noSelection : frontKind rest ≠ .dot)
    (noUpdate : frontKind rest ≠ .openBrace) :
    Carries ground calls argument () expr.partLevels ⟨expr.part ++ rest, done⟩
      ⟨rest, done ++ [sketch]⟩ :=
  .argument_of_exprPostfix (reads.toPostfix enough noSelection noUpdate)
    (frontKind_ne (expr.startsPart_part rest) rfl)

theorem toOperand (reads : ReadsPart ground expr sketch)
    (enough : 8 * expr.part.length + 1 ≤ calls) (noSelection : frontKind rest ≠ .dot)
    (noUpdate : frontKind rest ≠ .openBrace) (noArgument : seesArgument.glance? rest = some false) :
    Carries ground calls (.call .operand) true expr.partLevels ⟨expr.part ++ rest, done⟩
      ⟨rest, done ++ [sketch]⟩ :=
  (Carries.operand_of_app (.exprApp_of_exprPostfix (reads.toPostfix le_rfl noSelection noUpdate)
    noArgument) (noMinus_of_frontKind (frontKind_ne (expr.startsPart_part rest) rfl))).mono enough

theorem toChain (reads : ReadsPart ground expr sketch)
    (enough : 8 * expr.part.length + 2 ≤ calls) (ends : endsExpr (frontKind rest) = true)
    (least : Nat) (parent : Option ChainOperator) :
    Carries ground calls (.call (.chain .expr least parent)) true expr.partLevels
      ⟨expr.part ++ rest, done⟩ ⟨rest, done ++ [sketch]⟩ :=
  (Carries.chain_of_operand .expr (reads.toOperand le_rfl (frontKind_ne ends rfl)
    (frontKind_ne ends rfl) (noArgument_of_endsExpr ends))
    (noOperator_of_endsExpr ends)).mono enough

theorem toExpr (reads : ReadsPart ground expr sketch)
    (enough : 8 * expr.part.length + 3 ≤ calls) (ends : endsExpr (frontKind rest) = true) :
    Carries ground calls (.call .expr) true (expr.partLevels + 1)
      ⟨expr.part ++ rest, done⟩ ⟨rest, done ++ [sketch]⟩ :=
  (Carries.expr_of_chain (reads.toChain le_rfl ends 0 none) (frontKind_ne ends rfl)).mono enough

end ReadsPart

/-! ### Lists of parts -/

section Lists

variable {ι : Type} {words : ι → List Sight} {need : ι → Nat} {items : List ι}
  {sketches : List Sketch}

/-- Items with commas between them, if each of them ends in front of a comma or what follows. -/
theorem turns_listed {item : Script Unit} {IsSketch : ι → Sketch → Prop}
    {endsItem : TokenKind → Bool} (comma : endsItem .comma = true)
    (read : List.Forall₂ IsSketch items sketches) (nonempty : items ≠ [])
    (each : ∀ listed sketch rest done, IsSketch listed sketch →
      8 * (words listed).length + 3 ≤ calls → endsItem (frontKind rest) = true →
      Carries ground calls item () (need listed) ⟨words listed ++ rest, done⟩
        ⟨rest, done ++ [sketch]⟩)
    (enough : 8 * ([⟨.comma, ","⟩].intercalate (items.map words)).length + 3 ≤ calls)
    (ends : endsItem (frontKind rest) = true) (noComma : frontKind rest ≠ .comma) :
    Carries.Turns ground calls (separatedRound .comma item) () ()
      (items.foldr (fun listed most => max (need listed) most) 0)
      ⟨[⟨.comma, ","⟩].intercalate (items.map words) ++ rest, done⟩
      ⟨rest, done ++ sketches.intersperse (.leaf .comma ",")⟩ := by
  induction read generalizing done with
  | nil => exact absurd rfl nonempty
  | @cons listed sketch items sketches first later ih =>
    cases later with
    | nil =>
      rw [List.map_singleton, List.intercalate_singleton] at enough ⊢
      rw [List.foldr_cons, List.foldr_nil, Nat.max_zero]
      exact .last (each _ _ rest done first enough ends) noComma
    | cons second others =>
      rw [List.map_cons, List.map_cons, List.intercalate_cons_cons] at enough ⊢
      rw [List.length_append, List.length_append] at enough
      rw [List.intersperse_cons_cons, List.append_assoc, List.append_assoc]
      refine .next (each _ _ _ done first (by omega) comma) ?_
      rw [List.append_cons done sketch (_ :: _), List.append_cons _ _ (List.intersperse _ _)]
      exact ih (List.cons_ne_nil _ _) (by rw [List.map_cons]; omega)

theorem turns_arguments {arguments : List CoreExpr} {function : List Sketch}
    (read : List.Forall₂ (ReadsPart ground) arguments sketches)
    (enough : 8 * (arguments.map part).flatten.length ≤ calls)
    (ends : endsExpr (frontKind rest) = true) :
    Carries.Turns ground calls (whileRound seesArgument argument) () ()
      (arguments.foldr (fun argument most => max (argument.partLevels + 0) most) 0)
      ⟨(arguments.map part).flatten ++ rest, function⟩ ⟨rest, function ++ sketches⟩ := by
  induction read generalizing function with
  | nil =>
    rw [List.append_nil]
    exact .unseen (noArgument_of_endsExpr ends)
  | @cons argument sketch arguments sketches first later ih =>
    rw [List.map_cons, List.flatten_cons] at enough ⊢
    rw [List.length_append] at enough
    rw [List.append_assoc, List.append_cons]
    have follows : ∀ kind, startsPart kind = false → endsExpr kind = false →
        frontKind ((arguments.map part).flatten ++ rest) ≠ kind := by
      intro kind noStart noEnd
      cases arguments with
      | nil => exact frontKind_ne ends noEnd
      | cons second others =>
        rw [List.map_cons, List.flatten_cons, List.append_assoc]
        exact frontKind_ne (second.startsPart_part _) noStart
    refine .seen (argument_of_startsPart (argument.startsPart_part _))
      (first.toArgument (by omega) (follows .dot rfl rfl) (follows .openBrace rfl rfl)) ?_
      (ih (by omega))
    have taken := argument.length_part_pos
    simp only [List.length_append]
    omega

theorem turns_variables (first : Word .lowerName) (others : List (Word .lowerName))
    (noAt : frontKind rest ≠ .atSign) (ends : seesBinderAtom.glance? rest = some false) :
    Carries.Turns ground (calls + 1)
      (whileRound seesBinderAtom (Grammar.ignore (.call .binderAtom))) () () 1
      ⟨(first :: others).map Word.sight ++ rest, done⟩
      ⟨rest, done ++ (first :: others).map fun name =>
        .node .binderVar none [.leaf .lowerName name.text]⟩ := by
  induction others generalizing first done with
  | nil =>
    exact .seen rfl (.ignore (.binderAtom_lower noAt)) (Nat.lt_succ_self _) (.unseen ends)
  | cons second others ih =>
    have split : done ++ ((first :: second :: others).map fun name =>
          .node .binderVar none [.leaf .lowerName name.text]) =
        done ++ [.node .binderVar none [.leaf .lowerName first.text]] ++
          (second :: others).map fun name =>
            .node .binderVar none [.leaf .lowerName name.text] :=
      List.append_cons _ _ _
    have noAt : frontKind ((second :: others).map Word.sight ++ rest) ≠ .atSign :=
      (nofun : TokenKind.lowerName ≠ .atSign)
    rw [split]
    exact .seen rfl (.ignore (.binderAtom_lower noAt)) (Nat.lt_succ_self _) (ih second)

end Lists

/-! ### From the parts to the whole -/

theorem noOperatorName (expr : CoreExpr) (text : String) (rest : List Sight) :
    seesOperatorName.glance? (⟨.openParen, text⟩ :: (expr.words ++ rest)) = some false := by
  have plain : ∀ {ahead : List Sight}, startsPart (frontKind ahead) = true →
      seesOperatorName.glance? (⟨.openParen, text⟩ :: ahead) = some false := by
    intro ahead starts
    have first : (kindAt 1).glance? (⟨.openParen, text⟩ :: ahead) = some (frontKind ahead) := rfl
    have noSign : ¬ (frontKind ahead = .operator || frontKind ahead = .qualifiedOperator ||
        frontKind ahead = .colon) = true := by
      revert starts
      generalize frontKind ahead = kind
      unfold startsPart
      split <;> intro starts <;> first | decide | cases starts
    rw [Script.glance?_bind, first, Option.bind_some, if_neg noSign]
    rfl
  cases expr with
  | app function first others =>
    rw [words, List.append_assoc]
    exact plain (function.startsPart_part _)
  | binary left operator right =>
    rw [words, List.append_assoc]
    exact plain (left.startsPart_part _)
  | negate operand =>
    have noEnd : frontKind (operand.part ++ rest) ≠ .closeParen :=
      frontKind_ne (operand.startsPart_part rest) rfl
    exact congrArg some (decide_eq_false noEnd)
  | con qualified name => cases qualified <;> rfl
  | _ => rw [words]; rfl

theorem ReadsWhole.toPart (reads : ReadsWhole ground expr sketch)
    (composite : expr.isAtom = false) :
    ReadsPart ground expr
      (.node .exprParens none [.leaf .openParen "(", sketch, .leaf .closeParen ")"]) where
  standsFor := by rw [ofSketch?, reads.standsFor]
  carries calls rest done enough := by
    have part : expr.part = ⟨.openParen, "("⟩ :: (expr.words ++ [⟨.closeParen, ")"⟩]) := by
      rw [part, bracketed, composite]
      rfl
    have levels : expr.partLevels = expr.levels + 1 := by
      rw [partLevels, bracketedLevels, composite]
      rfl
    rw [part, List.length_cons, List.length_append] at enough
    rw [part, levels, List.cons_append, List.append_assoc]
    exact .exprAtom_parens (reads.carries calls _ _ (by omega) rfl) (expr.noOperatorName "(" _)

theorem ReadsPart.toWhole (reads : ReadsPart ground expr sketch)
    (atom : expr.isAtom = true) : ReadsWhole ground expr sketch where
  standsFor := reads.standsFor
  carries calls rest done enough ends := by
    have part : expr.part = expr.words := by
      rw [part, bracketed, if_pos atom]
    have levels : expr.levels = expr.partLevels := by
      cases expr with
      | var _ | con _ _ | int _ => rw [levels]; rfl
      | _ => cases atom
    rw [levels, ← part]
    exact reads.toExpr (by rw [part]; omega) ends

theorem expr_of_app {need : Nat} {ahead : List Sight} {finished : List Sketch}
    (app : Carries ground calls exprApp true need ⟨ahead, done⟩ ⟨rest, finished⟩)
    (noSign : frontKind ahead ≠ .operator) (ends : endsExpr (frontKind rest) = true) :
    Carries ground (calls + 3) (.call .expr) true (need + 1) ⟨ahead, done⟩
      ⟨rest, finished⟩ :=
  .expr_of_chain (.chain_of_operand .expr (.operand_of_app app (noMinus_of_frontKind noSign))
    (noOperator_of_endsExpr ends)) (frontKind_ne ends rfl)

theorem expr_of_atom {need : Nat} {ahead : List Sight} {finished : List Sketch}
    (atom : Carries ground calls exprAtom true need ⟨ahead, done⟩ ⟨rest, finished⟩)
    (noSign : frontKind ahead ≠ .operator) (ends : endsExpr (frontKind rest) = true) :
    Carries ground (calls + 3) (.call .expr) true (need + 1) ⟨ahead, done⟩
      ⟨rest, finished⟩ :=
  expr_of_app (.exprApp_of_exprPostfix (.exprPostfix_of_atom atom (frontKind_ne ends rfl)
    (frontKind_ne ends rfl)) (noArgument_of_endsExpr ends)) noSign ends

theorem readsWhole_app {function first : CoreExpr} {others : List CoreExpr}
    {functionSketch firstSketch : Sketch} {otherSketches : List Sketch}
    (readFunction : ReadsPart ground function functionSketch)
    (readFirst : ReadsPart ground first firstSketch)
    (readOthers : List.Forall₂ (ReadsPart ground) others otherSketches) :
    ReadsWhole ground (app function first others)
      (.node .exprApp none (functionSketch :: firstSketch :: otherSketches)) where
  standsFor := by
    rw [ofSketch?, readFunction.standsFor, readFirst.standsFor,
      ofSketches?_of_forall₂ (readOthers.imp fun _ _ read => read.standsFor)]
    rfl
  carries calls rest done enough ends := by
    have words : (app function first others).words =
        function.part ++ ((first :: others).map part).flatten := by
      rw [CoreExpr.words, partWords_eq_map]
      rfl
    have levels : (app function first others).levels = max function.partLevels
        ((first :: others).foldr (fun argument most => max (argument.partLevels + 0) most) 0) := by
      rw [CoreExpr.levels, mostLevels_eq_foldr]
      rfl
    have starts : startsPart (frontKind (((first :: others).map part).flatten ++ rest)) = true := by
      rw [List.map_cons, List.flatten_cons, List.append_assoc]
      exact first.startsPart_part _
    rw [words, List.length_append] at enough
    rw [words, levels, List.append_assoc]
    have applied : Carries ground
        (8 * (function.part.length + ((first :: others).map part).flatten.length)) exprApp true _
        ⟨function.part ++ (((first :: others).map part).flatten ++ rest), done⟩ _ :=
      .exprApp_arguments
        (readFunction.toPostfix (by omega) (frontKind_ne starts rfl) (frontKind_ne starts rfl))
        (argument_of_startsPart starts)
        (turns_arguments (.cons readFirst readOthers) (by omega) ends)
    exact (expr_of_app applied (frontKind_ne (function.startsPart_part _) rfl) ends).mono (by omega)

theorem readsWhole_binary (quiet : ground.setting.reportsUnknown = false) {left right : CoreExpr}
    {leftSketch rightSketch : Sketch} (operator : Word .operator)
    (readLeft : ReadsPart ground left leftSketch) (readRight : ReadsPart ground right rightSketch) :
    ReadsWhole ground (binary left operator right)
      (.node .exprBinary none
        [leftSketch, .node .operator none [.leaf .operator operator.text], rightSketch]) where
  standsFor := by
    rw [ofSketch?, readLeft.standsFor, readRight.standsFor, Word.ofText?_text]
    rfl
  carries calls rest done enough ends := by
    have words : (binary left operator right).words =
        left.part ++ operator.sight :: right.part := by
      rfl
    rw [words, List.length_append, List.length_cons] at enough
    rw [words, List.append_assoc]
    have chained : Carries ground (8 * (left.part.length + right.part.length) + 3)
        (.call (.chain .expr 0 none)) true (max left.partLevels (right.partLevels + 1))
        ⟨left.part ++ operator.sight :: (right.part ++ rest), done⟩ _ :=
      .chain_binary quiet (readLeft.toOperand (by omega) (by rintro ⟨⟩) (by rintro ⟨⟩) rfl)
        (fun least parent => readRight.toChain (by omega) ends least parent)
        (noOperator_of_endsExpr ends)
    exact (Carries.expr_of_chain chained (frontKind_ne ends rfl)).mono (by omega)

theorem readsWhole_negate {operand : CoreExpr} {operandSketch : Sketch}
    (readOperand : ReadsPart ground operand operandSketch) :
    ReadsWhole ground (negate operand)
      (.node .exprNegate none [.leaf .operator "-", operandSketch]) where
  standsFor := by
    rw [ofSketch?, readOperand.standsFor, Option.map_some]
  carries calls rest done enough ends := by
    have words : (negate operand).words = ⟨.operator, "-"⟩ :: operand.part := by
      rfl
    rw [words, List.length_cons] at enough
    have negated : Carries ground (8 * operand.part.length + 2) (.call .operand) true
        (operand.partLevels + 1) ⟨⟨.operator, "-"⟩ :: (operand.part ++ rest), done⟩ _ :=
      .operand_negate (readOperand.toOperand (by omega) (frontKind_ne ends rfl)
        (frontKind_ne ends rfl) (noArgument_of_endsExpr ends))
    exact (Carries.expr_of_chain (.chain_of_operand .expr negated (noOperator_of_endsExpr ends))
      (frontKind_ne ends rfl)).mono (by omega)

/-- A composite expression that needs no brackets: a bracket, a keyword or a sign opens it. -/
theorem ReadsWhole.of_atom (opening : Sight) {others : List Sight}
    (noSign : opening.kind ≠ .operator) (words : expr.words = opening :: others)
    (standsFor : ofSketch? sketch = some expr)
    (atom : ∀ calls rest done, 8 * others.length + 3 ≤ calls → endsExpr (frontKind rest) = true →
      Carries ground calls exprAtom true expr.levels ⟨opening :: (others ++ rest), done⟩
        ⟨rest, done ++ [sketch]⟩) : ReadsWhole ground expr sketch where
  standsFor := standsFor
  carries calls rest done enough ends := by
    rw [words, List.length_cons] at enough
    rw [words]
    exact (expr_of_atom (atom _ rest done le_rfl ends) noSign ends).mono
      (by omega)

theorem frontKind_intercalate {separator : List Sight} (first : Sight) (others : List Sight)
    (lists : List (List Sight)) (rest : List Sight) :
    frontKind (separator.intercalate ((first :: others) :: lists) ++ rest) = first.kind := by
  cases lists <;> rfl

theorem readsWhole_array {items : List CoreExpr} {sketches : List Sketch}
    (read : List.Forall₂ (ReadsPart ground) items sketches) :
    ReadsWhole ground (array items)
      (.node .exprArray none (.leaf .openSquare "[" ::
        (sketches.intersperse (.leaf .comma ",") ++ [.leaf .closeSquare "]"]))) := by
  refine .of_atom ⟨.openSquare, "["⟩ (by decide) (by rw [words, partWords_eq_map]) ?_
    fun calls rest done enough ends => ?_
  · have standsFor := read_listed (by rw [ofSketches?]) (fun _ _ _ => by rw [ofSketches?])
      ofSketches?_cons (read.imp fun _ _ read => read.standsFor) .openSquare .comma .closeSquare
    rw [ofSketch?, standsFor, Option.map_some]
  rw [levels, mostLevels_eq_foldr, List.append_assoc]
  rw [List.length_append] at enough
  cases read with
  | nil => exact .exprAtom_emptyArray
  | @cons first sketch items sketches readFirst readLater =>
    have noComma : frontKind (⟨.closeSquare, "]"⟩ :: rest) ≠ .comma := by rintro ⟨⟩
    refine .exprAtom_array ?_ (turns_listed rfl (.cons readFirst readLater)
      (List.cons_ne_nil first items) (fun _ _ _ _ reads enough ends =>
        .ignore (reads.toExpr enough ends)) (by omega) rfl noComma)
    obtain ⟨word, words, spelled, starts⟩ := first.part_eq_cons
    rw [List.map_cons, spelled, frontKind_intercalate]
    exact fun equal => absurd (equal ▸ starts) (by decide)

def ReadsField (ground : Ground) (field : Word .lowerName × CoreExpr) (sketch : Sketch) : Prop :=
  ∃ value, sketch = .node .recordField none
    [.leaf .lowerName field.1.text, .leaf .colon ":", value] ∧ ReadsPart ground field.2 value

theorem ReadsField.carries {field : Word .lowerName × CoreExpr}
    (reads : ReadsField ground field sketch)
    (enough : 8 * (fieldPart field).length ≤ calls) (ends : endsExpr (frontKind rest) = true) :
    Carries ground calls (Grammar.recordField (Grammar.ignore (.call .expr))) ()
      (field.2.partLevels + 1) ⟨fieldPart field ++ rest, done⟩ ⟨rest, done ++ [sketch]⟩ := by
  obtain ⟨value, rfl, readsValue⟩ := reads
  rw [fieldPart, List.length_cons, List.length_cons] at enough
  exact .recordField rfl (.ignore (readsValue.toExpr (by omega) ends))

theorem readsWhole_record {fields : List (Word .lowerName × CoreExpr)} {sketches : List Sketch}
    (read : List.Forall₂ (ReadsField ground) fields sketches) :
    ReadsWhole ground (record fields)
      (.node .exprRecord none (.leaf .openBrace "\x7b" ::
        (sketches.intersperse (.leaf .comma ",") ++ [.leaf .closeBrace "\x7d"]))) := by
  refine .of_atom ⟨.openBrace, "\x7b"⟩ (by decide) (by rw [words, fieldWords_eq_map]) ?_
    fun calls rest done enough ends => ?_
  · have areFields : List.Forall₂ IsField fields sketches :=
      read.imp fun _ _ reads => by
        obtain ⟨value, same, read⟩ := reads
        exact ⟨_, value, same, read.standsFor⟩
    have standsFor := read_listed (by rw [ofFields?]) (fun _ _ _ => by rw [ofFields?])
      ofFields?_cons areFields .openBrace .comma .closeBrace "\x7b" "," "\x7d"
    rw [ofSketch?, standsFor, Option.map_some]
  rw [levels, mostFieldLevels_eq_foldr, List.append_assoc]
  rw [List.length_append] at enough
  cases read with
  | nil => exact .exprAtom_emptyRecord
  | @cons first sketch fields sketches readFirst readLater =>
    have noComma : frontKind (⟨.closeBrace, "\x7d"⟩ :: rest) ≠ .comma := by rintro ⟨⟩
    refine .exprAtom_record ?_ (turns_listed rfl (.cons readFirst readLater)
      (List.cons_ne_nil first fields) (fun _ _ _ _ reads enough ends =>
        reads.carries (by omega) ends) (by omega) rfl noComma)
    rw [List.map_cons, fieldPart, frontKind_intercalate]
    show TokenKind.lowerName ≠ .closeBrace
    decide

theorem readsWhole_conditional {test yes no : CoreExpr} {testSketch yesSketch noSketch : Sketch}
    (readTest : ReadsPart ground test testSketch) (readYes : ReadsPart ground yes yesSketch)
    (readNo : ReadsPart ground no noSketch) :
    ReadsWhole ground (conditional test yes no)
      (.node .exprIf none [.leaf (.keyword .ifWord) "if", testSketch,
        .leaf (.keyword .thenWord) "then", yesSketch, .leaf (.keyword .elseWord) "else",
        noSketch]) := by
  refine .of_atom ⟨.keyword .ifWord, "if"⟩ nofun rfl ?_
    fun calls rest done enough ends => ?_
  · rw [ofSketch?, readTest.standsFor, readYes.standsFor, readNo.standsFor]
    rfl
  change 8 * (test.part ++ _ :: (yes.part ++ _ :: no.part)).length + 3 ≤ calls at enough
  simp only [List.length_append, List.length_cons] at enough
  rw [List.append_assoc, List.cons_append, List.append_assoc]
  exact .exprAtom_conditional (readTest.toExpr (by omega) rfl) (readYes.toExpr (by omega) rfl)
    (readNo.toExpr (by omega) ends)

theorem readsWhole_lambda {body : CoreExpr} {bodySketch : Sketch} (first : Word .lowerName)
    (others : List (Word .lowerName)) (readBody : ReadsPart ground body bodySketch) :
    ReadsWhole ground (lambda first others body)
      (.node .exprLambda none (.leaf .backslash "\\" ::
        ((first :: others).map (fun name => .node .binderVar none [.leaf .lowerName name.text]) ++
          [.leaf .arrow "->", bodySketch]))) := by
  refine .of_atom ⟨.backslash, "\\"⟩ (by decide) rfl ?_
    fun calls rest done enough ends => ?_
  · rw [ofSketch?, ofLambda?_names _ readBody.standsFor]
    rfl
  change 8 * ((first :: others).map Word.sight ++ _ :: body.part).length + 3 ≤ calls at enough
  simp only [List.length_append, List.length_cons] at enough
  obtain ⟨calls, rfl⟩ := Nat.exists_eq_add_of_le' (Nat.le_trans (Nat.le_add_left 1 _) enough)
  have noAt : frontKind (⟨.arrow, "->"⟩ :: (body.part ++ rest)) ≠ .atSign := by rintro ⟨⟩
  have row : ∀ binders : List Sketch, .leaf .backslash "\\" ::
      (binders ++ [.leaf .arrow "->", bodySketch]) =
        [.leaf .backslash "\\"] ++ binders ++ [.leaf .arrow "->"] ++ [bodySketch] := by
    intro binders
    rw [List.append_assoc]
    rfl
  rw [List.append_assoc, row]
  exact .exprAtom_lambda rfl (turns_variables first others noAt rfl)
    (readBody.toExpr (by omega) ends)

/-! ### All expressions -/

theorem exists_sketches {ι : Type} {IsSketch : ι → Sketch → Prop} {items : List ι}
    (each : ∀ item ∈ items, ∃ sketch, IsSketch item sketch) :
    ∃ sketches, List.Forall₂ IsSketch items sketches := by
  induction items with
  | nil => exact ⟨[], .nil⟩
  | cons first others ih =>
    obtain ⟨⟨sketch, isFirst⟩, later⟩ := List.forall_mem_cons.mp each
    obtain ⟨sketches, areOthers⟩ := ih later
    exact ⟨sketch :: sketches, .cons isFirst areOthers⟩

theorem exists_reads (quiet : ground.setting.reportsUnknown = false) (expr : CoreExpr) :
    (∃ sketch, ReadsWhole ground expr sketch) ∧
      ∃ sketch, ReadsPart ground expr sketch := by
  have atom : ∀ {expr : CoreExpr} {sketch : Sketch}, expr.isAtom = true →
      ReadsPart ground expr sketch →
      (∃ sketch, ReadsWhole ground expr sketch) ∧
        ∃ sketch, ReadsPart ground expr sketch :=
    fun isAtom reads => ⟨⟨_, reads.toWhole isAtom⟩, _, reads⟩
  have composite : ∀ {expr : CoreExpr} {sketch : Sketch}, expr.isAtom = false →
      ReadsWhole ground expr sketch →
      (∃ sketch, ReadsWhole ground expr sketch) ∧
        ∃ sketch, ReadsPart ground expr sketch :=
    fun isComposite reads => ⟨⟨_, reads⟩, _, reads.toPart isComposite⟩
  induction expr with
  | var name =>
    exact atom rfl ⟨by rw [ofSketch?, Word.ofText?_text]; rfl, fun _ _ _ _ => .exprAtom_lower⟩
  | con qualified name =>
    refine atom rfl ⟨?_, fun _ _ _ _ => .exprAtom_proper⟩
    cases qualified <;>
      exact (congrArg (Option.map (con _)) (Word.ofText?_text name) : _ = some _)
  | int digits =>
    exact atom rfl ⟨by rw [ofSketch?, Word.ofText?_text]; rfl, fun _ _ _ _ => .exprAtom_integer⟩
  | app function first others ihFunction ihFirst ihOthers =>
    obtain ⟨-, _, readFunction⟩ := ihFunction
    obtain ⟨-, _, readFirst⟩ := ihFirst
    obtain ⟨_, readOthers⟩ := exists_sketches fun other member => (ihOthers other member).2
    exact composite rfl (readsWhole_app readFunction readFirst readOthers)
  | binary left operator right ihLeft ihRight =>
    obtain ⟨-, _, readLeft⟩ := ihLeft
    obtain ⟨-, _, readRight⟩ := ihRight
    exact composite rfl (readsWhole_binary quiet operator readLeft readRight)
  | negate operand ih =>
    obtain ⟨-, _, readOperand⟩ := ih
    exact composite rfl (readsWhole_negate readOperand)
  | array items ih =>
    obtain ⟨_, readItems⟩ := exists_sketches fun item member => (ih item member).2
    exact composite rfl (readsWhole_array readItems)
  | record fields ih =>
    obtain ⟨_, readFields⟩ := exists_sketches fun field member => by
      obtain ⟨_, reads⟩ := (ih field member).2
      exact (⟨_, _, rfl, reads⟩ : ∃ sketch, ReadsField ground field sketch)
    exact composite rfl (readsWhole_record readFields)
  | conditional test yes no ihTest ihYes ihNo =>
    obtain ⟨-, _, readTest⟩ := ihTest
    obtain ⟨-, _, readYes⟩ := ihYes
    obtain ⟨-, _, readNo⟩ := ihNo
    exact composite rfl (readsWhole_conditional readTest readYes readNo)
  | lambda first others body ih =>
    obtain ⟨-, _, readBody⟩ := ih
    exact composite rfl (readsWhole_lambda first others readBody)

/-! ### Whole texts -/

/-- The expression that the first declaration of a text gives a name to. -/
def defined? (root : Tree) : Option CoreExpr :=
  match root.shape?.map Shape.sketch with
  | some (.node .wholeModule _
      (.node .valueDecl _ [_, .node .unguardedRhs _ [_, body]] :: _)) => ofSketch? body
  | _ => none

theorem carries_definition (never : ∀ count, ground.setting.isCancelled count = false)
    {need : Nat} {words : List Sight} {sketch : Sketch}
    (body : Carries ground calls (.call .expr) true need
      ⟨words ++ [⟨.eof, ""⟩], [.leaf .equals "="]⟩ ⟨[⟨.eof, ""⟩], [.leaf .equals "=", sketch]⟩) :
    Carries ground calls wholeModule false need
      ⟨⟨.lowerName, "x"⟩ :: ⟨.equals, "="⟩ :: words ++ [⟨.eof, ""⟩], []⟩
      ⟨[], [.node .valueDecl none [.leaf .lowerName "x",
        .node .unguardedRhs none [.leaf .equals "=", sketch]], .leaf .eof ""]⟩ := by
  have noWhere : TokenKind.eof ≠ .keyword .whereWord := nofun
  let ahead : List Sight := ⟨.lowerName, "x"⟩ :: ⟨.equals, "="⟩ :: words ++ [⟨.eof, ""⟩]
  have front : ∀ kind, TokenKind.lowerName ≠ kind → frontKind ahead ≠ kind := fun _ => id
  exact .wholeModule (front _ nofun)
    (.topLevel never (front _ nofun) rfl (.decl_value body noWhere) (by simp [ahead]))

theorem carries_line (quiet : ground.setting.reportsUnknown = false)
    (never : ∀ count, ground.setting.isCancelled count = false) (expr : CoreExpr) :
    ∃ sketch, ofSketch? sketch = some expr ∧
      Carries ground (8 * expr.words.length + 8) wholeModule false (expr.levels + 1)
        ⟨⟨.lowerName, "x"⟩ :: ⟨.equals, "="⟩ :: expr.words ++ [⟨.eof, ""⟩], []⟩
        ⟨[], [.node .valueDecl none [.leaf .lowerName "x",
          .node .unguardedRhs none [.leaf .equals "=", sketch]], .leaf .eof ""]⟩ := by
  obtain ⟨⟨sketch, reads⟩, -⟩ := exists_reads quiet expr
  refine ⟨sketch, reads.standsFor, carries_definition never ?_⟩
  exact reads.carries _ [⟨.eof, ""⟩] [.leaf .equals "="] le_rfl rfl

/-- The line of an expression can be read if there are enough levels of nesting, and only then. -/
theorem readWhole?_line (expr : CoreExpr) :
    (expr.levels + 1 ≤ maxDepth → ∃ sketch reading, ofSketch? sketch = some expr ∧
      (Job.ofSource expr.line).readWhole? = some (false, reading) ∧
      Shape.sketches reading.row.shapes = [.node .valueDecl none [.leaf .lowerName "x",
        .node .unguardedRhs none [.leaf .equals "=", sketch]], .leaf .eof ""]) ∧
    (maxDepth < expr.levels + 1 → (Job.ofSource expr.line).readWhole? = none) := by
  obtain ⟨shown, harmless⟩ := lexemes_joined 8 expr.isPlain_of_mem_line
  let job := Job.ofSource expr.line
  obtain ⟨sketch, standsFor, carries⟩ := expr.carries_line
    (rfl : job.ground.setting.reportsUnknown = false) (fun _ => rfl)
  obtain ⟨reads, fails⟩ := job.readWhole?_of_carries shown harmless carries (by
    simp only [List.length_append, List.length_cons]
    omega)
  refine ⟨fun deep => ?_, fails⟩
  obtain ⟨reading, read, sketches⟩ := reads deep
  exact ⟨sketch, reading, standsFor, read, sketches⟩

/--
Parsing the line of an expression reports nothing if and only if the expression
takes no more levels of nesting than there are, and then the expression can be
read back from the tree.
-/
theorem defined?_line (expr : CoreExpr) :
    ((Parse.ofSource expr.line).hasErrors = false ↔ expr.levels + 1 ≤ maxDepth) ∧
      ((Parse.ofSource expr.line).hasErrors = false →
        defined? (Parse.ofSource expr.line).root = some expr) := by
  rw [Parse.ofSource, Parse.withTable]
  obtain ⟨reads, fails⟩ := expr.readWhole?_line
  by_cases deep : expr.levels + 1 ≤ maxDepth
  · obtain ⟨sketch, reading, standsFor, read, sketches⟩ := reads deep
    obtain ⟨-, clean, root⟩ := Job.run_of_readWhole? _ read
    refine ⟨⟨fun _ => deep, fun _ => clean⟩, fun _ => ?_⟩
    rw [defined?, root, Option.map_some, Shape.sketch, sketches]
    exact standsFor
  · rw [Job.hasErrors_of_readWhole?_eq_none _ (fails (Nat.lt_of_not_le deep))]
    exact ⟨⟨(by rintro ⟨⟩), fun fits => absurd fits deep⟩, (by rintro ⟨⟩)⟩

example :
    (binary (app (var ⟨"f", by decide +kernel⟩) (negate (int ⟨"1", by decide +kernel⟩)) [])
      ⟨"+", by decide +kernel⟩ (var ⟨"a", by decide +kernel⟩)).line = "x = ( f ( - 1 ) ) + a" := by
  decide +kernel

end CoreExpr

end Offside
