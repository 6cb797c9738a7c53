import Offside.Proofs.Productions
import Offside.View.Fixity

/-!
# Keywords of fixities in productions

Read off the table of productions: outside of declarations and selections, a
keyword that declares a fixity labels a field, and behind it comes a sign and
no precedence.  The children of a declaration are the tokens that a scan looks
for.  A declaration that is malformed lacks some of them.
-/

namespace Offside

open DeclaredFixity

/-! ### Scanning one token -/

namespace DeclaredFixity

theorem offset_of_match? {associativity : Associativity} {offset : Nat} {tokens : List Token}
    {found : DeclaredFixity} (isFound : match? associativity offset tokens = some found) :
    found.offset = offset := by
  cases tokens with
  | nil => cases isFound
  | cons digits rest =>
    simp only [match?] at isFound
    split at isFound
    · obtain ⟨precedence, -, isFound⟩ := Option.bind_eq_some_iff.mp isFound
      obtain ⟨operator, -, rfl⟩ := Option.map_eq_some_iff.mp isFound
      rfl
    · cases isFound

theorem match?_eq_none {next : Token} (other : next.kind ≠ .integer) (associativity : Associativity)
    (offset : Nat) (rest : List Token) : match? associativity offset (next :: rest) = none :=
  if_neg other

theorem collect_cons_of_none {token : Token} (other : associativity? token.kind = none)
    (rest : List Token) : collect (token :: rest) = collect rest := by
  rw [collect, other]
  rfl

end DeclaredFixity

/-! ### Rows of children -/

def fixityWords : List TokenKind :=
  [.keyword .infixWord, .keyword .infixlWord, .keyword .infixrWord]

variable {kind : TokenKind}

theorem mem_fixityWords {associativity : Associativity}
    (declares : associativity? kind = some associativity) : kind ∈ fixityWords := by
  unfold associativity? at declares
  split at declares
  · exact .tail _ (.head _)
  · exact .tail _ (.tail _ (.head _))
  · exact .head _
  · cases declares

namespace Shape

def isFixityWord : Shape → Bool
  | .leaf token => fixityWords.contains token.kind
  | .node _ _ => false

/-- The shape is a token that a scan looks at, and no precedence. -/
def isNoPrecedence : Shape → Bool
  | .leaf token => token.kind.isSignificant && token.kind ≠ .integer
  | .node _ _ => false

/-- Behind every keyword that declares a fixity comes a token that is no precedence. -/
def harmless : List Shape → Bool
  | [] => true
  | shape :: rest => (!shape.isFixityWord || rest.head?.any isNoPrecedence) && harmless rest

theorem harmless_of_avoids {row : List Shape}
    (avoids : ∀ shape ∈ row, shape.avoids fixityWords [] = true) : harmless row = true := by
  induction row with
  | nil => rfl
  | cons shape rest ih =>
    have other : (!shape.isFixityWord) = true := by
      cases shape with
      | leaf token => exact avoids _ List.mem_cons_self
      | node kind children => rfl
    rw [harmless, other, ih fun shape member => avoids shape (List.mem_cons_of_mem _ member)]
    rfl

end Shape

/-! ### The table -/

namespace Phrase

theorem harmless_labelled {rest : Pattern} {row : List Shape}
    (significant : kind.isSignificant = true) (noPrecedence : kind ≠ .integer)
    (other : kind ∉ fixityWords) (avoids : rest.avoids fixityWords [] = true)
    (fits : row ∈ label * (token kind * rest.language)) : Shape.harmless row = true := by
  obtain ⟨_, ⟨_, ⟨first, rfl, -⟩, rfl⟩, _,
    ⟨_, ⟨_, ⟨second, rfl, isKind⟩, rfl⟩, others, inRest, rfl⟩, rfl⟩ := fits
  have isKind : second.kind = kind := of_decide_eq_true isKind
  have follows : Shape.isNoPrecedence (.leaf second) = true := by
    rw [Shape.isNoPrecedence, isKind, significant, decide_eq_true noPrecedence]
    rfl
  have secondOther : (Shape.leaf second).isFixityWord = false := by
    rw [Shape.isFixityWord, isKind, ← Bool.not_eq_true, List.contains_iff_mem]
    exact other
  show Shape.harmless (.leaf first :: .leaf second :: others) = true
  rw [Shape.harmless, Shape.harmless, List.head?_cons, Option.any_some, follows, secondOther,
    Shape.harmless_of_avoids (Pattern.avoids_of_mem avoids inRest), Bool.or_true]
  rfl

end Phrase

open Phrase

theorem harmless_of_spelled {kind : NodeKind} {row : List Shape}
    (notDeclared : kind ≠ .fixityDecl) (notSelected : kind ≠ .exprRecordAccess)
    (spelled : row ∈ production kind) : Shape.harmless row = true := by
  by_cases labelled : kind = .recordField ∨ kind = .recordUpdateField ∨ kind = .rowField
  · rcases labelled with rfl | rfl | rfl
    · rcases spelled with named | punned
      · exact @harmless_labelled .colon _ _ rfl nofun (by decide) rfl named
      · exact Shape.harmless_of_avoids (@Pattern.avoids_of_mem _ _ _ rfl _ punned)
    · obtain ⟨first, inFirst, rest, inRest, rfl⟩ := spelled
      rcases inRest with nested | set
      · exact @harmless_labelled (.opening .brace)
          _ _ rfl nofun
          (by decide) rfl (Language.append_mem_mul inFirst nested)
      · exact @harmless_labelled .equals expr _ rfl nofun (by decide) rfl
          (Language.append_mem_mul inFirst set)
    · exact @harmless_labelled .doubleColon type _ rfl nofun (by decide) rfl spelled
  · have avoids : (pattern kind).avoids fixityWords [] = true := by
      cases kind <;> first | rfl | contradiction
    exact Shape.harmless_of_avoids (Pattern.avoids_of_mem avoids spelled)

/-! ### Declarations -/

/-- The tokens of a fixity declaration. -/
structure FixityRow where
  keyword : Token
  digits : Token
  /-- The keyword `type`, if the operator works on types. -/
  space : Option Token
  target : Token
  word : Token
  operator : Token
  associativity : Associativity
  declares : associativity? keyword.kind = some associativity
  isDigits : digits.kind = .integer
  isSpace : ∀ token ∈ space, token.kind = .keyword .typeWord
  isTarget : target.kind.isName = true
  isWord : isAs word = true
  isOperator : DeclaredFixity.isOperator operator.kind = true

namespace FixityRow

def tokens (row : FixityRow) : List Token :=
  row.keyword :: row.digits :: (row.space.toList ++ [row.target, row.word, row.operator])

/-- What the declaration declares, unless its precedence is too large. -/
def declared? (row : FixityRow) : Option DeclaredFixity :=
  (Literal.byte? row.digits.text).map fun precedence =>
    ⟨if row.space.isSome then .type else .value, row.operator.text,
      ⟨row.associativity, precedence⟩, row.keyword.span.start⟩

theorem exists_of_spelled {shapes : List Shape} (spelled : shapes ∈ production .fixityDecl) :
    ∃ row : FixityRow, shapes = row.tokens.map Shape.leaf := by
  obtain ⟨_, ⟨_, ⟨keyword, rfl, isKeyword⟩, rfl⟩, _, ⟨_, ⟨_, ⟨digits, rfl, isDigits⟩, rfl⟩, _,
    ⟨space, inSpace, _, ⟨_, ⟨_, ⟨target, rfl, isTarget⟩, rfl⟩, _, ⟨_, ⟨_, ⟨word, rfl, isWord⟩, rfl⟩,
      _, ⟨_, ⟨operator, rfl, isOperator⟩, rfl⟩, rfl⟩, rfl⟩, rfl⟩, rfl⟩, rfl⟩ := spelled
  obtain ⟨associativity, declares⟩ := Option.isSome_iff_exists.mp isKeyword
  rcases inSpace with noSpace | ⟨_, ⟨space, rfl, isSpace⟩, rfl⟩
  · rw [show space = [] from noSpace]
    exact ⟨⟨keyword, digits, none, target, word, operator, associativity, declares,
      of_decide_eq_true isDigits, nofun, isTarget, isWord, isOperator⟩, rfl⟩
  · refine ⟨⟨keyword, digits, some space, target, word, operator, associativity, declares,
      of_decide_eq_true isDigits, ?_, isTarget, isWord, isOperator⟩, rfl⟩
    intro token member
    rw [← Option.some.inj member]
    exact of_decide_eq_true isSpace

theorem associativity?_eq_none_of_isName (isName : kind.isName = true) :
    associativity? kind = none := by
  cases kind <;> first | rfl | cases isName

theorem associativity?_eq_none_of_isOperator (isOperator : DeclaredFixity.isOperator kind = true) :
    associativity? kind = none := by
  cases kind <;> first | rfl | cases isOperator

variable (row : FixityRow)

theorem word_kind : row.word.kind = .lowerName :=
  of_decide_eq_true (Bool.and_eq_true_iff.mp row.isWord).1

theorem operator?_tokens (rest : List Token) :
    operator? (row.target :: row.word :: row.operator :: rest) = some row.operator.text := by
  rw [operator?, row.isTarget, row.isWord, row.isOperator]
  rfl

theorem match?_tokens (rest : List Token) :
    match? row.associativity row.keyword.span.start (row.digits ::
      (row.space.toList ++ row.target :: row.word :: row.operator :: rest)) = row.declared? := by
  simp only [match?]
  rw [if_pos row.isDigits, declared?]
  cases Literal.byte? row.digits.text with
  | none => rfl
  | some precedence =>
    cases isSpace : row.space with
    | none =>
      have value : row.target.kind ≠ .keyword .typeWord := fun same => by
        have isTarget := row.isTarget
        rw [same] at isTarget
        cases isTarget
      simp only [Option.toList_none, List.nil_append, if_neg value, operator?_tokens]
      rfl
    | some space =>
      simp only [Option.toList_some, List.singleton_append,
        if_pos (row.isSpace space isSpace), operator?_tokens]
      rfl

theorem collect_tokens (rest : List Token) :
    collect (row.tokens ++ rest) = row.declared?.toList ++ collect rest := by
  have passed : collect (row.digits ::
      (row.space.toList ++ row.target :: row.word :: row.operator :: rest)) = collect rest := by
    have spaced (others : List Token) : collect (row.space.toList ++ others) = collect others := by
      cases isSpace : row.space with
      | none => rfl
      | some space => exact collect_cons_of_none (by rw [row.isSpace space isSpace]; rfl) others
    rw [collect_cons_of_none (by rw [row.isDigits]; rfl), spaced,
      collect_cons_of_none (associativity?_eq_none_of_isName row.isTarget),
      collect_cons_of_none (by rw [row.word_kind]; rfl),
      collect_cons_of_none (associativity?_eq_none_of_isOperator row.isOperator)]
  have split : row.tokens ++ rest = row.keyword :: row.digits ::
      (row.space.toList ++ row.target :: row.word :: row.operator :: rest) := by
    simp [tokens]
  rw [split, collect, row.declares, Option.bind_some, match?_tokens, passed]

end FixityRow

/-! ### Declarations as far as they go -/

/-- The tokens of a fixity declaration, as far as they are there. -/
structure FixityDraft where
  keyword : Token
  digits : Option Token
  /-- The keyword `type`, if the operator works on types. -/
  space : Option Token
  target : Option Token
  word : Option Token
  operator : Option Token
  associativity : Associativity
  declares : associativity? keyword.kind = some associativity
  isDigits : ∀ token ∈ digits, token.kind = .integer
  isSpace : ∀ token ∈ space, token.kind = .keyword .typeWord
  isTarget : ∀ token ∈ target, token.kind.isName = true
  isWord : ∀ token ∈ word, isAs token = true
  isOperator : ∀ token ∈ operator, DeclaredFixity.isOperator token.kind = true

theorem find?_toList {test : Token → Bool} {part : Option Token} {answer : Bool}
    (tested : ∀ token ∈ part, test token = answer) :
    part.toList.find? test = if answer then part else none := by
  cases part with
  | none => simp
  | some token => simp [List.find?_singleton, tested token rfl]

namespace FixityDraft

variable (draft : FixityDraft)

def front : List Token :=
  draft.keyword :: (draft.digits.toList ++ (draft.space.toList ++
    (draft.target.toList ++ draft.word.toList)))

def tokens : List Token :=
  draft.front ++ draft.operator.toList

/-- What is declared, if the operator is there and a precedence that is not too large. -/
def declared? : Option DeclaredFixity :=
  (draft.digits.bind fun digits => Literal.byte? digits.text).bind fun precedence =>
    draft.operator.map fun operator =>
      ⟨if draft.space.isSome then .type else .value, operator.text,
        ⟨draft.associativity, precedence⟩, draft.keyword.span.start⟩

theorem mem_operator_of_declared? {found : DeclaredFixity}
    (isFound : draft.declared? = some found) :
    ∃ operator ∈ draft.operator, operator.text = found.operator := by
  obtain ⟨precedence, -, named⟩ := Option.bind_eq_some_iff.mp isFound
  obtain ⟨operator, isOperator, rfl⟩ := Option.map_eq_some_iff.mp named
  exact ⟨operator, isOperator, rfl⟩

/-! What is found among the tokens. -/

theorem test_keyword (test : TokenKind → Bool) (answer : Bool)
    (tested : ∀ kind ∈ fixityWords, test kind = answer) : test draft.keyword.kind = answer :=
  tested _ (mem_fixityWords draft.declares)

theorem test_target (test : TokenKind → Bool) (answer : Bool)
    (tested : ∀ kind ∈ [TokenKind.lowerName, .upperName, .qualifiedLower, .qualifiedUpper],
      test kind = answer) : ∀ token ∈ draft.target, test token.kind = answer := by
  intro token member
  have isName := draft.isTarget token member
  refine tested _ ?_
  cases kind : token.kind <;> rw [kind] at isName <;> first | decide | cases isName

theorem test_digits (test : TokenKind → Bool) :
    ∀ token ∈ draft.digits, test token.kind = test .integer :=
  fun token member => by rw [draft.isDigits token member]

theorem test_space (test : TokenKind → Bool) :
    ∀ token ∈ draft.space, test token.kind = test (.keyword .typeWord) :=
  fun token member => by rw [draft.isSpace token member]

theorem test_word (test : TokenKind → Bool) :
    ∀ token ∈ draft.word, test token.kind = test .lowerName := by
  intro token member
  rw [of_decide_eq_true (Bool.and_eq_true_iff.mp (draft.isWord token member)).1]

theorem test_operator (test : TokenKind → Bool) (answer : Bool)
    (tested : ∀ kind ∈ [TokenKind.operator, .colon], test kind = answer) :
    ∀ token ∈ draft.operator, test token.kind = answer := by
  intro token member
  have isOperator := draft.isOperator token member
  refine tested _ ?_
  cases kind : token.kind <;> rw [kind] at isOperator <;> first | decide | cases isOperator

theorem isSignificant_tokens : ∀ token ∈ draft.tokens, token.kind.isSignificant = true := by
  intro token member
  simp only [tokens, front, List.mem_append, List.mem_cons, Option.mem_toList] at member
  rcases member with (rfl | inDigits | inSpace | inTarget | inWord) | inOperator
  · exact draft.test_keyword _ true (by decide)
  · exact draft.test_digits _ token inDigits
  · exact draft.test_space _ token inSpace
  · exact draft.test_target _ true (by decide) token inTarget
  · exact draft.test_word _ token inWord
  · exact draft.test_operator _ true (by decide) token inOperator

theorem find?_front (test : TokenKind → Bool) (names : Bool)
    (keywords : ∀ kind ∈ fixityWords, test kind = false)
    (tested : ∀ kind ∈ [TokenKind.lowerName, .upperName, .qualifiedLower, .qualifiedUpper],
      test kind = names) (rest : List Token) :
    (draft.front ++ rest).find? (fun token => test token.kind) =
      (if test .integer then draft.digits else none).or
        ((if test (.keyword .typeWord) then draft.space else none).or
          ((if names then draft.target.or draft.word else none).or
            (rest.find? fun token => test token.kind))) := by
  have word : test .lowerName = names := tested _ List.mem_cons_self
  rw [front, List.cons_append, List.find?_cons, draft.test_keyword test false keywords]
  simp only [List.find?_append]
  rw [find?_toList (draft.test_digits test), find?_toList (draft.test_space test),
    find?_toList (draft.test_target test names tested), find?_toList (draft.test_word test), word]
  cases names <;> simp [Option.or_assoc]

theorem find?_digits (rest : List Token) (others : ∀ token ∈ rest, token.kind ≠ .integer) :
    (draft.front ++ rest).find? (fun token => token.kind = .integer) = draft.digits := by
  rw [draft.find?_front (fun kind => kind = .integer) false (by decide) (by decide),
    List.find?_eq_none.mpr fun token member => by simpa using others token member]
  simp

theorem find?_space (rest : List Token) (others : ∀ token ∈ rest, token.kind ≠ .keyword .typeWord) :
    (draft.front ++ rest).find? (fun token => token.kind = .keyword .typeWord) = draft.space := by
  rw [draft.find?_front (fun kind => kind = .keyword .typeWord) false (by decide) (by decide),
    List.find?_eq_none.mpr fun token member => by simpa using others token member]
  simp

theorem find?_operator :
    draft.tokens.find? (fun token => View.isOperator token.kind) = draft.operator := by
  rw [tokens, draft.find?_front View.isOperator false (by decide) (by decide),
    find?_toList (draft.test_operator View.isOperator true (by decide))]
  simp [View.isOperator]

theorem find?_name :
    draft.tokens.find? (fun token => token.kind.isName) = draft.target.or draft.word := by
  rw [tokens, draft.find?_front TokenKind.isName true (by decide) (by decide),
    find?_toList (draft.test_operator TokenKind.isName false (by decide))]
  simp [TokenKind.isName]

def view (span : Span) : View.FixityDecl where
  associativity := some draft.associativity
  precedence := draft.digits.bind fun digits => Literal.byte? digits.text
  target := ((draft.target.or draft.word).map Token.text).filter fun name => name ≠ "as"
  operator := draft.operator.map Token.text
  isType := draft.space.isSome
  span

def IsComplete : Prop :=
  draft.digits.isSome = true ∧ draft.target.isSome = true ∧ draft.word.isSome = true ∧
    draft.operator.isSome = true

end FixityDraft

namespace FixityRow

variable (row : FixityRow)

def draft : FixityDraft where
  keyword := row.keyword
  digits := some row.digits
  space := row.space
  target := some row.target
  word := some row.word
  operator := some row.operator
  associativity := row.associativity
  declares := row.declares
  isDigits := fun _ same => Option.some.inj same ▸ row.isDigits
  isSpace := row.isSpace
  isTarget := fun _ same => Option.some.inj same ▸ row.isTarget
  isWord := fun _ same => Option.some.inj same ▸ row.isWord
  isOperator := fun _ same => Option.some.inj same ▸ row.isOperator

theorem tokens_draft : row.draft.tokens = row.tokens := by
  simp [FixityDraft.tokens, FixityDraft.front, tokens, draft]

theorem declared?_draft : row.draft.declared? = row.declared? := by
  exact Option.map_eq_bind.symm

theorem isSignificant_tokens : ∀ token ∈ row.tokens, token.kind.isSignificant = true :=
  row.tokens_draft ▸ row.draft.isSignificant_tokens

end FixityRow

theorem FixityDraft.IsComplete.exists_row {draft : FixityDraft} (complete : draft.IsComplete) :
    ∃ row : FixityRow, row.draft = draft := by
  obtain ⟨hasDigits, hasTarget, hasWord, hasOperator⟩ := complete
  obtain ⟨keyword, digits, space, target, word, operator, associativity, declares, isDigits,
    isSpace, isTarget, isWord, isOperator⟩ := draft
  obtain ⟨digits, rfl⟩ := Option.isSome_iff_exists.mp hasDigits
  obtain ⟨target, rfl⟩ := Option.isSome_iff_exists.mp hasTarget
  obtain ⟨word, rfl⟩ := Option.isSome_iff_exists.mp hasWord
  obtain ⟨operator, rfl⟩ := Option.isSome_iff_exists.mp hasOperator
  exact ⟨⟨keyword, digits, space, target, word, operator, associativity, declares,
    isDigits _ rfl, isSpace, isTarget _ rfl, isWord _ rfl, isOperator _ rfl⟩, rfl⟩

end Offside
