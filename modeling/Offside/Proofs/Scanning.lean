import Mathlib.Data.String.Basic
import Offside.Token.Scan

/-!
# What the scanner keeps

The tokens of a text spell the text: nothing is skipped between two tokens
and nothing is read twice.  No token with text is of a virtual kind, so the
only virtual token of a scan is the end of the text, and it comes last.
-/

namespace Offside.Token

open Offside.Text

/-! ### The text of a list of tokens -/

@[simp]
theorem textOf_nil : textOf [] = "" := by
  rfl

@[simp]
theorem textOf_cons (token : Token) (rest : List Token) :
    textOf (token :: rest) = token.text ++ textOf rest := by
  simp [textOf]

@[simp]
theorem textOf_append (left right : List Token) :
    textOf (left ++ right) = textOf left ++ textOf right := by
  simp [textOf]

@[simp]
theorem virtual_text (kind : TokenKind) (offset : Nat) : (virtual kind offset).text = "" := by
  rfl

@[simp]
theorem virtual_kind (kind : TokenKind) (offset : Nat) : (virtual kind offset).kind = kind := by
  rfl

theorem textOf_scanFrom (chars : List Char) (offset skip : Nat) :
    textOf (scanFrom offset skip chars) = String.ofList (chars.drop skip) := by
  induction chars generalizing offset skip with
  | nil =>
    cases skip <;> simp [scanFrom]
  | cons first rest ih =>
    cases skip with
    | succ skip =>
      simpa [scanFrom] using ih offset skip
    | zero =>
      simp only [scanFrom, textOf_cons, ih, List.drop_zero, ← String.ofList_append]
      rw [List.cons_append, List.take_append_drop]

theorem textOf_scan (source : String) : textOf (scan source) = source := by
  rw [scan, textOf_scanFrom, List.drop_zero, String.ofList_toList]

theorem text_ne_empty_of_mem_scanFrom (chars : List Char) (offset skip : Nat) :
    ∀ token ∈ scanFrom offset skip chars, token.kind ≠ .eof → token.text ≠ "" := by
  induction chars generalizing offset skip with
  | nil =>
    cases skip <;> simp_all [scanFrom]
  | cons first rest ih =>
    cases skip with
    | succ skip => exact ih offset skip
    | zero =>
      intro token member notEnd
      rcases List.mem_cons.mp member with rfl | later
      · simp
      · exact ih _ _ token later notEnd

/-! ### Places -/

theorem utf8ByteSize_ofList (chars : List Char) :
    (String.ofList chars).utf8ByteSize = byteLength chars := by
  rw [String.utf8ByteSize_ofList]
  induction chars with
  | nil => rfl
  | cons char rest ih => rw [byteLength, ← ih, String.utf8Len, Nat.add_comm]

/-- The tokens follow each other from an offset on, each as long as its text. -/
def Laid : (offset : Nat) → List Token → Prop
  | _, [] => True
  | offset, token :: rest =>
    token.span = ⟨offset, offset + token.text.utf8ByteSize⟩ ∧
      Laid (offset + token.text.utf8ByteSize) rest

theorem laid_append {offset : Nat} {left right : List Token} :
    Laid offset (left ++ right) ↔
      Laid offset left ∧ Laid (offset + (textOf left).utf8ByteSize) right := by
  induction left generalizing offset with
  | nil => simp [Laid]
  | cons token rest ih => simp [Laid, ih, and_assoc, Nat.add_assoc]

theorem laid_scanFrom (offset skip : Nat) (chars : List Char) :
    Laid offset (scanFrom offset skip chars) := by
  induction chars generalizing offset skip with
  | nil => cases skip <;> exact ⟨rfl, trivial⟩
  | cons first rest ih =>
    cases skip with
    | succ skip => exact ih offset skip
    | zero =>
      refine ⟨?_, ?_⟩
      · rw [utf8ByteSize_ofList]
      · rw [utf8ByteSize_ofList]
        exact ih _ _

/-! ### The forms of tokens -/

/-- The forms of tokens. -/
inductive Form where
  | plain
  | word
  | proper
  | quotation
  | character
  | numeral
  | bracket
  | operator
deriving DecidableEq

def form? : TokenKind → Option Form
  | .lowerName | .keyword _ => some .word
  | .upperName | .qualifiedUpper | .qualifiedLower | .qualifiedDo | .qualifiedAdo
  | .qualifiedOperator => some .proper
  | .string | .rawString | .error .invalidEscape => some .quotation
  | .char => some .character
  | .integer | .number => some .numeral
  | .opening _ | .closing _ => some .bracket
  | .operator | .colon => some .operator
  | kind => if kind.isVirtual then none else some .plain

/-- What a token of the form starts with and how it goes on. -/
def Starts (first : Char) (rest : List Char) (read : TokenKind × Nat) : Option Form → Prop
  | none => False
  | some .plain => True
  | some .word =>
    (isSmall first = true ∨ first = '_' ∨ first = '∀' ∧ read.2 = 0) ∧
      ∀ char ∈ rest.take read.2, isBlank char = false
  | some .proper => isCapital first = true ∧ ∀ char ∈ rest.take read.2, isBlank char = false
  | some .quotation => first = '"' ∧ read = quotation rest
  | some .character => first = '\'' ∧ read = character rest
  | some .numeral => isDigit first = true
  | some .bracket => punctuation? first = some read.1
  | some .operator =>
    (isCapital first = false ∧ isSmall first = false ∧ first ≠ '_') ∧
      ∀ char ∈ first :: rest.take read.2, isSign char = true

theorem form?_wordKind (word rest : List Char) : form? (wordKind word rest) = some .word := by
  unfold wordKind
  split
  · rfl
  · split <;> rfl

theorem form?_properName (skip : Nat) (qualified : Bool) (chars : List Char) :
    form? (properName skip qualified chars).1 = some .proper := by
  have proper (qualified : Bool) : form? (properKind qualified) = some .proper := by
    cases qualified <;> rfl
  fun_induction properName skip qualified chars with
  | case1 | case4 | case8 | case9 => exact proper _
  | case6 =>
    unfold qualifiedKind
    split
    · rfl
    · split <;> rfl
  | case7 => rfl
  | case2 | case3 => simp_all
  | case5 _ _ _ _ _ _ _ _ ih => exact ih

theorem not_isBlank {test : Char → Bool}
    (fails : [' ', '\t', '\r', '\x0c'].all (fun blank => !test blank) = true) {char : Char}
    (holds : test char = true) : isBlank char = false := by
  by_contra blank
  simp only [isBlank, Bool.not_eq_false, Bool.or_eq_true, decide_eq_true_eq] at blank
  rcases blank with ((rfl | rfl) | rfl) | rfl <;> simp_all

theorem unspaced_takeWhile {test : Char → Bool}
    (fails : [' ', '\t', '\r', '\x0c'].all (fun blank => !test blank) = true) (rest : List Char) :
    ∀ char ∈ rest.take (rest.takeWhile test).length, isBlank char = false := by
  rw [← List.prefix_iff_eq_take.mp (List.takeWhile_prefix test)]
  exact fun char member => not_isBlank fails (List.all_eq_true.mp List.all_takeWhile char member)

theorem unspaced_properName (skip : Nat) (qualified : Bool) (chars : List Char)
    (known : ∀ char ∈ chars.take skip, isBlank char = false) :
    ∀ char ∈ chars.take (properName skip qualified chars).2, isBlank char = false := by
  have dot : isBlank '.' = false := rfl
  fun_induction properName skip qualified chars with
  | case1 | case9 => simp
  | case4 | case8 => simp [*]
  | case2 skip qualified char rest kind length read ih =>
    rw [read] at ih
    rw [List.take_succ_cons, List.forall_mem_cons] at known ⊢
    exact ⟨known.1, ih known.2⟩
  | case3 qualified char rest continues kind length read ih =>
    rw [read] at ih
    rw [List.take_succ_cons, List.forall_mem_cons]
    exact ⟨not_isBlank (by decide) continues, ih (by simp)⟩
  | case5 _ first tail capital _ _ _ _ ih =>
    have solid := not_isBlank (by decide) capital
    exact List.forall_mem_cons.mpr ⟨dot, ih (by simpa using solid)⟩
  | case6 _ first tail _ small =>
    have solid : isBlank first = false :=
      @not_isBlank (fun char => isSmall char || char = '_') (by decide) first small
    exact List.forall_mem_cons.mpr ⟨dot, List.forall_mem_cons.mpr
      ⟨solid, unspaced_takeWhile (by decide) tail⟩⟩
  | case7 _ first tail _ _ sign =>
    exact List.forall_mem_cons.mpr ⟨dot, List.forall_mem_cons.mpr
      ⟨not_isBlank (by decide) sign, unspaced_takeWhile (by decide) tail⟩⟩

theorem form?_quotation (chars : List Char) :
    form? (quotation chars).1 = some .plain ∨ form? (quotation chars).1 = some .quotation := by
  unfold quotation
  split <;> split <;> simp [form?, TokenKind.isVirtual]

theorem form?_character (chars : List Char) :
    form? (character chars).1 = some .plain ∨ form? (character chars).1 = some .character := by
  unfold character
  split
  · dsimp only
    split <;> split <;> simp [form?, TokenKind.isVirtual]
  · split <;> simp [form?, TokenKind.isVirtual]
  · exact .inl rfl

theorem form?_numeral (chars : List Char) : form? (numeral chars).1 = some .numeral := by
  unfold numeral
  split
  · rfl
  · split
    · rfl
    · split <;> rfl

theorem form?_blockComment (chars : List Char) : form? (blockComment chars).1 = some .plain := by
  unfold blockComment
  split <;> rfl

theorem form?_punctuation {char : Char} {kind : TokenKind} (found : punctuation? char = some kind) :
    form? kind = some .plain ∨ form? kind = some .bracket := by
  unfold punctuation? at found
  split at found <;> cases found <;> simp [form?, TokenKind.isVirtual]

theorem form?_signKind (signs : List Char) :
    (form? (signKind signs) = some .plain ∨ form? (signKind signs) = some .operator) ∨
      form? (signKind signs) = some .word ∧ signs = ['∀'] := by
  unfold signKind
  split <;> simp [form?, TokenKind.isVirtual]

theorem starts_of_form? {first : Char} {rest : List Char} {read : TokenKind × Nat} {form : Form}
    (one : form? read.1 = some .plain ∨ form? read.1 = some form)
    (starts : Starts first rest read (some form)) : Starts first rest read (form? read.1) := by
  rcases one with plain | other
  · rw [plain]
    trivial
  · rwa [other]

theorem starts_signs {first : Char} {rest : List Char} (leads : isSign first = true)
    (other : isCapital first = false ∧ isSmall first = false ∧ first ≠ '_') :
    Starts first rest ((signs (first :: rest)).1, (signs (first :: rest)).2 - 1)
      (form? (signs (first :: rest)).1) := by
  simp only [signs, lineComment]
  split
  · split <;> trivial
  · rcases form?_signKind ((first :: rest).takeWhile isSign) with one | ⟨isWord, quantifier⟩
    · refine starts_of_form? one ⟨other, ?_⟩
      rw [List.takeWhile_cons_of_pos leads, List.length_cons, Nat.add_sub_cancel,
        ← List.prefix_iff_eq_take.mp (List.takeWhile_prefix isSign),
        ← List.takeWhile_cons_of_pos leads]
      exact List.all_eq_true.mp List.all_takeWhile
    · rw [isWord]
      refine ⟨.inr (.inr ⟨?_, by rw [quantifier]; rfl⟩), by simp [quantifier]⟩
      rw [List.takeWhile_cons_of_pos leads] at quantifier
      exact (List.cons.inj quantifier).1

theorem starts_munch (first : Char) (rest : List Char) :
    Starts first rest (munch first rest) (form? (munch first rest).1) := by
  unfold munch
  split
  · trivial
  split
  · rw [form?_blockComment]
    trivial
  split
  · next kind found => exact starts_of_form? (form?_punctuation found) found
  split
  · next quote => exact starts_of_form? (form?_quotation rest) ⟨quote, rfl⟩
  split
  · next quote => exact starts_of_form? (form?_character rest) ⟨quote, rfl⟩
  split
  · next digit => exact starts_of_form? (.inr (form?_numeral _)) digit
  split
  · next underscore =>
      dsimp only
      split
      · trivial
      · exact ⟨.inr (.inl underscore), unspaced_takeWhile (by decide) rest⟩
  next notUnderscore =>
  split
  · next small =>
      rw [form?_wordKind]
      exact ⟨.inl small, unspaced_takeWhile (by decide) rest⟩
  next notSmall =>
  split
  · next capital =>
      rw [form?_properName]
      exact ⟨capital, unspaced_properName 0 false rest (by simp)⟩
  next notCapital =>
  split
  · trivial
  split
  · next leads =>
      exact starts_signs leads ⟨eq_false_of_ne_true notCapital, eq_false_of_ne_true notSmall,
        notUnderscore⟩
  · trivial

theorem isVirtual_munch (first : Char) (rest : List Char) :
    (munch first rest).1.isVirtual = false := by
  have starts := starts_munch first rest
  revert starts
  cases (munch first rest).1 <;> first | exact fun _ => rfl | exact False.elim

/--
A scan is a list of tokens that are not virtual, followed by the end of the
text.
-/
theorem scanFrom_split (chars : List Char) (offset skip : Nat) :
    ∃ front stop, scanFrom offset skip chars = front ++ [virtual .eof stop] ∧
      ∀ token ∈ front, token.kind.isVirtual = false := by
  induction chars generalizing offset skip with
  | nil =>
    exact ⟨[], offset, by cases skip <;> rfl, by simp⟩
  | cons first rest ih =>
    cases skip with
    | succ skip => exact ih offset skip
    | zero =>
      let length := (munch first rest).2
      let text := first :: rest.take length
      let stop := offset + byteLength text
      obtain ⟨front, last, split, real⟩ := ih stop length
      refine ⟨⟨(munch first rest).1, ⟨offset, stop⟩, String.ofList text⟩ ::
        front, last, ?_, ?_⟩
      · rw [List.cons_append, ← split]
        rfl
      · intro token member
        rcases List.mem_cons.mp member with rfl | member
        · exact isVirtual_munch first rest
        · exact real token member

theorem scan_split (source : String) :
    ∃ front stop, scan source = front ++ [virtual .eof stop] ∧
      ∀ token ∈ front, token.kind.isVirtual = false :=
  scanFrom_split source.toList 0 0

theorem munched_of_scanFrom {chars : List Char} {offset skip : Nat} {front back : List Token}
    {token : Token} (scanned : scanFrom offset skip chars = front ++ token :: back)
    (nonempty : textOf (token :: back) ≠ "") :
    ∃ first rest, (textOf (token :: back)).toList = first :: rest ∧
      token.kind = (munch first rest).1 ∧
      token.text = String.ofList (first :: rest.take (munch first rest).2) := by
  induction chars generalizing offset skip front with
  | nil =>
    have ended : front ++ token :: back = [virtual .eof offset] := by
      rw [← scanned]
      cases skip <;> rfl
    cases front with
    | nil =>
      obtain ⟨rfl, rfl⟩ := List.cons.inj ended
      exact absurd rfl nonempty
    | cons _ front => exact absurd (List.cons.inj ended).2 (by simp)
  | cons first rest ih =>
    cases skip with
    | succ skip => exact ih scanned
    | zero =>
      cases front with
      | cons _ front => exact ih (List.cons.inj scanned).2
      | nil =>
        refine ⟨first, rest, ?_, ?_⟩
        · rw [← List.nil_append (token :: back), ← scanned, textOf_scanFrom,
            String.toList_ofList, List.drop_zero]
        · obtain ⟨rfl, -⟩ := List.cons.inj scanned
          exact ⟨rfl, rfl⟩

theorem munched_of_mem_scan {source : String} {token : Token} (member : token ∈ scan source)
    (notEnd : token.kind ≠ .eof) :
    ∃ first rest, token.kind = (munch first rest).1 ∧
      token.text = String.ofList (first :: rest.take (munch first rest).2) := by
  obtain ⟨front, back, scanned⟩ := List.append_of_mem member
  obtain ⟨first, rest, -, own⟩ := munched_of_scanFrom scanned fun isEmpty => by
    rw [textOf_cons, String.append_eq_empty_iff] at isEmpty
    exact text_ne_empty_of_mem_scanFrom source.toList 0 0 token member notEnd isEmpty.1
  exact ⟨first, rest, own⟩

end Offside.Token
