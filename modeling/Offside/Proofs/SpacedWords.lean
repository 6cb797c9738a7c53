import Mathlib.Order.CompletePartialOrder
import Offside.Proofs.CleanReading
import Offside.Proofs.LayoutOrder
import Offside.Proofs.Numerals
import Offside.Proofs.StringValues

/-!
# Words with blanks between them

A word is a text that is one token by itself.  Most words stay what they are
when a blank, a comma or a parenthesis follows, since no longer token runs over
it.  So words joined by single blanks are scanned one by one, and so are words
next to such marks; and if no word among them opens a block, resolving the
layout of the line adds nothing.
-/

namespace Offside

def TokenKind.isSolid : TokenKind → Bool
  | .lowerName | .upperName | .qualifiedUpper | .integer | .string | .rawString | .operator
  | .qualifiedOperator | .equals | .comma | .colon | .doubleColon | .doubleDot | .backslash | .arrow
  | .opening _ | .closing _ | .keyword _ => true
  | _ => false

theorem TokenKind.isSignificant_of_isSolid {kind : TokenKind} (solid : kind.isSolid = true) :
    kind.isSignificant = true := by
  cases kind <;> first | rfl | cases solid

namespace Token

open Offside.Text

/-! ### A word in front of a blank -/

/-- The characters that end a word; a colon ends no operator. -/
def delimiters : List Char :=
  [':', ' ', ',', '(', ')']

theorem isSolid_lineComment (text : List Char) : (lineComment text).1.isSolid = false := by
  unfold lineComment
  split <;> rfl

theorem isSolid_blockComment (text : List Char) : (blockComment text).1.isSolid = false := by
  unfold blockComment
  split <;> rfl

theorem isSolid_character (text : List Char) : (character text).1.isSolid = false := by
  unfold character
  split
  · dsimp only
    split <;> split <;> rfl
  · split <;> rfl
  · rfl

def undivided : Language Char :=
  {word | word.all (fun char => !delimiters.contains char) = true}

theorem mul_le_undivided {left right : Language Char} (leads : left ≤ undivided)
    (ends : right ≤ undivided) : left * right ≤ undivided := by
  rintro _ ⟨front, inLeft, back, inRight, rfl⟩
  exact List.all_append.trans (Bool.and_eq_true_iff.mpr ⟨leads inLeft, ends inRight⟩)

theorem digitGroup_le_undivided {isBaseDigit : Char → Bool}
    (stops : delimiters.all (fun char => !(isBaseDigit char || char = '_')) = true) :
    digitGroup isBaseDigit ≤ undivided := by
  rintro _ ⟨first, more, rfl, digit, digits⟩
  refine List.all_eq_true.mpr fun char member => ?_
  rw [Bool.not_eq_true', ← Bool.not_eq_true, List.contains_iff_mem]
  intro delimits
  have outside := List.all_eq_true.mp stops char delimits
  rcases List.mem_cons.mp member with rfl | later
  · rw [digit] at outside
    cases outside
  · rw [digits char later] at outside
    cases outside

theorem language_le_undivided (form : NumberForm) : form.language ≤ undivided := by
  have digits : digitGroup isDigit ≤ undivided :=
    digitGroup_le_undivided (by decide)
  have point : pointPart ≤ undivided := mul_le_undivided (by rintro _ rfl; rfl) digits
  have exponent : exponentPart ≤ undivided :=
    mul_le_undivided (by rintro _ (rfl | rfl) <;> rfl)
      (mul_le_undivided (by rintro _ (rfl | rfl | rfl) <;> rfl) digits)
  cases form with
  | whole radix =>
    cases radix <;> exact mul_le_undivided (by rintro _ rfl; rfl)
      (digitGroup_le_undivided (by decide))
  | fraction =>
    exact mul_le_undivided digits
      (mul_le_undivided point (sup_le (by rintro _ rfl; rfl) exponent))
  | power => exact mul_le_undivided digits exponent

section Parted

variable {more : List Char} {test : Char → Bool} {word rest : List Char} {first : Char}

theorem takeWhile_parted (stops : ∀ char ∈ more.head?, test char = false)
    (whole : word.length ≤ (word.takeWhile test).length) :
    (word ++ more).takeWhile test = word := by
  have all : word.takeWhile test = word :=
    (List.takeWhile_prefix test).eq_of_length_le whole
  rw [List.takeWhile_append_of_pos (List.takeWhile_eq_self_iff.mp all)]
  have ends : more.takeWhile test = [] := by
    cases more with
    | nil => rfl
    | cons char _ => rw [List.takeWhile_cons, stops char rfl]; rfl
  rw [ends, List.append_nil]

theorem any_head?_parted (stops : ∀ char ∈ more.head?, test char = false) (rest : List Char) :
    (rest ++ more).head?.any test = rest.head?.any test := by
  cases rest with
  | cons char rest => rfl
  | nil =>
    cases more with
    | nil => rfl
    | cons char _ => exact stops char rfl

variable (parted : ∀ char ∈ more.head?, char ∈ delimiters)
include parted

theorem stops_of_parted (all : delimiters.all (fun char => !test char) = true) :
    ∀ char ∈ more.head?, test char = false :=
  fun char leads => (Bool.not_eq_true' _).mp (List.all_eq_true.mp all char (parted char leads))

theorem numeral_parted (digit : isDigit first = true)
    (isInteger : (numeral (first :: rest)).1 = .integer)
    (whole : (first :: rest).length ≤ (numeral (first :: rest)).2) :
    numeral (first :: rest ++ more) = (.integer, (first :: rest).length) := by
  obtain ⟨form, -, isForm⟩ := take_numeral digit rest
  rw [List.take_of_length_le whole] at isForm
  obtain ⟨other, isKind, isOther⟩ := take_numeral digit _
  rw [← List.cons_append] at isKind isOther
  have long := (numeral_of_mem_language isForm more).2
  have reach := numeral_le (first :: rest ++ more)
  generalize numeral _ = read at isKind isOther long reach ⊢
  -- what the numeral takes behind the word starts with a character that no number holds
  have short : read.2 ≤ (first :: rest).length := by
    cases more with
    | nil => rwa [List.append_nil] at reach
    | cons char later =>
      by_contra further
      have clear := language_le_undivided other isOther
      rw [List.take_append] at clear
      obtain ⟨more, split⟩ := Nat.exists_eq_add_of_lt (Nat.lt_of_not_le further)
      rw [split, Nat.add_assoc] at clear
      have outside := List.all_eq_true.mp clear char (by simp)
      rw [Bool.not_eq_true', ← Bool.not_eq_true, List.contains_iff_mem] at outside
      exact outside (parted char rfl)
  have same := Nat.le_antisymm short long
  rw [same, List.take_left] at isOther
  refine Prod.ext (isKind.trans ?_) same
  cases other with
  | whole => rfl
  | fraction | power =>
    have number := (numeral_of_mem_language isOther []).1 rfl
    rw [List.append_nil, isInteger] at number
    cases number

/-! ### Names and operators in front of a blank -/

theorem wordKind_parted (word : List Char) : wordKind word more = wordKind word [] := by
  have same : more.head?.any leadsLikeLetter = _ :=
    any_head?_parted (stops_of_parted parted (by decide)) []
  rw [wordKind, wordKind, same]

theorem quotation_parted (solid : (quotation rest).1.isSolid = true) :
    quotation (rest ++ more) = quotation rest := by
  have noQuote : more.head? ≠ some '"' := fun leads => absurd (parted _ leads) (by decide)
  fun_cases quotation rest with
  | case1 rest length found =>
    rw [List.cons_append, List.cons_append, quotation, rawLength?_append found noQuote]
  | case3 _ notRaw length scanned =>
    rw [quotation.eq_def]
    split
    · next opens =>
      match rest, scanned with
      | [_], _ => exact absurd (congrArg List.head? (List.cons.inj opens).2) noQuote
      | _ :: _ :: tail, _ =>
        simp only [List.cons_append, List.cons.injEq] at opens
        exact absurd (by rw [opens.1, opens.2.1]) (notRaw tail)
    · rw [scanString_append scanned StringEnd.noConfusion]
  | case2 | case4 | case5 =>
    unfold quotation at solid
    simp_all [TokenKind.isSolid]

variable (noColon : more.head? ≠ some ':')
include noColon

theorem eq_of_parted {char : Char} (leads : char ∈ more.head?) :
    char = ' ' ∨ char = ',' ∨ char = '(' ∨ char = ')' := by
  have delimits := parted char leads
  rw [delimiters, List.mem_cons] at delimits
  simpa using delimits.resolve_left fun same => noColon (same ▸ leads)

theorem isSign_of_parted : ∀ char ∈ more.head?, isSign char = false := by
  intro char leads
  rcases eq_of_parted parted noColon leads with rfl | rfl | rfl | rfl <;> rfl

theorem properName_blank (qualified : Bool) :
    properName 0 qualified more = (properKind qualified, 0) := by
  cases more with
  | nil => rfl
  | cons char rest =>
    rcases eq_of_parted parted noColon rfl with rfl | rfl | rfl | rfl <;>
      simp only [properName] <;> rw [if_neg (by decide), if_neg (by decide)]

theorem properName_parted (skip : Nat)
    (qualified : Bool) (word : List Char) (skips : skip ≤ word.length)
    (whole : word.length ≤ (properName skip qualified word).2) :
    properName skip qualified (word ++ more) =
      ((properName skip qualified word).1, word.length) := by
  fun_induction properName skip qualified word with
  | case1 skip qualified =>
    rw [Nat.le_zero.mp skips]
    exact properName_blank parted noColon qualified
  | case2 skip qualified first rest kind length named ih =>
    simp only [named] at ih skips whole
    simp only [List.cons_append, properName, List.length_cons,
      ih (Nat.le_of_succ_le_succ skips) (Nat.le_of_succ_le_succ whole)]
  | case3 qualified char rest continues kind length named ih =>
    simp only [named] at ih whole
    simp only [List.cons_append, properName, continues, if_true, List.length_cons,
      ih (Nat.zero_le _) (Nat.le_of_succ_le_succ whole)]
  | case4 qualified =>
    -- the dot at the end of the word qualifies neither nothing nor a blank
    cases more with
    | nil => rfl
    | cons char rest =>
      rcases eq_of_parted parted noColon rfl with rfl | rfl | rfl | rfl <;> rfl
  | case5 qualified first rest capital kind length dot named ih =>
    simp only [properName, List.length_cons, List.cons_append, Nat.succ_le_succ_iff] at ih whole
    have later := ih (Nat.zero_le _) whole
    simp only [List.cons_append, properName, if_neg dot, if_pos capital, if_true, later,
      List.length_cons]
  | case6 qualified first rest notCapital small word dot =>
    simp only [List.length_cons, Nat.succ_le_succ_iff] at whole
    have all : rest.takeWhile isNameChar = rest :=
      (List.takeWhile_prefix _).eq_of_length_le whole
    simp only [List.cons_append, properName, if_neg dot, if_neg notCapital, if_pos small, if_true,
      takeWhile_parted (stops_of_parted parted (by decide)) whole, List.length_cons, word, all]
  | case7 qualified first rest notCapital notSmall sign dot =>
    simp only [List.length_cons, Nat.succ_le_succ_iff] at whole
    simp only [List.cons_append, properName, if_neg dot, if_neg notCapital, if_neg notSmall,
      if_pos sign, if_true, takeWhile_parted (isSign_of_parted parted noColon) whole,
      List.length_cons]
  | case8 | case9 =>
    simp only [List.length_cons] at whole
    omega

theorem signs_parted (sign : isSign first = true) (solid : (signs (first :: rest)).1.isSolid = true)
    (whole : rest.length ≤ (signs (first :: rest)).2 - 1) :
    signs (first :: rest ++ more) = ((signs (first :: rest)).1, rest.length + 1) := by
  rw [signs] at solid whole ⊢
  split at solid
  · rw [isSolid_lineComment] at solid
    cases solid
  · next other =>
      rw [if_neg other] at whole
      have reaches : (first :: rest).length ≤ ((first :: rest).takeWhile isSign).length := by
        rw [List.takeWhile_cons_of_pos sign] at whole ⊢
        simpa using whole
      have all : (first :: rest).takeWhile isSign = first :: rest :=
        (List.takeWhile_prefix _).eq_of_length_le reaches
      rw [takeWhile_parted (isSign_of_parted parted noColon) reaches]
      rw [all] at other
      rw [if_neg other, signs, all]
      rw [if_neg other]
      rfl

/-! ### Munching a word -/

omit noColon

theorem opensComment_parted (first : Char) (rest : List Char) :
    (first = '\x7b' && (rest ++ more).head? = some '-') =
      (first = '\x7b' && rest.head? = some '-') := by
  have same : ∀ front : Option Char, decide (front = some '-') = front.any (· = '-') := by
    intro front
    cases front <;> simp
  rw [same, same, any_head?_parted (stops_of_parted parted (by decide))]

theorem munch_parted
    (apart : more.head? = some ':' → first = '"' ∨ isSmall first = true ∨ first = '_')
    (solid : (munch first rest).1.isSolid = true) (whole : rest.length ≤ (munch first rest).2) :
    munch first (rest ++ more) = ((munch first rest).1, rest.length) := by
  -- every test that chooses the form of the token has the same outcome with and without the blank
  unfold munch at solid whole ⊢
  rw [opensComment_parted parted, any_head?_parted (stops_of_parted parted (by decide))]
  by_cases blank : isBlank first = true
  · rw [if_pos blank] at solid
    cases solid
  simp only [if_neg blank] at solid whole ⊢
  by_cases comment : (first = '\x7b' && rest.head? = some '-') = true
  · rw [if_pos comment, isSolid_blockComment] at solid
    cases solid
  simp only [if_neg comment] at solid whole ⊢
  cases found : punctuation? first with
  | some kind =>
    rw [found] at whole
    rw [Nat.le_zero.mp whole]
  | none =>
  rw [found] at solid whole
  by_cases string : first = '"'
  · rw [if_pos string] at solid whole
    rw [if_pos string, if_pos string, quotation_parted parted solid]
    exact Prod.ext rfl (Nat.le_antisymm (quotation_le rest) whole)
  simp only [if_neg string] at solid whole ⊢
  by_cases char : first = '\''
  · rw [if_pos char, isSolid_character] at solid
    cases solid
  simp only [if_neg char] at solid whole ⊢
  by_cases digit : isDigit first = true
  · rw [if_pos digit] at solid whole
    have isInteger : (numeral (first :: rest)).1 = .integer := by
      obtain ⟨form, isKind, -⟩ := take_numeral digit rest
      cases form with
      | whole => exact isKind
      | fraction | power =>
        rw [isKind] at solid
        cases solid
    have positive := one_le_numeral digit rest
    rw [if_pos digit, if_pos digit, ← List.cons_append,
      numeral_parted parted digit isInteger (by rw [List.length_cons]; omega), isInteger]
    rfl
  simp only [if_neg digit] at solid whole ⊢
  by_cases underscore : first = '_'
  · rw [if_pos underscore] at whole
    have same : runLength isNameChar rest = rest.length :=
      Nat.le_antisymm (List.takeWhile_prefix _).length_le whole
    rw [if_pos underscore, if_pos underscore, same, runLength,
      takeWhile_parted (stops_of_parted parted (by decide)) whole]
  simp only [if_neg underscore] at solid whole ⊢
  by_cases small : isSmall first = true
  · rw [if_pos small] at whole
    have all : rest.takeWhile isNameChar = rest :=
      (List.takeWhile_prefix _).eq_of_length_le whole
    rw [if_pos small, if_pos small,
      takeWhile_parted (stops_of_parted parted (by decide)) whole, List.drop_left,
      all, List.drop_length, wordKind_parted parted]
  simp only [if_neg small] at solid whole ⊢
  have noColon : more.head? ≠ some ':' := fun colon => by
    rcases apart colon with same | same | same <;> contradiction
  by_cases capital : isCapital first = true
  · rw [if_pos capital] at whole
    rw [if_pos capital, if_pos capital]
    exact properName_parted parted noColon 0 false rest (Nat.zero_le _) whole
  simp only [if_neg capital] at solid whole ⊢
  by_cases hole : (first = '?' && rest.head?.any isAsciiLetter) = true
  · rw [if_pos hole] at solid
    cases solid
  simp only [if_neg hole] at solid whole ⊢
  by_cases sign : isSign first = true
  · rw [if_pos sign] at solid whole
    rw [if_pos sign, if_pos sign, ← List.cons_append,
      signs_parted parted noColon sign solid whole]
    rfl
  · rw [if_neg sign] at solid
    cases solid

end Parted

/-! ### Scanning words one by one -/

theorem scanFrom_skip (offset : Nat) (word more : List Char) :
    scanFrom offset word.length (word ++ more) = scanFrom offset 0 more := by
  induction word with
  | nil => rfl
  | cons _ rest ih => exact ih

theorem scanFrom_munched (offset : Nat) {first : Char} {rest more : List Char} {kind : TokenKind}
    (munched : munch first (rest ++ more) = (kind, rest.length)) :
    scanFrom offset 0 (first :: rest ++ more) =
      ⟨kind, ⟨offset, offset + byteLength (first :: rest)⟩, String.ofList (first :: rest)⟩ ::
        scanFrom (offset + byteLength (first :: rest)) 0 more := by
  rw [List.cons_append, scanFrom, munched]
  dsimp only
  rw [List.take_left, scanFrom_skip]

def IsGap (token : Token) : Prop :=
  token.kind = .whitespace ∧ token.text = " "

end Token

namespace Grammar

open Offside.Token

def Sight.IsWord (sight : Sight) : Prop :=
  (scan sight.text).map Sight.ofToken = [sight, ⟨.eof, ""⟩]

instance (sight : Sight) : Decidable sight.IsWord :=
  inferInstanceAs (Decidable (_ = _))

variable {sight : Sight}

theorem Sight.IsWord.munch (word : sight.IsWord) :
    ∃ first rest, sight.text.toList = first :: rest ∧ (munch first rest).1 = sight.kind ∧
      rest.length ≤ (Token.munch first rest).2 := by
  rw [IsWord, scan] at word
  cases spelled : sight.text.toList with
  | nil => simp [spelled, scanFrom] at word
  | cons first rest =>
    refine ⟨first, rest, rfl, ?_⟩
    simp only [spelled, scanFrom, List.map_cons, List.cons.injEq] at word
    obtain ⟨seen, -⟩ := word
    refine ⟨congrArg Sight.kind seen, ?_⟩
    have text := congrArg (fun sight => sight.text.toList) seen
    simp only [Sight.ofToken, String.toList_ofList, spelled, List.cons.injEq, true_and] at text
    have taken := congrArg List.length text
    rw [List.length_take] at taken
    omega

/-- The characters are words, seen one by one, with single blanks behind some of them. -/
inductive Writes : List Char → List Sight → Prop
  | done : Writes [] []
  | word {first : Char} {rest more : List Char} {kind : TokenKind} {words : List Sight}
      (munched : Token.munch first (rest ++ more) = (kind, rest.length))
      (significant : kind.isSignificant = true) (later : Writes more words) :
      Writes (first :: rest ++ more) (⟨kind, String.ofList (first :: rest)⟩ :: words)
  | spaced {first : Char} {rest more : List Char} {kind : TokenKind} {words : List Sight}
      (munched : Token.munch first (rest ++ ' ' :: more) = (kind, rest.length))
      (significant : kind.isSignificant = true) (later : Writes more words) :
      Writes (first :: rest ++ ' ' :: more) (⟨kind, String.ofList (first :: rest)⟩ :: words)

section Written

variable {chars more : List Char} {words : List Sight}

theorem Writes.munch_blank (writes : Writes chars words) :
    Token.munch ' ' ([] ++ chars) = (.whitespace, 0) := by
  have visible {first : Char} {rest : List Char} {read : TokenKind × Nat}
      (munched : Token.munch first rest = read) (significant : read.1.isSignificant = true) :
      Text.isBlank first = false := by
    by_contra blank
    rw [← munched, Token.munch, if_pos (Bool.not_eq_false _ ▸ blank)] at significant
    cases significant
  have single {first : Char} {rest : List Char} (starts : Text.isBlank first = false) :
      Token.munch ' ' (first :: rest) = (.whitespace, 0) := by
    rw [Token.munch, runLength, List.takeWhile_cons, starts]
    rfl
  cases writes with
  | done => rfl
  | word munched significant | spaced munched significant =>
    exact single (visible munched significant)

theorem Writes.scanFrom (writes : Writes chars words) (offset : Nat) :
    ∃ front stop, Token.scanFrom offset 0 chars = front ++ [.virtual .eof stop] ∧
      (front.filter fun token => token.kind.isVisible).map Sight.ofToken = words ∧
      ∀ token ∈ front, Sight.ofToken token ∈ words ∧ token.kind.isSignificant = true ∨
        token.IsGap := by
  induction writes generalizing offset with
  | done => exact ⟨[], offset, rfl, rfl, nofun⟩
  | word munched significant later ih =>
    have visible := isVisible_of_isSignificant significant
    have scannedWord := scanFrom_munched offset munched
    obtain ⟨front, stop, scanned, seen, known⟩ := ih _
    rw [scanned] at scannedWord
    refine ⟨_ :: front, stop, scannedWord, ?_, ?_⟩
    · simp only [List.filter_cons, visible, if_true, List.map_cons, seen, Sight.ofToken]
    · exact List.forall_mem_cons.mpr ⟨.inl ⟨List.mem_cons_self, significant⟩, fun other member =>
        (known other member).imp_left (.imp_left (List.mem_cons_of_mem _))⟩
  | @spaced first rest _ _ _ munched significant later ih =>
    have visible := isVisible_of_isSignificant significant
    have scannedWord := scanFrom_munched offset munched
    have scannedBlank :=
      scanFrom_munched (offset + byteLength (first :: rest)) later.munch_blank
    obtain ⟨front, stop, scanned, seen, known⟩ := ih _
    rw [List.singleton_append, scanned] at scannedBlank
    rw [scannedBlank] at scannedWord
    refine ⟨_ :: _ :: front, stop, scannedWord, ?_, ?_⟩
    · simp only [List.filter_cons, visible, if_true, List.map_cons, ← seen, Sight.ofToken]
      rfl
    · exact List.forall_mem_cons.mpr ⟨.inl ⟨List.mem_cons_self, significant⟩,
        List.forall_mem_cons.mpr ⟨.inr ⟨rfl, rfl⟩, fun other member =>
          (known other member).imp_left (.imp_left (List.mem_cons_of_mem _))⟩⟩

theorem Sight.IsWord.munch_parted (word : sight.IsWord) (solid : sight.kind.isSolid = true)
    (parted : ∀ char ∈ more.head?, char ∈ delimiters)
    (apart : more.head? = some ':' → sight.kind.isLabel = true ∧ sight.text ≠ "∀") :
    ∃ first rest, sight = ⟨sight.kind, String.ofList (first :: rest)⟩ ∧
      Token.munch first (rest ++ more) = (sight.kind, rest.length) := by
  obtain ⟨first, rest, spelled, kind, whole⟩ := word.munch
  have text : sight.text = String.ofList (first :: rest) := by
    rw [← spelled, String.ofList_toList]
  have munched := Token.munch_parted parted (fun colon => ?_) (kind ▸ solid) whole
  · exact ⟨first, rest, by rw [← text], kind ▸ munched⟩
  · obtain ⟨label, noSign⟩ := apart colon
    have starts := starts_munch first rest
    rw [kind] at starts
    cases same : sight.kind with
    | string | rawString =>
      rw [same] at starts
      exact .inl starts.1
    | lowerName | keyword =>
      rw [same] at starts
      refine .inr (starts.1.imp_right fun other => other.resolve_right ?_)
      rintro ⟨rfl, short⟩
      rw [short] at whole
      exact noSign (by rw [text, List.length_eq_zero_iff.mp (Nat.le_zero.mp whole)])
    | _ =>
      rw [same] at label
      cases label

theorem Sight.IsWord.writes (word : sight.IsWord) (solid : sight.kind.isSolid = true)
    (parted : ∀ char ∈ more.head?, char ∈ delimiters)
    (apart : more.head? = some ':' → sight.kind.isLabel = true ∧ sight.text ≠ "∀")
    (later : Writes more words) : Writes (sight.text.toList ++ more) (sight :: words) := by
  obtain ⟨first, rest, same, munched⟩ := word.munch_parted solid parted apart
  rw [same, String.toList_ofList]
  exact .word munched (TokenKind.isSignificant_of_isSolid solid) later

theorem Sight.IsWord.writes_last (word : sight.IsWord) (solid : sight.kind.isSolid = true) :
    Writes sight.text.toList [sight] := by
  have last := @writes _ [] [] word solid (by simp) (by simp) .done
  rwa [List.append_nil] at last

theorem Sight.IsWord.spaced (word : sight.IsWord) (solid : sight.kind.isSolid = true)
    (later : Writes more words) : Writes (sight.text.toList ++ ' ' :: more) (sight :: words) := by
  obtain ⟨first, rest, same, munched⟩ := @munch_parted _ (' ' :: more) word solid
    (by simp [delimiters]) (by simp)
  rw [same, String.toList_ofList]
  exact .spaced munched (TokenKind.isSignificant_of_isSolid solid) later

end Written

def Sight.joined (words : List Sight) : String :=
  " ".intercalate (words.map Sight.text)

theorem writes_joined {words : List Sight}
    (areWords : ∀ word ∈ words, word.IsWord ∧ word.kind.isSolid = true) :
    Writes (Sight.joined words).toList words := by
  rw [Sight.joined, String.toList_intercalate, List.map_map]
  induction words with
  | nil => exact .done
  | cons word rest ih =>
    obtain ⟨⟨isWord, solid⟩, others⟩ := List.forall_mem_cons.mp areWords
    cases rest with
    | nil =>
      rw [List.map_singleton, List.intercalate_singleton]
      exact isWord.writes_last solid
    | cons next rest =>
      have later := isWord.spaced solid (ih others)
      simpa [List.intercalate_cons_cons] using later

end Grammar

/-! ### Layout on one line -/

namespace Layout

/-- Nothing is owed: no block is open or pending, and the line has begun if the text has. -/
structure State.IsEven (state : State) : Prop where
  pending : state.pending = none
  blocks : ∀ frame ∈ state.stack, frame.isBlock = false
  begun : state.stack ≠ [] → state.lineStart = false

theorem leavings_eq_nil {frames : Stack} (blocks : ∀ frame ∈ frames, frame.isBlock = false) :
    leavings false frames = [] := by
  rw [← closings_eq_leavings, closings,
    List.filter_eq_nil_iff.mpr fun frame member => by simp [blocks frame member]]
  rfl

theorem before_of_not_isBlock (kind : TokenKind) (column : Nat) {stack : Stack}
    (blocks : ∀ frame ∈ stack, frame.isBlock = false) :
    (before kind column false stack).2 = [] ∧
      ∀ frame ∈ (before kind column false stack).1, frame.isBlock = false := by
  obtain ⟨above, below, added, rfl, light, equal⟩ := before_false kind column stack
  obtain ⟨left, kept⟩ := List.forall_mem_append.mp blocks
  rw [equal]
  refine ⟨leavings_eq_nil left, List.forall_mem_append.mpr ⟨fun frame member => ?_, kept⟩⟩
  exact Bool.eq_false_iff.mpr
    (List.countP_eq_zero.mp (blocksIn_of_isContext light) frame member)

theorem State.IsEven.significant {state : State} (even : state.IsEven) (tabWidth : Nat)
    {token : Token} (opensNone : Block.ofKeyword? token.kind = none) :
    (state.significant tabWidth token).2 = [] ∧ (state.significant tabWidth token).1.IsEven := by
  have cut : (state.cut token).2 = [] ∧ ∀ frame ∈ (state.cut token).1, frame.isBlock = false := by
    rw [State.cut]
    split
    · refine ⟨rfl, fun frame member => ?_⟩
      rw [List.mem_singleton.mp member]
      rfl
    · next frame rest opened =>
        rw [openPending, even.pending, even.begun (opened ▸ List.cons_ne_nil frame rest)]
        exact before_of_not_isBlock token.kind state.column even.blocks
  refine ⟨State.significant_inserted tabWidth state token ▸ cut.1, ?_⟩
  refine ⟨opensNone, fun frame member => ?_, fun _ => rfl⟩
  rcases List.mem_append.mp member with new | old
  · exact Bool.eq_false_iff.mpr (List.countP_eq_zero.mp (blocksIn_openedFrame token.kind) frame new)
  · exact cut.2 frame old

theorem State.IsEven.pass {state : State} (even : state.IsEven) (tabWidth : Nat) {token : Token}
    (blank : token.text = " ") : (state.pass tabWidth token).IsEven where
  pending := even.pending
  blocks := even.blocks
  begun := by
    intro opened
    rw [State.pass, even.begun opened, blank]
    rfl

theorem State.IsEven.finish {state : State} (even : state.IsEven) : state.finish = [] := by
  rw [State.finish, even.pending, closings_eq_leavings, leavings_eq_nil even.blocks]
  rfl

/-- The token is a word that opens no block, or a single blank. -/
def IsSpaced (token : Token) : Prop :=
  (token.kind.isSignificant = true ∧ Block.ofKeyword? token.kind = none) ∨ token.IsGap

theorem State.IsEven.step {state : State} (even : state.IsEven) (tabWidth : Nat) {token : Token}
    (spaced : IsSpaced token) :
    (state.step tabWidth token).2 = [] ∧ (state.step tabWidth token).1.IsEven := by
  rw [State.step]
  rcases spaced with ⟨significant, opensNone⟩ | ⟨blank, text⟩
  · rw [TokenKind.isSignificant, Bool.and_eq_true, Bool.not_eq_true'] at significant
    rw [if_neg (Bool.eq_false_iff.mp significant.1)]
    exact even.significant tabWidth opensNone
  · rw [if_pos (by rw [blank]; rfl)]
    exact ⟨rfl, even.pass tabWidth text⟩

theorem State.IsEven.run {state : State} (even : state.IsEven) (tabWidth : Nat)
    {front : List Token} (spaced : ∀ token ∈ front, IsSpaced token) :
    emitted tabWidth state front = front ∧ (state.after tabWidth front).IsEven := by
  induction front generalizing state with
  | nil => exact ⟨rfl, even⟩
  | cons token rest ih =>
    obtain ⟨nothing, onward⟩ := even.step tabWidth (spaced token List.mem_cons_self)
    obtain ⟨same, last⟩ :=
      ih onward fun other member => spaced other (List.mem_cons_of_mem token member)
    rw [emitted, nothing, same]
    exact ⟨rfl, last⟩

end Layout

/-! ### The words that the grammar sees -/

namespace Grammar

theorem Lexeme.isHarmless_groupFrom {trivia source : List Token}
    (harmless : Reading.isHarmless trivia = true)
    (blanks : ∀ token ∈ source, token.kind.isVisible = false →
      (State.triviaCause? token.kind).isNone = true) :
    ∀ lexeme ∈ groupFrom trivia source, Reading.isHarmless lexeme.trivia = true := by
  induction source generalizing trivia with
  | nil => nofun
  | cons token rest ih =>
    have later := fun {gap : List Token} (harmless : Reading.isHarmless gap = true) =>
      ih harmless fun other member => blanks other (List.mem_cons_of_mem token member)
    rw [groupFrom]
    split
    · intro lexeme member
      rcases List.mem_cons.mp member with rfl | old
      · exact harmless
      · exact later rfl lexeme old
    · next hidden =>
        refine later ?_
        have blank := blanks token List.mem_cons_self (Bool.eq_false_iff.mpr hidden)
        rw [Reading.isHarmless, List.all_append, Bool.and_eq_true]
        exact ⟨harmless, by simp [blank]⟩

theorem lexemes_spaced {tokens : List Token}
    (spaced : ∀ token ∈ tokens, token.kind.isVisible = true ∨ token.IsGap) :
    (Lexeme.group tokens).map (fun lexeme => Sight.ofToken lexeme.token) =
        (tokens.filter fun token => token.kind.isVisible).map Sight.ofToken ∧
      ∀ lexeme ∈ Lexeme.group tokens, Reading.isHarmless lexeme.trivia = true := by
  constructor
  · rw [← Function.comp_def Sight.ofToken, ← List.map_map, Lexeme.group, Lexeme.map_token_groupFrom]
  · refine Lexeme.isHarmless_groupFrom rfl fun token member hidden => ?_
    rcases spaced token member with visible | ⟨blank, -⟩
    · rw [hidden] at visible
      cases visible
    · rw [blank]
      rfl

theorem Writes.lexemes {source : String} {words : List Sight} (writes : Writes source.toList words)
    (plain : ∀ word ∈ words, Layout.Block.ofKeyword? word.kind = none) (tabWidth : Nat) :
    (Lexeme.group (Layout.tokens tabWidth source)).map
        (fun lexeme => Sight.ofToken lexeme.token) = words ++ [⟨.eof, ""⟩] ∧
      ∀ lexeme ∈ Lexeme.group (Layout.tokens tabWidth source),
        Reading.isHarmless lexeme.trivia = true := by
  obtain ⟨front, stop, scanned, seen, known⟩ := writes.scanFrom 0
  have spaced : ∀ token ∈ front, Layout.IsSpaced token := fun token member =>
    (known token member).imp_left fun ⟨isWord, significant⟩ => ⟨significant, plain _ isWord⟩
  obtain ⟨front', stop', split, -, resolved⟩ := Layout.tokens_eq tabWidth source
  have start : Layout.State.IsEven {} := ⟨rfl, nofun, fun opened => absurd rfl opened⟩
  have tokens : Layout.tokens tabWidth source = front ++ [.virtual .eof stop] := by
    obtain ⟨rfl, last⟩ := List.append_inj' (scanned.symm.trans split) rfl
    obtain ⟨same, even⟩ := start.run _ spaced
    rw [resolved, same, even.finish, last]
    rfl
  have visible : ∀ token ∈ front ++ [.virtual .eof stop],
      token.kind.isVisible = true ∨ token.IsGap := by
    refine List.forall_mem_append.mpr ⟨fun token member => ?_, fun token member => ?_⟩
    · exact (spaced token member).imp_left fun word => isVisible_of_isSignificant word.1
    · rw [List.mem_singleton.mp member]
      exact .inl rfl
  obtain ⟨shown, harmless⟩ := lexemes_spaced visible
  rw [tokens]
  refine ⟨?_, harmless⟩
  rw [shown, List.filter_append, List.map_append, seen]
  rfl

/-- The word is one token by itself, stays so in front of a blank and opens no block. -/
def Sight.IsPlain (word : Sight) : Prop :=
  (word.IsWord ∧ word.kind.isSolid = true) ∧ Layout.Block.ofKeyword? word.kind = none

instance (word : Sight) : Decidable word.IsPlain :=
  inferInstanceAs (Decidable (_ ∧ _))

theorem lexemes_joined (tabWidth : Nat) {words : List Sight}
    (plain : ∀ word ∈ words, word.IsPlain) :
    (Lexeme.group (Layout.tokens tabWidth (Sight.joined words))).map
        (fun lexeme => Sight.ofToken lexeme.token) = words ++ [⟨.eof, ""⟩] ∧
      ∀ lexeme ∈ Lexeme.group (Layout.tokens tabWidth (Sight.joined words)),
        Reading.isHarmless lexeme.trivia = true := by
  have writes := writes_joined fun word member => (plain word member).1
  exact writes.lexemes (fun word member => (plain word member).2) tabWidth

end Grammar

end Offside
