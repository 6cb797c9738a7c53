import Mathlib.Computability.Language
import Mathlib.Data.List.TakeWhile
import Mathlib.Data.Nat.Digits.Defs
import Offside.Proofs.TokenSpans

/-!
# Numerals and their values

There are five ways to write a number, and they share their beginnings: `1e5`
is a number with an exponent, and `1e` is the whole number `1` with a name
behind it.  The scanner measures the parts of a number one by one and never
goes back.  Nevertheless it takes the longest text that is a number in one of
the five ways, because the parts start with different characters.  The value
of a whole number is that of its digits, if it fits into 64 bits with a sign.
-/

namespace Offside.Token

open Offside.Text
open Offside.Literal (digitValue? baseDigit? positionalFrom? positional? signed64? integer?)

/-! ### The forms of a number -/

/-- A digit of some base, and digits and underscores behind it. -/
def digitGroup (isBaseDigit : Char → Bool) : Language Char :=
  {word | ∃ first more, word = first :: more ∧ isBaseDigit first = true ∧
    ∀ char ∈ more, (isBaseDigit char || char = '_') = true}

def pointPart : Language Char :=
  {['.']} * digitGroup isDigit

def exponentPart : Language Char :=
  {['e'], ['E']} * ({[], ['+'], ['-']} * digitGroup isDigit)

/-- The ways to write a whole number. -/
inductive Radix where
  | decimal
  | hexadecimal
  | octal
deriving DecidableEq

def Radix.base : Radix → Nat
  | decimal => 10
  | hexadecimal => 16
  | octal => 8

def Radix.mark : Radix → List Char
  | decimal => []
  | hexadecimal => ['0', 'x']
  | octal => ['0', 'o']

def Radix.isDigit : Radix → Char → Bool
  | decimal => Text.isDigit
  | hexadecimal => isHexDigit
  | octal => isOctalDigit

/-- The ways to write a number. -/
inductive NumberForm where
  | whole (radix : Radix)
  | fraction
  | power
deriving DecidableEq

def NumberForm.language : NumberForm → Language Char
  | whole radix => {radix.mark} * digitGroup radix.isDigit
  | fraction => digitGroup isDigit * (pointPart * (1 + exponentPart))
  | power => digitGroup isDigit * exponentPart

def NumberForm.kind : NumberForm → TokenKind
  | whole _ => .integer
  | fraction | power => .number

/-! ### Groups of digits -/

variable {isBaseDigit : Char → Bool} {word text : List Char} {length : Nat}

theorem groupLength?_append (group : word ∈ digitGroup isBaseDigit) (behind : List Char) :
    groupLength? isBaseDigit (word ++ behind) =
      some (word.length + runLength (fun char => isBaseDigit char || char = '_') behind) := by
  obtain ⟨first, more, rfl, digit, digits⟩ := group
  rw [List.cons_append, groupLength?, if_pos digit, runLength, List.takeWhile_append_of_pos digits,
    List.length_append, List.length_cons, runLength, Nat.add_right_comm, Nat.add_comm 1]

theorem take_groupLength? (found : groupLength? isBaseDigit text = some length) :
    text.take length ∈ digitGroup isBaseDigit := by
  unfold groupLength? at found
  split at found
  · cases found
  · next first rest =>
      split at found
      · next digit =>
          obtain rfl := Option.some.inj found
          refine ⟨first, rest.takeWhile _, ?_, digit, fun char => List.mem_takeWhile_imp⟩
          rw [Nat.add_comm]
          exact congrArg _ (List.prefix_iff_eq_take.mp (List.takeWhile_prefix _)).symm
      · cases found

/-! ### What stands behind the leading digits -/

/-- What makes a number of the leading digits: a point and digits, an exponent, or both. -/
def tailPart : Language Char :=
  pointPart * (1 + exponentPart) + exponentPart

/-- The character goes on no group of decimal digits and is the mark of no base. -/
def Divides (char : Char) : Prop :=
  (isDigit char || char = '_') = false ∧ char ≠ 'x' ∧ char ≠ 'o'

theorem head_of_mem_exponentPart (exponent : word ∈ exponentPart) :
    ∃ mark rest, word = mark :: rest ∧ Divides mark ∧ mark ≠ '.' := by
  obtain ⟨_, rfl | rfl, rest, -, rfl⟩ := exponent
  · exact ⟨'e', rest, rfl, ⟨rfl, by decide, by decide⟩, by decide⟩
  · exact ⟨'E', rest, rfl, ⟨rfl, by decide, by decide⟩, by decide⟩

theorem head_of_mem_tailPart (tail : word ∈ tailPart) :
    ∃ mark rest, word = mark :: rest ∧ Divides mark := by
  rcases tail with ⟨_, ⟨_, rfl, digits, -, rfl⟩, more, -, rfl⟩ | exponent
  · exact ⟨'.', digits ++ more, rfl, rfl, by decide, by decide⟩
  · obtain ⟨mark, rest, same, divides, -⟩ := head_of_mem_exponentPart exponent
    exact ⟨mark, rest, same, divides⟩

theorem Divides.runLength {mark : Char} (divides : Divides mark) (behind : List Char) :
    runLength (fun char => isDigit char || char = '_') (mark :: behind) = 0 := by
  rw [Token.runLength, List.takeWhile_cons, divides.1]
  rfl

theorem exponentLength?_append (exponent : word ∈ exponentPart) (behind : List Char) :
    ∃ reach, exponentLength? (word ++ behind) = some reach ∧ word.length ≤ reach := by
  obtain ⟨mark, isMark, _, ⟨sign, isSign, digits, group, rfl⟩, rfl⟩ := exponent
  have measured := groupLength?_append group behind
  obtain ⟨first, rest, rfl, digit, -⟩ := group
  have plus : first ≠ '+' := by
    rintro rfl
    cases digit
  have minus : first ≠ '-' := by
    rintro rfl
    cases digit
  rw [List.cons_append] at measured
  rcases isMark with rfl | rfl <;> rcases isSign with rfl | rfl | rfl <;>
    exact ⟨_, by simp [exponentLength?, plus, minus, measured]; rfl, by simp; omega⟩

theorem take_exponentLength? (found : exponentLength? text = some length) :
    text.take length ∈ exponentPart := by
  unfold exponentLength? at found
  split at found
  · next mark rest =>
      split at found
      · next isMark =>
          have letter : [mark] = ['e'] ∨ [mark] = ['E'] := by simpa using isMark
          split at found
          all_goals
            obtain ⟨group, measured, rfl⟩ := Option.map_eq_some_iff.mp found
            have digits := take_groupLength? measured
            rw [Nat.add_comm]
          · exact ⟨[mark], letter, _, ⟨['+'], .inr (.inl rfl), _, digits, rfl⟩, rfl⟩
          · exact ⟨[mark], letter, _, ⟨['-'], .inr (.inr rfl), _, digits, rfl⟩, rfl⟩
          · exact ⟨[mark], letter, _, ⟨[], .inl rfl, _, digits, rfl⟩, rfl⟩
      · cases found
  · cases found

theorem take_fractionLength? (found : fractionLength? text = some length) :
    text.take length ∈ pointPart := by
  unfold fractionLength? at found
  split at found
  · obtain ⟨group, measured, rfl⟩ := Option.map_eq_some_iff.mp found
    rw [Nat.add_comm]
    exact ⟨['.'], rfl, _, take_groupLength? measured, rfl⟩
  · cases found

theorem tailLength?_append (tail : word ∈ tailPart) (behind : List Char) :
    ∃ reach, tailLength? (word ++ behind) = some reach ∧ word.length ≤ reach := by
  rcases tail with ⟨_, ⟨_, rfl, digits, group, rfl⟩, exponent, isExponent, rfl⟩ | isExponent
  · have fraction : fractionLength? (['.'] ++ digits ++ (exponent ++ behind)) = _ :=
      congrArg (Option.map (1 + ·)) (groupLength?_append group _)
    rw [List.append_assoc, tailLength?, fraction]
    rcases isExponent with rfl | isExponent
    · exact ⟨_, rfl, by simp; omega⟩
    · obtain ⟨reach, measured, long⟩ := exponentLength?_append isExponent behind
      obtain ⟨mark, rest, rfl, divides, -⟩ := head_of_mem_exponentPart isExponent
      refine ⟨_, rfl, ?_⟩
      have left : (['.'] ++ digits ++ (mark :: rest ++ behind)).drop (1 + digits.length) =
          mark :: rest ++ behind := List.drop_left' (by simp [Nat.add_comm])
      rw [List.cons_append, divides.runLength, Nat.add_zero, ← List.cons_append, left, measured]
      simp at long ⊢
      omega
  · obtain ⟨reach, measured, long⟩ := exponentLength?_append isExponent behind
    obtain ⟨mark, rest, rfl, -, point⟩ := head_of_mem_exponentPart isExponent
    refine ⟨reach, ?_, long⟩
    rw [tailLength?, fractionLength?]
    · exact measured
    · rintro _ ⟨⟩
      exact point rfl

theorem take_tailLength? (found : tailLength? text = some length) :
    text.take length ∈ tailPart := by
  unfold tailLength? at found
  split at found
  · next fraction measured =>
      obtain rfl := Option.some.inj found
      rw [List.take_add]
      refine .inl ⟨_, take_fractionLength? measured, _, ?_, rfl⟩
      cases exponent : exponentLength? _ with
      | none => exact .inl List.take_zero
      | some more => exact .inr (take_exponentLength? exponent)
  · exact .inr (take_exponentLength? found)

/-! ### Whole numerals -/

theorem radixLength?_append {radix : Radix} (marked : radix ≠ .decimal) (text : List Char) :
    radixLength? (radix.mark ++ text) = (groupLength? radix.isDigit text).map (2 + ·) := by
  cases radix with
  | decimal => exact absurd rfl marked
  | hexadecimal | octal => rfl

theorem radix_of_radixLength? (found : radixLength? text = some length) :
    ∃ radix ≠ Radix.decimal, ∃ rest group, text = radix.mark ++ rest ∧
      groupLength? radix.isDigit rest = some group ∧ length = 2 + group := by
  unfold radixLength? at found
  split at found
  · obtain ⟨group, measured, rfl⟩ := Option.map_eq_some_iff.mp found
    exact ⟨.hexadecimal, by decide, _, group, rfl, measured, rfl⟩
  · obtain ⟨group, measured, rfl⟩ := Option.map_eq_some_iff.mp found
    exact ⟨.octal, by decide, _, group, rfl, measured, rfl⟩
  · cases found

theorem groupLength?_radix {radix : Radix} (marked : radix ≠ .decimal) (digits : List Char) :
    groupLength? isDigit (radix.mark ++ digits) = some 1 := by
  cases radix with
  | decimal => exact absurd rfl marked
  | hexadecimal | octal => rfl

theorem numeral_of_tail {digits tail : List Char} (group : digits ∈ digitGroup isDigit)
    (isTail : tail ∈ tailPart) (behind : List Char) :
    (numeral (digits ++ tail ++ behind)).1 = .number ∧
      (digits ++ tail).length ≤ (numeral (digits ++ tail ++ behind)).2 := by
  obtain ⟨reach, measured, long⟩ := tailLength?_append isTail behind
  obtain ⟨mark, rest, rfl, divides⟩ := head_of_mem_tailPart isTail
  have grouped := groupLength?_append group (mark :: (rest ++ behind))
  rw [divides.runLength, Nat.add_zero] at grouped
  have radix : radixLength? (digits ++ mark :: (rest ++ behind)) = none := by
    refine Option.eq_none_iff_forall_ne_some.mpr fun length found => ?_
    obtain ⟨radix, marked, more, -, same, -⟩ := radix_of_radixLength? found
    rw [same, groupLength?_radix marked] at grouped
    obtain ⟨first, rfl⟩ := List.length_eq_one_iff.mp (Option.some.inj grouped).symm
    cases radix with
    | decimal => exact marked rfl
    | hexadecimal => exact divides.2.1 (List.cons.inj (List.cons.inj same).2).1
    | octal => exact divides.2.2 (List.cons.inj (List.cons.inj same).2).1
  rw [List.append_assoc, List.cons_append, numeral, radix]
  rw [List.cons_append] at measured
  simp only [grouped, List.drop_left, measured, List.length_append]
  exact ⟨trivial, Nat.add_le_add_left long _⟩

theorem numeral_of_mem_language {form : NumberForm} (isForm : word ∈ form.language)
    (behind : List Char) :
    (form.kind = .number → (numeral (word ++ behind)).1 = .number) ∧
      word.length ≤ (numeral (word ++ behind)).2 := by
  cases form with
  | whole radix =>
    obtain ⟨_, rfl, digits, group, rfl⟩ := isForm
    have grouped := groupLength?_append group behind
    refine ⟨by rintro ⟨⟩, ?_⟩
    rw [List.append_assoc]
    by_cases marked : radix = .decimal
    · subst marked
      change groupLength? isDigit _ = _ at grouped
      change digits.length ≤ (numeral (digits ++ behind)).2
      unfold numeral
      split
      · next length found =>
          obtain ⟨radix, marked, rest, more, same, -, rfl⟩ := radix_of_radixLength? found
          rw [same, groupLength?_radix marked] at grouped
          have short := Option.some.inj grouped
          omega
      · rw [grouped]
        dsimp only
        split <;> (dsimp only; omega)
    · rw [numeral, radixLength?_append marked, grouped, List.length_append]
      cases radix with
      | decimal => exact absurd rfl marked
      | hexadecimal | octal =>
        change 2 + digits.length ≤ 2 + (digits.length + _)
        omega
  | fraction =>
    obtain ⟨digits, group, tail, isTail, rfl⟩ := isForm
    exact (numeral_of_tail group (.inl isTail) behind).imp_left fun number _ => number
  | power =>
    obtain ⟨digits, group, tail, isTail, rfl⟩ := isForm
    exact (numeral_of_tail group (.inr isTail) behind).imp_left fun number _ => number

variable {first : Char} (digit : isDigit first = true) (rest : List Char)
include digit

theorem take_numeral : ∃ form : NumberForm, (numeral (first :: rest)).1 = form.kind ∧
    (first :: rest).take (numeral (first :: rest)).2 ∈ form.language := by
  have grouped : (groupLength? isDigit (first :: rest)).isSome := by
    rw [groupLength?, if_pos digit]
    rfl
  generalize first :: rest = text at grouped
  unfold numeral
  split
  · next length found =>
      obtain ⟨radix, marked, rest, group, rfl, measured, rfl⟩ := radix_of_radixLength? found
      refine ⟨.whole radix, rfl, _, rfl, _, take_groupLength? measured, ?_⟩
      cases radix with
      | decimal => exact absurd rfl marked
      | hexadecimal | octal =>
        rw [Nat.add_comm]
        rfl
  · split
    · next noGroup =>
        rw [noGroup] at grouped
        cases grouped
    · next length found =>
        have leading := take_groupLength? found
        split
        · next tail measured =>
            rw [List.take_add]
            rcases take_tailLength? measured with isTail | isTail
            · exact ⟨.fraction, rfl, _, leading, _, isTail, rfl⟩
            · exact ⟨.power, rfl, _, leading, _, isTail, rfl⟩
        · exact ⟨.whole .decimal, rfl, [], rfl, _, leading, rfl⟩

theorem one_le_numeral : 1 ≤ (numeral (first :: rest)).2 := by
  have single : [first] ∈ (NumberForm.whole .decimal).language :=
    ⟨[], rfl, [first], ⟨first, [], rfl, digit, by simp⟩, rfl⟩
  exact (numeral_of_mem_language single rest).2

theorem munch_of_isDigit : (munch first rest).1 = (numeral (first :: rest)).1 ∧
    first :: rest.take (munch first rest).2 =
      (first :: rest).take (numeral (first :: rest)).2 := by
  have other (char : Char) (different : isDigit char = false) : first ≠ char := by
    rintro rfl
    exact absurd digit (by simp [different])
  have punctuation : punctuation? first = none := by
    unfold punctuation?
    split <;> first | rfl | cases digit
  have munched : munch first rest =
      ((numeral (first :: rest)).1, (numeral (first :: rest)).2 - 1) := by
    simp [munch, isBlank, punctuation, digit, other ' ' rfl, other '\t' rfl, other '\r' rfl,
      other '\x0c' rfl, other '\x7b' rfl, other '"' rfl, other '\'' rfl]
  rw [munched]
  exact ⟨rfl, by rw [← List.take_succ_cons, Nat.sub_add_cancel (one_le_numeral digit rest)]⟩

omit digit

/--
A token that starts with a digit is a number of some form, which tells its kind.
No longer text at its place is a number of any form.
-/
theorem numeral_longest {source : String} {token : Token} (member : token ∈ scan source)
    {first : Char} (starts : token.text.toList.head? = some first) (digit : isDigit first = true) :
    ∃ before behind, source.toList = before ++ (token.text.toList ++ behind) ∧
      byteLength before = token.span.start ∧
      (token.kind = .integer ∨ token.kind = .number) ∧
      (∃ form : NumberForm, token.text.toList ∈ form.language) ∧
      (token.kind = .number ↔
        token.text.toList ∈ NumberForm.fraction.language ∨
          token.text.toList ∈ NumberForm.power.language) ∧
      ∀ (form : NumberForm) (word : List Char), word ∈ form.language →
        word <+: token.text.toList ++ behind → word.length ≤ token.text.toList.length := by
  have notEnd : token.kind ≠ .eof := by
    obtain ⟨front, stop, split, real⟩ := scan_split source
    intro isEnd
    rw [split, List.mem_append, List.mem_singleton] at member
    rcases member with inFront | rfl
    · have isReal := real token inFront
      rw [isEnd] at isReal
      cases isReal
    · cases starts
  obtain ⟨before, initial, rest, whole, place, -, kind, text⟩ :=
    isMunched_of_mem_scanFrom source.toList [] 0 rfl (Nat.zero_le _) token member notEnd
  rw [text, String.toList_ofList] at starts
  obtain rfl := Option.some.inj starts
  obtain ⟨form, isKind, isForm⟩ := take_numeral digit rest
  have taken : token.text.toList = (initial :: rest).take (numeral (initial :: rest)).2 := by
    rw [text, String.toList_ofList, (munch_of_isDigit digit rest).2]
  have split : token.text.toList ++ (initial :: rest).drop (numeral (initial :: rest)).2 =
      initial :: rest := by rw [taken, List.take_append_drop]
  have long : token.text.toList.length = (numeral (initial :: rest)).2 := by
    rw [taken, List.length_take_of_le (numeral_le _)]
  rw [(munch_of_isDigit digit rest).1, isKind] at kind
  rw [← taken] at isForm
  refine ⟨before, _, by rw [split, whole], place, ?_, ⟨form, isForm⟩, ?_, ?_⟩
  · rw [kind]
    cases form with
    | whole => exact .inl rfl
    | fraction | power => exact .inr rfl
  · constructor
    · intro number
      rw [kind] at number
      cases form with
      | whole => cases number
      | fraction => exact .inl isForm
      | power => exact .inr isForm
    · have number {other : NumberForm} (isOther : token.text.toList ∈ other.language)
          (kindOther : other.kind = .number) : token.kind = .number := by
        have read := (numeral_of_mem_language isOther
          ((initial :: rest).drop (numeral (initial :: rest)).2)).1 kindOther
        rw [split, isKind] at read
        rw [kind, read]
      rintro (isFraction | isPower)
      · exact number isFraction rfl
      · exact number isPower rfl
  · rintro other word isOther ⟨behind, same⟩
    have short := (numeral_of_mem_language isOther behind).2
    rwa [same, split, ← long] at short

/-- The letter behind the digits starts no exponent, and the text goes on with a name. -/
theorem numeral_longest_without_exponent :
    (⟨.integer, ⟨1, 2⟩, "1"⟩ : Token) ∈ scan "=1e+" ∧
      ∃ before behind, "=1e+".toList = before ++ ("1".toList ++ behind) ∧
        byteLength before = 1 ∧
        (TokenKind.integer = .integer ∨ TokenKind.integer = .number) ∧
        (∃ form : NumberForm, "1".toList ∈ form.language) ∧
        (TokenKind.integer = .number ↔
          "1".toList ∈ NumberForm.fraction.language ∨
            "1".toList ∈ NumberForm.power.language) ∧
        ∀ (form : NumberForm) (word : List Char), word ∈ form.language →
          word <+: "1".toList ++ behind → word.length ≤ "1".toList.length :=
  have member : (⟨.integer, ⟨1, 2⟩, "1"⟩ : Token) ∈ scan "=1e+" := by decide +kernel
  ⟨member, numeral_longest member (show "1".toList.head? = some '1' from rfl) rfl⟩

/-! ### The values of whole numbers -/

def digitOf (char : Char) : Nat :=
  "0123456789abcdef".toList.idxOf char.toLower

/-- The value of digits in a base, whatever underscores stand between them. -/
def wholeValue (base : Nat) (digits : List Char) : Nat :=
  Nat.ofDigits base ((digits.filter (· ≠ '_')).map digitOf).reverse

variable {radix : Radix} {digits : List Char}

theorem baseDigit?_eq {char : Char} (digit : radix.isDigit char = true) :
    baseDigit? radix.base char = some (digitOf char) := by
  have small : char ≤ 'f' := by
    cases radix <;> simp only [Radix.isDigit, isHexDigit, isDigit, isOctalDigit, Bool.or_eq_true,
      Bool.and_eq_true, decide_eq_true_eq] at digit
    · exact digit.2.trans (by decide)
    · rcases digit with (digit | digit) | digit <;> exact digit.2.trans (by decide)
    · exact digit.2.trans (by decide)
  have all : ∀ code < 103, radix.isDigit (Char.ofNat code) = true →
      baseDigit? radix.base (Char.ofNat code) = some (digitOf (Char.ofNat code)) := by
    cases radix <;> decide +kernel
  have found := all char.toNat (Nat.lt_succ_of_le small)
  rw [Char.ofNat_toNat] at found
  exact found digit

theorem positionalFrom?_eq (values : ∀ char ∈ digits, radix.isDigit char = true) (value : Nat) :
    positionalFrom? radix.base value digits =
      some (Nat.ofDigits radix.base (digits.map digitOf).reverse +
        radix.base ^ digits.length * value) := by
  induction digits generalizing value with
  | nil => simp [positionalFrom?]
  | cons char rest ih =>
    obtain ⟨first, later⟩ := List.forall_mem_cons.mp values
    rw [positionalFrom?, baseDigit?_eq first, Option.bind_some, ih later, List.map_cons,
      List.reverse_cons, Nat.ofDigits_append, List.length_reverse, List.length_map,
      List.length_cons, Nat.ofDigits_singleton]
    congr 1
    ring

theorem isDigit_of_mem_filter (group : digits ∈ digitGroup isBaseDigit) {char : Char}
    (member : char ∈ digits.filter (· ≠ '_')) : isBaseDigit char = true := by
  obtain ⟨first, more, rfl, digit, others⟩ := group
  obtain ⟨inside, other⟩ := List.mem_filter.mp member
  rcases List.mem_cons.mp inside with rfl | inside
  · exact digit
  · simpa [of_decide_eq_true other] using others char inside

theorem signed64?_of_group (group : digits ∈ digitGroup radix.isDigit) :
    signed64? radix.base (digits.filter (· ≠ '_')) =
      if wholeValue radix.base digits ≤ 2 ^ 63 - 1 then some (wholeValue radix.base digits : Int)
      else none := by
  have value := positionalFrom?_eq (fun char => isDigit_of_mem_filter group) 0
  rw [Nat.mul_zero, Nat.add_zero, ← wholeValue] at value
  obtain ⟨first, more, rfl, digit, -⟩ := group
  have other (char : Char) (valueless : digitValue? char = none) : first ≠ char := by
    rintro rfl
    have valued := baseDigit?_eq digit
    rw [baseDigit?, valueless] at valued
    cases valued
  generalize wholeValue radix.base _ = number at value
  rw [List.filter_cons_of_pos (by simpa using other '_' rfl)] at value ⊢
  rw [signed64?, positional?, if_neg (by simp), value]
  · have bound : number < Literal.signedBound ↔ number ≤ 2 ^ 63 - 1 := by
      rw [Literal.signedBound, Nat.pow_eq]
      omega
    by_cases fits : number ≤ 2 ^ 63 - 1
    · rw [if_pos fits, Option.filter_some, if_pos (decide_eq_true (bound.mpr fits))]
      rfl
    · rw [if_neg fits, Option.filter_some,
        if_neg (by simpa using fun small => fits (bound.mp small))]
      rfl
  · rintro _ ⟨⟩
    exact other '-' rfl rfl
  · rintro _ ⟨⟩
    exact other '+' rfl rfl

theorem integer?_of_mark (group : digits ∈ digitGroup radix.isDigit) :
    integer? (String.ofList (radix.mark ++ digits)) =
      signed64? radix.base (digits.filter (· ≠ '_')) := by
  rw [integer?, Literal.withoutSeparators, String.toList_ofList]
  cases radix with
  | decimal =>
    have only (char : Char) (member : char ∈ digits.filter (· ≠ '_')) : isDigit char = true :=
      isDigit_of_mem_filter group member
    rw [Radix.mark, List.nil_append]
    split
    · next same => exact absurd (only 'x' (by rw [same]; simp)) (by decide)
    · next same => exact absurd (only 'o' (by rw [same]; simp)) (by decide)
    · rfl
  | hexadecimal | octal => rfl

/--
A whole number of a text is made of digits behind the mark of their base.  Its
value is the value of the digits if that is less than `2 ^ 63`, and it has none
otherwise.
-/
theorem integer?_of_scanned {source : String} {token : Token} (member : token ∈ scan source)
    (isInteger : token.kind = .integer) :
    ∃ radix : Radix, ∃ digits ∈ digitGroup radix.isDigit,
      token.text = String.ofList (radix.mark ++ digits) ∧
      integer? token.text =
        if wholeValue radix.base digits ≤ 2 ^ 63 - 1 then some (wholeValue radix.base digits : Int)
        else none := by
  obtain ⟨first, rest, kind, text⟩ := munched_of_mem_scan member (by rw [isInteger]; decide)
  have digit : isDigit first = true := by
    have starts := starts_munch first rest
    rw [← kind, isInteger] at starts
    exact starts
  obtain ⟨form, isKind, isForm⟩ := take_numeral digit rest
  rw [← (munch_of_isDigit digit rest).1, ← kind, isInteger] at isKind
  rw [← (munch_of_isDigit digit rest).2] at isForm
  cases form with
  | fraction | power => cases isKind
  | whole radix =>
    obtain ⟨_, rfl, digits, group, same⟩ := isForm
    refine ⟨radix, digits, group, by rw [text, ← same], ?_⟩
    rw [text, ← same, integer?_of_mark group, signed64?_of_group group]

/-- One more than the largest number that fits. -/
theorem integer?_of_scanned_too_large :
    (⟨.integer, ⟨1, 22⟩, "0x8000_0000_0000_0000"⟩ : Token) ∈ scan "=0x8000_0000_0000_0000" ∧
      ∃ radix : Radix, ∃ digits ∈ digitGroup radix.isDigit,
        "0x8000_0000_0000_0000" = String.ofList (radix.mark ++ digits) ∧
        integer? "0x8000_0000_0000_0000" =
          if wholeValue radix.base digits ≤ 2 ^ 63 - 1 then
            some (wholeValue radix.base digits : Int)
          else none :=
  have member : (⟨.integer, ⟨1, 22⟩, "0x8000_0000_0000_0000"⟩ : Token) ∈
      scan "=0x8000_0000_0000_0000" := by decide +kernel
  ⟨member, integer?_of_scanned member rfl⟩

end Offside.Token
