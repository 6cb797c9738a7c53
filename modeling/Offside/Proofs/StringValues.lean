import Mathlib.Data.List.TakeWhile
import Offside.Literal.Text
import Offside.Proofs.TokenSpans

/-!
# Strings and their values

The scanner measures the escapes of a string while it looks for the closing
quote, and it sees what stands behind that quote.  The decoder sees only what
stands between the quotes.  They agree on every string: one that is scanned
with a fault has no value, and one that is scanned without a fault has a value
if and only if its hexadecimal escapes write numbers that are small enough.
-/

namespace Offside.Token

open Offside.Text
open Offside.Literal (positional? codeBound escape? decode? isRaw unwrap?)

/-- The digits of the hexadecimal escape right behind a backslash, if there is one. -/
def escapedDigits (rest : List Char) : List (List Char) :=
  if rest.head? = some 'x' || rest.head? = some 'u' then [rest.tail.takeWhile isHexDigit] else []

/--
The digits of the hexadecimal escapes between the quotes of a string.  The first
`skip` characters belong to an escape.
-/
def hexEscapes : (skip : Nat) → List Char → List (List Char)
  | _, [] => []
  | skip + 1, _ :: rest => hexEscapes skip rest
  | 0, char :: rest =>
    if char = '\\' then
      escapedDigits rest ++ hexEscapes ((escapeLength? rest).getD 0) rest
    else hexEscapes 0 rest

def IsCode (digits : List Char) : Prop :=
  ∃ number, positional? 16 digits = some number ∧ number < codeBound

/-! ### One escape -/

section Quote

variable {test : Char → Bool} {rest more : List Char}

theorem takeWhile_quote (stops : test '"' = false) :
    (rest ++ '"' :: more).takeWhile test = rest.takeWhile test := by
  induction rest with
  | nil => rw [List.nil_append, List.takeWhile_cons, stops]; rfl
  | cons char rest ih => rw [List.cons_append, List.takeWhile_cons, List.takeWhile_cons, ih]

theorem dropWhile_quote (stops : test '"' = false) :
    (rest ++ '"' :: more).dropWhile test = rest.dropWhile test ++ '"' :: more := by
  induction rest with
  | nil => rw [List.nil_append, List.dropWhile_cons, stops]; rfl
  | cons char rest ih =>
    rw [List.cons_append, List.dropWhile_cons, List.dropWhile_cons, ih]
    split <;> rfl

end Quote

theorem escapeLength?_quote (first : Char) (tail more : List Char) :
    escapeLength? (first :: tail ++ '"' :: more) = escapeLength? (first :: tail) := by
  rw [List.cons_append, escapeLength?, escapeLength?, dropWhile_quote (by decide),
    takeWhile_quote (by decide), takeWhile_quote (by decide)]
  cases tail.dropWhile isGapChar with
  | nil => rfl
  | cons next behind =>
    congr 1
    split
    · next same =>
        rw [(List.cons.inj same).1]
        rfl
    · next other =>
        split
        · next same => exact absurd (congrArg (· ++ '"' :: more) same) (other _)
        · rfl

theorem escape?_of_isShortEscape {first : Char} (short : isShortEscape first = true)
    (tail : List Char) : ∃ char, escape? (first :: tail) = some ([char], 1) := by
  simp only [isShortEscape, Bool.or_eq_true, decide_eq_true_eq] at short
  rcases short with (((((rfl | rfl) | rfl) | rfl) | rfl) | rfl) | rfl <;> exact ⟨_, rfl⟩

theorem escape?_of_not_isShortEscape {first : Char} (long : ¬isShortEscape first = true)
    (tail : List Char) :
    escape? (first :: tail) =
      if first = 'x' || first = 'u' then
        ((positional? 16 (tail.takeWhile isHexDigit)).filter (· < codeBound)).map fun code =>
          ([(Literal.ofCodePoint? code).getD Literal.replacement],
            1 + (tail.takeWhile isHexDigit).length)
      else if isGapChar first then
        match tail.dropWhile isGapChar with
        | '\\' :: _ => some ([], (tail.takeWhile isGapChar).length + 2)
        | _ => none
      else none := by
  have digits : (tail.takeWhile isHexDigit).head? ≠ some '+' := fun plus =>
    absurd (List.mem_takeWhile_imp (List.mem_of_mem_head? plus)) (by decide)
  have notShort : Literal.shortEscape? first = none := by
    unfold Literal.shortEscape?
    split <;> first | rfl | exact absurd rfl long
  rw [escape?, notShort]
  simp only [Literal.unsigned?, if_neg digits]
  rfl

/-- The decoder takes what the scanner takes for an escape, unless its number is too large. -/
theorem escape?_agrees (first : Char) (tail : List Char) :
    (∀ spelled ∈ escape? (first :: tail), escapeLength? (first :: tail) = some spelled.2) ∧
      ((escape? (first :: tail)).isSome ↔ (escapeLength? (first :: tail)).isSome ∧
        ∀ digits ∈ escapedDigits (first :: tail), IsCode digits) := by
  have digits : escapedDigits (first :: tail) =
      if first = 'x' || first = 'u' then [tail.takeWhile isHexDigit] else [] := by
    simp only [escapedDigits, List.head?_cons, Option.some.injEq, List.tail_cons]
  rw [digits, escapeLength?]
  by_cases short : isShortEscape first = true
  · obtain ⟨char, spelled⟩ := escape?_of_isShortEscape short tail
    have other : isGapChar first = false ∧ (first = 'x' || first = 'u') = false := by
      simp only [isShortEscape, Bool.or_eq_true, decide_eq_true_eq] at short
      rcases short with (((((rfl | rfl) | rfl) | rfl) | rfl) | rfl) | rfl <;> decide
    simp [spelled, short, other]
  rw [escape?_of_not_isShortEscape short, if_neg short]
  by_cases code : (first = 'x' || first = 'u') = true
  · have other : isGapChar first = false := by
      simp only [Bool.or_eq_true, decide_eq_true_eq] at code
      rcases code with rfl | rfl <;> decide
    simp only [code, other, if_true, List.forall_mem_singleton, IsCode]
    cases tail.takeWhile isHexDigit with
    | nil => simp [positional?]
    | cons digit digits =>
      cases positional? 16 _ <;> simp [Option.filter]
  · simp only [if_neg code]
    split
    · split <;> simp_all
    · simp

/-! ### The closing quote -/

/-- A character that does not end a string is passed over, with the escape that it starts. -/
theorem scanString_cons (faulty : Bool) {char : Char} (rest : List Char) (notQuote : char ≠ '"')
    (notEnd : char ≠ '\n') :
    ∃ skip worse, (faulty = true → worse = true) ∧
      (char = '\\' → escapeLength? rest = some skip ∧ worse = faulty ∨
        escapeLength? rest = none ∧ worse = true) ∧
      (char ≠ '\\' → skip = 0 ∧ worse = faulty) ∧
      scanString 0 faulty (char :: rest) =
        ((scanString skip worse rest).1, (scanString skip worse rest).2 + 1) := by
  rw [scanString, if_neg notQuote, if_neg notEnd]
  by_cases escapes : char = '\\'
  · rw [if_pos escapes]
    cases escapeLength? rest with
    | none =>
      exact ⟨0, true, fun _ => rfl, fun _ => .inr ⟨rfl, rfl⟩,
        fun other => absurd escapes other, rfl⟩
    | some skip =>
      exact ⟨skip, faulty, id, fun _ => .inl ⟨rfl, rfl⟩, fun other => absurd escapes other, rfl⟩
  · rw [if_neg escapes]
    exact ⟨0, faulty, id, fun same => absurd same escapes, fun _ => ⟨rfl, rfl⟩, rfl⟩

theorem exists_quote {skip : Nat} {faulty : Bool} {chars : List Char} {ending : StringEnd}
    {length : Nat} (scanned : scanString skip faulty chars = (ending, length))
    (ends : ending ≠ .unterminated) :
    ∃ inside more, chars = inside ++ '"' :: more ∧ length = inside.length + 1 ∧
      skip ≤ inside.length := by
  induction chars generalizing skip faulty length with
  | nil => cases skip <;> (cases scanned; exact absurd rfl ends)
  | cons char rest ih =>
    have further {skip faulty length} (scanned : scanString skip faulty rest = (ending, length)) :
        ∃ inside more, char :: rest = inside ++ '"' :: more ∧ length + 1 = inside.length + 1 ∧
          skip + 1 ≤ inside.length := by
      obtain ⟨inside, more, rfl, rfl, fits⟩ := ih scanned
      exact ⟨char :: inside, more, rfl, rfl, Nat.succ_le_succ fits⟩
    cases skip with
    | succ skip =>
      cases scanned
      exact further rfl
    | zero =>
      by_cases quote : char = '"'
      · rw [scanString, if_pos quote] at scanned
        cases scanned
        exact ⟨[], rest, congrArg (· :: rest) quote, rfl, Nat.le_refl 0⟩
      by_cases newline : char = '\n'
      · rw [scanString, if_neg quote, if_pos newline] at scanned
        cases scanned
        exact absurd rfl ends
      obtain ⟨skip, worse, -, -, -, step⟩ := scanString_cons faulty rest quote newline
      cases step.symm.trans scanned
      obtain ⟨inside, more, whole, long, -⟩ := @further skip worse _ rfl
      exact ⟨inside, more, whole, long, Nat.zero_le _⟩

theorem escapeLength?_append {rest : List Char} (quoted : '"' ∈ rest) (more : List Char) :
    escapeLength? (rest ++ more) = escapeLength? rest := by
  obtain ⟨inside, behind, rfl⟩ := List.append_of_mem quoted
  rw [List.append_assoc, List.cons_append]
  cases inside with
  | nil => rfl
  | cons first tail => rw [escapeLength?_quote, escapeLength?_quote]

theorem scanString_append {skip : Nat} {faulty : Bool} {chars : List Char} {ending : StringEnd}
    {length : Nat} (scanned : scanString skip faulty chars = (ending, length))
    (ends : ending ≠ .unterminated) (more : List Char) :
    scanString skip faulty (chars ++ more) = (ending, length) := by
  induction chars generalizing skip faulty length with
  | nil => cases skip <;> (cases scanned; exact absurd rfl ends)
  | cons char rest ih =>
    have further {skip faulty} (onward : ((scanString skip faulty rest).1,
        (scanString skip faulty rest).2 + 1) = (ending, length)) :
        '"' ∈ rest ∧ ((scanString skip faulty (rest ++ more)).1,
          (scanString skip faulty (rest ++ more)).2 + 1) = (ending, length) := by
      obtain ⟨rfl, rfl⟩ := Prod.mk.inj onward
      obtain ⟨inside, behind, whole, -⟩ := exists_quote rfl ends
      rw [ih rfl]
      exact ⟨by simp [whole], rfl⟩
    cases skip with
    | succ skip => exact (further scanned).2
    | zero =>
      rw [scanString] at scanned
      rw [List.cons_append, scanString]
      by_cases quote : char = '"'
      · rw [if_pos quote] at scanned ⊢
        exact scanned
      rw [if_neg quote] at scanned ⊢
      by_cases newline : char = '\n'
      · rw [if_pos newline] at scanned
        exact absurd (Prod.mk.inj scanned).1.symm ends
      rw [if_neg newline] at scanned ⊢
      by_cases escapes : char = '\\'
      · rw [if_pos escapes] at scanned ⊢
        cases found : escapeLength? rest with
        | none | some =>
          rw [found] at scanned
          obtain ⟨quoted, onward⟩ := further scanned
          rw [escapeLength?_append quoted, found]
          exact onward
      · rw [if_neg escapes] at scanned ⊢
        exact (further scanned).2

theorem scanString_faulty (skip : Nat) (chars : List Char) :
    (scanString skip true chars).1 ≠ .closed := by
  induction chars generalizing skip with
  | nil => cases skip <;> exact StringEnd.noConfusion
  | cons char rest ih =>
    cases skip with
    | succ skip => exact ih skip
    | zero =>
      by_cases quote : char = '"'
      · rw [scanString, if_pos quote]
        exact StringEnd.noConfusion
      by_cases newline : char = '\n'
      · rw [scanString, if_neg quote, if_pos newline]
        exact StringEnd.noConfusion
      obtain ⟨skip, worse, still, -, -, step⟩ := scanString_cons true rest quote newline
      rw [step, still rfl]
      exact ih skip

theorem isSome_decode?_iff {inside more : List Char} {skip : Nat} {ending : StringEnd}
    (fits : skip ≤ inside.length)
    (scanned : scanString skip false (inside ++ '"' :: more) = (ending, inside.length + 1))
    (ends : ending ≠ .unterminated) :
    (decode? skip inside).isSome ↔
      ending = .closed ∧ ∀ digits ∈ hexEscapes skip inside, IsCode digits := by
  induction inside generalizing skip with
  | nil =>
    obtain rfl := Nat.le_zero.mp fits
    cases scanned
    simp [decode?, hexEscapes]
  | cons char rest ih =>
    cases skip with
    | succ skip =>
      refine ih (Nat.le_of_succ_le_succ fits) ?_
      rw [List.cons_append, scanString] at scanned
      simpa [Prod.ext_iff] using scanned
    | zero =>
      by_cases quote : char = '"'
      · rw [List.cons_append, scanString, if_pos quote] at scanned
        cases (Prod.mk.inj scanned).2
      by_cases newline : char = '\n'
      · rw [List.cons_append, scanString, if_neg quote, if_pos newline] at scanned
        exact absurd (Prod.mk.inj scanned).1.symm ends
      obtain ⟨skip, worse, -, escaped, plain, step⟩ :=
        scanString_cons false (rest ++ '"' :: more) quote newline
      obtain ⟨rfl, long⟩ := Prod.mk.inj (step.symm.trans scanned)
      have onward : scanString skip worse (rest ++ '"' :: more) = (_, rest.length + 1) :=
        Prod.ext rfl (Nat.succ.inj long)
      by_cases escapes : char = '\\'
      · obtain ⟨_, _, -, same, fits⟩ := exists_quote onward ends
        rw [← Nat.succ.inj same] at fits
        rw [decode?, if_pos escapes, hexEscapes, if_pos escapes, List.forall_mem_append]
        cases rest with
        | nil =>
          rcases escaped escapes with ⟨found, -⟩ | ⟨noEscape, -⟩
          · cases Option.some.inj found
            exact absurd fits (Nat.not_succ_le_zero 0)
          · cases noEscape
        | cons first tail =>
          rw [escapeLength?_quote] at escaped
          obtain ⟨spells, isSome_iff⟩ := escape?_agrees first tail
          rcases escaped escapes with ⟨found, rfl⟩ | ⟨noEscape, rfl⟩
          · rw [found] at spells isSome_iff ⊢
            cases spelled : escape? _ with
            | none =>
              rw [spelled] at isSome_iff
              exact ⟨fun isSome => absurd isSome (by simp), fun ⟨_, codes, _⟩ =>
                absurd (isSome_iff.mpr ⟨rfl, codes⟩) (by simp)⟩
            | some outcome =>
              obtain rfl := Option.some.inj (spells outcome spelled)
              rw [spelled] at isSome_iff
              have codes := (isSome_iff.mp rfl).2
              rw [Option.bind_some, Option.isSome_map, ih fits onward]
              exact and_congr_right fun _ => (and_iff_right codes).symm
          · rw [noEscape] at isSome_iff
            have nothing : escape? (first :: tail) = none := by simpa using isSome_iff
            rw [nothing]
            exact ⟨fun isSome => absurd isSome (by simp), fun closed =>
              absurd closed.1 (scanString_faulty _ _)⟩
      · obtain ⟨rfl, rfl⟩ := plain escapes
        rw [decode?, if_neg escapes, hexEscapes, if_neg escapes, Option.isSome_map]
        exact ih (Nat.zero_le _) onward

/-! ### Raw strings -/

theorem rawLength?_ends {text : List Char} {length : Nat} (found : rawLength? text = some length) :
    ∃ inside, text.take length = inside ++ ['"', '"', '"'] := by
  fun_induction rawLength? text generalizing length with
  | case1 rest =>
    obtain rfl := Option.some.inj found
    refine ⟨rest.takeWhile (· = '"'), ?_⟩
    have quotes : rest.takeWhile (· = '"') =
        List.replicate (rest.takeWhile (· = '"')).length '"' :=
      List.eq_replicate_of_mem fun char member => by
        simpa using List.mem_takeWhile_imp member
    have taken := List.prefix_iff_eq_take.mp (List.takeWhile_prefix (· = '"') (l := rest))
    rw [Nat.add_comm, List.take_succ_cons, List.take_succ_cons, List.take_succ_cons, ← taken,
      quotes]
    exact (List.replicate_append_replicate (m := 3)).symm
  | case2 first rest plain ih =>
    obtain ⟨more, isMore, rfl⟩ := Option.map_eq_some_iff.mp found
    obtain ⟨inside, same⟩ := ih isMore
    exact ⟨first :: inside, by rw [Nat.add_comm, List.take_succ_cons, same, List.cons_append]⟩
  | case3 => cases found

theorem rawLength?_append {text more : List Char} {length : Nat}
    (found : rawLength? text = some length) (noQuote : more.head? ≠ some '"') :
    rawLength? (text ++ more) = some length := by
  have stops : more.takeWhile (· = '"') = [] := by
    cases more with
    | nil => rfl
    | cons char _ => exact List.takeWhile_cons_of_neg (by simpa using noQuote)
  fun_induction rawLength? text generalizing length with
  | case1 rest =>
    simp only [List.cons_append, rawLength?, List.takeWhile_append, stops, List.append_nil]
    rw [← found]
    split
    · next all => rw [← all]
    · rfl
  | case2 first rest plain ih =>
    obtain ⟨reach, isReach, rfl⟩ := Option.map_eq_some_iff.mp found
    rw [List.cons_append, rawLength?.eq_def]
    split
    · next opens =>
      obtain ⟨same, opens⟩ := List.cons.inj opens
      match rest, isReach with
      | _ :: _ :: tail, _ =>
        simp only [List.cons_append, List.cons.injEq] at opens
        exact absurd (by rw [opens.1, opens.2.1]) (plain tail same)
    · next same =>
      cases same
      rw [ih isReach, Option.map_some]
    · next same => cases same
  | case3 => cases found

/-! ### The strings of a text -/

theorem isRaw_quoted {inside more : List Char}
    (notRaw : ∀ tail, inside ++ '"' :: more ≠ '"' :: '"' :: tail) :
    isRaw ('"' :: inside ++ ['"']) = false := by
  match inside, notRaw with
  | [], _ | [_], _ => rfl
  | first :: second :: tail, notRaw =>
    refine Bool.eq_false_iff.mpr fun raw => notRaw (tail ++ '"' :: more) ?_
    simp only [isRaw, Bool.and_eq_true, List.isPrefixOf_iff_prefix, List.cons_append,
      List.cons_prefix_cons, true_and] at raw
    rw [← raw.1.2.1, ← raw.1.2.2.1]
    rfl

theorem quotation_of_ne_raw {rest : List Char} {kind : TokenKind} {length : Nat}
    (measured : quotation rest = (kind, length))
    (isString : kind = .string ∨ kind = .error .invalidEscape) :
    ∃ inside, rest.take length = inside ++ ['"'] ∧
      ((Literal.string? (String.ofList ('"' :: inside ++ ['"']))).isSome ↔
        kind = .string ∧ ∀ digits ∈ hexEscapes 0 inside, IsCode digits) := by
  unfold quotation at measured
  split at measured
  · split at measured <;> (cases measured; rcases isString with same | same <;> cases same)
  · next notRaw =>
      cases scanned : scanString 0 false rest with
      | mk ending reach =>
        have outcome : reach = length ∧ ending ≠ .unterminated ∧
            (kind = .string ↔ ending = .closed) := by
          rw [scanned] at measured
          cases ending <;> (cases measured; simp_all)
        obtain ⟨rfl, ends, closed⟩ := outcome
        obtain ⟨inside, more, rfl, rfl, -⟩ := exists_quote scanned ends
        refine ⟨inside, List.take_length_add_append .., ?_⟩
        rw [Literal.string?, String.toList_ofList, isRaw_quoted notRaw, closed,
          ← isSome_decode?_iff (Nat.zero_le _) scanned ends]
        simp [unwrap?]

theorem quotation_of_raw {rest : List Char} {length : Nat}
    (measured : quotation rest = (.rawString, length)) :
    ∃ inside, '"' :: rest.take length = ['"', '"', '"'] ++ inside ++ ['"', '"', '"'] ∧
      Literal.string? (String.ofList (['"', '"', '"'] ++ inside ++ ['"', '"', '"'])) =
        some (String.ofList inside) := by
  unfold quotation at measured
  split at measured
  · next rest =>
      split at measured
      · next length found =>
          cases measured
          obtain ⟨inside, taken⟩ := rawLength?_ends found
          refine ⟨inside, ?_, ?_⟩
          · rw [Nat.add_comm, List.take_succ_cons, List.take_succ_cons, taken]
            rfl
          · have raw : isRaw (['"', '"', '"'] ++ inside ++ ['"', '"', '"']) = true := by
              simp only [isRaw, Bool.and_eq_true, List.isSuffixOf_iff_suffix, decide_eq_true_eq]
              refine ⟨⟨?_, by simp⟩, List.suffix_append _ _⟩
              simp only [List.length_append, List.length_cons]
              omega
            rw [Literal.string?, String.toList_ofList, if_pos raw]
            simp
      · cases measured
  · split at measured <;> cases measured

theorem quotation_of_mem_scan {source : String} {token : Token} (member : token ∈ scan source)
    (quoted : token.kind ∈ [.string, .error .invalidEscape, .rawString]) :
    ∃ rest length, quotation rest = (token.kind, length) ∧
      token.text = String.ofList ('"' :: rest.take length) := by
  obtain ⟨first, rest, kind, text⟩ := munched_of_mem_scan member fun isEnd => by
    rw [isEnd] at quoted
    exact absurd quoted (by decide)
  have starts : first = '"' ∧ munch first rest = quotation rest := by
    have starts := starts_munch first rest
    simp only [List.mem_cons, List.not_mem_nil, or_false] at quoted
    rcases quoted with same | same | same <;> (rw [← kind, same] at starts; exact starts)
  obtain ⟨rfl, same⟩ := starts
  exact ⟨rest, _, Prod.ext kind.symm rfl, text⟩

/--
A string of a text stands between two quotes.  It has a value if and only if it
is scanned without a fault and each of its hexadecimal escapes writes a number
that fits into 32 bits.  The value of a raw string is what stands between its
first and its last three quotes.
-/
theorem string?_of_scanned {source : String} {token : Token} (member : token ∈ scan source) :
    (token.kind = .string ∨ token.kind = .error .invalidEscape →
      ∃ inside, token.text = String.ofList ('"' :: inside ++ ['"']) ∧
        ((Literal.string? token.text).isSome ↔
          token.kind = .string ∧ ∀ digits ∈ hexEscapes 0 inside, IsCode digits)) ∧
    (token.kind = .rawString →
      ∃ inside, token.text = "\"\"\"" ++ inside ++ "\"\"\"" ∧
        Literal.string? token.text = some inside) := by
  constructor
  · intro isString
    obtain ⟨rest, length, measured, text⟩ := quotation_of_mem_scan member
      (by rcases isString with same | same <;> simp [same])
    obtain ⟨inside, taken, value⟩ := quotation_of_ne_raw measured isString
    rw [taken, ← List.cons_append] at text
    exact ⟨inside, text, text ▸ value⟩
  · intro isRaw
    obtain ⟨rest, length, measured, text⟩ := quotation_of_mem_scan member
      (by simp [isRaw])
    obtain ⟨inside, taken, value⟩ := quotation_of_raw (isRaw ▸ measured)
    rw [taken] at text
    refine ⟨String.ofList inside, ?_, text ▸ value⟩
    rw [text, String.ofList_append, String.ofList_append]

theorem string?_of_scanned_too_large :
    (⟨.string, ⟨1, 14⟩, "\"\\x100000000\""⟩ : Token) ∈ scan "=\"\\x100000000\"" ∧
      ∃ inside, "\"\\x100000000\"" = String.ofList ('"' :: inside ++ ['"']) ∧
        ((Literal.string? "\"\\x100000000\"").isSome ↔
          TokenKind.string = .string ∧ ∀ digits ∈ hexEscapes 0 inside, IsCode digits) :=
  have member : (⟨.string, ⟨1, 14⟩, "\"\\x100000000\""⟩ : Token) ∈
      scan "=\"\\x100000000\"" := by decide +kernel
  ⟨member, (string?_of_scanned member).1 (.inl rfl)⟩

end Offside.Token
