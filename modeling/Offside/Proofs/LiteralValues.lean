import Offside.Proofs.FaultReports
import Offside.Proofs.StringValues

/-!
# The literals of a text without errors

Where nothing is reported every literal is well-formed for the scanner.  That
does not mean that it has a value.  A raw string has one.  A string has none if
the number of an escape does not fit into 32 bits.  A character may follow a
backslash whatever it is, and the number of an escape need not be that of a
character, so a character literal without a fault may have no value.
-/

namespace Offside

namespace Token

open Offside.Text
open Offside.Literal (positional? codeBound unwrap? charValue?)

/-- What stands between the quotes of a character literal spells a character. -/
def SpellsChar : List Char → Prop
  | ['\\', name] => isShortEscape name = true
  | '\\' :: _ :: digits => ∃ code, positional? 16 digits = some code ∧ code.isValidChar
  | _ => True

theorem isSome_shortEscape? (name : Char) :
    (Literal.shortEscape? name).isSome ↔ isShortEscape name = true := by
  simp only [isShortEscape]
  unfold Literal.shortEscape?
  split <;> simp_all

theorem char?_quoted (inside : List Char) :
    Literal.char? (String.ofList ('\'' :: inside ++ ['\''])) = charValue? inside := by
  rw [Literal.char?, String.toList_ofList, List.cons_append, unwrap?]
  simp

theorem isSome_ofCodePoint? {digits : List Char} (hex : ∀ char ∈ digits, isHexDigit char = true) :
    ((Literal.unsigned? 16 codeBound digits).bind Literal.ofCodePoint?).isSome ↔
      ∃ code, positional? 16 digits = some code ∧ code.isValidChar := by
  have plus : digits.head? ≠ some '+' := fun plus =>
    absurd (hex '+' (List.mem_of_mem_head? plus)) (by decide)
  rw [Literal.unsigned?, if_neg plus]
  cases positional? 16 digits with
  | none => simp
  | some code =>
    by_cases valid : code.isValidChar
    · have small : code < codeBound := by
        rw [codeBound, Nat.pow_eq]
        rcases valid with low | high <;> omega
      simp [Option.filter, Literal.ofCodePoint?, small]
    · cases decided : decide (code < codeBound) <;>
        simp [Option.filter, Literal.ofCodePoint?, valid, decided]

/-- Only the marks of numbered escapes are read differently, and they are no short escapes. -/
theorem charValue?_named (name : Char) : charValue? ['\\', name] = Literal.shortEscape? name := by
  by_cases marks : name = 'x' ∨ name = 'u'
  · rcases marks with rfl | rfl <;> rfl
  · simp [charValue?, marks]

theorem character_of_char {rest : List Char} {length : Nat}
    (measured : character rest = (.char, length)) :
    ∃ inside, rest.take length = inside ++ ['\''] ∧
      ((charValue? inside).isSome ↔ SpellsChar inside) := by
  unfold character at measured
  split at measured
  · next mark rest =>
      dsimp only at measured
      split at measured
      · next numbered =>
          split at measured
          · next closed =>
              cases measured
              obtain ⟨marked, hasDigits⟩ := Bool.and_eq_true_iff.mp numbered
              obtain ⟨more, behind⟩ := List.head?_eq_some_iff.mp closed
              have front :=
                List.prefix_iff_eq_take.mp (List.takeWhile_prefix isHexDigit (l := rest))
              refine ⟨'\\' :: mark :: rest.takeWhile isHexDigit, ?_, ?_⟩
              · rw [Nat.add_comm, List.take_succ_cons, List.take_succ_cons, List.take_add, ← front,
                  behind]
                rfl
              · have value := isSome_ofCodePoint? fun char => List.mem_takeWhile_imp (l := rest)
                simp only [Bool.or_eq_true, decide_eq_true_eq] at marked
                cases digits : rest.takeWhile isHexDigit with
                | nil => simp [digits] at hasDigits
                | cons digit digits_ =>
                  rw [digits] at value
                  rcases marked with rfl | rfl <;> exact value
          · cases measured
      · split at measured
        · next closed =>
            cases measured
            obtain ⟨more, rfl⟩ := List.head?_eq_some_iff.mp
              (of_decide_eq_true (Bool.and_eq_true_iff.mp closed).2)
            refine ⟨['\\', mark], rfl, ?_⟩
            rw [charValue?_named, isSome_shortEscape?]
            rfl
        · cases measured
  · next char rest _ =>
      split at measured
      · next other =>
          cases measured
          refine ⟨[char], rfl, ?_⟩
          simp only [Bool.and_eq_true, decide_eq_true_eq] at other
          rw [charValue?, if_neg other.2, SpellsChar] <;> simp
      · cases measured
  · cases measured

end Token

namespace Parse

open Offside.Token (SpellsChar hexEscapes IsCode)

/--
In a text without errors no token is at fault.  Raw strings have values, strings
have values if and only if the numbers of their escapes fit into 32 bits, and
characters have values if and only if they are spelled by a character, a short
escape or the number of a character.
-/
theorem literals_of_clean {options : ParseOptions} {seed : OperatorTable} {source : String}
    (silent : (withTable options seed source).errors = []) {token : Token}
    (member : token ∈ (withTable options seed source).root.tokens) :
    (∀ fault, token.kind ≠ .error fault) ∧
    (token.kind = .rawString → (Literal.string? token.text).isSome) ∧
    (token.kind = .string → ∃ inside, token.text = String.ofList ('"' :: inside ++ ['"']) ∧
      ((Literal.string? token.text).isSome ↔ ∀ digits ∈ hexEscapes 0 inside, IsCode digits)) ∧
    (token.kind = .char → ∃ inside, token.text = String.ofList ('\'' :: inside ++ ['\'']) ∧
      ((Literal.char? token.text).isSome ↔ SpellsChar inside)) := by
  obtain ⟨span, row, stop, root, builds⟩ := builds_root options seed source
  have reports : (withTable options seed source).root.ReportsFaults :=
    Tree.reportsFaults_of_reporting (Grammar.reporting_root options seed source) (by rw [root]; rfl)
  have scanned (real : token.kind.isVirtual = false) : token ∈ Token.scan source := by
    rw [root, Tree.tokens_eq_leaves, Tree.leaves, Tree.forestLeaves_append] at member
    exact Layout.mem_scan_of_mem_tokens (builds.leaves ▸ member) real
  refine ⟨(reports.clean silent token member).1, ?_, ?_, ?_⟩
  · intro isRaw
    obtain ⟨rest, length, measured, text⟩ := Token.quotation_of_mem_scan
      (scanned (by rw [isRaw]; rfl)) (by simp [isRaw])
    obtain ⟨inside, taken, value⟩ := Token.quotation_of_raw (isRaw ▸ measured)
    rw [text, taken, value]
    rfl
  · intro isString
    obtain ⟨rest, length, measured, text⟩ := Token.quotation_of_mem_scan
      (scanned (by rw [isString]; rfl)) (by simp [isString])
    obtain ⟨inside, taken, value⟩ := Token.quotation_of_ne_raw measured (.inl isString)
    rw [taken, ← List.cons_append] at text
    refine ⟨inside, text, ?_⟩
    rw [text, value, isString]
    simp
  · intro isChar
    obtain ⟨first, rest, kind, text⟩ := Token.munched_of_mem_scan
      (scanned (by rw [isChar]; rfl)) (by rw [isChar]; decide)
    have starts := Token.starts_munch first rest
    rw [← kind, isChar] at starts
    obtain ⟨rfl, same⟩ := starts
    rw [same] at kind text
    obtain ⟨inside, taken, value⟩ :=
      Token.character_of_char (Prod.ext (kind.symm.trans isChar) rfl)
    rw [taken, ← List.cons_append] at text
    refine ⟨inside, text, ?_⟩
    rw [text, Token.char?_quoted, value]

/-- The number of a surrogate is not reported either. -/
theorem literals_of_clean_surrogate :
    (ofSource "x = '\\xD800'").errors = [] ∧
      (⟨.char, ⟨4, 12⟩, "'\\xD800'"⟩ : Token) ∈ (ofSource "x = '\\xD800'").root.tokens ∧
      ∃ inside, "'\\xD800'" = String.ofList ('\'' :: inside ++ ['\'']) ∧
        ((Literal.char? "'\\xD800'").isSome ↔ SpellsChar inside) :=
  have silent : (ofSource "x = '\\xD800'").errors = [] := by decide +kernel
  have member : (⟨.char, ⟨4, 12⟩, "'\\xD800'"⟩ : Token) ∈
      (ofSource "x = '\\xD800'").root.tokens := by decide +kernel
  ⟨silent, member, (literals_of_clean silent member).2.2.2 rfl⟩

/-- An unknown escape in a character is not reported, and the character has no value. -/
theorem unknown_escape_unreported :
    (ofSource "x = '\\q'").errors = [] ∧
      ∃ token ∈ (ofSource "x = '\\q'").root.tokens,
        token.kind = .char ∧ Literal.char? token.text = none := by
  decide +kernel

end Parse

end Offside
