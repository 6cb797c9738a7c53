import Mathlib.Data.List.TakeWhile
import Offside.Proofs.FixityDrafts
import Offside.Proofs.TokenSpans
import Offside.Token.Class

/-!
# Looking up operators

A table is asked for an operator by a text that modules may qualify, and what
is stored is the operator alone.  So looking up has to drop the modules and
nothing else.  It drops everything that looks like a module, however: a part
that starts with an uppercase character and stops at a dot.  Some signs are
uppercase, namely the enclosed capitals, and an operator that starts with one
and holds a dot before its end is cut.  These are the only operators that are
not found again.
-/

namespace Offside

open Offside.Text

/-- A proper name: a capital, and behind it only characters of names. -/
def isProperName (name : String) : Bool :=
  match name.toList with
  | [] => false
  | first :: rest => isCapital first && rest.all isNameChar

def qualify : (modules : List String) → (operator : String) → String
  | [], operator => operator
  | name :: modules, operator => name ++ "." ++ qualify modules operator

/--
The text starts like a qualified name: with an uppercase character, and with a
dot that something follows.
-/
def startsQualified (text : String) : Bool :=
  match text.toList with
  | [] => false
  | first :: rest => isUppercase first && rest.dropLast.contains '.'

/-! ### The texts of operators -/

/-- The scanner reads the text as one operator or as a colon. -/
def IsOperatorText (text : String) : Prop :=
  ∃ source, ∃ token ∈ Token.scan source, token.text = text ∧
    (token.kind = .operator ∨ token.kind = .colon)

variable {char : Char} {rest word : List Char} {text operator : String} {modules : List String}

/-- What the scanner reads as an operator is made of signs, and no name starts with its first. -/
theorem IsOperatorText.signs (isOperator : IsOperatorText text) :
    ∃ first rest, text.toList = first :: rest ∧
      (isCapital first = false ∧ isSmall first = false ∧ first ≠ '_') ∧
      ∀ char ∈ first :: rest, isSign char = true := by
  obtain ⟨source, token, member, rfl, kind⟩ := isOperator
  obtain ⟨first, rest, isKind, isText⟩ := Token.munched_of_mem_scan member fun isEnd => by
    rw [isEnd] at kind
    rcases kind with kind | kind <;> cases kind
  refine ⟨first, _, by rw [isText, String.toList_ofList], ?_⟩
  have starts := Token.starts_munch first rest
  rcases kind with kind | kind <;> (rw [← isKind, kind] at starts; exact starts)

theorem IsOperatorText.ne_empty (isOperator : IsOperatorText text) : text ≠ "" := by
  obtain ⟨first, rest, spelled, -⟩ := isOperator.signs
  rintro rfl
  cases spelled

/-! ### Dropping the modules -/

theorem isUppercase_of_isCapital (isCapital_ : isCapital char = true) :
    isUppercase char = true := by
  rw [isUppercase, isCapital_, Bool.true_or]

theorem isNameChar_ne_dot (continues : isNameChar char = true) : char ≠ '.' := by
  rintro rfl
  exact absurd continues (by decide)

theorem unqualifiedFrom_cons (plain : char ≠ '.') (current rest : List Char) :
    unqualifiedFrom current (char :: rest) = unqualifiedFrom current rest := by
  cases rest with
  | nil => simp [unqualifiedFrom]
  | cons next tail => simp only [unqualifiedFrom, if_neg plain]

theorem unqualifiedFrom_eq_current (undotted : '.' ∉ rest.dropLast) (current : List Char) :
    unqualifiedFrom current rest = current := by
  induction rest with
  | nil => rfl
  | cons char rest ih =>
    cases rest with
    | nil => simp [unqualifiedFrom]
    | cons next tail =>
      rw [List.dropLast_cons_of_ne_nil (List.cons_ne_nil next tail), List.mem_cons,
        not_or] at undotted
      rw [unqualifiedFrom_cons (Ne.symm undotted.1)]
      exact ih undotted.2

theorem unqualifiedFrom_dot (current : List Char) (undotted : '.' ∉ word) (first : Char)
    (tail : List Char) :
    unqualifiedFrom current (word ++ '.' :: first :: tail) =
      (unqualified (String.ofList (first :: tail))).toList := by
  induction word with
  | nil =>
    rw [unqualified, String.toList_ofList]
    simp only [List.nil_append, unqualifiedFrom, if_true]
    split
    · next isUpper =>
        have plain : first ≠ '.' := by
          rintro rfl
          exact absurd isUpper (by decide)
        rw [String.toList_ofList, unqualifiedFrom_cons plain]
    · rw [String.toList_ofList]
  | cons char rest ih =>
    rw [List.mem_cons, not_or] at undotted
    rw [List.cons_append, unqualifiedFrom_cons (Ne.symm undotted.1)]
    exact ih undotted.2

theorem unqualified_of_not_startsQualified (plain : startsQualified text = false) :
    unqualified text = text := by
  unfold startsQualified at plain
  unfold unqualified
  split
  · rfl
  next first rest spelled =>
  rw [spelled] at plain
  dsimp only at plain
  split
  · next isUpper =>
      rw [isUpper, Bool.true_and, List.contains_eq_mem, decide_eq_false_iff_not] at plain
      rw [unqualifiedFrom_eq_current plain, ← spelled, String.ofList_toList]
  · rfl

theorem unqualified_of_startsQualified (dotted : startsQualified text = true) :
    ∃ before behind, text = before ++ "." ++ behind ∧
      unqualified text = unqualified behind := by
  unfold startsQualified at dotted
  split at dotted
  · cases dotted
  next first rest spelled =>
  rw [Bool.and_eq_true, List.contains_iff_mem] at dotted
  obtain ⟨word, more, split_, undotted⟩ := List.eq_append_cons_of_mem dotted.2
  have nonempty : rest ≠ [] := by
    rintro rfl
    exact absurd dotted.2 List.not_mem_nil
  obtain ⟨head, tail, isTail⟩ :=
    List.exists_cons_of_ne_nil (List.concat_ne_nil (rest.getLast nonempty) more)
  have isRest : rest = word ++ '.' :: head :: tail := by
    rw [← isTail, ← List.cons_append, ← List.append_assoc, ← split_,
      List.dropLast_append_getLast nonempty]
  refine ⟨String.ofList (first :: word), String.ofList (head :: tail), ?_, ?_⟩
  · rw [← String.toList_inj, spelled, isRest]
    simp
  · rw [unqualified, spelled]
    dsimp only
    rw [if_pos dotted.1, isRest, unqualifiedFrom_dot _ undotted, String.ofList_toList]

theorem length_unqualified_le (text : String) : (unqualified text).length ≤ text.length := by
  induction text using (measure String.length).wf.induction with
  | _ text ih =>
    cases dotted : startsQualified text with
    | false => rw [unqualified_of_not_startsQualified dotted]
    | true =>
      obtain ⟨before, behind, isText, isCut⟩ := unqualified_of_startsQualified dotted
      have longer : behind.length < text.length := by
        rw [isText, String.length_append, String.length_append]
        exact Nat.lt_add_of_pos_left (Nat.add_pos_right _ Nat.one_pos)
      rw [isCut]
      exact (ih behind longer).trans longer.le

theorem unqualified_eq_self_iff (text : String) :
    unqualified text = text ↔ startsQualified text = false := by
  refine ⟨fun same => ?_, unqualified_of_not_startsQualified⟩
  by_contra dotted
  obtain ⟨before, behind, isText, isCut⟩ :=
    unqualified_of_startsQualified (Bool.eq_true_of_not_eq_false dotted)
  have fits := length_unqualified_le behind
  rw [← isCut, same, isText, String.length_append, String.length_append] at fits
  have dot : ".".length = 1 := rfl
  omega

theorem exists_of_isProperName {name : String} (proper : isProperName name = true) :
    ∃ first rest, name.toList = first :: rest ∧ isCapital first = true ∧
      ∀ char ∈ rest, isNameChar char = true := by
  unfold isProperName at proper
  split at proper
  · cases proper
  · next first rest spelled =>
      rw [Bool.and_eq_true, List.all_eq_true] at proper
      exact ⟨first, rest, spelled, proper⟩

theorem unqualified_module {name : String} (proper : isProperName name = true)
    (nonempty : text ≠ "") : unqualified (name ++ "." ++ text) = unqualified text := by
  obtain ⟨first, rest, spelled, leads, names⟩ := exists_of_isProperName proper
  obtain ⟨head, tail, isText⟩ := List.exists_cons_of_ne_nil
    (mt String.toList_eq_nil_iff.mp nonempty)
  have whole : (name ++ "." ++ text).toList = first :: (rest ++ '.' :: head :: tail) := by
    simp [String.toList_append, spelled, isText]
  have undotted : '.' ∉ rest := fun member => isNameChar_ne_dot (names _ member) rfl
  rw [unqualified, whole]
  dsimp only
  rw [if_pos (isUppercase_of_isCapital leads), unqualifiedFrom_dot _ undotted,
    String.ofList_toList, ← isText, String.ofList_toList]

theorem qualify_ne_empty (modules : List String) (nonempty : operator ≠ "") :
    qualify modules operator ≠ "" := by
  cases modules with
  | nil => exact nonempty
  | cons name modules => simp [qualify]

theorem unqualified_qualify (proper : ∀ name ∈ modules, isProperName name = true)
    (nonempty : operator ≠ "") : unqualified (qualify modules operator) = unqualified operator := by
  induction modules with
  | nil => rfl
  | cons name modules ih =>
    rw [qualify, unqualified_module (proper name List.mem_cons_self)
      (qualify_ne_empty modules nonempty)]
    exact ih fun other member => proper other (List.mem_cons_of_mem _ member)

/-! ### Scanning a qualified operator -/

namespace Token

theorem toNat_of_isCapital (isCapital_ : isCapital char = true) :
    (65 ≤ char.toNat ∧ char.toNat ≤ 90) ∨ 128 ≤ char.toNat := by
  rw [isCapital, Bool.or_eq_true, Bool.and_eq_true, isAsciiUpper, Bool.and_eq_true,
    decide_eq_true_eq, decide_eq_true_eq, isWide, decide_eq_true_eq] at isCapital_
  exact isCapital_.imp_right And.left

theorem toNat_of_isDigit (isDigit_ : isDigit char = true) : 48 ≤ char.toNat ∧ char.toNat ≤ 57 := by
  rw [isDigit, Bool.and_eq_true, decide_eq_true_eq, decide_eq_true_eq] at isDigit_
  exact isDigit_

theorem not_isSmall_of_isCapital (isCapital_ : isCapital char = true) : isSmall char = false := by
  have code := toNat_of_isCapital isCapital_
  rw [isCapital, Bool.or_eq_true, Bool.and_eq_true] at isCapital_
  rw [isSmall, Bool.or_eq_false_iff]
  constructor
  · rw [isAsciiLower, Bool.and_eq_false_iff, decide_eq_false_iff_not, decide_eq_false_iff_not]
    by_contra both
    rw [not_or, not_not, not_not] at both
    have lower : 97 ≤ char.toNat ∧ char.toNat ≤ 122 := both
    omega
  · rcases isCapital_ with upper | ⟨-, wide⟩
    · have narrow : isWide char = false := by
        rw [isAsciiUpper, Bool.and_eq_true, decide_eq_true_eq, decide_eq_true_eq] at upper
        have last : char.toNat ≤ 90 := upper.2
        rw [isWide, decide_eq_false_iff_not]
        omega
      rw [narrow]
      rfl
    · rw [wide]
      simp

theorem munch_of_isCapital {first : Char} (leads : isCapital first = true) (rest : List Char) :
    munch first rest = properName 0 false rest := by
  have differs (char : Char) (other : isCapital char = false) : first ≠ char := by
    rintro rfl
    rw [leads] at other
    cases other
  have code := toNat_of_isCapital leads
  fun_cases munch first rest with
  | case1 isBlank_ =>
    simp [isBlank, differs ' ' (by decide), differs '\t' (by decide),
      differs '\r' (by decide), differs '\x0c' (by decide)] at isBlank_
  | case2 _ opens =>
    exact absurd (of_decide_eq_true (Bool.and_eq_true_iff.mp opens).1)
      (differs _ (by decide))
  | case3 _ _ kind found =>
    unfold punctuation? at found
    split at found
    all_goals first | exact absurd leads (by decide) | cases found
  | case4 _ _ _ isQuote => exact absurd isQuote (differs _ (by decide))
  | case5 _ _ _ _ isQuote => exact absurd isQuote (differs _ (by decide))
  | case6 _ _ _ _ _ digit =>
    have code_ := toNat_of_isDigit digit
    omega
  | case7 _ _ _ _ _ _ isUnderscore => exact absurd isUnderscore (differs _ (by decide))
  | case8 _ _ _ _ _ _ _ small =>
    rw [not_isSmall_of_isCapital leads] at small
    cases small
  | case9 => rfl
  | case10 | case11 | case12 => exact absurd leads ‹_›

theorem properName_append (isQualified : Bool) (continues : ∀ char ∈ word, isNameChar char = true)
    (more : List Char) :
    properName 0 isQualified (word ++ more) =
      ((properName 0 isQualified more).1, word.length + (properName 0 isQualified more).2) := by
  induction word with
  | nil => rw [List.nil_append, List.length_nil, Nat.zero_add]
  | cons char rest ih =>
    rw [List.forall_mem_cons] at continues
    rw [List.cons_append, properName.eq_def]
    simp only [continues.1, if_true, ih continues.2, List.length_cons]
    rw [Nat.add_right_comm]

theorem properName_qualify (proper : ∀ name ∈ modules, isProperName name = true)
    (isOperator : IsOperatorText operator) (isQualified : Bool)
    (continues : ∀ char ∈ word, isNameChar char = true) :
    properName 0 isQualified (word ++ '.' :: (qualify modules operator).toList) =
      (.qualifiedOperator, (word ++ '.' :: (qualify modules operator).toList).length) := by
  induction modules generalizing isQualified word with
  | nil =>
    obtain ⟨first, rest, spelled, ⟨notCapital, notSmall, notUnderscore⟩, signs⟩ :=
      isOperator.signs
    rw [List.forall_mem_cons] at signs
    have all : rest.takeWhile isSign = rest := List.takeWhile_eq_self_iff.mpr signs.2
    have ends : properName 0 isQualified ('.' :: first :: rest) =
        (.qualifiedOperator, rest.length + 2) := by
      rw [properName.eq_def]
      simp only [show isNameChar '.' = false by decide, notCapital, notSmall, notUnderscore,
        signs.1, all]
      simp
    rw [properName_append isQualified continues, qualify, spelled, ends, List.length_append]
    rfl
  | cons name modules ih =>
    obtain ⟨isName, others⟩ := List.forall_mem_cons.mp proper
    obtain ⟨first, rest, spelled, leads, names⟩ := exists_of_isProperName isName
    have whole : (qualify (name :: modules) operator).toList =
        first :: (rest ++ '.' :: (qualify modules operator).toList) := by
      simp [qualify, String.toList_append, spelled]
    have later := ih others true names
    have goesOn : properName 0 isQualified ('.' :: (qualify (name :: modules) operator).toList) =
        (.qualifiedOperator, (qualify (name :: modules) operator).toList.length + 1) := by
      rw [whole, properName.eq_def]
      simp only [show isNameChar '.' = false by decide, leads, properName, later]
      simp
    rw [properName_append isQualified continues, goesOn, List.length_append]
    rfl

theorem scan_qualify (proper : ∀ name ∈ modules, isProperName name = true) (nonempty : modules ≠ [])
    (isOperator : IsOperatorText operator) :
    ∃ token ∈ scan (qualify modules operator),
      token.text = qualify modules operator ∧ token.kind = .qualifiedOperator := by
  cases modules with
  | nil => exact absurd rfl nonempty
  | cons name modules =>
    obtain ⟨isName, others⟩ := List.forall_mem_cons.mp proper
    obtain ⟨first, rest, spelled, leads, names⟩ := exists_of_isProperName isName
    have whole : (qualify (name :: modules) operator).toList =
        first :: (rest ++ '.' :: (qualify modules operator).toList) := by
      simp [qualify, String.toList_append, spelled]
    have read := (munch_of_isCapital leads _).trans
      (properName_qualify others isOperator false names)
    rw [scan, whole, scanFrom, read]
    dsimp only
    refine ⟨_, List.mem_cons_self, ?_, rfl⟩
    rw [List.take_length, ← whole, String.ofList_toList]

end Token

/-! ### Looking up -/

namespace OperatorTable

theorem get?_insert (table : OperatorTable) (space other : Namespace) (operator text : String)
    (fixity : Fixity) :
    (table.insert space operator fixity).get? other text =
      if space = other ∧ operator = unqualified text then some fixity
      else table.get? other text := by
  rw [get?, stored?_insert, get?]
  simp only [Prod.mk.injEq]

/--
What is stored for an operator is what looking the operator up finds, alone and
behind modules, unless the operator starts like a qualified name; storing for
such an operator changes nothing for it.  For another operator storing counts
only if that operator starts like a qualified name and is cut to the stored one.
Nothing changes in the other namespace.
-/
theorem get?_insert_operator (table : OperatorTable) (space : Namespace) (fixity : Fixity)
    {operator : String} (isOperator : IsOperatorText operator) {modules : List String}
    (proper : ∀ name ∈ modules, isProperName name = true) :
    (modules ≠ [] → ∃ token ∈ Token.scan (qualify modules operator),
      token.text = qualify modules operator ∧ token.kind = .qualifiedOperator) ∧
    (table.insert space operator fixity).get? space (qualify modules operator) =
      (if startsQualified operator then table.get? space operator else some fixity) ∧
    (∀ text, IsOperatorText text → text ≠ operator →
      (table.insert space operator fixity).get? space (qualify modules text) =
        if startsQualified text = true ∧ unqualified text = operator then some fixity
        else table.get? space (qualify modules text)) ∧
    ∀ other ≠ space, ∀ text,
      (table.insert space operator fixity).get? other text = table.get? other text := by
  refine ⟨fun nonempty => Token.scan_qualify proper nonempty isOperator, ?_, ?_, ?_⟩
  · rw [get?_insert, unqualified_qualify proper isOperator.ne_empty]
    cases dotted : startsQualified operator with
    | false =>
      rw [(unqualified_eq_self_iff operator).mpr dotted]
      simp
    | true =>
      have cut : operator ≠ unqualified operator := by
        intro same
        rw [(unqualified_eq_self_iff operator).mp same.symm] at dotted
        cases dotted
      rw [if_neg (fun both => cut both.2), get?, get?,
        unqualified_qualify proper isOperator.ne_empty]
      rfl
  · intro text isText differs
    rw [get?_insert, unqualified_qualify proper isText.ne_empty]
    cases dotted : startsQualified text with
    | false =>
      rw [(unqualified_eq_self_iff text).mpr dotted]
      simp [differs.symm]
    | true => simp [eq_comm]
  · intro other differs text
    rw [get?_insert, if_neg fun both => differs both.1.symm]

/-- An operator is found behind modules, and another one is still what it was. -/
theorem get?_insert_operator_in_modules :
    (standard.insert .value "<+>" ⟨.right, 3⟩).get? .value "Data.Array'.<+>" =
        some ⟨.right, 3⟩ ∧
      (standard.insert .value "<+>" ⟨.right, 3⟩).get? .value "Data.Array'.<>" =
        standard.get? .value "Data.Array'.<>" := by
  have plus : IsOperatorText "<+>" :=
    ⟨"<+>", ⟨.operator, ⟨0, 3⟩, "<+>"⟩, by decide, rfl, .inl rfl⟩
  have angles : IsOperatorText "<>" :=
    ⟨"<>", ⟨.operator, ⟨0, 2⟩, "<>"⟩, by decide, rfl, .inl rfl⟩
  have modules : ∀ name ∈ ["Data", "Array'"], isProperName name = true := by decide
  obtain ⟨-, found, others, -⟩ :=
    get?_insert_operator standard .value ⟨.right, 3⟩ plus modules
  exact ⟨found, others "<>" angles (by decide)⟩

/-- An operator that starts with an enclosed capital and holds a dot is not found. -/
theorem get?_insert_enclosed_capital :
    IsOperatorText "Ⓐ.+" ∧
      (empty.insert .value "Ⓐ.+" ⟨.right, 3⟩).get? .value "Ⓐ.+" = none :=
  ⟨⟨"Ⓐ.+", ⟨.operator, ⟨0, 5⟩, "Ⓐ.+"⟩, by decide +kernel, rfl, .inl rfl⟩, by decide⟩

end OperatorTable

end Offside
