import Offside.Proofs.NestedComments

/-!
# Strings and comments, byte by byte

Strings and comments may hold any character, but where they end is decided by
ASCII characters alone.  So they can be read byte by byte: a byte beyond ASCII
is part of a character that decides nothing.  Whoever reads the bytes finds the
same kind of token and stops at the same place as whoever reads the characters,
and thus never inside a character.
-/

namespace Offside.Token

open Offside.Text

def bytes (text : List Char) : List UInt8 :=
  text.flatMap String.utf8EncodeChar

/-- A byte is compared with ASCII characters as the character with its code is. -/
def symbol (byte : UInt8) : Char :=
  Char.ofNat byte.toNat

/-- How a string ends and its length after the first quote, in bytes. -/
def stringBytes (rest : List UInt8) : StringEnd × Nat :=
  scanString 0 false (rest.map symbol)

/-- The kind of a block comment and its length after the opening mark, in bytes. -/
def blockCommentBytes (rest : List UInt8) : TokenKind × Nat :=
  blockComment (rest.map symbol)

/-! ### Characters and their bytes -/

/-- A text, and the same text with wide characters drawn out into several wide ones each. -/
inductive Spread : (text read : List Char) → Prop where
  | nil : Spread [] []
  | narrow {char : Char} {text read : List Char} (isNarrow : isWide char = false)
      (later : Spread text read) : Spread (char :: text) (char :: read)
  | wide {char : Char} {parts text read : List Char} (isWide_ : isWide char = true)
      (length : parts.length = char.utf8Size) (all : ∀ part ∈ parts, isWide part = true)
      (later : Spread text read) : Spread (char :: text) (parts ++ read)

theorem toNat_symbol (byte : UInt8) : (symbol byte).toNat = byte.toNat := by
  have small := byte.toNat_lt
  rw [symbol, Char.ofNat, dif_pos (.inl (by omega))]
  rfl

theorem utf8EncodeChar_of_narrow {char : Char} (narrow : isWide char = false) :
    (String.utf8EncodeChar char).map symbol = [char] := by
  have small : char.toNat < 128 := Nat.lt_of_not_le (of_decide_eq_false narrow)
  have encoded : String.utf8EncodeChar char = [UInt8.ofNat char.toNat] :=
    if_pos (Nat.le_of_lt_succ small)
  rw [encoded, List.map_singleton, symbol, UInt8.toNat_ofNat', Nat.mod_eq_of_lt (by omega),
    Char.ofNat_toNat]

theorem utf8EncodeChar_of_wide {char : Char} (wide : isWide char = true) :
    ∀ byte ∈ String.utf8EncodeChar char, 128 ≤ byte.toNat := by
  have large : ¬ char.val.toNat ≤ 127 := Nat.not_le_of_gt (of_decide_eq_true wide)
  rw [String.utf8EncodeChar, if_neg large]
  intro byte member
  split at member
  · simp only [List.mem_cons, List.not_mem_nil, or_false] at member
    rcases member with rfl | rfl <;> (rw [UInt8.toNat_ofNat']; omega)
  · split at member
    · simp only [List.mem_cons, List.not_mem_nil, or_false] at member
      rcases member with rfl | rfl | rfl <;> (rw [UInt8.toNat_ofNat']; omega)
    · simp only [List.mem_cons, List.not_mem_nil, or_false] at member
      rcases member with rfl | rfl | rfl | rfl <;> (rw [UInt8.toNat_ofNat']; omega)

theorem spread_bytes (text : List Char) : Spread text ((bytes text).map symbol) := by
  induction text with
  | nil => exact .nil
  | cons char rest ih =>
    rw [bytes, List.flatMap_cons, List.map_append]
    cases size : isWide char with
    | false =>
      rw [utf8EncodeChar_of_narrow size]
      exact .narrow size ih
    | true =>
      refine .wide size ?_ (List.forall_mem_map.mpr fun byte member => ?_) ih
      · rw [List.length_map, String.length_utf8EncodeChar]
      · rw [isWide, toNat_symbol]
        exact decide_eq_true (utf8EncodeChar_of_wide size byte member)

theorem utf8Size_of_narrow {char : Char} (narrow : isWide char = false) : char.utf8Size = 1 := by
  rw [← String.length_utf8EncodeChar, ← List.length_map symbol, utf8EncodeChar_of_narrow narrow]
  rfl

theorem byteLength_of_narrow {text : List Char} (narrow : ∀ char ∈ text, isWide char = false) :
    byteLength text = text.length := by
  induction text with
  | nil => rfl
  | cons char rest ih =>
    obtain ⟨first, later⟩ := List.forall_mem_cons.mp narrow
    rw [byteLength, utf8Size_of_narrow first, ih later, List.length_cons, Nat.add_comm]

theorem isWide_of_isGapChar {char : Char} (gap : isGapChar char = true) :
    isWide char = false := by
  simp only [isGapChar, Bool.or_eq_true, decide_eq_true_eq] at gap
  rcases gap with ((rfl | rfl) | rfl) | rfl <;> rfl

theorem isWide_of_isShortEscape {char : Char} (short : isShortEscape char = true) :
    isWide char = false := by
  simp only [isShortEscape, Bool.or_eq_true, decide_eq_true_eq] at short
  rcases short with (((((rfl | rfl) | rfl) | rfl) | rfl) | rfl) | rfl <;> rfl

theorem isWide_of_isHexDigit {char : Char} (hex : isHexDigit char = true) :
    isWide char = false := by
  simp only [isHexDigit, isDigit, Bool.or_eq_true, Bool.and_eq_true, decide_eq_true_eq,
    Char.le_def, UInt32.le_iff_toNat_le] at hex
  refine decide_eq_false fun wide => ?_
  have code : 128 ≤ char.val.toNat := wide
  have bounds : char.val.toNat ≤ 57 ∨ char.val.toNat ≤ 102 ∨ char.val.toNat ≤ 70 := by
    rcases hex with (hex | hex) | hex
    · exact .inl hex.2
    · exact .inr (.inl hex.2)
    · exact .inr (.inr hex.2)
  omega

namespace Spread

variable {text read : List Char}

theorem length_eq (spread : Spread text read) : read.length = byteLength text := by
  induction spread with
  | nil => rfl
  | narrow isNarrow later ih =>
    rw [List.length_cons, byteLength, utf8Size_of_narrow isNarrow, ih, Nat.add_comm]
  | wide isWide_ length all later ih => rw [List.length_append, length, byteLength, ih]

theorem exists_cons {char : Char} (spread : Spread (char :: text) read)
    (wide : isWide char = true) : ∃ part rest, read = part :: rest ∧ isWide part = true := by
  cases spread with
  | narrow isNarrow => exact absurd (wide.symm.trans isNarrow) Bool.noConfusion
  | @wide _ parts _ read _ length all later =>
    cases parts with
    | nil => exact absurd length.symm (Nat.ne_of_gt char.utf8Size_pos)
    | cons part parts => exact ⟨part, parts ++ read, rfl, all part List.mem_cons_self⟩

theorem isPrefixOf_eq (spread : Spread text read) {mark : List Char}
    (narrow : ∀ char ∈ mark, isWide char = false) :
    mark.isPrefixOf read = mark.isPrefixOf text := by
  induction mark generalizing text read with
  | nil => rw [List.isPrefixOf_nil_left, List.isPrefixOf_nil_left]
  | cons first mark ih =>
    obtain ⟨isNarrow, others⟩ := List.forall_mem_cons.mp narrow
    cases spread with
    | nil => rfl
    | narrow _ later => rw [List.isPrefixOf, List.isPrefixOf, ih later others]
    | @wide char _ text _ isWide_ length all later =>
      obtain ⟨part, rest, same, wide⟩ := (Spread.wide isWide_ length all later).exists_cons isWide_
      have notPart : (first == part) = false :=
        beq_false_of_ne fun equal => by rw [equal, wide] at isNarrow; cases isNarrow
      have notChar : (first == char) = false :=
        beq_false_of_ne fun equal => by rw [equal, isWide_] at isNarrow; cases isNarrow
      rw [same, List.isPrefixOf, List.isPrefixOf, notPart, notChar, Bool.false_and,
        Bool.false_and]

theorem takeWhile_eq (spread : Spread text read) {test : Char → Bool}
    (narrow : ∀ char, test char = true → isWide char = false) :
    read.takeWhile test = text.takeWhile test ∧
      Spread (text.dropWhile test) (read.dropWhile test) := by
  induction spread with
  | nil => exact ⟨rfl, .nil⟩
  | @narrow char _ _ isNarrow later ih =>
    cases holds : test char with
    | true =>
      rw [List.takeWhile_cons_of_pos holds, List.takeWhile_cons_of_pos holds,
        List.dropWhile_cons_of_pos holds, List.dropWhile_cons_of_pos holds, ih.1]
      exact ⟨rfl, ih.2⟩
    | false =>
      have fails : ¬ test char = true := by rw [holds]; exact Bool.noConfusion
      rw [List.takeWhile_cons_of_neg fails, List.takeWhile_cons_of_neg fails,
        List.dropWhile_cons_of_neg fails, List.dropWhile_cons_of_neg fails]
      exact ⟨rfl, .narrow isNarrow later⟩
  | @wide char parts text read isWide_ length all later ih =>
    have whole : Spread (char :: text) (parts ++ read) := .wide isWide_ length all later
    obtain ⟨part, rest, same, wide⟩ := whole.exists_cons isWide_
    have fails {other : Char} (isWide_ : isWide other = true) : ¬ test other = true := by
      intro holds
      rw [narrow other holds] at isWide_
      cases isWide_
    rw [same] at whole ⊢
    rw [List.takeWhile_cons_of_neg (fails wide), List.takeWhile_cons_of_neg (fails isWide_),
      List.dropWhile_cons_of_neg (fails wide), List.dropWhile_cons_of_neg (fails isWide_)]
    exact ⟨rfl, whole⟩

end Spread

/-! ### Strings -/

theorem escapeLength?_of_wide {first : Char} (wide : isWide first = true) (rest : List Char) :
    escapeLength? (first :: rest) = none := by
  have notGap : ¬ isGapChar first = true := fun gap => by
    rw [isWide_of_isGapChar gap] at wide
    cases wide
  have notShort : ¬ isShortEscape first = true := fun short => by
    rw [isWide_of_isShortEscape short] at wide
    cases wide
  have notMark : ¬ (first = 'x' || first = 'u') = true := by
    simp only [Bool.or_eq_true, decide_eq_true_eq]
    rintro (rfl | rfl) <;> cases wide
  rw [escapeLength?, if_neg notGap, if_neg notShort, if_neg notMark]

theorem escapeLength?_of_gap {first : Char} (gap : isGapChar first = true) (rest : List Char) :
    escapeLength? (first :: rest) =
      if ['\\'].isPrefixOf (rest.dropWhile isGapChar) then
        some ((rest.takeWhile isGapChar).length + 2)
      else none := by
  rw [escapeLength?, if_pos gap]
  split
  · next more isBehind => rw [isBehind, if_pos (by simp [List.isPrefixOf])]
  · next other =>
      refine (if_neg fun closes => ?_).symm
      obtain ⟨more, isBehind⟩ := List.isPrefixOf_iff_prefix.mp closes
      exact other more isBehind.symm

theorem isWide_of_mem_takeWhile {test : Char → Bool}
    (narrow : ∀ char, test char = true → isWide char = false) {text : List Char} :
    ∀ char ∈ text.takeWhile test, isWide char = false :=
  fun char member => narrow char (List.all_eq_true.mp List.all_takeWhile char member)

theorem isWide_of_escapeLength? (rest : List Char) :
    ∀ length ∈ escapeLength? rest, ∀ char ∈ rest.take length, isWide char = false := by
  fun_cases escapeLength? rest with
  | case1 => simp
  | case2 first rest gap more isBehind =>
    rintro length ⟨rfl⟩
    have whole : rest = rest.takeWhile isGapChar ++ '\\' :: more := by
      rw [← isBehind, List.takeWhile_append_dropWhile]
    have taken : rest.take ((rest.takeWhile isGapChar).length + 1) =
        rest.takeWhile isGapChar ++ ['\\'] :=
      (congrArg (List.take _) whole).trans (List.take_length_add_append 1)
    rw [List.take_succ_cons, taken, List.forall_mem_cons, List.forall_mem_append]
    exact ⟨isWide_of_isGapChar gap, isWide_of_mem_takeWhile fun _ => isWide_of_isGapChar,
      List.forall_mem_singleton.mpr rfl⟩
  | case4 first rest notGap short =>
    rintro length ⟨rfl⟩
    exact List.forall_mem_singleton.mpr (isWide_of_isShortEscape short)
  | case6 first rest notGap notShort mark digits some =>
    rintro length ⟨rfl⟩
    have narrow : isWide first = false := by
      simp only [Bool.or_eq_true, decide_eq_true_eq] at mark
      rcases mark with rfl | rfl <;> rfl
    rw [Nat.add_comm, List.take_succ_cons,
      ← List.prefix_iff_eq_take.mp (List.takeWhile_prefix isHexDigit)]
    exact List.forall_mem_cons.mpr
      ⟨narrow, isWide_of_mem_takeWhile fun _ => isWide_of_isHexDigit⟩
  | case3 | case5 | case7 => exact fun length absent => absurd absent (Option.not_mem_none length)

theorem Spread.escapeLength?_eq {text read : List Char} (spread : Spread text read) :
    escapeLength? read = escapeLength? text := by
  cases spread with
  | nil => rfl
  | @narrow first text read isNarrow later =>
    obtain ⟨gapRun, behind⟩ := later.takeWhile_eq fun _ => isWide_of_isGapChar
    obtain ⟨hexRun, -⟩ := later.takeWhile_eq fun _ => isWide_of_isHexDigit
    by_cases gap : isGapChar first = true
    · rw [escapeLength?_of_gap gap, escapeLength?_of_gap gap, gapRun,
        behind.isPrefixOf_eq (List.forall_mem_singleton.mpr rfl)]
    · rw [escapeLength?, escapeLength?, if_neg gap, if_neg gap, hexRun]
  | @wide first parts text read isWide_ length all later =>
    obtain ⟨part, rest, same, wide⟩ := (Spread.wide isWide_ length all later).exists_cons isWide_
    rw [same, escapeLength?_of_wide wide, escapeLength?_of_wide isWide_]

theorem scanString_cons_wide {char : Char} (wide : isWide char = true) (faulty : Bool)
    (rest : List Char) :
    scanString 0 faulty (char :: rest) =
      ((scanString 0 faulty rest).1, (scanString 0 faulty rest).2 + 1) := by
  have other {mark : Char} (narrow : isWide mark = false) : ¬ char = mark := by
    rintro rfl
    rw [wide] at narrow
    cases narrow
  rw [scanString, if_neg (other rfl), if_neg (other rfl), if_neg (other rfl)]

theorem scanString_append_wide {parts : List Char} (all : ∀ part ∈ parts, isWide part = true)
    (faulty : Bool) (rest : List Char) :
    scanString 0 faulty (parts ++ rest) =
      ((scanString 0 faulty rest).1, parts.length + (scanString 0 faulty rest).2) := by
  induction parts with
  | nil => rw [List.nil_append, List.length_nil, Nat.zero_add]
  | cons part parts ih =>
    obtain ⟨wide, others⟩ := List.forall_mem_cons.mp all
    rw [List.cons_append, scanString_cons_wide wide, ih others, List.length_cons]
    exact Prod.ext rfl (Nat.add_right_comm ..)

theorem Spread.scanString_eq {text read : List Char} (spread : Spread text read) (skip : Nat)
    (faulty : Bool) (narrow : ∀ char ∈ text.take skip, isWide char = false) :
    scanString skip faulty read = ((scanString skip faulty text).1,
      byteLength (text.take (scanString skip faulty text).2)) := by
  induction spread generalizing skip faulty with
  | nil => cases skip <;> rfl
  | @narrow char text read isNarrow later ih =>
    have step (length : Nat) : byteLength (List.take (length + 1) (char :: text)) =
        byteLength (text.take length) + 1 := by
      rw [List.take_succ_cons, byteLength, utf8Size_of_narrow isNarrow, Nat.add_comm]
    cases skip with
    | succ skip =>
      rw [List.take_succ_cons, List.forall_mem_cons] at narrow
      rw [scanString, scanString, ih skip faulty narrow.2, step]
    | zero =>
      rw [scanString, scanString]
      split
      · exact Prod.ext rfl (step 0).symm
      · split
        · rfl
        · split
          · rw [later.escapeLength?_eq]
            cases escapes : escapeLength? text with
            | none => rw [ih 0 true (by simp), step]
            | some skip =>
              dsimp only
              rw [ih skip faulty (isWide_of_escapeLength? text skip escapes), step]
          · rw [ih 0 faulty (by simp), step]
  | @wide char parts text read isWide_ length all later ih =>
    cases skip with
    | succ skip =>
      rw [List.take_succ_cons, List.forall_mem_cons, isWide_] at narrow
      exact absurd narrow.1 Bool.noConfusion
    | zero =>
      rw [scanString_append_wide all, scanString_cons_wide isWide_, ih 0 faulty (by simp),
        List.take_succ_cons, byteLength, length]

theorem stringBytes_bytes (rest : List Char) :
    stringBytes (bytes rest) = ((scanString 0 false rest).1,
      byteLength (rest.take (scanString 0 false rest).2)) :=
  (spread_bytes rest).scanString_eq 0 false (by simp)

/-! ### Comments -/

theorem Spread.of_append {text read mark : List Char} (spread : Spread (mark ++ text) read)
    (narrow : ∀ char ∈ mark, isWide char = false) :
    ∃ rest, read = mark ++ rest ∧ Spread text rest := by
  induction mark generalizing read with
  | nil => exact ⟨read, rfl, spread⟩
  | cons first mark ih =>
    obtain ⟨isNarrow, others⟩ := List.forall_mem_cons.mp narrow
    cases spread with
    | narrow _ later =>
      obtain ⟨rest, rfl, behind⟩ := ih later others
      exact ⟨rest, rfl, behind⟩
    | wide isWide_ => exact absurd (isWide_.symm.trans isNarrow) Bool.noConfusion

theorem map_byteLength_append (front text : List Char) (found : Option Nat) :
    (found.map (front.length + ·)).map (fun length => byteLength ((front ++ text).take length)) =
      (found.map fun length => byteLength (text.take length)).map (byteLength front + ·) := by
  cases found with
  | none => rfl
  | some length =>
    simp only [Option.map_some, List.take_length_add_append, byteLength_append]

theorem measure_append_wide {measure : List Char → Option Nat} {parts : List Char}
    (passes : ∀ char text, isWide char = true →
      measure (char :: text) = (measure text).map (1 + ·))
    (all : ∀ part ∈ parts, isWide part = true) (rest : List Char) :
    measure (parts ++ rest) = (measure rest).map (parts.length + ·) := by
  induction parts with
  | nil => simp
  | cons part parts ih =>
    obtain ⟨wide, others⟩ := List.forall_mem_cons.mp all
    rw [List.cons_append, passes part _ wide, ih others, Option.map_map, List.length_cons]
    refine congrArg (Option.map · _) (funext fun length => ?_)
    rw [Function.comp_apply, ← Nat.add_assoc, Nat.add_comm 1]

theorem commentLength?_wide (depth : Nat) (char : Char) (text : List Char)
    (wide : isWide char = true) :
    commentLength? depth (char :: text) = (commentLength? depth text).map (1 + ·) := by
  refine commentLength?_char (Bool.eq_false_iff.mpr fun front => ?_) depth
  rcases startsMark_iff.mp front with ⟨rest, isRest⟩ | ⟨rest, isRest⟩
  · rw [← (List.cons.inj isRest).1] at wide
    cases wide
  · rw [← (List.cons.inj isRest).1] at wide
    cases wide

theorem Spread.startsMark_eq {text read : List Char} (spread : Spread text read) :
    startsMark read = startsMark text := by
  rw [startsMark, startsMark, spread.isPrefixOf_eq (by simp [opening, isWide]),
    spread.isPrefixOf_eq (by simp [closing, isWide])]

theorem Spread.commentLength?_eq {text read : List Char} (spread : Spread text read)
    (depth : Nat) :
    commentLength? depth read =
      (commentLength? depth text).map fun length => byteLength (text.take length) := by
  fun_induction commentLength? depth text generalizing read with
  | case1 depth rest ih =>
    obtain ⟨behind, rfl, later⟩ := @of_append rest read opening spread (by simp [opening, isWide])
    have measured := map_byteLength_append opening rest (commentLength? (depth + 1) rest)
    rw [← ih later] at measured
    exact measured.symm
  | case2 rest =>
    obtain ⟨behind, rfl, later⟩ := @of_append rest read closing spread (by simp [closing, isWide])
    rfl
  | case3 depth rest ih =>
    obtain ⟨behind, rfl, later⟩ := @of_append rest read closing spread (by simp [closing, isWide])
    have measured := map_byteLength_append closing rest (commentLength? depth rest)
    rw [← ih later] at measured
    exact measured.symm
  | case4 depth char rest notOpening notClosing notLast ih =>
    have plain : startsMark (char :: rest) = false := by
      refine Bool.eq_false_iff.mpr fun starts => ?_
      rcases startsMark_iff.mp starts with ⟨tail, same⟩ | ⟨tail, same⟩
      · cases same
        exact notOpening tail rfl rfl
      · cases same
        cases depth with
        | zero => exact notClosing tail rfl rfl rfl
        | succ depth => exact notLast depth tail rfl rfl rfl
    have measured := map_byteLength_append [char] rest (commentLength? depth rest)
    cases spread with
    | narrow isNarrow later =>
      rw [byteLength_of_narrow (List.forall_mem_singleton.mpr isNarrow), ← ih later] at measured
      rw [commentLength?_char ((Spread.narrow isNarrow later).startsMark_eq.trans plain)]
      exact measured.symm
    | wide isWide_ length all later =>
      rw [← ih later] at measured
      rw [measure_append_wide (commentLength?_wide depth) all, length]
      exact measured.symm
  | case5 depth =>
    cases spread
    cases depth <;> rfl

theorem blockCommentBytes_bytes (rest : List Char) :
    blockCommentBytes (bytes rest) =
      ((blockComment rest).1, byteLength (rest.take (blockComment rest).2)) := by
  have spread := spread_bytes rest
  rw [blockCommentBytes, blockComment, blockComment, spread.commentLength?_eq]
  cases commentLength? 0 rest with
  | none =>
    dsimp only [Option.map_none]
    rw [spread.length_eq, List.take_length]
  | some length => rfl

end Offside.Token
