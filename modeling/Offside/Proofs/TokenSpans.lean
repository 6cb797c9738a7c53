import Offside.Proofs.Tiling

/-!
# Where the tokens of a text stand

Every form of a token measures how far it reaches, and none reaches past the
end of the text.  So each token takes exactly the characters that its form
asks for, the next one starts right behind them, and the spans of the tokens
cut the text at places between characters.
-/

namespace Offside

/--
Both ends of the span lie between characters of the text, and the text between
them is `part`.
-/
def Span.Slices (span : Span) (source part : String) : Prop :=
  ∃ start stop : source.Pos, start.offset.byteIdx = span.start ∧
    stop.offset.byteIdx = span.stop ∧ source.extract start stop = part

theorem Span.slices_of_append (before part behind : String) :
    Span.Slices ⟨before.utf8ByteSize, before.utf8ByteSize + part.utf8ByteSize⟩
      (before ++ part ++ behind) part := by
  have starts :
      (⟨before.utf8ByteSize⟩ : String.Pos.Raw).IsValid (before ++ part ++ behind) :=
    String.Pos.Raw.isValid_iff_exists_append.mpr
      ⟨before, part ++ behind, String.append_assoc, rfl⟩
  have stops : (⟨before.utf8ByteSize + part.utf8ByteSize⟩ : String.Pos.Raw).IsValid
      (before ++ part ++ behind) :=
    String.Pos.Raw.isValid_iff_exists_append.mpr
      ⟨before ++ part, behind, rfl, by simp [String.Pos.Raw.ext_iff]⟩
  refine ⟨⟨_, starts⟩, ⟨_, stops⟩, rfl, rfl, ?_⟩
  rw [← String.toByteArray_inj, String.toByteArray_extract, String.toByteArray_append,
    String.toByteArray_append, ByteArray.append_assoc]
  calc (before.toByteArray ++ _).extract
        _ _
    _ = (part.toByteArray ++ behind.toByteArray).extract 0 part.toByteArray.size :=
        ByteArray.extract_append_size_add
    _ = part.toByteArray := ByteArray.extract_append_eq_left rfl

theorem byteLength_append (left right : List Char) :
    byteLength (left ++ right) = byteLength left + byteLength right := by
  induction left with
  | nil => rw [List.nil_append, byteLength, Nat.zero_add]
  | cons char rest ih => rw [List.cons_append, byteLength, byteLength, ih, Nat.add_assoc]

namespace Token

open Offside.Text

/-! ### No form reaches past the end -/

theorem length_takeWhile_le (test : Char → Bool) (text : List Char) :
    (text.takeWhile test).length ≤ text.length :=
  (List.takeWhile_sublist test).length_le

theorem groupLength?_le (isBaseDigit : Char → Bool) (text : List Char) :
    ∀ length ∈ groupLength? isBaseDigit text, length ≤ text.length := by
  intro length found
  unfold groupLength? at found
  split at found
  · exact absurd found (Option.not_mem_none length)
  · next first rest =>
      split at found
      · obtain rfl := Option.mem_some_iff.mp found
        have run := length_takeWhile_le (fun char => isBaseDigit char || char = '_') rest
        rw [runLength, List.length_cons]
        omega
      · exact absurd found (Option.not_mem_none length)

theorem markedGroup_le {isBaseDigit : Char → Bool} {digits : List Char} {mark length : Nat}
    (found : length ∈ (groupLength? isBaseDigit digits).map (mark + ·)) :
    length ≤ mark + digits.length := by
  obtain ⟨group, isGroup, rfl⟩ := Option.map_eq_some_iff.mp found
  exact Nat.add_le_add_left (groupLength?_le isBaseDigit digits group isGroup) mark

theorem radixLength?_le (text : List Char) :
    ∀ length ∈ radixLength? text, length ≤ text.length := by
  intro length found
  unfold radixLength? at found
  split at found
  · exact (markedGroup_le found).trans_eq (Nat.add_comm ..)
  · exact (markedGroup_le found).trans_eq (Nat.add_comm ..)
  · exact absurd found (Option.not_mem_none length)

theorem fractionLength?_le (text : List Char) :
    ∀ length ∈ fractionLength? text, length ≤ text.length := by
  intro length found
  unfold fractionLength? at found
  split at found
  · exact (markedGroup_le found).trans_eq (Nat.add_comm ..)
  · exact absurd found (Option.not_mem_none length)

theorem exponentLength?_le (text : List Char) :
    ∀ length ∈ exponentLength? text, length ≤ text.length := by
  intro length found
  unfold exponentLength? at found
  split at found
  · split at found
    · split at found
      · exact (markedGroup_le found).trans_eq (Nat.add_comm ..)
      · exact (markedGroup_le found).trans_eq (Nat.add_comm ..)
      · exact (markedGroup_le found).trans_eq (Nat.add_comm ..)
    · exact absurd found (Option.not_mem_none length)
  · exact absurd found (Option.not_mem_none length)

theorem tailLength?_le (text : List Char) : ∀ length ∈ tailLength? text, length ≤ text.length := by
  intro length found
  unfold tailLength? at found
  split at found
  · next fraction isFraction =>
      obtain rfl := Option.mem_some_iff.mp found
      have fits := fractionLength?_le text fraction isFraction
      cases isExponent : exponentLength? _ with
      | none => exact fits
      | some exponent =>
        have more := exponentLength?_le _ exponent isExponent
        rw [List.length_drop] at more
        rw [Option.getD_some]
        omega
  · exact exponentLength?_le text length found

theorem numeral_le (text : List Char) : (numeral text).2 ≤ text.length := by
  unfold numeral
  split
  · next length isRadix => exact radixLength?_le text length isRadix
  · split
    · exact Nat.zero_le _
    · next length isGroup =>
        have fits := groupLength?_le isDigit text length isGroup
        split
        · next more isTail =>
            have rest := tailLength?_le _ more isTail
            rw [List.length_drop] at rest
            omega
        · exact fits

theorem scanString_le (skip : Nat) (faulty : Bool) (text : List Char) :
    (scanString skip faulty text).2 ≤ text.length := by
  fun_induction scanString skip faulty text with
  | case1 | case4 => exact Nat.zero_le _
  | case2 skip faulty char rest ending length read ih =>
    rw [read] at ih
    exact Nat.succ_le_succ ih
  | case3 => exact Nat.succ_le_succ (Nat.zero_le _)
  | case5 faulty rest ending length read notQuote notEnd skipped plain =>
    split at read
    · next skip _ => simpa [read] using skipped skip
    · simpa [read] using plain
  | case6 faulty char rest notQuote notEnd notEscape ending length read ih =>
    rw [read] at ih
    exact Nat.succ_le_succ ih

theorem rawLength?_le (text : List Char) : ∀ length ∈ rawLength? text, length ≤ text.length := by
  fun_induction rawLength? text with
  | case1 rest =>
    intro length found
    obtain rfl := Option.mem_some_iff.mp found
    have run := length_takeWhile_le (· = '"') rest
    simp only [List.length_cons]
    omega
  | case2 first rest plain ih =>
    intro length found
    obtain ⟨inner, isInner, rfl⟩ := Option.map_eq_some_iff.mp found
    have fits := ih inner isInner
    rw [List.length_cons]
    omega
  | case3 =>
    intro length found
    exact absurd found (Option.not_mem_none length)

theorem quotation_le (text : List Char) : (quotation text).2 ≤ text.length := by
  unfold quotation
  split
  · next rest =>
      split
      · next length isRaw =>
          have fits := rawLength?_le rest length isRaw
          simp only [List.length_cons]
          omega
      · simp only [List.length_cons]
        omega
  · have fits := scanString_le 0 false text
    split <;> simp_all

theorem character_le (text : List Char) : (character text).2 ≤ text.length := by
  unfold character
  split
  · next mark rest =>
      have run := length_takeWhile_le isHexDigit rest
      dsimp only
      split
      · split
        · next closed =>
            -- The closing quote stands behind the digits.
            have more : 0 < (rest.drop (rest.takeWhile isHexDigit).length).length :=
              List.length_pos_iff.mpr fun nothing => by simp [nothing] at closed
            rw [List.length_drop] at more
            simp only [List.length_cons]
            omega
        · simp only [List.length_cons]
          omega
      · split
        · next closed =>
            have more : 0 < rest.length :=
              List.length_pos_iff.mpr fun nothing => by simp [nothing] at closed
            simp only [List.length_cons]
            omega
        · exact Nat.zero_le _
  · split
    · simp
    · exact Nat.zero_le _
  · exact Nat.zero_le _

theorem commentLength?_le (depth : Nat) (text : List Char) :
    ∀ length ∈ commentLength? depth text, length ≤ text.length := by
  fun_induction commentLength? depth text with
  | case2 rest =>
    intro length found
    obtain rfl := Option.mem_some_iff.mp found
    simp
  | case5 =>
    intro length found
    exact absurd found (Option.not_mem_none length)
  | case1 | case3 | case4 =>
    rename_i ih
    intro length found
    obtain ⟨inner, isInner, rfl⟩ := Option.map_eq_some_iff.mp found
    have fits := ih inner isInner
    simp only [List.length_cons]
    omega

theorem blockComment_le (text : List Char) : (blockComment text).2 ≤ text.length := by
  unfold blockComment
  split
  · next length isClosed => exact commentLength?_le 0 text length isClosed
  · exact le_rfl

theorem properName_le (skip : Nat) (qualified : Bool) (text : List Char) :
    (properName skip qualified text).2 ≤ text.length := by
  fun_induction properName skip qualified text with
  | case1 | case9 => exact Nat.zero_le _
  | case2 | case3 =>
    rename_i read ih
    rw [read] at ih
    exact Nat.succ_le_succ ih
  | case5 =>
    rename_i read ih
    exact Nat.succ_le_succ ih
  | case4 | case8 => simp
  | case6 | case7 =>
    exact Nat.add_le_add_right (length_takeWhile_le _ _) 2

theorem signs_le (text : List Char) : (signs text).2 ≤ text.length := by
  have run := length_takeWhile_le isSign text
  simp only [signs, lineComment]
  split
  · have line := length_takeWhile_le (· ≠ '\n') (text.drop (text.takeWhile isSign).length)
    rw [List.length_drop] at line
    omega
  · exact run

theorem munch_le (first : Char) (rest : List Char) : (munch first rest).2 ≤ rest.length := by
  fun_cases munch first rest with
  | case1 | case7 | case8 | case10 => exact length_takeWhile_le _ _
  | case2 _ opens kind length read =>
    obtain ⟨more, rfl⟩ := List.head?_eq_some_iff.mp
      (of_decide_eq_true (Bool.and_eq_true_iff.mp opens).2)
    have fits := blockComment_le more
    rw [show blockComment more = (kind, length) from read] at fits
    exact Nat.succ_le_succ fits
  | case3 | case12 => exact Nat.zero_le _
  | case4 => exact quotation_le rest
  | case5 => exact character_le rest
  | case6 =>
    rename_i read
    have fits := numeral_le (first :: rest)
    rw [read] at fits
    exact Nat.sub_le_of_le_add fits
  | case9 => exact properName_le _ _ _
  | case11 =>
    rename_i read
    have fits := signs_le (first :: rest)
    rw [read] at fits
    exact Nat.sub_le_of_le_add fits

/-! ### The tokens of a text -/

/--
The token is the one that the text starts with at its place: its form decides
its kind, and it takes as many characters as its form asks for.
-/
def IsMunched (source : String) (token : Token) : Prop :=
  ∃ before first rest, source.toList = before ++ first :: rest ∧
    byteLength before = token.span.start ∧
    (munch first rest).2 ≤ rest.length ∧
    token.kind = (munch first rest).1 ∧
    token.text = String.ofList (first :: rest.take (munch first rest).2)

theorem isMunched_of_mem_scanFrom {source : String} (chars before : List Char) (skip : Nat)
    (whole : source.toList = before ++ chars) (fits : skip ≤ chars.length) :
    ∀ token ∈ scanFrom (byteLength (before ++ chars.take skip)) skip chars,
      token.kind ≠ .eof → IsMunched source token := by
  induction chars generalizing before skip with
  | nil =>
    cases skip <;> simp_all [scanFrom]
  | cons first rest ih =>
    have further : source.toList = (before ++ [first]) ++ rest := by
      rw [whole, List.append_assoc, List.singleton_append]
    cases skip with
    | succ skip =>
      have later := ih _ skip further (Nat.le_of_succ_le_succ fits)
      rwa [List.append_assoc] at later
    | zero =>
      have reach := munch_le first rest
      have later := ih _ (munch first rest).2 further reach
      rw [List.append_assoc, byteLength_append] at later
      intro token member notEnd
      rw [List.take_zero, List.append_nil] at member
      rcases List.mem_cons.mp member with rfl | member
      · exact ⟨before, first, rest, whole, rfl, reach, rfl, rfl⟩
      · exact later token member notEnd

theorem Laid.slices {tokens : List Token} (laid : Laid 0 tokens) :
    ∀ token ∈ tokens, token.span.Slices (textOf tokens) token.text := by
  intro token member
  obtain ⟨front, back, rfl⟩ := List.append_of_mem member
  obtain ⟨-, own, -⟩ := laid_append.mp laid
  rw [own, Nat.zero_add, textOf_append, textOf_cons, ← String.append_assoc]
  exact Span.slices_of_append _ _ _

/--
The tokens of a text tile it.  The end of the text comes last and only there.
The other tokens start at the beginning, each starts where the one before it
stops, and the last of them stops at the end; none is empty.  Every span lies
between characters of the text and cuts out the text of its token, which is
what the form of the token at that place takes.
-/
theorem scan_tiles (source : String) :
    ∃ front, scan source = front ++ [virtual .eof source.utf8ByteSize] ∧
      Span.Abut 0 (front.map span) source.utf8ByteSize ∧
      ∀ token ∈ front, token.kind ≠ .eof ∧ token.span.start < token.span.stop ∧
        token.span.Slices source token.text ∧ IsMunched source token := by
  obtain ⟨front, stop, split, real⟩ := scan_split source
  have laid : Laid 0 (scan source) := laid_scanFrom 0 0 source.toList
  have text : textOf front = source := by
    have all := textOf_scan source
    rwa [split, textOf_append, textOf_cons, textOf_nil, virtual_text, String.append_empty,
      String.append_empty] at all
  rw [split, laid_append, text] at laid
  obtain ⟨front_laid, isStop, -⟩ := laid
  have stops : stop = source.utf8ByteSize :=
    (congrArg Span.start isStop).trans (Nat.zero_add _)
  subst stops
  have abut := front_laid.abut
  rw [text, Nat.zero_add] at abut
  refine ⟨front, split, abut, fun token member => ?_⟩
  have notEnd : token.kind ≠ .eof := by
    intro isEnd
    have isReal := real token member
    rw [isEnd] at isReal
    exact Bool.noConfusion isReal
  have scanned : token ∈ scan source := split ▸ List.mem_append_left _ member
  have nonempty : token.text ≠ "" :=
    text_ne_empty_of_mem_scanFrom source.toList 0 0 token scanned notEnd
  have slices := front_laid.slices token member
  rw [text] at slices
  refine ⟨notEnd, ?_, slices, ?_⟩
  · obtain ⟨before, behind, rfl⟩ := List.append_of_mem member
    obtain ⟨-, own, -⟩ := laid_append.mp front_laid
    rw [own]
    exact Nat.lt_add_of_pos_right
      (Nat.pos_of_ne_zero fun noBytes => nonempty (String.utf8ByteSize_eq_zero_iff.mp noBytes))
  · exact isMunched_of_mem_scanFrom source.toList [] 0 rfl (Nat.zero_le _) token scanned notEnd

end Token

end Offside
