import Offside.Proofs.LayoutRun

/-!
# Lines and columns

The place of an offset is found by reading the text up to it.  It tells how
many lines have ended there and how many characters stand behind the last end
of a line, so a later offset has a later place.  The layout resolver counts
columns token by token, and it remembers whether a line has just begun.  If a
tab is as wide as any other character, its columns are those of the places.
-/

namespace Offside

open Offside.Token (textOf textOf_append textOf_cons textOf_nil)

namespace Position

/-- The place behind some characters: a line for every end of a line, a column for every
character behind the last of them. -/
def behind (chars : List Char) : Position :=
  ⟨chars.count '\n' + 1, (chars.reverse.takeWhile (· ≠ '\n')).length + 1⟩

/-- The place comes earlier: on an earlier line, or further to the left. -/
def Precedes (left right : Position) : Prop :=
  left.line < right.line ∨ left.line = right.line ∧ left.column < right.column

theorem advance_zero (position : Position) (chars : List Char) :
    position.advance chars 0 = position := by
  cases chars <;> rfl

theorem advance_append (position : Position) (before rest : List Char) :
    position.advance (before ++ rest) (byteLength before) = before.foldl next position := by
  induction before generalizing position with
  | nil => exact advance_zero position rest
  | cons char before ih =>
    have wide := char.utf8Size_pos
    rw [List.cons_append, advance, byteLength, if_neg (by omega), Nat.add_sub_cancel_left, ih,
      List.foldl_cons]

theorem foldl_next (chars : List Char) : chars.foldl next origin = behind chars := by
  induction chars using List.reverseRecOn with
  | nil => rfl
  | append_singleton chars char ih =>
    rw [List.foldl_append, ih, List.foldl_cons, List.foldl_nil, next, behind, behind,
      List.count_append, List.reverse_append, List.reverse_singleton, List.singleton_append]
    by_cases ends : char = '\n'
    · simp [ends]
    · rw [if_neg ends, List.takeWhile_cons_of_pos (by simpa using ends), List.length_cons,
        List.count_singleton, if_neg (by simpa using ends)]

theorem ofOffset_append (before rest : String) :
    ofOffset (before ++ rest) before.utf8ByteSize = behind before.toList := by
  have size : before.utf8ByteSize = byteLength before.toList := by
    rw [← Token.utf8ByteSize_ofList, String.ofList_toList]
  rw [ofOffset, String.toList_append, size, advance_append, foldl_next]

theorem behind_precedes (chars : List Char) {more : List Char} (nonempty : more ≠ []) :
    (behind chars).Precedes (behind (chars ++ more)) := by
  by_cases ends : '\n' ∈ more
  · have further := List.count_pos_iff.mpr ends
    left
    show chars.count '\n' + 1 < (chars ++ more).count '\n' + 1
    rw [List.count_append]
    omega
  · have inline : ∀ char ∈ more.reverse, decide (char ≠ '\n') = true := by
      intro char member
      exact decide_eq_true fun same => ends (same ▸ List.mem_reverse.mp member)
    have wider := List.length_pos_iff.mpr nonempty
    right
    rw [behind, behind, List.count_append, List.count_eq_zero.mpr ends, List.reverse_append,
      List.takeWhile_append_of_pos inline, List.length_append, List.length_reverse]
    exact ⟨rfl, by dsimp only; omega⟩

theorem Precedes.asymm {left right : Position} (precedes : left.Precedes right) :
    ¬ right.Precedes left := by
  unfold Precedes at precedes ⊢
  omega

theorem ofOffset_pos {source : String} (pos : source.Pos) :
    ofOffset source pos.offset.byteIdx = behind (source.sliceTo pos).copy.toList := by
  have place := ofOffset_append (source.sliceTo pos).copy (source.sliceFrom pos).copy
  rwa [← pos.splits.eq_append, ← String.byteIdx_rawEndPos, ← pos.splits.offset_eq_rawEndPos]
    at place

theorem ofOffset_precedes {source : String} {start stop : source.Pos} (later : start < stop) :
    (ofOffset source start.offset.byteIdx).Precedes (ofOffset source stop.offset.byteIdx) := by
  have shorter : (source.sliceTo start).copy.utf8ByteSize <
      (source.sliceTo stop).copy.utf8ByteSize := by
    have offsets := String.Pos.Raw.lt_iff.mp (String.Pos.lt_iff.mp later)
    rwa [start.splits.offset_eq_rawEndPos, stop.splits.offset_eq_rawEndPos] at offsets
  have whole := congrArg String.toList
    (start.splits.eq_append.symm.trans stop.splits.eq_append)
  rw [String.toList_append, String.toList_append, List.append_eq_append_iff] at whole
  rw [ofOffset_pos, ofOffset_pos]
  rcases whole with ⟨more, longer, -⟩ | ⟨more, longer, -⟩
  · rw [longer]
    refine behind_precedes _ fun isEmpty => ?_
    rw [isEmpty, List.append_nil] at longer
    rw [String.toList_inj.mp longer] at shorter
    exact Nat.lt_irrefl _ shorter
  · have size := congrArg (fun chars => (String.ofList chars).utf8ByteSize) longer
    simp only [String.ofList_toList, String.ofList_append, String.utf8ByteSize_append] at size
    omega

/--
Offsets between characters have places: the line is one more than the number
of line ends in front of the offset, the column one more than the number of
characters behind the last of them.  A place comes before another if and only
if its offset does, so no two offsets share a place.
-/
theorem precedes_iff_lt (source : String) (start stop : source.Pos) :
    (start ≤ stop →
      Span.positions? ⟨start.offset.byteIdx, stop.offset.byteIdx⟩ source =
        some (behind (source.sliceTo start).copy.toList,
          behind (source.sliceTo stop).copy.toList)) ∧
    ((behind (source.sliceTo start).copy.toList).Precedes
      (behind (source.sliceTo stop).copy.toList) ↔ start < stop) := by
  rw [← ofOffset_pos, ← ofOffset_pos]
  refine ⟨fun ordered => ?_, fun precedes => ?_, ofOffset_precedes⟩
  · have fits : stop.offset.byteIdx ≤ source.utf8ByteSize := stop.offset_le_rawEndPos
    have ordered : start.offset.byteIdx ≤ stop.offset.byteIdx := ordered
    rw [Span.positions?, if_neg]
    simp only [Bool.or_eq_true, decide_eq_true_eq]
    omega
  · rcases Nat.lt_trichotomy start.offset.byteIdx stop.offset.byteIdx with later | same | earlier
    · exact later
    · rw [same] at precedes
      exact absurd precedes precedes.asymm
    · exact absurd precedes (Precedes.asymm (@ofOffset_precedes _ stop start earlier))

end Position

/-! ### Columns of the resolver -/

namespace Layout

theorem foldl_nextColumn_one (chars : List Char) (line column : Nat) :
    (chars.foldl Position.next ⟨line, column + 1⟩).column =
      chars.foldl (nextColumn 1) column + 1 := by
  induction chars generalizing line column with
  | nil => rfl
  | cons char rest ih =>
    rw [List.foldl_cons, List.foldl_cons, Position.next, nextColumn]
    by_cases ends : char = '\n'
    · rw [if_pos ends, if_pos ends]
      exact ih (line + 1) 0
    · rw [if_neg ends, if_neg ends, Nat.div_one, Nat.mul_one, ite_self]
      exact ih line _

theorem columnAfter_one (text : String) :
    columnAfter 1 0 text + 1 = (Position.behind text.toList).column := by
  rw [← Position.foldl_next]
  exact (foldl_nextColumn_one text.toList 1 0).symm

theorem opensLine_iff (front : List Token) :
    opensLine front = true ↔ ∀ before earlier between, front = before ++ earlier :: between →
      earlier.kind.isInsignificant = false → '\n' ∈ (textOf between).toList := by
  induction front using List.reverseRecOn with
  | nil => simp [opensLine]
  | append_singleton front token ih =>
    rw [opensLine_concat, Bool.and_eq_true, Bool.or_eq_true, List.contains_iff_mem, ih]
    constructor
    · rintro ⟨blank, ended⟩ before earlier between split significant
      rcases concat_eq_append_cons split with ⟨others, isFront, rfl⟩ | ⟨-, rfl, -⟩
      · rw [textOf_append, String.toList_append, List.mem_append, textOf_cons, textOf_nil,
          String.append_empty]
        exact ended.imp_left fun ended => ended before earlier others isFront significant
      · rw [significant] at blank
        cases blank
    · intro ended
      have blank : token.kind.isInsignificant = true := by
        by_contra significant
        cases ended front token [] rfl (Bool.not_eq_true _ ▸ significant)
      refine ⟨blank, or_iff_not_imp_right.mpr fun inline before earlier between split => ?_⟩
      intro significant
      have within := ended before earlier (between ++ [token]) (by simp [split]) significant
      rw [textOf_append, String.toList_append, List.mem_append, textOf_cons, textOf_nil,
        String.append_empty] at within
      exact within.resolve_right inline

theorem positions?_of_scan {source : String} {front rest : List Token} {token : Token}
    (split : Token.scan source = front ++ token :: rest) :
    token.span.positions? source =
      some (.behind (textOf front).toList, .behind (textOf (front ++ [token])).toList) := by
  have laid := Token.laid_scanFrom 0 0 source.toList
  have text := Token.textOf_scan source
  rw [← Token.scan, split, Token.laid_append] at laid
  rw [split, textOf_append, textOf_cons] at text
  obtain ⟨-, span, -⟩ := laid
  have start := Position.ofOffset_append (textOf front) (token.text ++ textOf rest)
  have stop := Position.ofOffset_append (textOf front ++ token.text) (textOf rest)
  rw [text] at start
  rw [String.append_assoc, text, String.utf8ByteSize_append] at stop
  have fits : (textOf front).utf8ByteSize + token.text.utf8ByteSize ≤ source.utf8ByteSize := by
    rw [← text, String.utf8ByteSize_append, String.utf8ByteSize_append]
    omega
  rw [span, Nat.zero_add, Span.positions?, if_neg, start, stop, textOf_append, textOf_cons,
    textOf_nil, String.append_empty]
  simp only [Bool.or_eq_true, decide_eq_true_eq]
  omega

/--
If a tab is no wider than other characters, the resolver comes to every token
with the column that its place has, counted from zero.  It takes a significant
token for the first on its line if and only if no significant token in front of
it ends on the line where it stands.
-/
theorem places_of_narrow_tabs {tabWidth : Nat} (narrow : tabWidth ≤ 1) {source : String}
    {front rest : List Token} {token : Token}
    (split : Token.scan source = front ++ token :: rest) :
    tokens tabWidth source = emitted (max tabWidth 1) {} front ++
      resolveFrom (max tabWidth 1) (State.after (max tabWidth 1) {} front) (token :: rest) ∧
    ∃ place stop, token.span.positions? source = some (place, stop) ∧
      (State.after (max tabWidth 1) {} front).column + 1 = place.column ∧
      (token.kind.isSignificant = true →
        ((State.after (max tabWidth 1) {} front).lineStart = true ↔
          ∀ earlier ∈ front, earlier.kind.isSignificant = true →
            ∀ ends ∈ earlier.span.positions? source, ends.2.line ≠ place.line)) := by
  have real := real_of_scan_split split
  refine ⟨by rw [tokens, resolve, split, resolveFrom_append front _ real], _, _,
    positions?_of_scan split, ?_, fun _ => ?_⟩
  · rw [State.after_column, max_eq_right narrow]
    exact columnAfter_one (textOf front)
  · rw [State.after_lineStart, opensLine_iff]
    have line (before : List Token) (earlier : Token) (between : List Token)
        (cut : front = before ++ earlier :: between) :
        earlier.span.positions? source = some (.behind (textOf before).toList,
            .behind (textOf (before ++ [earlier])).toList) ∧
          ((Position.behind (textOf (before ++ [earlier])).toList).line ≠
            (Position.behind (textOf front).toList).line ↔ '\n' ∈ (textOf between).toList) := by
      rw [cut, List.append_assoc, List.cons_append] at split
      refine ⟨positions?_of_scan split, ?_⟩
      rw [show front = (before ++ [earlier]) ++ between by rw [cut, List.append_cons],
        textOf_append _ between, String.toList_append, ← List.count_pos_iff]
      simp only [Position.behind, List.count_append]
      omega
    constructor
    · intro ended earlier member significant
      obtain ⟨before, between, cut⟩ := List.append_of_mem member
      obtain ⟨ends, further⟩ := line before earlier between cut
      rw [ends]
      rintro _ ⟨⟩
      exact further.mpr (ended before earlier between cut
        (Bool.not_eq_true' _ ▸ (Bool.and_eq_true_iff.mp significant).1))
    · intro apart before earlier between cut visible
      obtain ⟨ends, further⟩ := line before earlier between cut
      have member : earlier ∈ front := cut ▸ List.mem_append_right _ List.mem_cons_self
      refine further.mp (apart earlier member ?_ _ ends)
      rw [TokenKind.isSignificant, visible, real earlier member]
      rfl

/-- A name behind a comment that runs over a line, a tab and a letter of two bytes. -/
theorem places_of_narrow_tabs_behind_comment :
    ∃ front token rest, Token.scan "é \x7b-\n-\x7d\té" = front ++ token :: rest ∧
      token.kind.isSignificant = true ∧
      token.span.positions? "é \x7b-\n-\x7d\té" = some (⟨2, 4⟩, ⟨2, 5⟩) ∧
      (State.after 1 {} front).column = 3 ∧ (State.after 1 {} front).lineStart = true := by
  have split : Token.scan "é \x7b-\n-\x7d\té" = (Token.scan "é \x7b-\n-\x7d\té").take 4 ++
      ⟨.lowerName, ⟨9, 11⟩, "é"⟩ :: [.virtual .eof 11] := by decide +kernel
  have isPlace : (⟨9, 11⟩ : Span).positions? "é \x7b-\n-\x7d\té" = some (⟨2, 4⟩, ⟨2, 5⟩) := by
    decide +kernel
  obtain ⟨-, place, stop, found, column, first⟩ := places_of_narrow_tabs (Nat.le_refl 1) split
  obtain ⟨rfl, rfl⟩ : (⟨2, 4⟩, ⟨2, 5⟩) = (place, stop) := Option.some.inj (isPlace.symm.trans found)
  exact ⟨_, _, _, split, rfl, isPlace, Nat.succ.inj column, (first rfl).mpr (by decide +kernel)⟩

end Layout

end Offside
