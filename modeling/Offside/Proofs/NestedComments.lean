import Offside.Proofs.TokenSpans

/-!
# Comments inside comments

A comment is an opening mark, what stands inside it, and a closing mark.  What
stands inside is made of comments and of characters at which neither mark
starts.  The scanner counts how many comments are open instead; it takes
exactly the comment that the text starts with, or all of the text if it starts
with none.
-/

namespace Offside.Token

def opening : List Char :=
  ['\x7b', '-']

def closing : List Char :=
  ['-', '\x7d']

def startsMark (text : List Char) : Bool :=
  opening.isPrefixOf text || closing.isPrefixOf text

/-- What stands inside a comment, which is always in front of a closing mark. -/
inductive InsideComment : List Char → Prop where
  | empty : InsideComment []
  | comment {inner rest : List Char} (first : InsideComment inner) (later : InsideComment rest) :
      InsideComment (opening ++ inner ++ closing ++ rest)
  | char {char : Char} {rest : List Char}
      (plain : startsMark (char :: rest ++ closing) = false) (later : InsideComment rest) :
      InsideComment (char :: rest)

def IsComment (text : List Char) : Prop :=
  ∃ inner, InsideComment inner ∧ text = opening ++ inner ++ closing

/-- The text closes so many comments inside a comment, and then the comment itself. -/
def Closes : (depth : Nat) → List Char → Prop
  | 0, text => ∃ inner, InsideComment inner ∧ text = inner ++ closing
  | depth + 1, text =>
    ∃ inner rest, InsideComment inner ∧ Closes depth rest ∧ text = inner ++ closing ++ rest

theorem startsMark_append (char : Char) (inner rest : List Char) :
    startsMark (char :: (inner ++ closing ++ rest)) = startsMark (char :: inner ++ closing) := by
  cases inner <;> simp [startsMark, opening, closing, List.isPrefixOf]

theorem startsMark_iff {text : List Char} :
    startsMark text = true ↔ opening <+: text ∨ closing <+: text := by
  rw [startsMark, Bool.or_eq_true, List.isPrefixOf_iff_prefix, List.isPrefixOf_iff_prefix]

theorem Closes.char {depth : Nat} {char : Char} {text : List Char} (closes : Closes depth text)
    (plain : startsMark (char :: text) = false) : Closes depth (char :: text) := by
  cases depth with
  | zero =>
    obtain ⟨inner, inside, rfl⟩ := closes
    exact ⟨char :: inner, .char plain inside, rfl⟩
  | succ depth =>
    obtain ⟨inner, rest, inside, later, rfl⟩ := closes
    rw [startsMark_append] at plain
    exact ⟨char :: inner, rest, .char plain inside, later, rfl⟩

theorem Closes.opened {depth : Nat} {text : List Char} (closes : Closes (depth + 1) text) :
    Closes depth (opening ++ text) := by
  obtain ⟨inner, rest, inside, later, rfl⟩ := closes
  cases depth with
  | zero =>
    obtain ⟨more, insideMore, rfl⟩ := later
    exact ⟨_, .comment inside insideMore, by simp only [List.append_assoc]⟩
  | succ depth =>
    obtain ⟨more, last, insideMore, onward, rfl⟩ := later
    exact ⟨_, last, .comment inside insideMore, onward, by simp only [List.append_assoc]⟩

theorem commentLength?_char {char : Char} {text : List Char}
    (plain : startsMark (char :: text) = false) (depth : Nat) :
    commentLength? depth (char :: text) = (commentLength? depth text).map (1 + ·) := by
  rw [commentLength?.eq_def]
  split <;> simp_all [startsMark, opening, closing]

theorem closes_of_commentLength? {depth length : Nat} {text : List Char}
    (found : commentLength? depth text = some length) : Closes depth (text.take length) := by
  fun_induction commentLength? depth text generalizing length with
  | case1 depth rest ih =>
    obtain ⟨more, isMore, rfl⟩ := Option.map_eq_some_iff.mp found
    rw [Nat.add_comm]
    exact (ih isMore).opened
  | case2 rest =>
    obtain rfl := Option.some.inj found
    exact ⟨[], .empty, rfl⟩
  | case3 depth rest ih =>
    obtain ⟨more, isMore, rfl⟩ := Option.map_eq_some_iff.mp found
    rw [Nat.add_comm]
    exact ⟨[], _, .empty, ih isMore, rfl⟩
  | case4 depth char rest notOpening notClosing notLast ih =>
    obtain ⟨more, isMore, rfl⟩ := Option.map_eq_some_iff.mp found
    rw [Nat.add_comm]
    refine (ih isMore).char (Bool.eq_false_iff.mpr fun starts => ?_)
    have sooner : char :: rest.take more <+: char :: rest :=
      List.cons_prefix_cons.mpr ⟨rfl, List.take_prefix more rest⟩
    rcases startsMark_iff.mp starts with opens | closes
    · obtain ⟨tail, same⟩ := opens.trans sooner
      cases same
      exact notOpening tail rfl rfl
    · obtain ⟨tail, same⟩ := closes.trans sooner
      cases same
      cases depth with
      | zero => exact notClosing tail rfl rfl rfl
      | succ depth => exact notLast depth tail rfl rfl rfl
  | case5 => cases found

theorem InsideComment.commentLength? {inner : List Char} (inside : InsideComment inner)
    (depth : Nat) (more : List Char) :
    Token.commentLength? depth (inner ++ closing ++ more) =
      (Token.commentLength? depth (closing ++ more)).map (inner.length + ·) := by
  induction inside generalizing depth more with
  | empty => simp
  | @comment inner rest first later ihFirst ihLater =>
    have opened :
        Token.commentLength? depth (opening ++ (inner ++ closing ++ (rest ++ closing ++ more))) =
          (Token.commentLength? (depth + 1)
            (inner ++ closing ++ (rest ++ closing ++ more))).map (2 + ·) := rfl
    have closed : Token.commentLength? (depth + 1) (closing ++ (rest ++ closing ++ more)) =
        (Token.commentLength? depth (rest ++ closing ++ more)).map (2 + ·) := rfl
    simp only [List.append_assoc] at opened closed ihFirst ihLater ⊢
    rw [opened, ihFirst, closed, ihLater]
    simp only [Option.map_map]
    congr 1
    funext length
    simp [opening, closing]
    omega
  | char plain later ih =>
    rw [← startsMark_append _ _ more] at plain
    rw [List.cons_append, List.cons_append, commentLength?_char plain, ih, Option.map_map]
    congr 1
    funext length
    simp
    omega

theorem commentLength?_comment {text more : List Char} (comment : IsComment text) :
    ∃ inner, text = opening ++ inner ∧ commentLength? 0 (inner ++ more) = some inner.length := by
  obtain ⟨inner, inside, rfl⟩ := comment
  refine ⟨inner ++ closing, List.append_assoc .., ?_⟩
  rw [inside.commentLength?, List.length_append]
  rfl

/--
What the scanner takes after an opening mark makes a comment, which is the only
one that the text starts with; if it takes all of the text, there is none.
-/
theorem blockComment_cases (rest : List Char) :
    (∃ length, blockComment rest = (.blockComment, length) ∧
      ∀ text, (IsComment text ∧ text <+: opening ++ rest) ↔ text = opening ++ rest.take length) ∨
    (blockComment rest = (.error .unterminatedComment, rest.length) ∧
      ∀ text, IsComment text → ¬text <+: opening ++ rest) := by
  have measured : ∀ text, IsComment text → text <+: opening ++ rest →
      ∃ inner, text = opening ++ inner ∧ inner <+: rest ∧
        commentLength? 0 rest = some inner.length := by
    rintro text comment ⟨more, whole⟩
    obtain ⟨inner, rfl, found⟩ := commentLength?_comment comment
    rw [List.append_assoc, List.append_cancel_left_eq] at whole
    exact ⟨inner, rfl, ⟨more, whole⟩, whole ▸ found⟩
  rw [blockComment]
  cases found : commentLength? 0 rest with
  | none =>
    refine .inr ⟨rfl, fun text comment starts => ?_⟩
    obtain ⟨inner, -, -, other⟩ := measured text comment starts
    cases found.symm.trans other
  | some length =>
    refine .inl ⟨length, rfl, fun text => ⟨fun ⟨comment, starts⟩ => ?_, ?_⟩⟩
    · obtain ⟨inner, rfl, starts, other⟩ := measured text comment starts
      obtain rfl := Option.some.inj (found.symm.trans other)
      rw [← List.prefix_iff_eq_take.mp starts]
    · rintro rfl
      obtain ⟨inner, inside, closed⟩ := closes_of_commentLength? found
      refine ⟨⟨inner, inside, by rw [closed, List.append_assoc]⟩, ?_⟩
      exact (List.prefix_append_right_inj opening).mpr (List.take_prefix length rest)

/--
Where the scanner is at an opening mark, the token is the comment that the rest
of the text starts with, and there is only one; or there is none, and the token
is a comment that never closes and takes the rest.
-/
theorem scanned_comment {source : String} {front back : List Token} {token : Token}
    (scanned : scan source = front ++ token :: back)
    (opens : opening <+: (textOf (token :: back)).toList) :
    (token.kind = .blockComment ∧
      ∀ text, (IsComment text ∧ text <+: (textOf (token :: back)).toList) ↔
        text = token.text.toList) ∨
    (token.kind = .error .unterminatedComment ∧
      token.text.toList = (textOf (token :: back)).toList ∧
      ∀ text, IsComment text → ¬text <+: (textOf (token :: back)).toList) := by
  have nonempty : textOf (token :: back) ≠ "" := by
    intro isEmpty
    rw [isEmpty] at opens
    cases List.prefix_nil.mp opens
  obtain ⟨first, rest, whole, kind, text⟩ := munched_of_scanFrom scanned nonempty
  rw [whole] at opens ⊢
  obtain ⟨more, same⟩ := opens
  obtain ⟨rfl, rfl⟩ : '\x7b' = first ∧ '-' :: more = rest := List.cons.inj same
  have munched : munch '\x7b' ('-' :: more) =
      ((blockComment more).1, (blockComment more).2 + 1) := by
    rw [munch, if_neg (by decide), if_pos (by simp)]
    rfl
  rw [kind, text, String.toList_ofList, munched]
  rcases blockComment_cases more with ⟨length, measured, only⟩ | ⟨measured, neverCloses⟩
  · rw [measured]
    exact .inl ⟨rfl, only⟩
  · rw [measured]
    exact .inr ⟨rfl, by rw [List.take_of_length_le (by simp)], neverCloses⟩

theorem scanned_comment_nested :
    (scan "a\x7b-\x7b--\x7d-\x7d-\x7d").map Token.text =
        ["a", "\x7b-\x7b--\x7d-\x7d", "-", "\x7d", ""] ∧
      ∀ text, (IsComment text ∧ text <+: "\x7b-\x7b--\x7d-\x7d-\x7d".toList) ↔
        text = "\x7b-\x7b--\x7d-\x7d".toList := by
  have scanned : scan "a\x7b-\x7b--\x7d-\x7d-\x7d" = [⟨.lowerName, ⟨0, 1⟩, "a"⟩] ++
      ⟨.blockComment, ⟨1, 9⟩, "\x7b-\x7b--\x7d-\x7d"⟩ ::
        [⟨.operator, ⟨9, 10⟩, "-"⟩, ⟨.closeBrace, ⟨10, 11⟩, "\x7d"⟩, virtual .eof 11] := by
    decide +kernel
  refine ⟨by rw [scanned]; rfl, ?_⟩
  rcases scanned_comment scanned (by decide +kernel) with ⟨-, only⟩ | ⟨kind, -⟩
  · exact only
  · cases kind

end Offside.Token
