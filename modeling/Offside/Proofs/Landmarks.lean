import Offside.Proofs.Twins

/-!
# Texts with the same landmarks

The landmarks of a text are its significant tokens, each with its column and
with whether it is the first on its line.  The layout resolver looks at nothing
else: texts with the same landmarks get the same virtual tokens in front of the
same significant ones.  So the tokens that the grammar sees differ only in the
trivia in front of them.

Between two significant tokens there is trivia in both texts or in neither,
since the columns tell.  In front of the first landmark and behind the last one
they do not.
-/

namespace Offside.Layout

/-- A significant token, and where it stands. -/
structure Landmark where
  kind : TokenKind
  text : String
  column : Nat
  /-- The token is the first on its line. -/
  isFirst : Bool
deriving DecidableEq, Repr

def landmarksFrom (tabWidth : Nat) (front : List Token) : List Token → List Landmark
  | [] => []
  | token :: rest =>
    if token.kind.isSignificant then
      ⟨token.kind, token.text, columnBehind tabWidth front, opensLine front⟩ ::
        landmarksFrom tabWidth (front ++ [token]) rest
    else landmarksFrom tabWidth (front ++ [token]) rest

/-- The significant tokens of a text, and where they stand. -/
def landmarks (tabWidth : Nat) (source : String) : List Landmark :=
  landmarksFrom (max tabWidth 1) [] (Token.scan source)

def endsInTrivia (source : String) : Bool :=
  (Token.scan source).dropLast.getLast?.any fun token => token.kind.isInsignificant

def ClosesComments (source : String) : Prop :=
  ∀ token ∈ Token.scan source, token.kind ≠ .error .unterminatedComment

instance (source : String) : Decidable (ClosesComments source) :=
  inferInstanceAs (Decidable (∀ token ∈ Token.scan source, _))

/-! ### Stretches of a text -/

/-- A significant token with the trivia behind it. -/
structure Stretch where
  token : Token
  gap : List Token
  significant : token.kind.isSignificant = true
  blank : ∀ other ∈ gap, other.kind.isInsignificant = true

def Stretch.tokens (stretch : Stretch) : List Token :=
  stretch.token :: stretch.gap

theorem isVirtual_of_isInsignificant {kind : TokenKind} (blank : kind.isInsignificant = true) :
    kind.isVirtual = false := by
  cases kind <;> first | rfl | cases blank

theorem Stretch.real (stretch : Stretch) :
    ∀ token ∈ stretch.tokens, token.kind.isVirtual = false := by
  intro token member
  rcases List.mem_cons.mp member with rfl | inGap
  · exact (isSignificant_iff.mp stretch.significant).2
  · exact isVirtual_of_isInsignificant (stretch.blank token inGap)

def Stretch.row (stretches : List Stretch) (stop : Nat) : List Token :=
  stretches.flatMap Stretch.tokens ++ [Token.virtual .eof stop]

theorem Stretch.row_cons (stretch : Stretch) (stretches : List Stretch) (stop : Nat) :
    Stretch.row (stretch :: stretches) stop =
      stretch.tokens ++ Stretch.row stretches stop := by
  rw [Stretch.row, List.flatMap_cons, List.append_assoc]
  rfl

theorem exists_stretches (front : List Token)
    (real : ∀ token ∈ front, token.kind.isVirtual = false) :
    ∃ gap : List Token, ∃ stretches : List Stretch,
      (∀ token ∈ gap, token.kind.isInsignificant = true) ∧
        front = gap ++ stretches.flatMap Stretch.tokens := by
  induction front with
  | nil => exact ⟨[], [], nofun, rfl⟩
  | cons token front ih =>
    obtain ⟨gap, stretches, blank, split⟩ :=
      ih fun other member => real other (List.mem_cons_of_mem _ member)
    by_cases isBlank : token.kind.isInsignificant = true
    · refine ⟨token :: gap, stretches, ?_, by rw [split, List.cons_append]⟩
      intro other member
      rcases List.mem_cons.mp member with rfl | inGap
      · exact isBlank
      · exact blank other inGap
    · have significant : token.kind.isSignificant = true :=
        isSignificant_iff.mpr ⟨by simpa using isBlank, real token (by simp)⟩
      exact ⟨[], ⟨token, gap, significant, blank⟩ :: stretches, nofun, by rw [split]; rfl⟩

/-! ### Landmarks of stretches -/

section Positions

variable {tabWidth : Nat} {front : List Token}

theorem landmarksFrom_gap (gap rest : List Token)
    (blank : ∀ token ∈ gap, token.kind.isInsignificant = true) :
    landmarksFrom tabWidth front (gap ++ rest) =
      landmarksFrom tabWidth (front ++ gap) rest := by
  induction gap generalizing front with
  | nil => rw [List.nil_append, List.append_nil]
  | cons token gap ih =>
    have passed : ¬ token.kind.isSignificant = true := by
      simp [isSignificant_iff, blank token (by simp)]
    rw [List.cons_append, landmarksFrom, if_neg passed,
      ih fun other member => blank other (List.mem_cons_of_mem _ member), List.append_assoc]
    rfl

theorem landmarksFrom_stretch (stretch : Stretch) (rest : List Token) :
    landmarksFrom tabWidth front (stretch.tokens ++ rest) =
      ⟨stretch.token.kind, stretch.token.text, columnBehind tabWidth front,
          opensLine front⟩ ::
        landmarksFrom tabWidth (front ++ stretch.tokens) rest := by
  rw [Stretch.tokens, List.cons_append, landmarksFrom, if_pos stretch.significant,
    landmarksFrom_gap _ _ stretch.blank, List.append_assoc]
  rfl

variable {column : Nat}

theorem lt_nextColumn {char : Char} (positive : 0 < tabWidth) (inline : char ≠ '\n') :
    column < nextColumn tabWidth column char := by
  rw [nextColumn, if_neg inline]
  split
  · exact (Nat.div_lt_iff_lt_mul positive).mp (Nat.lt_succ_self _)
  · exact Nat.lt_succ_self _

theorem foldl_nextColumn_le (positive : 0 < tabWidth) (chars : List Char) (inline : '\n' ∉ chars) :
    column + chars.length ≤ chars.foldl (nextColumn tabWidth) column := by
  induction chars generalizing column with
  | nil => exact Nat.le_refl _
  | cons char chars ih =>
    have moved : column < nextColumn tabWidth column char :=
      lt_nextColumn positive fun isBreak => inline (by simp [isBreak])
    have rest : nextColumn tabWidth column char + chars.length ≤
        chars.foldl (nextColumn tabWidth) (nextColumn tabWidth column char) :=
      ih fun member => inline (List.mem_cons_of_mem _ member)
    rw [List.length_cons, List.foldl_cons]
    omega

theorem eq_empty_of_columnAfter {text : String} (positive : 0 < tabWidth)
    (inline : '\n' ∉ text.toList) (still : columnAfter tabWidth column text = column) :
    text = "" := by
  have moved : column + text.toList.length ≤ columnAfter tabWidth column text :=
    foldl_nextColumn_le positive text.toList inline
  have short : text.toList.length = 0 := by omega
  exact String.toList_eq_nil_iff.mp (List.length_eq_zero_iff.mp short)

theorem columnBehind_stretch (stretch : Stretch) :
    columnBehind tabWidth (front ++ stretch.tokens) =
      columnAfter tabWidth
        (columnAfter tabWidth (columnBehind tabWidth front) stretch.token.text)
        (Token.textOf stretch.gap) := by
  rw [columnBehind, Token.textOf_append, columnAfter_append, Stretch.tokens,
    Token.textOf_cons, columnAfter_append]
  rfl

theorem contains_textOf (char : Char) (tokens : List Token) :
    (Token.textOf tokens).toList.contains char =
      tokens.any fun token => token.text.toList.contains char := by
  induction tokens with
  | nil => rfl
  | cons token rest ih => simp_all

theorem opensLine_stretch (stretch : Stretch) :
    opensLine (front ++ stretch.tokens) =
      (Token.textOf stretch.gap).toList.contains '\n' := by
  have blanks : (front ++ stretch.tokens).reverse.takeWhile
      (fun token => token.kind.isInsignificant) = stretch.gap.reverse := by
    have significant : ¬ stretch.token.kind.isInsignificant = true := by
      simp [(isSignificant_iff.mp stretch.significant).1]
    rw [Stretch.tokens, List.reverse_append, List.reverse_cons, List.append_assoc,
      List.takeWhile_append_of_pos fun token member =>
        stretch.blank token (List.mem_reverse.mp member),
      List.singleton_append, List.takeWhile_cons, if_neg significant, List.append_nil]
  rw [contains_textOf, opensLine, blanks, Stretch.tokens]
  simp
  omega

theorem gap_eq_empty_iff {stretch other : Stretch} {behind : List Token}
    (positive : 0 < tabWidth) (text : stretch.token.text = other.token.text)
    (column : columnBehind tabWidth front = columnBehind tabWidth behind)
    (columns : columnBehind tabWidth (front ++ stretch.tokens) =
      columnBehind tabWidth (behind ++ other.tokens))
    (lines : opensLine (front ++ stretch.tokens) = opensLine (behind ++ other.tokens)) :
    Token.textOf stretch.gap = "" ↔ Token.textOf other.gap = "" := by
  rw [columnBehind_stretch, columnBehind_stretch, text, column] at columns
  rw [opensLine_stretch, opensLine_stretch] at lines
  constructor
  · intro empty
    rw [empty] at columns lines
    exact eq_empty_of_columnAfter positive (by simpa using lines.symm) columns.symm
  · intro empty
    rw [empty] at columns lines
    exact eq_empty_of_columnAfter positive (by simpa using lines) columns

end Positions

/-! ### The resolver at a landmark -/

def State.blocks (state : State) : Stack × Option Block × Bool :=
  (state.stack, state.pending, state.startsWithModule)

section Resolver

variable {tabWidth : Nat} {one two : State}

theorem State.of_blocks (blocks : one.blocks = two.blocks) :
    one.stack = two.stack ∧ one.pending = two.pending ∧
      one.startsWithModule = two.startsWithModule := by
  simpa [State.blocks] using blocks

theorem State.blocks_gap (gap : List Token)
    (blank : ∀ token ∈ gap, token.kind.isInsignificant = true) :
    (one.after tabWidth gap).blocks = one.blocks := by
  induction gap generalizing one with
  | nil => rfl
  | cons token gap ih =>
    obtain ⟨first, later⟩ := List.forall_mem_cons.mp blank
    rw [State.after_cons, ih later, State.step, if_pos first]
    rfl

theorem emitted_gap (gap : List Token) (blank : ∀ token ∈ gap, token.kind.isInsignificant = true) :
    emitted tabWidth one gap = gap := by
  induction gap generalizing one with
  | nil => rfl
  | cons token gap ih =>
    rw [emitted, ih fun other member => blank other (List.mem_cons_of_mem _ member),
      State.step, if_pos (blank token (by simp))]
    rfl

theorem resolveFrom_end (stop : Nat) :
    resolveFrom tabWidth one [Token.virtual .eof stop] =
      insert one.finish stop ++ [Token.virtual .eof stop] := by
  rfl

theorem State.significant_eq {token other : Token} (blocks : one.blocks = two.blocks)
    (kind : token.kind = other.kind) (column : one.column = two.column)
    (lineStart : one.lineStart = two.lineStart) :
    (one.significant tabWidth token).2 = (two.significant tabWidth other).2 ∧
      (one.significant tabWidth token).1.blocks = (two.significant tabWidth other).1.blocks := by
  obtain ⟨stack, pending, startsWithModule⟩ := State.of_blocks blocks
  cases one
  subst stack pending startsWithModule column lineStart
  simp only [State.significant, kind]
  exact ⟨rfl, rfl⟩

theorem State.step_stretch (stretch : Stretch) :
    one.step tabWidth stretch.token = one.significant tabWidth stretch.token := by
  rw [State.step, if_neg (by simp [(isSignificant_iff.mp stretch.significant).1])]

theorem emitted_stretch (stretch : Stretch) :
    emitted tabWidth one stretch.tokens =
      insert (one.significant tabWidth stretch.token).2 stretch.token.span.start ++
        stretch.tokens := by
  rw [Stretch.tokens, emitted, State.step_stretch, emitted_gap _ stretch.blank]

theorem State.blocks_stretch {stretch other : Stretch} (blocks : one.blocks = two.blocks)
    (kind : stretch.token.kind = other.token.kind) (column : one.column = two.column)
    (lineStart : one.lineStart = two.lineStart) :
    (one.after tabWidth stretch.tokens).blocks = (two.after tabWidth other.tokens).blocks := by
  rw [Stretch.tokens, Stretch.tokens, State.after_cons, State.after_cons,
    State.step_stretch, State.step_stretch, State.blocks_gap _ stretch.blank,
    State.blocks_gap _ other.blank]
  exact (State.significant_eq blocks kind column lineStart).2

theorem State.finish_eq (blocks : one.blocks = two.blocks) : one.finish = two.finish := by
  obtain ⟨stack, pending, -⟩ := State.of_blocks blocks
  rw [State.finish, State.finish, stack, pending]

end Resolver

end Offside.Layout

namespace Offside.Grammar

open Offside.Layout (Stretch endsInTrivia landmarks landmarksFrom)

/-! ### Matched lexemes -/

section Grouping

variable {keepsEmpty : Bool} {one two : List Token}

theorem Lexeme.groupFrom_hidden (trivia gap rest : List Token)
    (hidden : ∀ token ∈ gap, token.kind.isVisible = false) :
    groupFrom trivia (gap ++ rest) = groupFrom (trivia ++ gap) rest := by
  induction gap generalizing trivia with
  | nil => rw [List.nil_append, List.append_nil]
  | cons token gap ih =>
    have invisible : ¬ token.kind.isVisible = true := by simp [hidden token (by simp)]
    rw [List.cons_append, groupFrom, if_neg invisible,
      ih _ fun other member => hidden other (List.mem_cons_of_mem _ member),
      List.append_assoc]
    rfl

theorem isVisible_of_isInsignificant {kind : TokenKind} (blank : kind.isInsignificant = true) :
    kind.isVisible = false := by
  simp [TokenKind.isVisible, blank]

theorem isVisible_of_isSignificant {kind : TokenKind} (significant : kind.isSignificant = true) :
    kind.isVisible = true := by
  cases kind <;> first | rfl | simp_all [TokenKind.isSignificant, TokenKind.isVisible,
    TokenKind.isVirtual, TokenKind.isLayoutError]

theorem groupFrom_stretch (trivia : List Token) (stretch : Stretch) (rest : List Token) :
    Lexeme.groupFrom trivia (stretch.tokens ++ rest) =
      ⟨trivia, stretch.token⟩ :: Lexeme.groupFrom stretch.gap rest := by
  rw [Stretch.tokens, List.cons_append, Lexeme.groupFrom,
    if_pos (isVisible_of_isSignificant stretch.significant),
    Lexeme.groupFrom_hidden _ _ _ fun token member =>
      isVisible_of_isInsignificant (stretch.blank token member),
    List.nil_append]

theorem Paired.concat_virtual (paired : Paired keepsEmpty one two) {kind : TokenKind}
    (mark : Layout.isMark kind = true) (hidden : kind.isVisible = false) (start stop : Nat) :
    Paired keepsEmpty (one ++ [Token.virtual kind start])
      (two ++ [Token.virtual kind stop]) := by
  have quiets (trivia : List Token) (offset : Nat) (before : Muted keepsEmpty trivia) :
      Muted keepsEmpty (trivia ++ [Token.virtual kind offset]) := by
    refine List.forall_mem_append.mpr ⟨before, List.forall_mem_singleton.mpr ⟨hidden, ?_⟩⟩
    rintro - rfl
    cases mark
  refine ⟨⟨quiets one start paired.left, quiets two stop paired.right, ?_⟩, ?_⟩
  · have faults := paired.faults
    simp only [faultsIn, List.filter_append, List.map_append] at faults ⊢
    rw [faults]
    cases blank : kind.isInsignificant <;> simp [blank, Sight.ofToken]
  · intro keeps
    simpa using paired.gap keeps

theorem matched_insert {restOne restTwo : List Token} (start stop : Nat) (kinds : List TokenKind)
    (marks : ∀ kind ∈ kinds, Layout.isMark kind = true) (paired : Paired keepsEmpty one two)
    (later : ∀ first second, Paired keepsEmpty first second →
      List.Forall₂ (Matched keepsEmpty) (Lexeme.groupFrom first restOne)
        (Lexeme.groupFrom second restTwo)) :
    List.Forall₂ (Matched keepsEmpty)
      (Lexeme.groupFrom one (Layout.insert kinds start ++ restOne))
      (Lexeme.groupFrom two (Layout.insert kinds stop ++ restTwo)) := by
  induction kinds generalizing one two with
  | nil => exact later one two paired
  | cons kind kinds ih =>
    have marksLater : ∀ kind ∈ kinds, Layout.isMark kind = true :=
      fun kind member => marks kind (List.mem_cons_of_mem _ member)
    simp only [Layout.insert, List.map_cons, List.cons_append, Lexeme.groupFrom, Token.virtual_kind]
    split
    · exact .cons ⟨rfl, paired⟩ (ih marksLater paired_nil)
    · next invisible =>
        exact ih marksLater (paired.concat_virtual (marks kind (by simp))
          (by simpa using invisible) start stop)

theorem quiet_of_blank (blank : ∀ token ∈ one, token.kind.isInsignificant = true)
    (closed : keepsEmpty = true → ∀ token ∈ one, token.kind ≠ .error .unterminatedComment) :
    Muted keepsEmpty one :=
  fun token member => ⟨isVisible_of_isInsignificant (blank token member),
    fun keeps => closed keeps token member⟩

theorem kindred_of_blank (blankLeft : ∀ token ∈ one, token.kind.isInsignificant = true)
    (blankRight : ∀ token ∈ two, token.kind.isInsignificant = true)
    (left : Muted keepsEmpty one) (right : Muted keepsEmpty two) : Kindred keepsEmpty one two where
  left := left
  right := right
  faults := by
    have noFaults : ∀ trivia : List Token,
        (∀ token ∈ trivia, token.kind.isInsignificant = true) → faultsIn trivia = [] := by
      intro trivia blank
      rw [faultsIn, List.filter_eq_nil_iff.mpr fun token member => by simp [blank token member]]
      rfl
    rw [noFaults one blankLeft, noFaults two blankRight]

end Grouping

/-! ### From landmark to landmark -/

section Matching

variable {keepsEmpty : Bool} {tabWidth : Nat}

def LastGaps (keepsEmpty : Bool) (stretches others : List Stretch) : Prop :=
  keepsEmpty = true → ∀ stretch ∈ stretches.getLast?, ∀ other ∈ others.getLast?,
    (Token.textOf stretch.gap = "" ↔ Token.textOf other.gap = "")

variable {stretches others : List Stretch} {front behind : List Token} {start stop : Nat}

theorem LastGaps.tail {stretch other : Stretch}
    (last : LastGaps keepsEmpty (stretch :: stretches) (other :: others)) :
    LastGaps keepsEmpty stretches others := by
  intro keeps final foundLeft end_ foundRight
  refine last keeps final ?_ end_ ?_
  · rw [List.getLast?_cons, show stretches.getLast? = some final from foundLeft]
    rfl
  · rw [List.getLast?_cons, show others.getLast? = some end_ from foundRight]
    rfl

theorem landmarksFrom_row_cases
    (aligned : landmarksFrom tabWidth front (Stretch.row stretches start) =
      landmarksFrom tabWidth behind (Stretch.row others stop)) :
    stretches = [] ∧ others = [] ∨
      ∃ stretch later other following, stretches = stretch :: later ∧
        others = other :: following ∧
        Sight.ofToken stretch.token = Sight.ofToken other.token ∧
        Layout.columnBehind tabWidth front = Layout.columnBehind tabWidth behind ∧
        Layout.opensLine front = Layout.opensLine behind ∧
        landmarksFrom tabWidth (front ++ stretch.tokens) (Stretch.row later start) =
          landmarksFrom tabWidth (behind ++ other.tokens) (Stretch.row following stop) := by
  match stretches, others with
  | [], [] => exact .inl ⟨rfl, rfl⟩
  | [], other :: following =>
    rw [Stretch.row_cons, Layout.landmarksFrom_stretch] at aligned
    cases aligned
  | stretch :: later, [] =>
    rw [Stretch.row_cons, Layout.landmarksFrom_stretch] at aligned
    cases aligned
  | stretch :: later, other :: following =>
    rw [Stretch.row_cons, Stretch.row_cons, Layout.landmarksFrom_stretch,
      Layout.landmarksFrom_stretch] at aligned
    obtain ⟨place, alignedLater⟩ := List.cons.inj aligned
    obtain ⟨kind, text, column, lines⟩ := Layout.Landmark.mk.inj place
    exact .inr ⟨stretch, later, other, following, rfl, rfl,
      by rw [Sight.ofToken, Sight.ofToken, kind, text], column, lines, alignedLater⟩

theorem gaps_of_landmarks {stretch other : Stretch} (positive : 0 < tabWidth)
    (text : stretch.token.text = other.token.text)
    (column : Layout.columnBehind tabWidth front = Layout.columnBehind tabWidth behind)
    (aligned : landmarksFrom tabWidth (front ++ stretch.tokens) (Stretch.row stretches start) =
      landmarksFrom tabWidth (behind ++ other.tokens) (Stretch.row others stop))
    (last : LastGaps keepsEmpty (stretch :: stretches) (other :: others)) :
    keepsEmpty = true → (Token.textOf stretch.gap = "" ↔ Token.textOf other.gap = "") := by
  intro keeps
  rcases landmarksFrom_row_cases aligned with
    ⟨rfl, rfl⟩ | ⟨_, _, _, _, -, -, -, columns, lines, -⟩
  · exact last keeps stretch rfl other rfl
  · exact Layout.gap_eq_empty_iff positive text column columns lines

theorem matched_row {one two : List Token} (positive : 0 < tabWidth)
    (quietLeft : ∀ stretch ∈ stretches, Muted keepsEmpty stretch.gap)
    (quietRight : ∀ other ∈ others, Muted keepsEmpty other.gap)
    (aligned : landmarksFrom tabWidth front (Stretch.row stretches start) =
      landmarksFrom tabWidth behind (Stretch.row others stop))
    (blocks : (Layout.State.after tabWidth {} front).blocks =
      (Layout.State.after tabWidth {} behind).blocks) (last : LastGaps keepsEmpty stretches others)
    (paired : Paired keepsEmpty one two) :
    List.Forall₂ (Matched keepsEmpty)
      (Lexeme.groupFrom one (Layout.resolveFrom tabWidth (Layout.State.after tabWidth {} front)
        (Stretch.row stretches start)))
      (Lexeme.groupFrom two (Layout.resolveFrom tabWidth (Layout.State.after tabWidth {} behind)
        (Stretch.row others stop))) := by
  -- What is in front of the landmarks is pending: the virtual tokens decide what it goes to.
  induction stretches generalizing others front behind one two with
  | nil =>
    obtain ⟨-, rfl⟩ | ⟨_, _, _, _, nonempty, -⟩ := landmarksFrom_row_cases aligned
    · rw [Stretch.row, Stretch.row, List.flatMap_nil, List.nil_append, List.nil_append,
        Layout.resolveFrom_end, Layout.resolveFrom_end, ← Layout.State.finish_eq blocks]
      refine matched_insert _ _ _ (Layout.isMark_finish _) paired ?_
      intro first second gap
      exact .cons ⟨rfl, gap⟩ .nil
    · cases nonempty
  | cons stretch stretches ih =>
    obtain ⟨isEmpty, -⟩ |
        ⟨_, _, other, following, split, rfl, sight, column, lines, alignedLater⟩ :=
      landmarksFrom_row_cases aligned
    · cases isEmpty
    obtain ⟨rfl, rfl⟩ := List.cons.inj split
    have kind : stretch.token.kind = other.token.kind := congrArg Sight.kind sight
    have columns : (Layout.State.after tabWidth {} front).column =
        (Layout.State.after tabWidth {} behind).column := by
      rw [Layout.State.after_column, Layout.State.after_column]
      exact column
    have lineStarts : (Layout.State.after tabWidth {} front).lineStart =
        (Layout.State.after tabWidth {} behind).lineStart := by
      rw [Layout.State.after_lineStart, Layout.State.after_lineStart, lines]
    -- The trivia behind the landmark is judged by where the next one stands.
    have gaps : Paired keepsEmpty stretch.gap other.gap :=
      { kindred_of_blank stretch.blank other.blank (quietLeft stretch List.mem_cons_self)
          (quietRight other List.mem_cons_self) with
        gap := gaps_of_landmarks positive (congrArg Sight.text sight) column alignedLater last }
    have later := ih (List.forall_mem_cons.mp quietLeft).2 (List.forall_mem_cons.mp quietRight).2
      alignedLater
      (by
        rw [Layout.State.after_append, Layout.State.after_append]
        exact Layout.State.blocks_stretch blocks kind columns lineStarts)
      last.tail gaps
    rw [Stretch.row_cons, Stretch.row_cons, Layout.resolveFrom_append _ _ stretch.real,
      Layout.resolveFrom_append _ _ other.real, Layout.emitted_stretch, Layout.emitted_stretch,
      List.append_assoc, List.append_assoc,
      ← (Layout.State.significant_eq blocks kind columns lineStarts).1, ← Layout.State.step_stretch]
    refine matched_insert _ _ _ (Layout.isMark_step _ _ _) paired ?_
    intro first second before
    rw [← Layout.State.after_append, ← Layout.State.after_append, groupFrom_stretch,
      groupFrom_stretch]
    exact .cons ⟨sight, before⟩ later

end Matching

/-! ### Whole texts -/

section Texts

variable {keepsEmpty : Bool} {tabWidth : Nat}

theorem scan_eq_row (source : String) :
    ∃ gap : List Token, ∃ stretches : List Stretch, ∃ stop : Nat,
      (∀ token ∈ gap, token.kind.isInsignificant = true) ∧
        Token.scan source = gap ++ Stretch.row stretches stop := by
  obtain ⟨front, stop, split, real⟩ := Token.scan_split source
  obtain ⟨gap, stretches, blank, parts⟩ := Layout.exists_stretches front real
  exact ⟨gap, stretches, stop, blank, by rw [split, parts, List.append_assoc]; rfl⟩

variable {source : String} {gap : List Token} {stretches : List Stretch} {stop : Nat}

theorem landmarks_eq (blank : ∀ token ∈ gap, token.kind.isInsignificant = true)
    (split : Token.scan source = gap ++ Stretch.row stretches stop) :
    landmarks tabWidth source =
      landmarksFrom (max tabWidth 1) gap (Stretch.row stretches stop) := by
  rw [landmarks, split, Layout.landmarksFrom_gap _ _ blank, List.nil_append]

theorem groupFrom_first (tabWidth : Nat) {state : Layout.State}
    (calm : state.blocks = Layout.State.blocks {}) (stretches : List Stretch) (stop : Nat) :
    ∃ token rest, (token.kind.isVirtual = false ∨ token.kind = .eof) ∧
      ∀ trivia, Lexeme.groupFrom trivia
        (Layout.resolveFrom tabWidth state (Stretch.row stretches stop)) =
          ⟨trivia, token⟩ :: rest := by
  obtain ⟨stack, pending, -⟩ := Layout.State.of_blocks calm
  match stretches with
  | [] =>
    have owed : state.finish = [] := by
      rw [Layout.State.finish, stack, pending]
      rfl
    refine ⟨Token.virtual .eof stop, [], .inr rfl, fun trivia => ?_⟩
    rw [Stretch.row, List.flatMap_nil, List.nil_append, Layout.resolveFrom_end, owed]
    rfl
  | stretch :: stretches =>
    have inserted : (state.significant tabWidth stretch.token).2 = [] := by
      rw [Layout.State.significant, stack]
    rw [Stretch.row_cons, Layout.resolveFrom_append _ _ stretch.real, Layout.emitted_stretch,
      inserted]
    exact ⟨stretch.token, _, .inl (stretch.real _ List.mem_cons_self),
      fun trivia => groupFrom_stretch trivia stretch _⟩

theorem group_tokens_eq (blank : ∀ token ∈ gap, token.kind.isInsignificant = true)
    (split : Token.scan source = gap ++ Stretch.row stretches stop) :
    Lexeme.group (Layout.tokens tabWidth source) =
      Lexeme.groupFrom gap (Layout.resolveFrom (max tabWidth 1)
        (Layout.State.after (max tabWidth 1) {} gap) (Stretch.row stretches stop)) := by
  have real : ∀ token ∈ gap, token.kind.isVirtual = false :=
    fun token member => Layout.isVirtual_of_isInsignificant (blank token member)
  rw [Lexeme.group, Layout.tokens, Layout.resolve, split, Layout.resolveFrom_append _ _ real,
    Layout.emitted_gap _ blank,
    Lexeme.groupFrom_hidden _ _ _ fun token member =>
      isVisible_of_isInsignificant (blank token member),
    List.nil_append]

/--
The first tokens are the same, whatever trivia is in front of them, and the
others are matched.
-/
inductive Aligned (keepsEmpty : Bool) : List Lexeme → List Lexeme → Prop where
  | intro {lexeme other : Lexeme} {rest others : List Lexeme}
      (sight : Sight.ofToken lexeme.token = Sight.ofToken other.token)
      (first : lexeme.token.kind.isVirtual = false ∨ lexeme.token.kind = .eof)
      (trivia : Kindred keepsEmpty lexeme.trivia other.trivia)
      (matched : List.Forall₂ (Matched keepsEmpty) rest others) :
      Aligned keepsEmpty (lexeme :: rest) (other :: others)

theorem textOf_gap_eq_empty_iff {stretch : Stretch}
    (split : Token.scan source = gap ++ Stretch.row stretches stop)
    (last : stretch ∈ stretches.getLast?) :
    Token.textOf stretch.gap = "" ↔ endsInTrivia source = false := by
  obtain ⟨init, rfl⟩ := List.getLast?_eq_some_iff.mp last
  have front : (Token.scan source).dropLast =
      gap ++ init.flatMap Stretch.tokens ++ stretch.token :: stretch.gap := by
    rw [split, Stretch.row, ← List.append_assoc, List.dropLast_concat]
    simp [Stretch.tokens]
  rw [endsInTrivia, front]
  rcases List.eq_nil_or_concat stretch.gap with empty | ⟨before, final, full⟩
  · simp [empty, (Layout.isSignificant_iff.mp stretch.significant).1]
  · have inGap : final ∈ stretch.gap := by simp [full]
    have blank : final.kind.isInsignificant = true := stretch.blank final inGap
    have inText : final ∈ Token.scan source :=
      List.dropLast_subset _ (by rw [front]; simp [inGap])
    have spelled : final.text ≠ "" := by
      refine Token.text_ne_empty_of_mem_scanFrom _ _ _ final inText ?_
      intro isEnd
      rw [isEnd] at blank
      cases blank
    rw [full, List.concat_eq_append, ← List.cons_append, ← List.append_assoc, List.getLast?_concat]
    simp [blank, spelled]

theorem gap_subset {stretch : Stretch} (front : List Token) (stop : Nat)
    (member : stretch ∈ stretches) : stretch.gap ⊆ front ++ Stretch.row stretches stop := by
  intro token inGap
  have inside : token ∈ stretches.flatMap Stretch.tokens :=
    List.mem_flatMap.mpr ⟨stretch, member, List.mem_cons_of_mem _ inGap⟩
  simp [Stretch.row, inside]

theorem aligned_of_landmarks {left right : String}
    (aligned : landmarks tabWidth left = landmarks tabWidth right)
    (closedLeft : keepsEmpty = true → Layout.ClosesComments left)
    (closedRight : keepsEmpty = true → Layout.ClosesComments right)
    (ends : keepsEmpty = true → landmarks tabWidth left ≠ [] →
      endsInTrivia left = endsInTrivia right) :
    Aligned keepsEmpty (Lexeme.group (Layout.tokens tabWidth left))
      (Lexeme.group (Layout.tokens tabWidth right)) := by
  obtain ⟨gap, stretches, start, blankLeft, splitLeft⟩ := scan_eq_row left
  obtain ⟨space, others, stop, blankRight, splitRight⟩ := scan_eq_row right
  have calmLeft : (Layout.State.after (max tabWidth 1) {} gap).blocks = Layout.State.blocks {} :=
    Layout.State.blocks_gap gap blankLeft
  have calmRight : (Layout.State.after (max tabWidth 1) {} space).blocks = Layout.State.blocks {} :=
    Layout.State.blocks_gap space blankRight
  have quiet {source : String} {trivia : List Token} (subset : trivia ⊆ Token.scan source)
      (blank : ∀ token ∈ trivia, token.kind.isInsignificant = true)
      (closed : keepsEmpty = true → Layout.ClosesComments source) : Muted keepsEmpty trivia :=
    quiet_of_blank blank fun keeps token member => closed keeps token (subset member)
  have last : LastGaps keepsEmpty stretches others := by
    intro keeps stretch inLeft other inRight
    have found : landmarks tabWidth left ≠ [] := by
      rw [landmarks_eq blankLeft splitLeft]
      match stretches with
      | stretch :: later =>
        rw [Stretch.row_cons, Layout.landmarksFrom_stretch]
        exact List.cons_ne_nil _ _
    rw [textOf_gap_eq_empty_iff splitLeft inLeft, textOf_gap_eq_empty_iff splitRight inRight,
      ends keeps found]
  rw [landmarks_eq blankLeft splitLeft, landmarks_eq blankRight splitRight] at aligned
  have matched := matched_row (Nat.lt_of_lt_of_le Nat.one_pos (Nat.le_max_right tabWidth 1))
    (fun stretch member =>
      quiet (splitLeft ▸ gap_subset gap start member) stretch.blank closedLeft)
    (fun other member =>
      quiet (splitRight ▸ gap_subset space stop member) other.blank closedRight)
    aligned (calmLeft.trans calmRight.symm) last paired_nil
  obtain ⟨token, rest, first, groupedLeft⟩ :=
    groupFrom_first _ calmLeft stretches start
  obtain ⟨other, later, -, groupedRight⟩ :=
    groupFrom_first _ calmRight others stop
  rw [groupedLeft, groupedRight] at matched
  rw [group_tokens_eq blankLeft splitLeft, group_tokens_eq blankRight splitRight,
    groupedLeft, groupedRight]
  cases matched with
  | cons heads tails =>
    exact ⟨heads.sight, first, kindred_of_blank blankLeft blankRight
      (quiet (by simp [splitLeft]) blankLeft closedLeft)
      (quiet (by simp [splitRight]) blankRight closedRight), tails⟩

end Texts

end Offside.Grammar
