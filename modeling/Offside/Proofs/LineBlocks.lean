import Offside.Proofs.SpacedWords

/-!
# Blocks that open on one line

A keyword that opens a block may stand in the middle of a line.  The word behind
it is then the first of the block, and as every further word stands to the
right of it, the block goes on to the end of the text.  So on a line with blocks
of one kind only, every keyword adds one mark in front of the word behind it,
and all the ends stand together at the end of the line.
-/

namespace Offside

def TokenKind.isCalm : TokenKind → Bool
  | .lowerName | .upperName | .integer | .equals | .arrow | .keyword .caseWord => true
  | _ => false

theorem Layout.ofKeyword?_of_isCalm {kind : TokenKind} (calm : kind.isCalm = true) :
    Block.ofKeyword? kind = none := by
  cases kind with
  | keyword word => cases word <;> first | rfl | cases calm
  | _ => first | rfl | cases calm

namespace Grammar

open Layout (Block)

/--
The words open blocks of the kind only, and each block has a first word.  As a
`where` at the column of a block ends the block, it is not the first word of one.
-/
def Sight.isBlockLine (block : Block) : (pending : Bool) → List Sight → Bool
  | pending, [] => !pending
  | pending, word :: rest =>
    if Block.ofKeyword? word.kind = some block then
      (!pending || block ≠ .whereBlock) && isBlockLine block true rest
    else word.kind.isCalm && isBlockLine block false rest

def Sight.startOf (pending : Bool) : List Sight :=
  if pending then [⟨.layoutStart, ""⟩] else []

/-- The words with a mark in front of the first word of each block. -/
def Sight.withStarts : (pending : Bool) → List Sight → List Sight
  | _, [] => []
  | pending, word :: rest =>
    startOf pending ++ word :: withStarts (Block.ofKeyword? word.kind).isSome rest

def Sight.blocksOf (words : List Sight) : Nat :=
  words.countP fun word => (Block.ofKeyword? word.kind).isSome

variable {block : Block} {pending : Bool} {word : Sight} {rest : List Sight}

theorem Sight.kinds_of_isBlockLine
    (fits : Sight.isBlockLine block pending (word :: rest) = true) :
    word.kind.isCalm = true ∨
      Block.ofKeyword? word.kind = some block ∧ (pending = false ∨ block ≠ .whereBlock) := by
  rw [Sight.isBlockLine] at fits
  split at fits
  · next opens =>
      rw [Bool.and_eq_true, Bool.or_eq_true, Bool.not_eq_true', decide_eq_true_eq] at fits
      exact .inr ⟨opens, fits.1⟩
  · rw [Bool.and_eq_true] at fits
    exact .inl fits.1

theorem Sight.isBlockLine_tail (fits : Sight.isBlockLine block pending (word :: rest) = true) :
    Sight.isBlockLine block (Block.ofKeyword? word.kind).isSome rest = true := by
  rw [Sight.isBlockLine] at fits
  split at fits
  · next opens =>
      rw [opens]
      exact (Bool.and_eq_true_iff.mp fits).2
  · rw [Bool.and_eq_true] at fits
    rw [Layout.ofKeyword?_of_isCalm fits.1]
    exact fits.2

theorem Sight.blocksOf_cons (word : Sight) (rest : List Sight) :
    Sight.blocksOf (word :: rest) =
      (Block.ofKeyword? word.kind).isSome.toNat + Sight.blocksOf rest := by
  rw [blocksOf, List.countP_cons, Nat.add_comm]
  cases (Block.ofKeyword? word.kind).isSome <;> rfl

end Grammar

namespace Layout

variable {block : Block} {tabWidth : Nat}

theorem before_of_ordinary {kind : TokenKind}
    (ordinary : kind.isCalm = true ∨ Block.ofKeyword? kind = some block)
    (other : kind ≠ .keyword .whereWord) (column : Nat) (stack : Stack) :
    before kind column false stack = (stack, []) := by
  rcases ordinary with calm | opens
  · cases kind with
    | keyword word => cases word <;> first | rfl | cases calm
    | _ => first | rfl | cases calm
  · cases kind with
    | keyword word => cases word <;> first | rfl | exact absurd rfl other | cases opens
    | _ => first | rfl | cases opens

theorem openedFrame?_of_ordinary {kind : TokenKind}
    (ordinary : kind.isCalm = true ∨ Block.ofKeyword? kind = some block) :
    openedFrame? kind = none := by
  rcases ordinary with calm | opens
  · cases kind with
    | keyword word => cases word <;> first | rfl | cases calm
    | _ => first | rfl | cases calm
  · cases kind with
    | keyword word => cases word <;> first | rfl | cases opens
    | _ => first | rfl | cases opens

theorem lt_columnAfter (column : Nat) {text : String} (positive : 0 < tabWidth)
    (inline : '\n' ∉ text.toList) (spelled : text ≠ "") :
    column < columnAfter tabWidth column text := by
  have moved : column + text.toList.length ≤ columnAfter tabWidth column text :=
    foldl_nextColumn_le positive text.toList inline
  have long : 0 < text.toList.length :=
    List.length_pos_iff.mpr fun empty => spelled (String.toList_eq_nil_iff.mp empty)
  omega

/--
In the middle of a line the blocks are open from the columns, and the line has
got to the right of the innermost one.
-/
structure State.IsInside (block : Block) (columns : List Nat) (state : State) : Prop where
  begun : state.lineStart = false
  stack : ∃ root, state.stack = columns.map (.block block) ++ [.root root] ∧
    ∀ column ∈ (columns ++ [root]).head?, column < state.column

namespace State.IsInside

variable {block : Block} {columns : List Nat} {state : State} {token : Token}

theorem stack_ne_nil (inside : state.IsInside block columns) : state.stack ≠ [] := by
  obtain ⟨root, stack, -⟩ := inside.stack
  rw [stack]
  exact List.append_ne_nil_of_right_ne_nil _ (List.cons_ne_nil _ _)

theorem canOpen (inside : state.IsInside block columns) :
    Layout.canOpen state block state.column = true := by
  obtain ⟨root, stack, left⟩ := inside.stack
  rw [Layout.canOpen, stack]
  cases columns with
  | nil => simp [enclosing?, left root rfl]
  | cons column columns => simp [enclosing?, left column rfl]

theorem collapseWhere (inside : state.IsInside .whereBlock columns) :
    Layout.collapseWhere state.column state.stack = (state.stack, []) := by
  obtain ⟨root, stack, left⟩ := inside.stack
  rw [Layout.collapseWhere, stack]
  cases columns with
  | nil => rfl
  | cons column columns =>
    have outlives : (Frame.block .whereBlock column).endsAtWhere state.column = false :=
      decide_eq_false (Nat.not_le.mpr (left column rfl))
    rw [List.map_cons, List.cons_append, List.dropWhile_cons_of_neg (by simp [outlives]),
      List.takeWhile_cons_of_neg (by simp [outlives])]
    rfl

theorem cut (inside : state.IsInside block columns) {pending : Bool} {rest : List Grammar.Sight}
    (owed : state.pending = if pending then some block else none)
    (fits : Grammar.Sight.isBlockLine block pending (Grammar.Sight.ofToken token :: rest) = true) :
    state.cut token =
      if pending then (.block block state.column :: state.stack, [.layoutStart])
      else (state.stack, []) := by
  have kinds : token.kind.isCalm = true ∨
      Block.ofKeyword? token.kind = some block ∧ (pending = false ∨ block ≠ .whereBlock) :=
    Grammar.Sight.kinds_of_isBlockLine fits
  have ordinary := before_of_ordinary (kinds.imp_right And.left)
  obtain ⟨frame, below, stack⟩ := List.exists_cons_of_ne_nil inside.stack_ne_nil
  have cut : state.cut token =
      ((before token.kind state.column (state.lineStart && !(openPending state state.column).2.2)
          (openPending state state.column).1).1,
        (openPending state state.column).2.1 ++
          (before token.kind state.column (state.lineStart && !(openPending state state.column).2.2)
            (openPending state state.column).1).2) := by
    rw [State.cut, stack]
  rw [cut, inside.begun, Bool.false_and]
  cases pending with
  | true =>
    have opened : openPending state state.column =
        (.block block state.column :: state.stack, [.layoutStart], true) := by
      rw [openPending, owed]
      exact if_pos inside.canOpen
    have other : token.kind ≠ .keyword .whereWord := by
      intro isWhere
      rw [isWhere] at kinds
      rcases kinds with calm | ⟨opens, others⟩
      · cases calm
      · exact others.resolve_left (by rintro ⟨⟩) (Option.some.inj opens).symm
    rw [opened, ordinary other]
    rfl
  | false =>
    have opened : openPending state state.column = (state.stack, [], false) := by
      rw [openPending, owed]
      rfl
    rw [opened]
    by_cases isWhere : token.kind = .keyword .whereWord
    · rw [isWhere] at kinds ⊢
      rcases kinds with calm | ⟨opens, -⟩
      · cases calm
      · cases opens
        exact inside.collapseWhere
    · rw [ordinary isWhere]
      rfl

theorem significant (inside : state.IsInside block columns) (positive : 0 < tabWidth)
    {pending : Bool} {rest : List Grammar.Sight}
    (owed : state.pending = if pending then some block else none)
    (fits : Grammar.Sight.isBlockLine block pending (Grammar.Sight.ofToken token :: rest) = true)
    (inline : '\n' ∉ token.text.toList) (spelled : token.text ≠ "") :
    (state.significant tabWidth token).2 = (if pending then [.layoutStart] else []) ∧
      (state.significant tabWidth token).1.IsInside block
        (if pending then state.column :: columns else columns) := by
  have onward := lt_columnAfter state.column positive inline spelled
  have cut := inside.cut owed fits
  have alone : openedFrame? token.kind = none :=
    openedFrame?_of_ordinary ((Grammar.Sight.kinds_of_isBlockLine fits).imp_right And.left)
  obtain ⟨root, stack, left⟩ := inside.stack
  refine ⟨?_, rfl, root, ?_, fun column leads => ?_⟩
  · rw [State.significant_inserted, cut]
    cases pending <;> rfl
  · rw [State.significant_stack, alone, cut]
    cases pending with
    | true => exact congrArg (Frame.block block state.column :: ·) stack
    | false => exact stack
  · refine Nat.lt_of_le_of_lt ?_ onward
    cases pending with
    | true => exact (Option.some.inj leads).ge
    | false => exact (left column leads).le

end State.IsInside

theorem State.isInside_first {state : State} {token : Token} (positive : 0 < tabWidth)
    (fresh : state.stack = []) (alone : openedFrame? token.kind = none)
    (inline : '\n' ∉ token.text.toList) (spelled : token.text ≠ "") :
    (state.significant tabWidth token).2 = [] ∧
      (state.significant tabWidth token).1.IsInside block [] := by
  have cut : state.cut token = ([.root state.column], []) := by
    rw [State.cut, fresh]
  refine ⟨?_, rfl, state.column, ?_, fun column leads => ?_⟩
  · rw [State.significant_inserted, cut]
  · rw [State.significant_stack, alone, cut]
    rfl
  · rw [← Option.some.inj leads]
    exact lt_columnAfter state.column positive inline spelled

/-- The resolver is on a line, at its beginning or behind some of its words. -/
structure State.IsOnLine (block : Block) (columns : List Nat) (pending : Bool) (state : State) :
    Prop where
  owed : state.pending = if pending then some block else none
  place : state.IsInside block columns ∨ state.stack = [] ∧ columns = [] ∧ pending = false

namespace State.IsOnLine

variable {block : Block} {columns : List Nat} {pending : Bool} {state : State} {token : Token}
  {tabWidth : Nat}

theorem word (onLine : state.IsOnLine block columns pending) (positive : 0 < tabWidth)
    {rest : List Grammar.Sight}
    (fits : Grammar.Sight.isBlockLine block pending (Grammar.Sight.ofToken token :: rest) = true)
    (inline : '\n' ∉ token.text.toList) (spelled : token.text ≠ "") :
    (state.significant tabWidth token).2 = (if pending then [.layoutStart] else []) ∧
      ∃ opened, opened.length = columns.length + pending.toNat ∧
        (state.significant tabWidth token).1.IsOnLine block opened
          (Block.ofKeyword? token.kind).isSome := by
  have kinds : token.kind.isCalm = true ∨ Block.ofKeyword? token.kind = some block :=
    (Grammar.Sight.kinds_of_isBlockLine fits).imp_right And.left
  have owed : (state.significant tabWidth token).1.pending =
      if (Block.ofKeyword? token.kind).isSome then some block else none := by
    rcases kinds with calm | opens
    · exact (ofKeyword?_of_isCalm calm).trans (by rw [ofKeyword?_of_isCalm calm]; rfl)
    · exact opens.trans (by rw [opens]; rfl)
  rcases onLine.place with inside | ⟨fresh, rfl, rfl⟩
  · obtain ⟨inserted, onward⟩ := inside.significant positive onLine.owed fits inline spelled
    exact ⟨inserted, _, by cases pending <;> rfl, owed, .inl onward⟩
  · obtain ⟨inserted, onward⟩ := State.isInside_first positive fresh
      (openedFrame?_of_ordinary kinds) inline spelled
    exact ⟨inserted, [], rfl, owed, .inl onward⟩

theorem pass (onLine : state.IsOnLine block columns pending) (positive : 0 < tabWidth)
    (gap : token.text = " ") : (state.pass tabWidth token).IsOnLine block columns pending where
  owed := onLine.owed
  place := by
    refine onLine.place.imp_left fun inside => ?_
    obtain ⟨root, stack, left⟩ := inside.stack
    refine ⟨?_, root, stack, fun column leads => (left column leads).trans ?_⟩
    · rw [State.pass, inside.begun, gap]
      rfl
    · rw [State.pass, gap]
      exact lt_columnAfter state.column positive (by decide) (by decide)

theorem finish (onLine : state.IsOnLine block columns false) :
    state.finish = List.replicate columns.length .layoutEnd := by
  have nothing : state.pending = none := onLine.owed
  have closed : closings state.stack = List.replicate columns.length .layoutEnd := by
    rcases onLine.place with inside | ⟨fresh, rfl, -⟩
    · obtain ⟨root, stack, -⟩ := inside.stack
      rw [stack, closings, List.filter_append, List.filter_map]
      simp [Function.comp_def, Frame.isBlock]
    · rw [fresh]
      rfl
  rw [State.finish, nothing, closed]
  rfl

theorem run (onLine : state.IsOnLine block columns pending) (positive : 0 < tabWidth)
    {front : List Token} {words : List Grammar.Sight}
    (shown : (front.filter fun token => token.kind.isVisible).map Grammar.Sight.ofToken = words)
    (spaced : ∀ token ∈ front, token.kind.isVisible = true ∨ token.IsGap)
    (fits : Grammar.Sight.isBlockLine block pending words = true)
    (inline : ∀ word ∈ words, '\n' ∉ word.text.toList ∧ word.text ≠ "") :
    ((emitted tabWidth state front).filter fun token => token.kind.isVisible).map
        Grammar.Sight.ofToken = Grammar.Sight.withStarts pending words ∧
      (∀ token ∈ emitted tabWidth state front, token.kind.isVisible = true ∨ token.IsGap) ∧
      ∃ opened, opened.length = columns.length + pending.toNat + Grammar.Sight.blocksOf words ∧
        (state.after tabWidth front).IsOnLine block opened false := by
  induction front generalizing state columns pending words with
  | nil =>
    subst shown
    have nothing : pending = false := by simpa [Grammar.Sight.isBlockLine] using fits
    subst nothing
    exact ⟨rfl, nofun, columns, rfl, onLine⟩
  | cons token rest ih =>
    have spacedRest := fun other member => spaced other (List.mem_cons_of_mem token member)
    rcases spaced token List.mem_cons_self with visible | gap
    · rw [List.filter_cons, if_pos visible, List.map_cons] at shown
      subst shown
      have step : state.step tabWidth token = state.significant tabWidth token := by
        rw [State.step, if_neg fun blank => by simp [TokenKind.isVisible, blank] at visible]
      obtain ⟨⟨inlineWord, spelled⟩, inlineRest⟩ := List.forall_mem_cons.mp inline
      obtain ⟨inserted, opened, many, onward⟩ :=
        onLine.word positive fits inlineWord spelled
      obtain ⟨same, kept, last, manyLast, ended⟩ :=
        ih onward rfl spacedRest (Grammar.Sight.isBlockLine_tail fits) inlineRest
      rw [emitted, State.after_cons, step, inserted]
      refine ⟨?_, ?_, last, ?_, ended⟩
      · rw [List.filter_append, List.map_append, List.filter_cons, if_pos visible, List.map_cons,
          same]
        cases pending <;> rfl
      · refine List.forall_mem_append.mpr ⟨?_, List.forall_mem_cons.mpr ⟨.inl visible, kept⟩⟩
        intro mark member
        cases pending with
        | true => exact .inl (List.mem_singleton.mp member ▸ rfl)
        | false => cases member
      · rw [manyLast, many, Grammar.Sight.blocksOf_cons, Nat.add_assoc]
        rfl
    · have hidden : token.kind.isVisible = false := by rw [gap.1]; rfl
      have step : state.step tabWidth token = (state.pass tabWidth token, []) := by
        rw [State.step, gap.1]
        rfl
      rw [List.filter_cons_of_neg (by simp [hidden])] at shown
      obtain ⟨same, kept, ended⟩ :=
        ih (onLine.pass positive gap.2) shown spacedRest fits inline
      rw [emitted, State.after_cons, step]
      refine ⟨?_, List.forall_mem_cons.mpr ⟨.inr gap, kept⟩, ended⟩
      exact (congrArg _ (List.filter_cons_of_neg (by simp [hidden]))).trans same

end State.IsOnLine

end Layout

namespace Grammar

theorem lexemes_blockLine (tabWidth : Nat) (block : Layout.Block) {words : List Sight}
    (areWords : ∀ word ∈ words, word.IsWord ∧ word.kind.isSolid = true)
    (inline : ∀ word ∈ words, '\n' ∉ word.text.toList ∧ word.text ≠ "")
    (fits : Sight.isBlockLine block false words = true) :
    (Lexeme.group (Layout.tokens tabWidth (Sight.joined words))).map
        (fun lexeme => Sight.ofToken lexeme.token) =
        Sight.withStarts false words ++
          (List.replicate (Sight.blocksOf words) ⟨.layoutEnd, ""⟩ ++ [⟨.eof, ""⟩]) ∧
      ∀ lexeme ∈ Lexeme.group (Layout.tokens tabWidth (Sight.joined words)),
        Reading.isHarmless lexeme.trivia = true := by
  obtain ⟨front, stop, scanned, seen, known⟩ := (writes_joined areWords).scanFrom 0
  have spaced : ∀ token ∈ front, token.kind.isVisible = true ∨ token.IsGap :=
    fun token member => (known token member).imp_left fun word => isVisible_of_isSignificant word.2
  obtain ⟨front', stop', split, -, resolved⟩ := Layout.tokens_eq tabWidth (Sight.joined words)
  obtain ⟨rfl, last⟩ := List.append_inj' (scanned.symm.trans split) rfl
  have start : Layout.State.IsOnLine block [] false {} := ⟨rfl, .inr ⟨rfl, rfl, rfl⟩⟩
  obtain ⟨shown, kept, opened, many, ended⟩ :=
    start.run (Nat.lt_of_lt_of_le Nat.one_pos (Nat.le_max_right tabWidth 1)) seen spaced fits inline
  have length : opened.length = Sight.blocksOf words := by simpa using many
  rw [ended.finish, length] at resolved
  have marks : ∀ token ∈ Layout.insert (List.replicate (Sight.blocksOf words) .layoutEnd) stop' ++
      [Token.virtual .eof stop'], token.kind.isVisible = true := by
    intro token member
    rcases List.mem_append.mp member with isMark | isLast
    · obtain ⟨kind, isEnd, rfl⟩ := List.mem_map.mp isMark
      rw [List.eq_of_mem_replicate isEnd]
      rfl
    · rw [List.mem_singleton.mp isLast]
      rfl
  obtain ⟨sights, harmless⟩ := lexemes_spaced
    (List.forall_mem_append.mpr ⟨kept, fun token member => .inl (marks token member)⟩)
  rw [resolved]
  refine ⟨?_, harmless⟩
  rw [sights, List.filter_append, List.map_append, shown, List.filter_eq_self.mpr marks]
  simp [Layout.insert, Sight.ofToken]

end Grammar

end Offside
