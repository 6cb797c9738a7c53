import Offside.Proofs.GrammarConduct

/-!
# What productions build

The steps of productions, seen from the node that is open: trees are added to
its children, and tokens are taken from those that are pending.  Trivia at
fault gets a node of its own, skipped tokens go into a node that reports the
first of them, and every report says where reading goes on.  So what holds of
the trees of every run follows from what these steps do to a row of trees.
-/

namespace Offside.Grammar

open Offside.Tree (forestLeaves forestNodes)

/-- Where reading goes on: at the first token that the grammar sees. -/
def resumption (sourceLength : Nat) (pending : List Token) : Nat :=
  match pending.find? fun token => token.kind.isVisible with
  | some token => token.span.start
  | none => sourceLength

variable {sourceLength : Nat}

variable {token : Token} {trivia : List Token} {count : Nat}

theorem resumption_cons_of_hidden (hidden : token.kind.isVisible = false) (rest : List Token) :
    resumption sourceLength (token :: rest) = resumption sourceLength rest := by
  rw [resumption, List.find?_cons_of_neg (by simp [hidden]), resumption]

theorem resumption_append_of_hidden (hidden : ∀ token ∈ trivia, token.kind.isVisible = false)
    (rest : List Token) :
    resumption sourceLength (trivia ++ rest) = resumption sourceLength rest := by
  induction trivia with
  | nil => rfl
  | cons token trivia ih =>
    obtain ⟨first, later⟩ := List.forall_mem_cons.mp hidden
    rw [List.cons_append, resumption_cons_of_hidden first, ih later]

theorem ne_eof_of_hidden {kind : TokenKind} (hidden : kind.isVisible = false) : kind ≠ .eof := by
  rintro rfl
  cases hidden

/-! ### Rows of trees -/

/-- The text is over, but for tokens that the grammar does not see. -/
def AtEnd (pending : List Token) : Prop :=
  ∀ token ∈ pending.find? (fun token => token.kind.isVisible), token.kind = .eof

variable (sourceLength : Nat) (allowed : TokenKind → Bool) in
/--
The trees that the first of the pending tokens become one by one, and the
tokens that are left.  A token that the grammar sees stays a leaf and has to
be of an allowed kind, and the end of the text is not taken.
-/
inductive Grafts :
    List Token → List Tree → List Token → Prop where
  | done (pending : List Token) : Grafts pending [] pending
  | leaf {token : Token} {rest left : List Token} {row : List Tree}
      (sound : token.kind.isVisible = false ∧ State.triviaCause? token.kind = none ∨
        token.kind.isVisible = true ∧ allowed token.kind = true)
      (onward : token.kind ≠ .eof) (later : Grafts rest row left) :
      Grafts (token :: rest) (.leaf token :: row) left
  | fault {token : Token} {rest left : List Token} {row : List Tree}
      {diagnostic : Diagnostic} (openedAt : Nat) (hidden : token.kind.isVisible = false)
      (named : State.triviaCause? token.kind = some diagnostic.cause)
      (resumes : diagnostic.recovery = resumption sourceLength rest)
      (later : Grafts rest row left) :
      Grafts (token :: rest)
        (.ofChildren .error (some diagnostic) openedAt [.leaf token] :: row) left

/-- A cause that is not about a token that the language does not have. -/
def IsGeneral (cause : Cause) : Prop :=
  cause = .syntactic ∨ ∃ problem, cause = .fixity problem

def isJoint (kind : TokenKind) : Bool :=
  kind = .layoutSep || kind = .keyword .elseWord

/-- The tokens end a block, if they are not at the end of the text already. -/
def Closes (close left : List Token) : Prop :=
  (∃ stop, close = [stop] ∧ stop.kind = .layoutEnd) ∨ close = [] ∧ AtEnd left

theorem Closes.isEnd {close left : List Token} (closes : Closes close left) :
    ∀ token ∈ close, token.kind = .layoutEnd := by
  rcases closes with ⟨stop, rfl, isEnd⟩ | ⟨rfl, -⟩
  · exact List.forall_mem_singleton.mpr isEnd
  · exact List.forall_mem_nil _

variable (sourceLength : Nat) in
/--
What productions do to the children of the open node and to the pending
tokens, at a depth and a phase.
-/
inductive Builds : (depth : Nat) → (phase : Phase) →
    List Tree × List Token → List Tree × List Token → Prop where
  | stay (depth : Nat) (phase : Phase) (sheet : List Tree × List Token) :
      Builds depth phase sheet sheet
  | trans {depth : Nat} {phase : Phase} {first second third : List Tree × List Token}
      (left : Builds depth phase first second) (right : Builds depth phase second third) :
      Builds depth phase first third
  | graft (depth : Nat) (phase : Phase) (row : List Tree) {pending left : List Token}
      {new : List Tree} (grafts : Grafts sourceLength phase.allows pending new left) :
      Builds depth phase (row, pending) (row ++ new, left)
  | skip (depth : Nat) {phase : Phase} (row : List Tree) {token : Token}
      {rest left : List Token} {skipped : List Tree} {diagnostic : Diagnostic} (openedAt : Nat)
      (skips : phase.skips = true) (visible : token.kind.isVisible = true)
      (onward : token.kind ≠ .eof) (fits : Fits diagnostic.cause token.kind)
      (grafts : Grafts sourceLength (fun _ => true) rest skipped left)
      (resumes : diagnostic.recovery = resumption sourceLength left)
      (confined : Confined (token :: forestLeaves skipped)) :
      Builds depth phase (row, token :: rest)
        (row ++ [.ofChildren .error (some diagnostic) openedAt (.leaf token :: skipped)], left)
  | report (depth : Nat) (phase : Phase) (row children : List Tree) {pending : List Token}
      {diagnostic : Diagnostic} (openedAt : Nat) (general : IsGeneral diagnostic.cause)
      (resumes : diagnostic.recovery = resumption sourceLength pending)
      (framed : children = [] ∨ ∃ encloses, phase = .item encloses)
      (plain : ∀ token ∈ forestLeaves children, token.kind.isBlockMark = false) :
      Builds depth phase (row ++ children, pending)
        (row ++ [.ofChildren .error (some diagnostic) openedAt children], pending)
  | node {depth : Nat} {phase : Phase} (row : List Tree) {pending left : List Token}
      {children : List Tree} {kind : NodeKind} (openedAt : Nat) (opens : phase.opens = true)
      (loose : isLoose kind = true)
      (body : Builds depth phase.encloses ([], pending) (children, left)) :
      Builds depth phase (row, pending)
        (row ++ [.ofChildren kind none openedAt children], left)
  | enclose {depth : Nat} (row : List Tree) {pending left : List Token} {children : List Tree}
      {kind : NodeKind} (openedAt : Nat) (construct : isConstruct kind = true)
      (body : Builds depth false ([], pending) (children, left)) :
      Builds depth true (row, pending)
        (row ++ [.ofChildren kind none openedAt children], left)
  | abandon {depth : Nat} {encloses : Bool} (row : List Tree) {pending left : List Token}
      {children : List Tree} (body : Builds depth encloses ([], pending) (children, left)) :
      Builds depth encloses (row, pending) (row ++ children, left)
  | wrap {depth : Nat} {encloses : Bool} (row : List Tree) {pending left : List Token}
      {inner children : List Tree} {kind : NodeKind} (openedAt : Nat) (loose : isLoose kind = true)
      (body : Builds depth encloses (inner, pending) (children, left)) :
      Builds depth encloses (row ++ inner, pending)
        (row ++ [.ofChildren kind none openedAt children], left)
  | nest {depth : Nat} (encloses : Bool) {first second : List Tree × List Token}
      (above : depth < maxDepth) (body : Builds (depth + 1) true first second) :
      Builds depth encloses first second
  | block {depth : Nat} {encloses : Bool} (row : List Tree) {start : Token}
      {pending left close : List Token} {children : List Tree}
      (opens : start.kind = .layoutStart) (closes : Closes close left)
      (body : Builds depth (.block encloses) (row ++ [.leaf start], pending)
        (children, close ++ left)) :
      Builds depth encloses (row, start :: pending)
        (children ++ close.map .leaf, left)
  | within {depth : Nat} {encloses : Bool} {first second : List Tree × List Token}
      (body : Builds depth (.item encloses) first second) :
      Builds depth (.block encloses) first second
  | join (depth : Nat) (row : List Tree) {pending left : List Token} {new : List Tree}
      (grafts : Grafts sourceLength isJoint pending new left)
      (joint : ((forestLeaves new).filter fun token => token.kind.isVisible).map Token.kind ∈
        joints) :
      Builds depth .links (row, pending) (row ++ new, left)
  | chain {depth : Nat} (row : List Tree) {pending left : List Token} {children : List Tree}
      (openedAt : Nat) (body : Builds depth .links ([], pending) (children, left)) :
      Builds depth .top (row, pending)
        (row ++ [.ofChildren .instanceChain none openedAt children], left)

namespace Grafts

variable {allowed : TokenKind → Bool} {pending middle left : List Token} {row more : List Tree}

theorem append (first : Grafts sourceLength allowed pending row middle)
    (second : Grafts sourceLength allowed middle more left) :
    Grafts sourceLength allowed pending (row ++ more) left := by
  induction first with
  | done => exact second
  | leaf sound onward _ ih => exact .leaf sound onward (ih second)
  | fault openedAt hidden named resumes _ ih =>
    exact .fault openedAt hidden named resumes (ih second)

theorem leaves (grafts : Grafts sourceLength allowed pending row left) :
    forestLeaves row ++ left = pending := by
  induction grafts with
  | done => rfl
  | leaf _ _ _ ih => rw [forestLeaves, Tree.leaves, List.append_assoc, ih, List.singleton_append]
  | fault _ _ _ _ _ ih =>
    rw [forestLeaves, List.append_assoc, ih]
    rfl

theorem isBlockMark (grafts : Grafts sourceLength allowed pending row left)
    (plain : ∀ kind, allowed kind = true → kind.isBlockMark = false) :
    ∀ token ∈ forestLeaves row, token.kind.isBlockMark = false := by
  have hidden {kind : TokenKind} (invisible : kind.isVisible = false) :
      kind.isBlockMark = false := by
    cases kind with
    | layoutStart | layoutSep | layoutEnd => cases invisible
    | _ => rfl
  induction grafts with
  | done => exact List.forall_mem_nil _
  | leaf sound _ _ ih =>
    refine List.forall_mem_cons.mpr ⟨?_, ih⟩
    exact sound.elim (fun trivium => hidden trivium.1) fun seen => plain _ seen.2
  | fault _ invisible _ _ _ ih => exact List.forall_mem_cons.mpr ⟨hidden invisible, ih⟩

theorem ne_eof (grafts : Grafts sourceLength allowed pending row left) :
    ∀ token ∈ forestLeaves row, token.kind ≠ .eof := by
  induction grafts with
  | done => exact List.forall_mem_nil _
  | leaf _ onward _ ih => exact List.forall_mem_cons.mpr ⟨onward, ih⟩
  | fault _ hidden _ _ _ ih => exact List.forall_mem_cons.mpr ⟨ne_eof_of_hidden hidden, ih⟩

end Grafts

theorem forestLeaves_ofChildren (kind : NodeKind) (error : Option Diagnostic) (openedAt : Nat)
    (children : List Tree) :
    forestLeaves [.ofChildren kind error openedAt children] = forestLeaves children := by
  rw [forestLeaves, Tree.ofChildren, Tree.leaves, forestLeaves, List.append_nil]

namespace Builds

variable {depth : Nat} {phase : Phase} {first second : List Tree × List Token}

theorem takes (builds : Builds sourceLength depth phase first second) :
    ∃ taken, forestLeaves second.1 = forestLeaves first.1 ++ taken ∧
      first.2 = taken ++ second.2 ∧ ∀ token ∈ taken, token.kind ≠ .eof := by
  induction builds with
  | stay => exact ⟨[], (List.append_nil _).symm, rfl, List.forall_mem_nil _⟩
  | trans _ _ left right =>
    obtain ⟨one, row, pending, onward⟩ := left
    obtain ⟨two, rowAfter, left, further⟩ := right
    refine ⟨one ++ two, ?_, ?_, List.forall_mem_append.mpr ⟨onward, further⟩⟩
    · rw [rowAfter, row, List.append_assoc]
    · rw [pending, left, List.append_assoc]
  | graft _ _ _ grafts | join _ _ grafts =>
    exact ⟨_, Tree.forestLeaves_append _ _, grafts.leaves.symm, grafts.ne_eof⟩
  | @skip _ _ _ token _ _ skipped _ _ _ _ onward _ grafts =>
    refine ⟨token :: forestLeaves skipped, ?_, ?_,
      List.forall_mem_cons.mpr ⟨onward, grafts.ne_eof⟩⟩
    · rw [Tree.forestLeaves_append, forestLeaves_ofChildren]
      rfl
    · rw [List.cons_append, grafts.leaves]
  | report =>
    refine ⟨[], ?_, rfl, List.forall_mem_nil _⟩
    rw [Tree.forestLeaves_append, forestLeaves_ofChildren, Tree.forestLeaves_append,
      List.append_nil]
  | node _ _ _ _ _ ih | enclose _ _ _ _ ih | chain _ _ _ ih =>
    obtain ⟨taken, row, pending, onward⟩ := ih
    refine ⟨taken, ?_, pending, onward⟩
    rw [Tree.forestLeaves_append, forestLeaves_ofChildren, row]
    rfl
  | abandon _ _ ih =>
    obtain ⟨taken, row, pending, onward⟩ := ih
    refine ⟨taken, ?_, pending, onward⟩
    rw [Tree.forestLeaves_append, row]
    rfl
  | wrap _ _ _ _ ih =>
    obtain ⟨taken, row, pending, onward⟩ := ih
    refine ⟨taken, ?_, pending, onward⟩
    rw [Tree.forestLeaves_append, forestLeaves_ofChildren, row, Tree.forestLeaves_append,
      List.append_assoc]
  | nest _ _ _ ih | within _ ih => exact ih
  | @block _ _ _ start _ _ close _ opens closes _ ih =>
    obtain ⟨taken, row, pending, onward⟩ := ih
    have ends : ∀ token ∈ close, token.kind ≠ .eof := by
      intro token member
      rw [closes.isEnd token member]
      rintro ⟨⟩
    refine ⟨start :: taken ++ close, ?_, ?_, ?_⟩
    · rw [Tree.forestLeaves_append, row]
      simp [forestLeaves, Tree.leaves]
    · dsimp only at pending ⊢
      rw [pending, List.append_assoc, List.cons_append]
    · rw [List.forall_mem_append, List.forall_mem_cons, opens]
      exact ⟨⟨by rintro ⟨⟩, onward⟩, ends⟩

theorem leaves (builds : Builds sourceLength depth phase first second) :
    forestLeaves second.1 ++ second.2 = forestLeaves first.1 ++ first.2 := by
  obtain ⟨taken, row, pending, -⟩ := builds.takes
  rw [row, pending, List.append_assoc]

end Builds

/-! ### Runs build rows -/

theorem filter_flatMap_tokens {lexemes : List Lexeme}
    (seen : ∀ lexeme ∈ lexemes, lexeme.token.kind.isVisible = true ∧
      ∀ token ∈ lexeme.trivia, token.kind.isVisible = false) :
    (lexemes.flatMap Lexeme.tokens).filter (fun token => token.kind.isVisible) =
      lexemes.map Lexeme.token := by
  induction lexemes with
  | nil => rfl
  | cons lexeme rest ih =>
    obtain ⟨⟨visible, hidden⟩, later⟩ := List.forall_mem_cons.mp seen
    have allHidden : lexeme.trivia.filter (fun token => token.kind.isVisible) = [] :=
      List.filter_eq_nil_iff.mpr fun token member => by
        rw [hidden token member]
        exact Bool.false_ne_true
    rw [List.flatMap_cons, List.filter_append, ih later, Lexeme.tokens, List.filter_append,
      allHidden, List.filter_singleton, visible]
    rfl

/-- The trail has drawn all tokens that are not ahead, and a node is open. -/
structure Intact (scene : Scene) (state : State) : Prop where
  opened : stack scene state ≠ []
  left : (drawn scene state).tokens = state.ahead.flatMap Lexeme.tokens
  seen : ∀ lexeme ∈ state.ahead, lexeme.token.kind.isVisible = true ∧
    ∀ token ∈ lexeme.trivia, token.kind.isVisible = false

/-- The children of the open node and the pending tokens. -/
def sheet (scene : Scene) (state : State) : List Tree × List Token :=
  ((kids scene state).reverse, state.ahead.flatMap Lexeme.tokens)

variable {scene : Scene} {state first second : State}

namespace Intact

theorem of_trail (intact : Intact scene state) (trail : second.trail = state.trail)
    (ahead : second.ahead = state.ahead) : Intact scene second where
  opened := by rw [stack_of_trail trail]; exact intact.opened
  left := by rw [drawn_of_trail trail, ahead]; exact intact.left
  seen := by rw [ahead]; exact intact.seen

theorem mark (intact : Intact scene state) {mark : Mark} (other : mark ≠ .token)
    (opened : stack scene (state.mark mark) ≠ []) : Intact scene (state.mark mark) where
  opened := opened
  left := by
    rw [drawn_mark, (step_of_ne_token other).1]
    exact intact.left
  seen := intact.seen

theorem start (intact : Intact scene state) : Intact scene (state.mark .start) :=
  intact.mark nofun (opened_start state)

theorem precede (intact : Intact scene state) : Intact scene (state.mark (.precede 0)) :=
  intact.mark nofun (opened_precede intact.opened)

theorem find_visible (intact : Intact scene state) :
    (sheet scene state).2.find? (fun token => token.kind.isVisible) =
      state.ahead.head?.map Lexeme.token := by
  rw [sheet, ← List.head?_filter, filter_flatMap_tokens intact.seen, List.head?_map]

theorem start_current (intact : Intact scene state) :
    (state.current scene.setting).span.start =
      resumption scene.setting.sourceLength (sheet scene state).2 := by
  rw [resumption, intact.find_visible, State.current, State.tokenAt]
  cases state.ahead <;> rfl

theorem atEnd (intact : Intact scene state) (ended : kindAhead scene state 0 = .eof) :
    AtEnd (sheet scene state).2 := by
  rw [AtEnd, intact.find_visible]
  rw [kindAhead, State.tokenAt] at ended
  cases found : state.ahead with
  | nil => rintro token ⟨⟩
  | cons lexeme rest =>
    rw [found] at ended
    rintro token ⟨⟩
    exact ended

end Intact

theorem sheet_start : sheet scene (state.mark .start) = ([], (sheet scene state).2) := by
  rw [sheet, kids_start]
  rfl

theorem kids_of_trail (trail : second.trail = first.trail) :
    kids scene second = kids scene first := by
  rw [kids, stack_of_trail trail, kids]

theorem sheet_of_trail (trail : second.trail = first.trail) (ahead : second.ahead = first.ahead) :
    sheet scene second = sheet scene first := by
  rw [sheet, kids_of_trail trail, ahead, sheet]

/-! ### Closing nodes -/

section Closing

variable (opened : stack scene first ≠ [])
include opened

theorem kids_finish (inside : Retains scene (first.mark .start) second) (kind : NodeKind)
    (error : Option Diagnostic) :
    ∃ openedAt, kids scene (second.mark (.finish kind error)) =
      .ofChildren kind error openedAt (kids scene second).reverse :: kids scene first := by
  obtain ⟨frame, parent, below, stacked, outer⟩ := inside.stack_inside opened
  refine ⟨frame.openedAt, ?_⟩
  rw [kids_of_stack (stack_finish kind error stacked), kids_of_stack stacked, kids_of_stack outer]

theorem sheet_finish (inside : Retains scene (first.mark .start) second) (kind : NodeKind)
    (error : Option Diagnostic) :
    ∃ openedAt, sheet scene (second.mark (.finish kind error)) =
      ((sheet scene first).1 ++ [.ofChildren kind error openedAt (sheet scene second).1],
        (sheet scene second).2) := by
  obtain ⟨openedAt, children⟩ := kids_finish opened inside kind error
  refine ⟨openedAt, ?_⟩
  rw [sheet, children, List.reverse_cons]
  rfl

theorem sheet_abandon (inside : Retains scene (first.mark .start) second) :
    sheet scene (second.mark .abandon) =
      ((sheet scene first).1 ++ (sheet scene second).1, (sheet scene second).2) := by
  obtain ⟨frame, parent, below, stacked, outer⟩ := inside.stack_inside opened
  rw [sheet, kids_of_stack (stack_abandon stacked), List.reverse_append, sheet, sheet,
    kids_of_stack stacked, kids_of_stack outer]
  rfl

theorem sheet_wrap (inside : Retains scene (first.mark (.precede 0)) second) (kind : NodeKind)
    (error : Option Diagnostic) :
    ∃ outside inner openedAt, sheet scene first = (outside ++ inner, (sheet scene first).2) ∧
      sheet scene (first.mark (.precede 0)) = (inner, (sheet scene first).2) ∧
      sheet scene (second.mark (.finish kind error)) =
        (outside ++ [.ofChildren kind error openedAt (sheet scene second).1],
          (sheet scene second).2) ∧
      inner = (sheet scene first).1.getLast?.toList := by
  obtain ⟨top, frame, below, stacked, outer⟩ := inside.stack_around opened
  refine ⟨(frame.children.drop 1).reverse, (frame.children.take 1).reverse, top.openedAt,
    ?_, ?_, ?_, ?_⟩
  · rw [← List.reverse_append, List.take_append_drop, sheet, kids_of_stack outer]
  · rw [sheet, kids_of_stack (stack_precede outer)]
    rfl
  · rw [sheet, kids_of_stack (stack_finish kind error stacked), List.reverse_cons, sheet,
      kids_of_stack stacked]
    rfl
  · rw [sheet, kids_of_stack outer, List.getLast?_reverse, List.take_one]
    cases frame.children.head? <;> rfl

end Closing

/-! ### Taking tokens -/

theorem takeTrivium_grafts (allowed : TokenKind → Bool) {rest : List Token}
    (opened : stack scene state ≠ []) (left : (drawn scene state).tokens = token :: rest)
    (hidden : token.kind.isVisible = false) (resumes : (state.current scene.setting).span.start =
      resumption scene.setting.sourceLength rest) :
    ∃ tree, kids scene (state.takeTrivium scene.setting token) = tree :: kids scene state ∧
      (drawn scene (state.takeTrivium scene.setting token)).tokens = rest ∧
      Grafts scene.setting.sourceLength allowed (token :: rest) [tree] rest := by
  cases named : State.triviaCause? token.kind with
  | none =>
    obtain ⟨children, tokens, -⟩ := kids_take opened left token
    rw [takeTrivium_of_none scene.setting state named]
    exact ⟨_, children, tokens,
      .leaf (.inl ⟨hidden, named⟩) (ne_eof_of_hidden hidden) (.done rest)⟩
  | some cause =>
    obtain ⟨diagnostic, isCause, resumes_, taken⟩ :=
      takeTrivium_of_some scene.setting state named
    have pending : (drawn scene (state.mark .start)).tokens = token :: rest := by
      rw [drawn_mark]
      exact left
    obtain ⟨children, tokens, -⟩ := kids_take (opened_start state) pending token
    obtain ⟨openedAt, closed⟩ :=
      kids_finish opened (retains_start_take token) .error _
    rw [children, kids_start] at closed
    rw [taken]
    refine ⟨_, closed, ?_, .fault openedAt hidden ?_ ?_ (.done rest)⟩
    · have other : Mark.finish .error (some diagnostic) ≠ .token := nofun
      rw [drawn_mark, (step_of_ne_token other).1]
      exact tokens
    · rw [named, isCause]
    · rw [resumes_, resumes]

theorem foldl_takeTrivium_grafts (allowed : TokenKind → Bool) {rest : List Token}
    (opened : stack scene state ≠ []) (left : (drawn scene state).tokens = trivia ++ rest)
    (hidden : ∀ token ∈ trivia, token.kind.isVisible = false)
    (resumes : (state.current scene.setting).span.start =
      resumption scene.setting.sourceLength rest) :
    ∃ junk, (kids scene (trivia.foldl (State.takeTrivium scene.setting) state)).reverse =
        (kids scene state).reverse ++ junk ∧
      (drawn scene (trivia.foldl (State.takeTrivium scene.setting) state)).tokens = rest ∧
      Grafts scene.setting.sourceLength allowed (trivia ++ rest) junk rest ∧
      junk.length = trivia.length := by
  induction trivia generalizing state with
  | nil => exact ⟨[], (List.append_nil _).symm, left, .done rest, rfl⟩
  | cons token trivia ih =>
    obtain ⟨first, later⟩ := List.forall_mem_cons.mp hidden
    obtain ⟨tree, children, tokens, grafts⟩ := takeTrivium_grafts allowed opened left first
      (resumes.trans (resumption_append_of_hidden later rest).symm)
    have same : (state.takeTrivium scene.setting token).ahead = state.ahead := by
      obtain ⟨trail, reached, taken⟩ : ∃ trail reached,
          [token].foldl (State.takeTrivium scene.setting) state =
            { state with trail, reached } := foldl_takeTrivium_eq scene.setting [token]
      rw [List.foldl_cons, List.foldl_nil] at taken
      rw [taken]
    obtain ⟨junk, row, leftover, others, length⟩ :=
      ih (retains_takeTrivium opened scene.setting token).opened tokens later
        (by rw [State.current, State.tokenAt, same]; exact resumes)
    refine ⟨tree :: junk, ?_, leftover, grafts.append others, ?_⟩
    · rw [List.foldl_cons, row, children, List.reverse_cons, List.append_assoc]
      rfl
    · rw [List.length_cons, List.length_cons, length]

theorem Intact.takeTrivia (intact : Intact scene state) (allowed : TokenKind → Bool)
    {lexeme : Lexeme} {rest : List Lexeme} (found : state.ahead = lexeme :: rest) :
    Intact scene (state.takeTrivia scene.setting) ∧
      (state.takeTrivia scene.setting).ahead = { lexeme with trivia := [] } :: rest ∧
      ∃ junk, (sheet scene (state.takeTrivia scene.setting)).1 = (sheet scene state).1 ++ junk ∧
        Grafts scene.setting.sourceLength allowed (sheet scene state).2 junk
          (sheet scene (state.takeTrivia scene.setting)).2 ∧
        junk.length = lexeme.trivia.length := by
  obtain ⟨visible, hidden⟩ := intact.seen lexeme (by rw [found]; exact List.mem_cons_self)
  have left := intact.left
  have resumes := intact.start_current
  rw [sheet] at resumes
  rw [found, List.flatMap_cons, Lexeme.tokens, List.append_assoc] at left resumes
  rw [resumption_append_of_hidden hidden] at resumes
  obtain ⟨junk, row, leftover, grafts, length⟩ :=
    foldl_takeTrivium_grafts allowed intact.opened left hidden resumes
  have trail : (state.takeTrivia scene.setting).trail =
      (lexeme.trivia.foldl (State.takeTrivium scene.setting) state).trail := by
    rw [takeTrivia_of_cons scene.setting found]
  have ahead : (state.takeTrivia scene.setting).ahead =
      { lexeme with trivia := [] } :: rest := by
    rw [takeTrivia_of_cons scene.setting found]
  refine ⟨⟨(retains_takeTrivia intact.opened scene.setting).opened, ?_, ?_⟩, ahead, junk,
    ?_, ?_, length⟩
  · rw [drawn_of_trail trail, leftover, ahead]
    rfl
  · rw [ahead]
    intro other member
    rcases List.mem_cons.mp member with rfl | later
    · exact ⟨visible, List.forall_mem_nil _⟩
    · exact intact.seen other (by rw [found]; exact List.mem_cons_of_mem _ later)
  · rw [sheet, kids_of_trail trail, row, sheet]
  · rw [sheet, sheet, found, ahead, List.flatMap_cons, Lexeme.tokens, List.append_assoc]
    exact grafts

theorem Intact.bump (intact : Intact scene state) (allowed : TokenKind → Bool)
    {lexeme : Lexeme} {rest : List Lexeme} (found : state.ahead = lexeme :: rest) :
    Intact scene (state.bump scene.setting) ∧
      ∃ junk, sheet scene (state.bump scene.setting) =
          ((sheet scene state).1 ++ junk ++ [.leaf lexeme.token], rest.flatMap Lexeme.tokens) ∧
        Grafts scene.setting.sourceLength allowed (sheet scene state).2 junk
          (lexeme.token :: rest.flatMap Lexeme.tokens) ∧
        junk.length = lexeme.trivia.length := by
  obtain ⟨bare, ahead, junk, row, grafts, length⟩ := intact.takeTrivia allowed found
  have left : (drawn scene (state.takeTrivia scene.setting)).tokens =
      lexeme.token :: rest.flatMap Lexeme.tokens := by
    rw [bare.left, ahead]
    rfl
  obtain ⟨children, tokens, -⟩ := kids_take bare.opened left lexeme.token
  have trail : (state.bump scene.setting).trail =
      ((state.takeTrivia scene.setting).take lexeme.token).trail := by
    rw [bump_of_cons scene.setting found]
  have onward : (state.bump scene.setting).ahead = rest := by
    rw [bump_of_cons scene.setting found]
  refine ⟨⟨(retains_bump intact.opened scene.setting).opened, ?_, ?_⟩, junk, ?_, ?_, length⟩
  · rw [drawn_of_trail trail, tokens, onward]
  · rw [onward]
    intro other member
    exact intact.seen other (by rw [found]; exact List.mem_cons_of_mem _ member)
  · rw [sheet, kids_of_trail trail, children, onward, List.reverse_cons, ← row]
    rfl
  · rw [sheet, sheet, ahead] at grafts
    exact grafts

theorem Intact.bump_grafts (intact : Intact scene state) {allowed : TokenKind → Bool}
    (isAllowed : allowed (kindAhead scene state 0) = true)
    (onward : kindAhead scene state 0 ≠ .eof) :
    Intact scene (state.bump scene.setting) ∧
      ∃ new, (sheet scene (state.bump scene.setting)).1 = (sheet scene state).1 ++ new ∧
        Grafts scene.setting.sourceLength allowed (sheet scene state).2 new
          (sheet scene (state.bump scene.setting)).2 := by
  obtain ⟨lexeme, rest, found, current⟩ := ahead_of_kindAhead onward
  obtain ⟨after, junk, row, grafts, -⟩ := intact.bump allowed found
  obtain ⟨visible, -⟩ := intact.seen lexeme (by rw [found]; exact List.mem_cons_self)
  rw [kindAhead, current] at isAllowed onward
  refine ⟨after, junk ++ [.leaf lexeme.token], ?_, ?_⟩
  · rw [row, List.append_assoc]
  · rw [row]
    exact grafts.append (.leaf (.inr ⟨visible, isAllowed⟩) onward (.done _))

theorem ahead_iterate_bump (setting : Setting) (state : State) (count : Nat) :
    ((State.bump setting)^[count] state).ahead = state.ahead.drop count := by
  induction count generalizing state with
  | zero => rfl
  | succ count ih =>
    rw [Function.iterate_succ_apply, ih]
    cases found : state.ahead with
    | nil => rw [bump_of_ahead_nil setting found, found, List.drop_nil, List.drop_nil]
    | cons lexeme rest => rw [bump_of_cons setting found, List.drop_succ_cons]

theorem Intact.iterate_bump (intact : Intact scene state) (allowed : TokenKind → Bool)
    (isAllowed : ∀ index < count, allowed (kindAhead scene state index) = true)
    (onward : ∀ index < count, kindAhead scene state index ≠ .eof) :
    Intact scene ((State.bump scene.setting)^[count] state) ∧
      Retains scene state ((State.bump scene.setting)^[count] state) ∧
      ∃ new, (sheet scene ((State.bump scene.setting)^[count] state)).1 =
          (sheet scene state).1 ++ new ∧
        Grafts scene.setting.sourceLength allowed (sheet scene state).2 new
          (sheet scene ((State.bump scene.setting)^[count] state)).2 := by
  induction count generalizing state with
  | zero => exact ⟨intact, .refl intact.opened, [], (List.append_nil _).symm, .done _⟩
  | succ count ih =>
    obtain ⟨middle, new, row, grafts⟩ :=
      intact.bump_grafts (isAllowed 0 (Nat.succ_pos count)) (onward 0 (Nat.succ_pos count))
    obtain ⟨after, retains, more, rowAfter, others⟩ := ih middle
      (fun index early => by
        rw [kindAhead_bump]
        exact isAllowed (index + 1) (Nat.succ_lt_succ early))
      (fun index early => by
        rw [kindAhead_bump]
        exact onward (index + 1) (Nat.succ_lt_succ early))
    rw [Function.iterate_succ_apply]
    refine ⟨after, (retains_bump intact.opened scene.setting).trans retains, new ++ more,
      ?_, grafts.append others⟩
    rw [rowAfter, row, List.append_assoc]

theorem Intact.filter_leaves (intact : Intact scene state) {allowed : TokenKind → Bool}
    {new : List Tree} (grafts : Grafts scene.setting.sourceLength allowed (sheet scene state).2 new
      (sheet scene ((State.bump scene.setting)^[count] state)).2) :
    (forestLeaves new).filter (fun token => token.kind.isVisible) =
      (state.ahead.take count).map Lexeme.token := by
  have leaves := grafts.leaves
  rw [sheet, sheet, ahead_iterate_bump] at leaves
  rw [← List.take_append_drop count state.ahead, List.flatMap_append,
    List.take_append_drop] at leaves
  rw [List.append_cancel_right leaves]
  exact filter_flatMap_tokens fun lexeme member => intact.seen lexeme (List.mem_of_mem_take member)

/--
Tokens skipped into a node that is opened in front of a token without trivia:
the first of them is that token.
-/
theorem Intact.skips (intact : Intact scene state)
    (bare : ∀ lexeme rest, state.ahead = lexeme :: rest → lexeme.trivia = [])
    (onward : ∀ index ≤ count, kindAhead scene state index ≠ .eof)
    (confined : Confined ((state.ahead.take (count + 1)).map Lexeme.token)) :
    Intact scene ((State.bump scene.setting)^[count + 1] (state.mark .start)) ∧
      Retains scene (state.mark .start)
        ((State.bump scene.setting)^[count + 1] (state.mark .start)) ∧
      ∃ rest skipped, (state.current scene.setting).kind.isVisible = true ∧
        (sheet scene state).2 = state.current scene.setting :: rest ∧
        (sheet scene ((State.bump scene.setting)^[count + 1] (state.mark .start))).1 =
          .leaf (state.current scene.setting) :: skipped ∧
        Grafts scene.setting.sourceLength (fun _ => true) rest skipped
          (sheet scene ((State.bump scene.setting)^[count + 1] (state.mark .start))).2 ∧
        Confined (state.current scene.setting :: forestLeaves skipped) := by
  obtain ⟨lexeme, rest, found, current⟩ := ahead_of_kindAhead (onward 0 (Nat.zero_le count))
  obtain ⟨visible, -⟩ := intact.seen lexeme (by rw [found]; exact List.mem_cons_self)
  obtain ⟨after, junk, row, -, length⟩ := intact.start.bump (fun _ => true) found
  have noTrivia := bare lexeme rest found
  rw [noTrivia, List.length_nil, List.length_eq_zero_iff] at length
  rw [length, sheet_start] at row
  obtain ⟨final, retains, skipped, rowFinal, grafts⟩ :=
    after.iterate_bump (fun _ => true) (fun _ _ => rfl) fun index early => by
      rw [kindAhead_bump]
      exact onward (index + 1) early
  have ahead : ((state.mark .start).bump scene.setting).ahead = rest := by
    have same : (state.mark .start).ahead = lexeme :: rest := found
    rw [bump_of_cons scene.setting same]
  have taken := after.filter_leaves grafts
  rw [Function.iterate_succ_apply, State.current, current]
  refine ⟨final, (retains_bump intact.start.opened scene.setting).trans retains,
    rest.flatMap Lexeme.tokens, skipped, visible, ?_, ?_, ?_, confined_of_filter ?_⟩
  · rw [sheet, found, List.flatMap_cons, Lexeme.tokens, noTrivia]
    rfl
  · rw [rowFinal, row]
    rfl
  · rw [row] at grafts
    exact grafts
  · rw [List.filter_cons, if_pos visible, taken, ahead]
    rw [found] at confined
    exact confined

/-! ### Recorded and drawn -/

theorem triviaCause?_ne_syntactic (kind : TokenKind) :
    State.triviaCause? kind ≠ some .syntactic := by
  cases kind <;> rintro ⟨⟩

theorem Draws.takeTrivium {pending : List Token} (draws : Draws scene state (token :: pending)) :
    Draws scene (state.takeTrivium scene.setting token) pending := by
  cases named : State.triviaCause? token.kind with
  | none =>
    rw [takeTrivium_of_none scene.setting state named]
    exact draws.take
  | some cause =>
    obtain ⟨diagnostic, isCause, -, taken⟩ := takeTrivium_of_some scene.setting state named
    obtain ⟨frame, parent, below, stacked, -⟩ :=
      (retains_start_take token).stack_inside draws.opened
    rw [taken]
    refine draws.start.take.finish .error _ stacked ?_
    rintro _ ⟨⟩ isSyntactic
    rw [← isCause, isSyntactic] at named
    exact absurd named (triviaCause?_ne_syntactic _)

theorem Draws.foldl_takeTrivium {pending : List Token}
    (draws : Draws scene state (trivia ++ pending)) :
    Draws scene (trivia.foldl (State.takeTrivium scene.setting) state) pending := by
  induction trivia generalizing state with
  | nil => exact draws
  | cons token rest ih => exact ih draws.takeTrivium

/-- What is recorded stands for what is drawn, up to the tokens ahead. -/
def Synchronous (scene : Scene) (state : State) : Prop :=
  Draws scene state (state.ahead.flatMap Lexeme.tokens)

namespace Synchronous

theorem of_trail (draws : Synchronous scene first) (trail : second.trail = first.trail)
    (ahead : second.ahead = first.ahead) (reached : second.reached = first.reached)
    (report : second.lastReport = first.lastReport) : Synchronous scene second := by
  rw [Synchronous, ahead]
  exact Draws.of_trail draws trail reached report

theorem takeTrivia (draws : Synchronous scene state) :
    Synchronous scene (state.takeTrivia scene.setting) := by
  cases found : state.ahead with
  | nil =>
    rw [State.takeTrivia, found]
    exact draws
  | cons lexeme rest =>
    rw [Synchronous, found, List.flatMap_cons, Lexeme.tokens, List.append_assoc] at draws
    rw [takeTrivia_of_cons _ found]
    exact draws.foldl_takeTrivium.of_trail rfl rfl rfl

theorem bump (draws : Synchronous scene state) : Synchronous scene (state.bump scene.setting) := by
  cases found : state.ahead with
  | nil =>
    rw [bump_of_ahead_nil _ found]
    exact draws
  | cons lexeme rest =>
    have bare := draws.takeTrivia
    have ahead : (state.takeTrivia scene.setting).ahead =
        { lexeme with trivia := [] } :: rest := by
      rw [takeTrivia_of_cons _ found]
    rw [Synchronous, ahead] at bare
    rw [bump_of_cons _ found]
    exact (Draws.take bare).of_trail rfl rfl rfl

theorem iterate_bump (draws : Synchronous scene state) (count : Nat) :
    Synchronous scene ((State.bump scene.setting)^[count] state) := by
  induction count generalizing state with
  | zero => exact draws
  | succ count ih => exact ih draws.bump

theorem start (draws : Synchronous scene state) : Synchronous scene (state.mark .start) :=
  Draws.start draws

theorem finish (draws : Synchronous scene second) (opened : stack scene first ≠ [])
    (inside : Retains scene (first.mark .start) second) (kind : NodeKind)
    (error : Option Diagnostic) (filled : ∀ diagnostic ∈ error, diagnostic.cause = .syntactic →
      ∃ token ∈ forestLeaves (kids scene second).reverse, token.kind.isVisible = true) :
    Synchronous scene (second.mark (.finish kind error)) := by
  obtain ⟨frame, parent, below, stacked, -⟩ := inside.stack_inside opened
  exact Draws.finish draws kind error stacked filled

theorem wrap (draws : Synchronous scene second) (opened : stack scene first ≠ [])
    (inside : Retains scene (first.mark (.precede 0)) second) (kind : NodeKind)
    (error : Option Diagnostic) (other : ∀ diagnostic ∈ error, diagnostic.cause ≠ .syntactic) :
    Synchronous scene (second.mark (.finish kind error)) := by
  obtain ⟨top, frame, below, stacked, outer⟩ := inside.stack_around opened
  exact Draws.finish draws kind error stacked fun diagnostic isError isSyntactic =>
    absurd isSyntactic (other diagnostic isError)

theorem abandon (draws : Synchronous scene second) (opened : stack scene first ≠ [])
    (inside : Retains scene (first.mark .start) second) :
    Synchronous scene (second.mark .abandon) := by
  obtain ⟨frame, parent, below, stacked, -⟩ := inside.stack_inside opened
  exact Draws.abandon draws stacked

theorem precede (draws : Synchronous scene state) (finished : Finished state) :
    Synchronous scene (state.mark (.precede 0)) :=
  Draws.precede draws finished

theorem report (draws : Synchronous scene state) (setting : Setting) (expected : List TokenKind) :
    Synchronous scene (state.report setting .syntactic expected) := by
  have ahead : (state.report setting .syntactic expected).ahead = state.ahead := by
    obtain ⟨_, _, reported⟩ := report_eq setting state .syntactic expected
    rw [reported]
  rw [Synchronous, ahead]
  exact Draws.report draws setting expected

end Synchronous

/-! ### Steps of productions -/

theorem Builds.of_spelling {depth : Nat} {phase : Phase} {first second : List Tree × List Token}
    (builds : Builds sourceLength depth phase first second) (spells : phase = .spelling)
    (encloses : Bool) :
    Builds sourceLength depth encloses first second ∧
      ((∀ token ∈ forestLeaves first.1, token.kind.isBlockMark = false) →
        ∀ token ∈ forestLeaves second.1, token.kind.isBlockMark = false) := by
  induction builds with
  | stay depth _ sheet => exact ⟨.stay depth encloses sheet, id⟩
  | trans _ _ left right =>
    exact ⟨(left spells).1.trans (right spells).1, (right spells).2 ∘ (left spells).2⟩
  | graft depth _ row grafts =>
    subst spells
    refine ⟨.graft depth encloses row grafts, fun plain => ?_⟩
    rw [Tree.forestLeaves_append]
    refine List.forall_mem_append.mpr ⟨plain, grafts.isBlockMark fun kind proper => ?_⟩
    cases kind with
    | layoutStart | layoutSep | layoutEnd => cases proper
    | _ => rfl
  | report depth _ row children openedAt general resumes _ plain =>
    refine ⟨.report depth encloses row children openedAt general resumes
      (.inr ⟨encloses, rfl⟩) plain, fun both => ?_⟩
    rw [Tree.forestLeaves_append, forestLeaves_ofChildren, ← Tree.forestLeaves_append]
    exact both
  | skip _ _ _ skips =>
    subst spells
    cases skips
  | node _ _ opens =>
    subst spells
    cases opens
  | enclose | abandon | wrap | nest | block | within | join | chain => cases spells

/-- The second state goes on from the first as productions do. -/
structure Constructs (scene : Scene) (phase : Phase) (before after : State) : Prop where
  intact : Intact scene after
  retains : Retains scene before after
  draws : Synchronous scene before → Synchronous scene after
  depth : after.depth = before.depth
  builds : Builds scene.setting.sourceLength before.depth phase (sheet scene before)
    (sheet scene after)

namespace Constructs

variable {phase : Phase} {encloses : Bool} {third : State} {kind : NodeKind}

theorem trans (left : Constructs scene phase first second)
    (right : Constructs scene phase second third) : Constructs scene phase first third where
  intact := right.intact
  retains := left.retains.trans right.retains
  draws := right.draws ∘ left.draws
  depth := right.depth.trans left.depth
  builds := left.builds.trans (left.depth ▸ right.builds)

theorem of_trail (intact : Intact scene first) (trail : second.trail = first.trail)
    (ahead : second.ahead = first.ahead) (depth : second.depth = first.depth)
    (reached : second.reached = first.reached) (report : second.lastReport = first.lastReport) :
    Constructs scene phase first second where
  intact := intact.of_trail trail ahead
  retains := retains_of_trail intact.opened trail
  draws draws := draws.of_trail trail ahead reached report
  depth := depth
  builds := by
    rw [sheet_of_trail trail ahead]
    exact .stay first.depth phase _

theorem takeTrivia (intact : Intact scene state) (phase : Phase) :
    Constructs scene phase state (state.takeTrivia scene.setting) := by
  cases found : state.ahead with
  | nil =>
    rw [State.takeTrivia, found]
    exact .of_trail intact rfl rfl rfl rfl rfl
  | cons lexeme rest =>
    obtain ⟨bare, -, junk, row, grafts, -⟩ := intact.takeTrivia phase.allows found
    refine ⟨bare, retains_takeTrivia intact.opened scene.setting, .takeTrivia, ?_, ?_⟩
    · obtain ⟨_, _, _, taken⟩ := takeTrivia_eq scene.setting state
      rw [taken]
    · have builds := Builds.graft state.depth phase (sheet scene state).1 grafts
      rw [← row] at builds
      exact builds

theorem depth_bump (setting : Setting) (state : State) :
    (state.bump setting).depth = state.depth := by
  obtain ⟨_, _, _, _, _, taken⟩ := bump_eq setting state
  rw [taken]

theorem bump (intact : Intact scene state)
    (allowed : phase.allows (state.current scene.setting).kind = true) :
    Constructs scene phase state (state.bump scene.setting) := by
  obtain ⟨after, new, row, grafts⟩ :=
    intact.bump_grafts allowed (Phase.ne_eof_of_allows allowed)
  refine ⟨after, retains_bump intact.opened scene.setting, .bump, depth_bump _ state, ?_⟩
  have builds := Builds.graft state.depth phase (sheet scene state).1 grafts
  rw [← row] at builds
  exact builds

theorem report (intact : Intact scene state) (expected : List TokenKind) :
    Constructs scene phase state (state.report scene.setting .syntactic expected) := by
  have inside : Retains scene (state.mark .start) (state.mark .start) :=
    .refl (opened_start state)
  have draws (draws : Synchronous scene state) :
    Synchronous scene (state.report scene.setting .syntactic expected) := draws.report _ _
  revert draws
  rw [State.report]
  split
  · exact fun _ => .of_trail intact rfl rfl rfl rfl rfl
  · generalize isDiagnostic : state.diagnose scene.setting .syntactic expected = diagnostic
    obtain ⟨openedAt, row⟩ := sheet_finish intact.opened inside .error (some diagnostic)
    have finished := inside.finish intact.opened .error (some diagnostic)
    have marked : Intact scene ((state.mark .start).mark (.finish .error (some diagnostic))) :=
      intact.start.mark (by rintro ⟨⟩) finished.opened
    have general : IsGeneral diagnostic.cause := by
      rw [← isDiagnostic]
      exact .inl rfl
    have resumes : diagnostic.recovery =
        resumption scene.setting.sourceLength (sheet scene state).2 := by
      rw [← isDiagnostic]
      exact intact.start_current
    have builds := Builds.report state.depth phase (sheet scene state).1 [] openedAt
      general resumes (.inl rfl) (List.forall_mem_nil _)
    rw [List.append_nil] at builds
    refine fun draws => ⟨marked.of_trail rfl rfl, finished.of_trail rfl, draws, rfl, ?_⟩
    rw [sheet_start] at row
    exact row ▸ builds

theorem skip (intact : Intact scene state) {cause : Cause} (expected : List TokenKind)
    (skips : phase.skips = true) (fits : Fits cause (kindAhead scene state 0))
    (onward : ∀ index ≤ count, kindAhead scene state index ≠ .eof)
    (confined : Confined ((state.ahead.take (count + 1)).map Lexeme.token)) :
    Constructs scene phase state
      (skipOver scene.setting state cause expected (count + 1)) := by
  have trivia := Constructs.takeTrivia intact phase
  have depth : (skipOver scene.setting state cause expected (count + 1)).depth =
      (state.takeTrivia scene.setting).depth := by
    obtain ⟨_, _, _, _, _, skipped⟩ := skipOver_eq scene.setting state cause expected (count + 1)
    rw [skipped, trivia.depth]
  refine trivia.trans ?_
  rw [← kindAhead_takeTrivia] at fits
  have further : ∀ index ≤ count,
      kindAhead scene (state.takeTrivia scene.setting) index ≠ .eof := by
    intro index within
    rw [kindAhead_takeTrivia]
    exact onward index within
  have sameAhead : ((state.takeTrivia scene.setting).ahead.take (count + 1)).map Lexeme.token =
      (state.ahead.take (count + 1)).map Lexeme.token := by
    cases found : state.ahead with
    | nil =>
      rw [State.takeTrivia, found]
      rw [found]
    | cons lexeme rest =>
      rw [takeTrivia_of_cons _ found]
      rfl
  rw [← sameAhead] at confined
  obtain ⟨after, retains, rest, skipped, visible, pending, row, grafts, keeps⟩ :=
    trivia.intact.skips (fun _ _ => bare_takeTrivia) further confined
  have synchronous (draws : Synchronous scene (state.takeTrivia scene.setting)) :=
    draws.start.iterate_bump (count + 1)
  rw [skipOver] at depth ⊢
  generalize _^[count + 1] _ = final at *
  generalize isDiagnostic : State.resume scene.setting final
    _ = diagnostic at depth ⊢
  have misfits : Fits diagnostic.cause
      ((state.takeTrivia scene.setting).current scene.setting).kind := by
    rw [← isDiagnostic]
    exact fits
  have resumes : diagnostic.recovery =
      resumption scene.setting.sourceLength (sheet scene final).2 := by
    rw [← isDiagnostic]
    exact after.start_current
  obtain ⟨openedAt, closed⟩ :=
    sheet_finish trivia.intact.opened retains .error _
  have finished := retains.finish trivia.intact.opened .error (some diagnostic)
  have filled : ∃ token ∈ forestLeaves (kids scene final).reverse, token.kind.isVisible = true :=
    ⟨_, by rw [show (kids scene final).reverse = _ from row]; exact List.mem_cons_self, visible⟩
  refine ⟨after.mark (by rintro ⟨⟩) finished.opened, finished, fun draws =>
    (synchronous draws).finish trivia.intact.opened retains .error _ fun _ _ _ => filled, depth, ?_⟩
  have builds := Builds.skip (state.takeTrivia scene.setting).depth
    (sheet scene (state.takeTrivia scene.setting)).1 openedAt skips visible
    (further 0 (Nat.zero_le count)) misfits grafts resumes keeps
  rw [closed, row]
  rw [← pending] at builds
  exact builds

theorem finish (intact : Intact scene first) {inner : Phase}
    (body : Constructs scene inner (first.mark .start) second)
    (builds : ∀ (row : List Tree) (pending left : List Token) (children : List Tree)
      (openedAt : Nat),
      Builds scene.setting.sourceLength first.depth inner ([], pending) (children, left) →
        Builds scene.setting.sourceLength first.depth phase (row, pending)
          (row ++ [.ofChildren kind none openedAt children], left)) :
    Constructs scene phase first (second.mark (.finish kind none)) := by
  obtain ⟨openedAt, row⟩ := sheet_finish intact.opened body.retains kind none
  have finished := body.retains.finish intact.opened kind none
  have inside := body.builds
  rw [sheet_start] at inside
  refine ⟨body.intact.mark nofun finished.opened, finished,
    fun draws => (body.draws draws.start).finish intact.opened body.retains kind none
      (by rintro _ ⟨⟩), body.depth, ?_⟩
  rw [row]
  exact builds _ _ _ _ openedAt inside

theorem abandon (intact : Intact scene first)
    (body : Constructs scene encloses (first.mark .start) second) :
    Constructs scene encloses first (second.mark .abandon) := by
  have abandoned := body.retains.abandon intact.opened
  have builds := body.builds
  rw [sheet_start] at builds
  refine ⟨body.intact.mark nofun abandoned.opened, abandoned,
    fun draws => (body.draws draws.start).abandon intact.opened body.retains, body.depth, ?_⟩
  rw [sheet_abandon intact.opened body.retains]
  exact .abandon (sheet scene first).1 builds

theorem wrap (intact : Intact scene first) (finished : Finished first) (loose : isLoose kind = true)
    (body : Constructs scene encloses (first.mark (.precede 0)) second) :
    Constructs scene encloses first (second.mark (.finish kind none)) := by
  obtain ⟨row, inner, openedAt, split, preceded, closed, -⟩ :=
    sheet_wrap intact.opened body.retains kind none
  have wrapped := (body.retains.wrap intact.opened kind none).1
  have builds := body.builds
  rw [preceded] at builds
  refine ⟨body.intact.mark nofun wrapped.opened, wrapped,
    fun draws => (body.draws (draws.precede finished)).wrap intact.opened body.retains kind none
      (by rintro _ ⟨⟩), body.depth, ?_⟩
  rw [closed, split]
  exact .wrap row openedAt loose builds

theorem blame (intact : Intact scene first) (problem : FixityFault) (found : Found)
    (body : Constructs scene .spelling (first.mark .start) second) :
    Constructs scene encloses first
      ((second.mark (.finish .operator none)).blame scene.setting (.fixity problem) found) := by
  have spelled := body.builds
  rw [sheet_start] at spelled
  obtain ⟨-, plain⟩ := spelled.of_spelling rfl encloses
  obtain ⟨operatorAt, operator⟩ := sheet_finish intact.opened body.retains .operator none
  have node : Constructs scene encloses first (second.mark (.finish .operator none)) :=
    .finish intact body fun row _ _ _ openedAt builds =>
      .node row openedAt rfl rfl (builds.of_spelling rfl encloses).1
  have isFinished : Finished (second.mark (.finish .operator none)) :=
    (finished_mark_iff _).mpr rfl
  refine node.trans ?_
  generalize second.mark _ = state at node operator isFinished ⊢
  have inside : Retains scene (state.mark (.precede 0)) (state.mark (.precede 0)) :=
    .refl node.intact.precede.opened
  rw [State.blame]
  generalize isDiagnostic : Diagnostic.mk _ _ _ _ _ = diagnostic
  have general : IsGeneral diagnostic.cause := by
    rw [← isDiagnostic]
    exact .inr ⟨problem, rfl⟩
  have resumes : diagnostic.recovery =
      resumption scene.setting.sourceLength (sheet scene state).2 := by
    rw [← isDiagnostic]
    exact node.intact.start_current
  obtain ⟨row, inner, openedAt, split, preceded, closed, last⟩ :=
    sheet_wrap node.intact.opened inside .error _
  have wrapped := (inside.wrap node.intact.opened .error (some diagnostic)).1
  refine ⟨node.intact.precede.mark nofun wrapped.opened, wrapped,
    fun draws => (draws.precede isFinished).wrap node.intact.opened inside .error _
      (by rintro _ ⟨⟩; rw [← isDiagnostic]; rintro ⟨⟩), rfl, ?_⟩
  rw [closed, preceded, split]
  refine .report state.depth encloses row inner openedAt general resumes (.inr ⟨encloses, rfl⟩) ?_
  rw [last, operator, List.getLast?_concat, Option.toList_some, forestLeaves_ofChildren]
  exact plain (List.forall_mem_nil _)

theorem nest (intact : Intact scene first) (above : first.depth < maxDepth)
    (body : Constructs scene true { first with depth := first.depth + 1 } second) :
    Constructs scene encloses first { second with depth := second.depth - 1 } where
  intact := body.intact.of_trail rfl rfl
  retains :=
    have deeper : Retains scene first { first with depth := first.depth + 1 } :=
      retains_of_trail intact.opened rfl
    (deeper.trans body.retains).of_trail rfl
  draws draws := (body.draws (draws.of_trail rfl rfl rfl rfl)).of_trail rfl rfl rfl rfl
  depth := by
    rw [body.depth, Nat.add_sub_cancel]
  builds := .nest encloses above body.builds

theorem block (intact : Intact scene first) (opens : kindAhead scene first 0 = .layoutStart)
    (body : Constructs scene (.block encloses) (first.bump scene.setting) second)
    (after : Constructs scene .top second third) {junk : List Tree} {close : List Token}
    (grafts : Grafts scene.setting.sourceLength (Phase.block encloses).allows
      (sheet scene second).2 junk (close ++ (sheet scene third).2))
    (row : (sheet scene third).1 = (sheet scene second).1 ++ junk ++ close.map .leaf)
    (closes : Closes close (sheet scene third).2) : Constructs scene encloses first third := by
  have onward : kindAhead scene first 0 ≠ .eof := by
    rw [opens]
    rintro ⟨⟩
  obtain ⟨lexeme, rest, found, current⟩ := ahead_of_kindAhead onward
  obtain ⟨-, before, opened, front, -⟩ := intact.bump (Phase.item encloses).allows found
  have isStart : lexeme.token.kind = .layoutStart := by
    rw [kindAhead, current] at opens
    exact opens
  refine ⟨after.intact, (retains_bump intact.opened scene.setting).trans
    (body.retains.trans after.retains), fun draws => after.draws (body.draws draws.bump), ?_, ?_⟩
  · rw [after.depth, body.depth, depth_bump]
  · have inside := body.builds.trans (.graft _ _ (sheet scene second).1 grafts)
    rw [depth_bump, opened] at inside
    have whole := (Builds.graft first.depth encloses _ front).trans (.block _ isStart closes inside)
    rw [← row] at whole
    exact whole

theorem join (intact : Intact scene state) {kinds : List TokenKind} (joint : kinds ∈ joints)
    (seen : (state.ahead.take kinds.length).map (fun lexeme => lexeme.token.kind) = kinds) :
    Constructs scene .links state ((State.bump scene.setting)^[kinds.length] state) := by
  have allowed : ∀ kinds ∈ joints, ∀ kind ∈ kinds, isJoint kind = true ∧ kind ≠ .eof := by
    decide
  have each : ∀ index < kinds.length, kindAhead scene state index ∈ kinds := by
    intro index bound
    have length := congrArg List.length seen
    rw [List.length_map, List.length_take] at length
    have early : index < state.ahead.length := by omega
    have member := List.mem_map_of_mem (f := fun lexeme : Lexeme => lexeme.token.kind)
      (List.mem_take_iff_getElem.mpr ⟨index, by omega, rfl⟩ :
        state.ahead[index] ∈ state.ahead.take kinds.length)
    rw [seen] at member
    rw [kindAhead, State.tokenAt, List.getElem?_eq_getElem early]
    exact member
  obtain ⟨after, retains, new, row, grafts⟩ := intact.iterate_bump isJoint
    (fun index bound => (allowed kinds joint _ (each index bound)).1)
    fun index bound => (allowed kinds joint _ (each index bound)).2
  refine ⟨after, retains, fun draws => draws.iterate_bump _, ?_, ?_⟩
  · obtain ⟨_, _, _, _, _, taken⟩ := iterate_bump_eq scene.setting kinds.length state
    rw [taken]
  · have builds := Builds.join state.depth (sheet scene state).1 grafts (by
      rw [intact.filter_leaves grafts, List.map_map]
      exact seen.symm ▸ joint)
    rw [← row] at builds
    exact builds

end Constructs

theorem Proceeds.constructs {asks : Bool} {phase : Phase} {before after : State}
    (proceeds : Proceeds scene.setting asks phase before after) (intact : Intact scene before)
    (ample : before.ahead.length < scene.setting.rounds) : Constructs scene phase before after := by
  have entered (state : State) (ample : state.ahead.length < scene.setting.rounds) :
      ((state.takeTrivia scene.setting).mark .start).ahead.length < scene.setting.rounds :=
    Nat.lt_of_le_of_lt (Consumes.takeTrivia scene.setting state).fewer ample
  have bumped (state : State) (intact : Intact scene state) :
      Intact scene (state.bump scene.setting) := by
    cases found : state.ahead with
    | nil =>
      rw [bump_of_ahead_nil _ found]
      exact intact
    | cons lexeme rest => exact (intact.bump (fun _ => true) found).1
  induction proceeds with
  | stay | steer | ask => exact .of_trail intact rfl rfl rfl rfl rfl
  | trans first _ ihLeft ihRight =>
    have left := ihLeft intact ample
    exact left.trans (ihRight left.intact (Nat.lt_of_le_of_lt first.consumes.fewer ample))
  | bump allowed => exact .bump intact allowed
  | report _ _ expected => exact .report intact expected
  | skip expected skips fits onward confined =>
    exact .skip intact expected skips fits onward confined
  | @node phase _ _ _ opens loose _ ih =>
    have trivia := Constructs.takeTrivia intact phase
    exact trivia.trans (.finish trivia.intact (ih trivia.intact.start (entered _ ample))
      fun row _ _ _ openedAt => .node row openedAt opens loose)
  | blame encloses problem found _ ih =>
    have trivia := Constructs.takeTrivia intact encloses
    exact trivia.trans (.blame trivia.intact problem found
      (ih trivia.intact.start (entered _ ample)))
  | enclose construct _ ih =>
    have trivia := Constructs.takeTrivia intact true
    exact trivia.trans (.finish trivia.intact (ih trivia.intact.start (entered _ ample))
      fun row _ _ _ openedAt => .enclose row openedAt construct)
  | @abandon encloses _ _ _ ih =>
    have trivia := Constructs.takeTrivia intact encloses
    exact trivia.trans (.abandon trivia.intact (ih trivia.intact.start (entered _ ample)))
  | wrap finished loose _ ih => exact .wrap intact finished loose (ih intact.precede ample)
  | nest _ above _ ih => exact .nest intact above (ih (intact.of_trail rfl rfl) ample)
  | @block encloses state inner opens _ closes ih =>
    have body := ih (bumped state intact) (Nat.lt_of_le_of_lt (Consumes.bump _ state).fewer ample)
    have stops : kindAhead scene inner 0 = .layoutEnd := closes
    have allowed : Phase.top.allows (inner.current scene.setting).kind = true := by
      rw [closes]
      rfl
    obtain ⟨lexeme, rest, found, current⟩ :=
      ahead_of_kindAhead (Phase.ne_eof_of_allows allowed)
    obtain ⟨-, junk, row, grafts, -⟩ := body.intact.bump (Phase.block encloses).allows found
    have isStop : lexeme.token.kind = .layoutEnd := by
      rw [kindAhead, current] at stops
      exact stops
    have behind : Grafts scene.setting.sourceLength (Phase.block encloses).allows
        (sheet scene inner).2 junk
        ([lexeme.token] ++ (sheet scene (inner.bump scene.setting)).2) := by
      rw [row]
      exact grafts
    refine .block intact opens body (.bump body.intact allowed) behind ?_
      (.inl ⟨lexeme.token, rfl, isStop⟩)
    rw [row]
    rfl
  | @unclosed encloses state inner opens _ ends ih =>
    have body := ih (bumped state intact) (Nat.lt_of_le_of_lt (Consumes.bump _ state).fewer ample)
    have ended := ends.resolve_right (Nat.not_le_of_lt ample)
    have behind : Grafts scene.setting.sourceLength (Phase.block encloses).allows
        (sheet scene inner).2 [] ([] ++ (sheet scene inner).2) := .done _
    refine .block intact opens body (.of_trail body.intact rfl rfl rfl rfl rfl) behind ?_
      (.inr ⟨rfl, body.intact.atEnd ended⟩)
    simp
  | within _ ih =>
    obtain ⟨after, retains, draws, depth, builds⟩ := ih intact ample
    exact ⟨after, retains, draws, depth, .within builds⟩
  | join joint seen => exact .join intact joint seen
  | chain _ ih =>
    have trivia := Constructs.takeTrivia intact .top
    exact trivia.trans (.finish trivia.intact (ih trivia.intact.start (entered _ ample))
      fun row _ _ _ openedAt => .chain row openedAt)

end Offside.Grammar
