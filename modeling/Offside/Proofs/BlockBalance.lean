import Offside.Proofs.LayoutStack
import Offside.Proofs.Places

/-!
# Blocks in the output of the layout resolver

The resolver has as many blocks on its stack as it has announced and not yet
ended.  What it puts in front of a token first opens at most one block and
then only closes some, so along the output the number of open blocks never
falls below that of the stack that the token leaves.  At the end of the text
every block is closed.

A bracket keeps what lies under it on the stack until its partner comes.
Between the two the output therefore never falls below the number of blocks
around the bracket, and comes back to it.
-/

namespace Offside.Layout

def blocksIn (stack : Stack) : Nat :=
  stack.countP Frame.isBlock

/-! ### Marks that open and close blocks -/

/--
The marks lead from `before` open blocks to `after`, and on the way never
below `floor`.
-/
structure Leads (floor before after : Nat) (marks : List TokenKind) : Prop where
  total : openBlocks marks = (after : Int) - before
  above : ∀ front, front <+: marks → (floor : Int) ≤ before + openBlocks front

/-- Blocks are ended only after they have been started, and all of them are ended. -/
structure BlocksNest (marks : List TokenKind) : Prop where
  ends : ∀ front, front <+: marks → front.count .layoutEnd ≤ front.count .layoutStart
  all : marks.count .layoutStart = marks.count .layoutEnd

namespace Leads

variable {floor lower before middle after : Nat} {marks more : List TokenKind}

theorem floor_le (leads : Leads floor before after marks) : floor ≤ before := by
  have start := leads.above [] List.nil_prefix
  rw [openBlocks_nil] at start
  omega

theorem nil (enough : floor ≤ before) : Leads floor before before [] where
  total := by
    rw [openBlocks_nil]
    omega
  above front isPrefix := by
    rw [List.prefix_nil.mp isPrefix, openBlocks_nil]
    omega

theorem append (first : Leads floor before middle marks) (second : Leads floor middle after more) :
    Leads floor before after (marks ++ more) where
  total := by
    rw [openBlocks_append, first.total, second.total]
    omega
  above front isPrefix := by
    rcases List.prefix_or_prefix_of_prefix isPrefix (List.prefix_append marks more) with
      early | ⟨rest, rfl⟩
    · exact first.above front early
    · have reached := second.above rest ((List.prefix_append_right_inj marks).mp isPrefix)
      rw [openBlocks_append, first.total]
      omega

theorem mono (leads : Leads floor before after marks) (le : lower ≤ floor) :
    Leads lower before after marks where
  total := leads.total
  above front isPrefix := by
    have reached := leads.above front isPrefix
    omega

theorem single {mark : TokenKind} (change : openBlocks [mark] = (after : Int) - before)
    (enough : floor ≤ before) (still : floor ≤ after) : Leads floor before after [mark] where
  total := change
  above front isPrefix := by
    rcases List.prefix_cons_iff.mp isPrefix with rfl | ⟨rest, rfl, isNil⟩
    · rw [openBlocks_nil]
      omega
    · rw [List.prefix_nil.mp isNil]
      omega

theorem start (enough : floor ≤ before) : Leads floor before (before + 1) [.layoutStart] := by
  refine single ?_ enough (Nat.le_succ_of_le enough)
  rw [show openBlocks [.layoutStart] = 1 from rfl]
  omega

theorem stop (enough : floor ≤ before) : Leads floor (before + 1) before [.layoutEnd] := by
  refine single ?_ (Nat.le_succ_of_le enough) enough
  rw [show openBlocks [.layoutEnd] = -1 from rfl]
  omega

theorem other {mark : TokenKind} (noStart : mark ≠ .layoutStart)
    (noEnd : mark ≠ .layoutEnd) (enough : floor ≤ before) : Leads floor before before [mark] := by
  refine single ?_ enough enough
  simp [openBlocks, noStart, noEnd]

theorem blocksNest (leads : Leads before before before marks) : BlocksNest marks where
  ends front isPrefix := by
    have reached := leads.above front isPrefix
    rw [openBlocks] at reached
    omega
  all := by
    have total := leads.total
    rw [openBlocks] at total
    omega

end Leads

@[simp]
theorem blocksIn_append (above below : Stack) :
    blocksIn (above ++ below) = blocksIn above + blocksIn below :=
  List.countP_append

@[simp]
theorem blocksIn_block (kind : Block) (column : Nat) (below : Stack) :
    blocksIn (.block kind column :: below) = blocksIn below + 1 :=
  List.countP_cons_of_pos rfl

theorem blocksIn_of_isContext {frames : Stack}
    (light : ∀ frame ∈ frames, frame.isContext = false) : blocksIn frames = 0 := by
  refine List.countP_eq_zero.mpr fun frame member isBlock => ?_
  have notContext := light frame member
  cases frame <;> simp [Frame.isBlock, Frame.isContext] at isBlock notContext

theorem blocksIn_le_of_isSuffix {below stack : Stack} (kept : below <:+ stack) :
    blocksIn below ≤ blocksIn stack :=
  kept.sublist.countP_le

/-! ### What is put in front of a token -/

theorem leads_leavings (reports : Bool) (above below : Stack) :
    Leads (blocksIn below) (blocksIn (above ++ below)) (blocksIn below)
      (leavings reports above) := by
  induction above with
  | nil => exact .nil (Nat.le_refl _)
  | cons frame rest ih =>
    cases frame with
    | block kind column =>
      rw [List.cons_append, blocksIn_block]
      exact Leads.append (.stop ih.floor_le) ih
    | bracket =>
      cases reports with
      | false => exact ih
      | true =>
        have marker : Leads (blocksIn below) (blocksIn (rest ++ below))
            (blocksIn (rest ++ below)) [.layoutError .unclosedDelimiter] :=
          .other (by decide) (by decide) ih.floor_le
        exact marker.append ih
    | root | pendingThen | pendingElse =>
      exact ih

theorem leads_greeting (count column : Nat) (popped : Bool) (stack : Stack) :
    Leads count count count (greeting column popped stack) := by
  have fault {cause : LayoutFault} : Leads count count count [.layoutError cause] :=
    .other nofun nofun (Nat.le_refl _)
  have separator : Leads count count count [.layoutSep] := .other nofun nofun (Nat.le_refl _)
  rcases greeting_cases column popped stack with equal | equal | equal | equal
  all_goals rw [equal]
  · exact .nil (Nat.le_refl _)
  · exact fault
  · exact separator
  · exact fault.append separator

theorem leads_before (kind : TokenKind) (column : Nat) (applies : Bool) (stack : Stack) :
    Leads (blocksIn (before kind column applies stack).1) (blocksIn stack)
      (blocksIn (before kind column applies stack).1)
      (before kind column applies stack).2 := by
  have cuts := before_cuts kind column applies stack
  generalize before kind column applies stack = result at cuts ⊢
  cases cuts with
  | ownRule above below added keepsRoot light =>
    rw [blocksIn_append, blocksIn_of_isContext light, Nat.zero_add]
    exact leads_leavings false above below
  | offsideRule above below keepsRoot isFirst =>
    exact (leads_leavings true above below).append (leads_greeting _ column _ below)

theorem leads_openPending (state : State) (column : Nat) :
    Leads (blocksIn state.stack) (blocksIn state.stack)
      (blocksIn (openPending state column).1) (openPending state column).2.1 := by
  have starts : Leads (blocksIn state.stack) (blocksIn state.stack)
      (blocksIn state.stack + 1) [.layoutStart] :=
    .start (Nat.le_refl _)
  rcases openPending_cases state column with equal | equal | ⟨block, equal⟩
  all_goals rw [equal]
  · exact .nil (Nat.le_refl _)
  · exact starts.append (.stop (Nat.le_refl _))
  · rw [blocksIn_block]
    exact starts

/-- Along what is put in front of a token, no more blocks are ended than the stack loses. -/
theorem leads_cut {below : Stack} (state : State) (token : Token)
    (under : below <:+ state.stack) (kept : below <:+ (state.cut token).1) :
    Leads (blocksIn below) (blocksIn state.stack) (blocksIn (state.cut token).1)
      (state.cut token).2 := by
  have low := blocksIn_le_of_isSuffix under
  have still := blocksIn_le_of_isSuffix kept
  unfold State.cut at still ⊢
  split
  · next isEmpty =>
      rw [isEmpty] at low ⊢
      exact .nil low
  · next isCons =>
      rw [isCons] at still
      exact Leads.append ((leads_openPending state state.column).mono low)
        ((leads_before _ _ _ _).mono still)

theorem blocksIn_openedFrame (kind : TokenKind) : blocksIn (openedFrame? kind).toList = 0 :=
  blocksIn_of_isContext (isContext_openedFrame kind)

/-! ### Runs -/

def State.Keeps (tabWidth : Nat) (below : Stack) (state : State) : List Token → Prop
  | [] => True
  | token :: rest =>
    (token.kind.isInsignificant = false → below <:+ (state.cut token).1) ∧
      State.Keeps tabWidth below (state.step tabWidth token).1 rest

instance State.decidableKeeps (tabWidth : Nat) (below : Stack) :
    (state : State) → (tokens : List Token) → Decidable (state.Keeps tabWidth below tokens)
  | _, [] => isTrue trivial
  | state, token :: rest =>
    have := decidableKeeps tabWidth below (state.step tabWidth token).1 rest
    inferInstanceAs (Decidable (_ ∧ _))

variable {tabWidth : Nat} {state : State} {below : Stack}

theorem State.keeps_nil (front : List Token) : state.Keeps tabWidth [] front := by
  induction front generalizing state with
  | nil => trivial
  | cons token rest ih => exact ⟨fun _ => List.nil_suffix, ih⟩

variable {token : Token} {front : List Token}

theorem isSuffix_step (under : below <:+ state.stack)
    (kept : token.kind.isInsignificant = false → below <:+ (state.cut token).1) :
    below <:+ (state.step tabWidth token).1.stack := by
  unfold State.step
  split
  · exact under
  · next notBlank =>
      exact (kept (by simpa using notBlank)).trans (List.suffix_append _ _)

theorem isSuffix_after (under : below <:+ state.stack) (keeps : state.Keeps tabWidth below front) :
    below <:+ (state.after tabWidth front).stack := by
  induction front generalizing state with
  | nil => exact under
  | cons token rest ih => exact ih (isSuffix_step under keeps.1) keeps.2

theorem leads_token (real : token.kind.isVirtual = false) (count : Nat) :
    Leads count count count [token.kind] :=
  .other (ne_of_real real rfl) (ne_of_real real rfl) (Nat.le_refl _)

theorem leads_step (real : token.kind.isVirtual = false) (under : below <:+ state.stack)
    (kept : token.kind.isInsignificant = false → below <:+ (state.cut token).1) :
    Leads (blocksIn below) (blocksIn state.stack)
      (blocksIn (state.step tabWidth token).1.stack)
      ((state.step tabWidth token).2 ++ [token.kind]) := by
  have still : below <:+ (state.step tabWidth token).1.stack := isSuffix_step under kept
  refine Leads.append ?_ ((leads_token real _).mono (blocksIn_le_of_isSuffix still))
  unfold State.step
  split
  · exact .nil (blocksIn_le_of_isSuffix under)
  · next notBlank =>
      rw [State.significant_stack, blocksIn_append, blocksIn_openedFrame, Nat.zero_add]
      exact leads_cut state token under (kept (by simpa using notBlank))

theorem map_kind_insert (kinds : List TokenKind) (offset : Nat) :
    (insert kinds offset).map Token.kind = kinds := by
  simp [insert, Function.comp_def]

theorem leads_emitted (real : ∀ token ∈ front, token.kind.isVirtual = false)
    (under : below <:+ state.stack) (keeps : state.Keeps tabWidth below front) :
    Leads (blocksIn below) (blocksIn state.stack)
      (blocksIn (state.after tabWidth front).stack)
      ((emitted tabWidth state front).map Token.kind) := by
  induction front generalizing state with
  | nil => exact .nil (blocksIn_le_of_isSuffix under)
  | cons token rest ih =>
    obtain ⟨kept, later⟩ := keeps
    obtain ⟨isReal, others⟩ := List.forall_mem_cons.mp real
    have first : Leads _ _ (blocksIn (state.step tabWidth token).1.stack) _ :=
      leads_step isReal under kept
    rw [emitted, List.map_append, map_kind_insert]
    simpa using first.append (ih others (isSuffix_step under kept) later)

theorem leads_finish (state : State) : Leads 0 (blocksIn state.stack) 0 state.finish := by
  have all := leads_leavings false state.stack []
  rw [List.append_nil, ← closings_eq_leavings] at all
  refine Leads.append ?_ all
  split
  · have starts : Leads 0 (blocksIn state.stack) (blocksIn state.stack + 1)
        [.layoutStart] :=
      .start (Nat.zero_le _)
    exact starts.append (.stop (Nat.zero_le _))
  · exact .nil (Nat.zero_le _)

/-! ### Whole texts -/

/-- The output for raw tokens: the tokens themselves, what is owed at the end, and the end. -/
theorem resolve_of_isRaw (tabWidth : Nat) {tokens : List Token}
    (real : ∀ token ∈ front, token.kind.isVirtual = false)
    (whole : tokens = front ∨ ∃ last, last.kind = .eof ∧ tokens = front ++ [last]) :
    ∃ stop last, last.kind = .eof ∧
      resolve tabWidth tokens = emitted (max tabWidth 1) {} front ++
        (insert (State.after (max tabWidth 1) {} front).finish stop ++ [last]) := by
  rcases whole with rfl | ⟨last, isEnd, rfl⟩
  · refine ⟨(State.after (max tabWidth 1) {} tokens).offset,
      Token.virtual .eof (State.after (max tabWidth 1) {} tokens).offset, rfl, ?_⟩
    calc resolve tabWidth tokens
      _ = resolveFrom _ {} _ := by
        rw [List.append_nil, resolve]
      _ = _ := resolveFrom_append tokens [] real
  · refine ⟨last.span.start, last, isEnd, ?_⟩
    rw [resolve, resolveFrom_append front _ real, resolveFrom, isEnd]
    rfl

/--
The opening bracket behind `front` puts a frame on the stack, the tokens in
the middle leave it there, and the closing bracket takes it away.
-/
structure Matches (tabWidth : Nat) (front : List Token) (opening : Token)
    (middle : List Token) (closing : Token) : Prop where
  opens : opening.kind.isOpening = true
  closes : closing.kind.isClosing = true
  stays : (State.after tabWidth {} (front ++ [opening])).Keeps tabWidth
    (.bracket :: ((State.after tabWidth {} front).cut opening).1) middle
  pops : (splitAtBracket?
      (openPending (State.after tabWidth {} (front ++ opening :: middle))
        (State.after tabWidth {} (front ++ opening :: middle)).column).1).map Prod.snd =
    some ((State.after tabWidth {} front).cut opening).1

namespace Matches

variable {front middle : List Token} {opening closing : Token}

theorem isInsignificant_opening (matches_ : Matches tabWidth front opening middle closing) :
    opening.kind.isInsignificant = false := by
  have opens := matches_.opens
  cases isKind : opening.kind with
  | opening bracket => rfl
  | _ => simp [isKind, TokenKind.isOpening] at opens

theorem isInsignificant_closing (matches_ : Matches tabWidth front opening middle closing) :
    closing.kind.isInsignificant = false := by
  have closes := matches_.closes
  cases isKind : closing.kind with
  | closing bracket => rfl
  | _ => simp [isKind, TokenKind.isClosing] at closes

theorem isVirtual_closing (matches_ : Matches tabWidth front opening middle closing) :
    closing.kind.isVirtual = false := by
  have closes := matches_.closes
  cases isKind : closing.kind with
  | closing bracket => rfl
  | _ => simp [isKind, TokenKind.isClosing] at closes

theorem stack_opening (matches_ : Matches tabWidth front opening middle closing) :
    (State.after tabWidth {} (front ++ [opening])).stack =
      .bracket :: ((State.after tabWidth {} front).cut opening).1 := by
  have opens := matches_.opens
  rw [State.after_append, State.after_cons, State.after_nil, State.step,
    if_neg (by simp [matches_.isInsignificant_opening]), State.significant_stack]
  cases isKind : opening.kind with
  | opening bracket => rfl
  | _ => simp [isKind, TokenKind.isOpening] at opens

theorem cut_closing (matches_ : Matches tabWidth front opening middle closing)
    (stillOpen : (State.after tabWidth {} (front ++ opening :: middle)).stack ≠ []) :
    ((State.after tabWidth {} (front ++ opening :: middle)).cut closing).1 =
      ((State.after tabWidth {} front).cut opening).1 := by
  obtain ⟨⟨above, below⟩, found, isBelow⟩ := Option.map_eq_some_iff.mp matches_.pops
  rw [← isBelow]
  have closes := matches_.closes
  cases isKind : closing.kind with
  | closing bracket =>
    rw [State.cut]
    split
    · next isEmpty => exact absurd isEmpty stillOpen
    · simp only [isKind, before, found]
  | _ => simp [isKind, TokenKind.isClosing] at closes

end Matches

theorem Matches.blocksNest {middle : List Token} {opening closing : Token}
    (matches_ : Matches tabWidth front opening middle closing)
    (real : ∀ token ∈ middle, token.kind.isVirtual = false) :
    BlocksNest ((emitted tabWidth (State.after tabWidth {} (front ++ [opening])) middle ++
      insert ((State.after tabWidth {} (front ++ opening :: middle)).step tabWidth
        closing).2 closing.span.start).map Token.kind) := by
  have opened := matches_.stack_opening
  have onward : State.after tabWidth {} (front ++ opening :: middle) =
      (State.after tabWidth {} (front ++ [opening])).after tabWidth middle := by
    rw [← State.after_append, List.append_assoc, List.singleton_append]
  have under : .bracket :: ((State.after tabWidth {} front).cut opening).1 <:+
      (State.after tabWidth {} (front ++ [opening])).stack :=
    opened ▸ List.suffix_refl _
  have inside := leads_emitted real under matches_.stays
  rw [← onward, opened] at inside
  have kept : .bracket :: ((State.after tabWidth {} front).cut opening).1 <:+
      (State.after tabWidth {} (front ++ opening :: middle)).stack := by
    rw [onward]
    exact isSuffix_after under matches_.stays
  have stillOpen : (State.after tabWidth {} (front ++ opening :: middle)).stack ≠ [] := by
    intro isEmpty
    rw [isEmpty] at kept
    exact absurd (List.suffix_nil.mp kept) (List.cons_ne_nil _ _)
  have back := leads_cut _ closing
    ((List.suffix_cons _ _).trans kept)
    (matches_.cut_closing stillOpen ▸ List.suffix_refl _)
  rw [matches_.cut_closing stillOpen] at back
  rw [List.map_append, map_kind_insert, State.step,
    if_neg (by simp [matches_.isInsignificant_closing])]
  exact (inside.append back).blocksNest

theorem emitted_pair (tabWidth : Nat) (front middle : List Token) (first second : Token) :
    emitted tabWidth {} (front ++ first :: middle ++ [second]) =
      (emitted tabWidth {} front ++
        insert ((State.after tabWidth {} front).step tabWidth first).2 first.span.start) ++
      first ::
        (emitted tabWidth (State.after tabWidth {} (front ++ [first])) middle ++
          insert ((State.after tabWidth {} (front ++ first :: middle)).step tabWidth
            second).2 second.span.start) ++
      [second] := by
  simp [emitted_append, emitted, State.after_append]

/--
For raw tokens, with or without the end of the text, blocks nest in the output
of the resolver: every prefix starts at least as many blocks as it ends, and
the whole output ends all of them.  Between an opening bracket and the closing
bracket that takes its frame off the stack they nest as well.
-/
theorem resolve_blocksNest (tabWidth : Nat) {tokens : List Token} (raw : IsRaw tokens) :
    BlocksNest ((resolve tabWidth tokens).map Token.kind) ∧
      ∀ front opening middle closing rest,
        tokens = front ++ opening :: middle ++ closing :: rest →
        Matches (max tabWidth 1) front opening middle closing →
        ∃ before between after,
          resolve tabWidth tokens = before ++ opening :: between ++ closing :: after ∧
          before.filter (fun token => !isMark token.kind) = front ∧
          between.filter (fun token => !isMark token.kind) = middle ∧
          BlocksNest (between.map Token.kind) := by
  constructor
  · obtain ⟨front, real, whole⟩ := raw
    obtain ⟨stop, last, isEnd, output⟩ := resolve_of_isRaw tabWidth real whole
    have keeps : ({} : State).Keeps (max tabWidth 1) [] front := State.keeps_nil front
    have passed : Leads 0 0 (blocksIn (State.after (max tabWidth 1) {} front).stack)
        ((emitted (max tabWidth 1) {} front).map Token.kind) :=
      leads_emitted real List.nil_suffix keeps
    have ended : Leads 0 0 0 [last.kind] := by
      rw [isEnd]
      exact .other nofun nofun (Nat.le_refl _)
    rw [output, List.map_append, List.map_append, map_kind_insert]
    exact (passed.append ((leads_finish _).append ended)).blocksNest
  · intro front opening middle closing rest split matches_
    subst split
    have realInside := raw.real_of_append
    have realFront : ∀ token ∈ front, token.kind.isVirtual = false :=
      fun token member => realInside token (List.mem_append_left _ member)
    have realMiddle : ∀ token ∈ middle, token.kind.isVirtual = false :=
      fun token member => realInside token
        (List.mem_append_right _ (List.mem_cons_of_mem _ member))
    have realAll : ∀ token ∈ front ++ opening :: middle ++ [closing],
        token.kind.isVirtual = false := by
      intro token member
      rcases List.mem_append.mp member with earlier | isClosing
      · exact realInside token earlier
      · rw [List.mem_singleton.mp isClosing]
        exact matches_.isVirtual_closing
    refine ⟨emitted (max tabWidth 1) {} front ++
        insert ((State.after (max tabWidth 1) {} front).step (max tabWidth 1) opening).2
          opening.span.start,
      _,
      resolveFrom (max tabWidth 1)
        (State.after (max tabWidth 1) {} (front ++ opening :: middle ++ [closing])) rest,
      ?_, ?_, ?_, matches_.blocksNest realMiddle⟩
    · rw [resolve, List.append_cons _ closing rest, resolveFrom_append _ rest realAll,
        emitted_pair, ← List.append_cons]
    · rw [List.filter_append, filter_insert _ (isMark_step _ _ _), List.append_nil,
        filter_emitted _ _ front realFront]
    · rw [List.filter_append, filter_insert _ (isMark_step _ _ _), List.append_nil,
        filter_emitted _ _ middle realMiddle]

/-- The block inside the brackets is closed by the bracket, the outer one by the end. -/
theorem resolve_blocksNest_in_brackets :
    IsRaw ((Token.scan "do (do x) y").take 9) ∧
      Matches 8 ((Token.scan "do (do x) y").take 2) ⟨.openParen, ⟨3, 4⟩, "("⟩
        (((Token.scan "do (do x) y").drop 3).take 3) ⟨.closeParen, ⟨8, 9⟩, ")"⟩ ∧
      BlocksNest ((resolve 8 ((Token.scan "do (do x) y").take 9)).map Token.kind) ∧
      ∃ before between after,
        resolve 8 ((Token.scan "do (do x) y").take 9) =
          before ++ ⟨.openParen, ⟨3, 4⟩, "("⟩ :: between ++
            ⟨.closeParen, ⟨8, 9⟩, ")"⟩ :: after ∧
        BlocksNest (between.map Token.kind) := by
  have raw : IsRaw ((Token.scan "do (do x) y").take 9) :=
    ⟨(Token.scan "do (do x) y").take 9, by decide +kernel, .inl rfl⟩
  have matches_ : Matches 8 ((Token.scan "do (do x) y").take 2) ⟨.openParen, ⟨3, 4⟩, "("⟩
      (((Token.scan "do (do x) y").drop 3).take 3) ⟨.closeParen, ⟨8, 9⟩, ")"⟩ :=
    ⟨rfl, rfl, by decide +kernel, by decide +kernel⟩
  obtain ⟨nest, inner⟩ := resolve_blocksNest 8 raw
  obtain ⟨before, between, after, output, -, -, nestInside⟩ :=
    inner _ _ _ _ (((Token.scan "do (do x) y").drop 7).take 2) (by decide +kernel) matches_
  exact ⟨raw, matches_, nest, before, between, after, output, nestInside⟩

end Offside.Layout
