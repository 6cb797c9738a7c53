import Offside.Proofs.Productions

/-!
# Marks of blocks in productions

Read off the table of productions: the marks of layout stand in few kinds of
nodes, each of which has at most one block, and the items of the block
alternate with its separators.  Other separators stand right below the root
and next to the `else` of a chain of instances.
-/

namespace Offside

open Offside.Phrase
open scoped Computability

/-- The shape is no mark of a block, and it is not the root of a tree. -/
def Shape.isPlain (shape : Shape) : Bool :=
  shape.avoids [.layoutStart, .layoutSep, .layoutEnd] [.wholeModule]

/-- The shape opens and closes no block, and it is not the root of a tree. -/
def Shape.isFlat (shape : Shape) : Bool :=
  shape.avoids [.layoutStart, .layoutEnd] [.wholeModule]

def Shape.isSeparator : Shape → Bool
  | .leaf token => token.kind = .layoutSep
  | .node _ _ => false

def Shape.isNode : Shape → Bool
  | .leaf _ => false
  | .node _ _ => true

def Shape.isElse : Shape → Bool
  | .leaf token => token.kind = .keyword .elseWord
  | .node _ _ => false

namespace Shape

theorem isFlat_of_isPlain {shape : Shape} (plain : shape.isPlain = true) : shape.isFlat = true := by
  cases shape with
  | leaf token =>
    simp only [isPlain, isFlat, avoids, Bool.not_eq_true', List.contains_eq_mem,
      List.mem_cons, decide_eq_false_iff_not, not_or] at plain ⊢
    exact ⟨plain.1, plain.2.2⟩
  | node kind children => exact plain

theorem isSeparator_eq_false_of_isElse {shape : Shape} (isElse : shape.isElse = true) :
    shape.isSeparator = false := by
  cases shape with
  | leaf token =>
    rw [isSeparator, of_decide_eq_true isElse]
    rfl
  | node kind children => rfl

def Linked (row : List Shape) : Prop :=
  ∀ front shape back, row = front ++ shape :: back → shape.isSeparator = true →
    (∃ next ∈ back.head?, next.isElse = true) ∨ ∃ last ∈ front.getLast?, last.isElse = true

theorem Linked.append {left right : List Shape} (first : Linked left) (second : Linked right) :
    Linked (left ++ right) := by
  intro front shape back split isSeparator
  rcases append_eq_append_cons split with ⟨middle, rfl, rfl⟩ | ⟨middle, rfl, isRight⟩
  · refine (first front shape middle rfl isSeparator).imp ?_ id
    rintro ⟨next, isNext, isElse⟩
    refine ⟨next, ?_, isElse⟩
    rw [List.head?_append, Option.mem_def.mp isNext]
    rfl
  · refine (second middle shape back isRight isSeparator).imp id ?_
    rintro ⟨last, isLast, isElse⟩
    exact ⟨last, List.mem_getLast?_append_of_mem_getLast? isLast, isElse⟩

end Shape

open Shape

/-- How the marks of blocks stand among the children of a node of the kind. -/
inductive Arranged : NodeKind → List Shape → Prop where
  /-- There are none. -/
  | plain {kind : NodeKind} {row : List Shape} (isPlain : ∀ shape ∈ row, shape.isPlain = true) :
      Arranged kind row
  /-- They are the marks of one block. -/
  | block {kind : NodeKind} {front items back : List Shape} {start stop : Token}
      (isStart : start.kind = .layoutStart) (isStop : stop.kind = .layoutEnd)
      (frontPlain : ∀ shape ∈ front, shape.isPlain = true)
      (alternate : items ∈ (maybe (Phrase.items (nodeIn fun kind => kind ≠ .wholeModule)) :
        Language Shape))
      (backPlain : ∀ shape ∈ back, shape.isPlain = true) :
      Arranged kind (front ++ .leaf start :: (items ++ .leaf stop :: back))
  /-- They separate what stands right below the root of a tree. -/
  | top {row : List Shape} (isFlat : ∀ shape ∈ row, shape.isFlat = true) :
      Arranged .wholeModule row
  /-- They stand next to the `else` of a chain of instances. -/
  | chain {row : List Shape} (isFlat : ∀ shape ∈ row, shape.isFlat = true)
      (linked : Linked row) : Arranged .instanceChain row

/-! ### Blocks -/

def Pattern.isPlain (pattern : Pattern) : Bool :=
  pattern.avoids [.layoutStart, .layoutSep, .layoutEnd] [.wholeModule]

theorem Pattern.isPlain_of_mem {pattern : Pattern} (plain : pattern.isPlain = true)
    {row : List Shape} (fits : row ∈ pattern.language) : ∀ shape ∈ row, shape.isPlain = true :=
  avoids_of_mem plain fits

namespace Phrase

theorem items_mono {item wider : Language Shape} (le : item ≤ wider) :
    Phrase.items item ≤ Phrase.items wider :=
  mul_le_mul' le (kstar_mono (mul_le_mul_right le _))

theorem someBlock_le (item : Language Shape) : someBlock item ≤ block item :=
  mul_le_mul_right (mul_le_mul_left le_sup_right _) _

theorem arranged_block {kind : NodeKind} {front back : Pattern} {accepts : NodeKind → Bool}
    (frontPlain : front.isPlain = true) (never : accepts .wholeModule = false)
    (backPlain : back.isPlain = true) {row : List Shape}
    (fits : row ∈ front.language * (block (nodeIn accepts) * back.language)) :
    Arranged kind row := by
  obtain ⟨before, inFront, _, ⟨_, ⟨_, ⟨_, ⟨start, rfl, isStart⟩, rfl⟩, _,
    ⟨inner, inItems, _, ⟨_, ⟨stop, rfl, isStop⟩, rfl⟩, rfl⟩, rfl⟩, after, inBack, rfl⟩, rfl⟩ := fits
  have nodes : (nodeIn accepts : Language Shape) ≤ nodeIn fun kind => kind ≠ .wholeModule :=
    nodeIn_mono fun kind accepted => decide_eq_true fun same => by
      rw [same, never] at accepted
      cases accepted
  have row : Arranged kind _ := .block (of_decide_eq_true isStart) (of_decide_eq_true isStop)
    (Pattern.isPlain_of_mem frontPlain inFront) (sup_le_sup le_rfl (items_mono nodes) inItems)
    (Pattern.isPlain_of_mem backPlain inBack)
  simpa only [List.append_assoc, List.cons_append, List.nil_append] using row

theorem arranged_lastBlock {kind : NodeKind} {front : Pattern} {accepts : NodeKind → Bool}
    (frontPlain : front.isPlain = true) (never : accepts .wholeModule = false) {row : List Shape}
    (fits : row ∈ front.language * block (nodeIn accepts)) : Arranged kind row := by
  refine @arranged_block kind front .empty accepts frontPlain never rfl row ?_
  rw [Pattern.language, mul_one]
  exact fits

theorem arranged_lastSomeBlock {kind : NodeKind} {front : Pattern} {accepts : NodeKind → Bool}
    (frontPlain : front.isPlain = true) (never : accepts .wholeModule = false) {row : List Shape}
    (fits : row ∈ front.language * someBlock (nodeIn accepts)) : Arranged kind row :=
  arranged_lastBlock frontPlain never (mul_le_mul_right (someBlock_le _) _ fits)

/-! ### Chains of instances -/

theorem linked_node {accepts : NodeKind → Bool} {row : List Shape}
    (fits : row ∈ (nodeIn accepts : Language Shape)) : Linked row := by
  obtain ⟨_, ⟨kind, children, rfl, -⟩, rfl⟩ := fits
  intro front shape back split isSeparator
  obtain ⟨-, rfl, -⟩ := singleton_eq_append_cons split
  cases isSeparator

theorem linked_around {other : Token} (isElse : other.kind = .keyword .elseWord)
    {front back : List Shape} (short : front.length ≤ 1) (brief : back.length ≤ 1) :
    Linked (front ++ .leaf other :: back) := by
  have found : (Shape.leaf other).isElse = true := decide_eq_true isElse
  intro before shape after split isSeparator
  rcases append_eq_append_cons split with ⟨rest, rfl, rfl⟩ | ⟨rest, rfl, isBack⟩
  · have none : rest = [] := by
      rw [List.length_append, List.length_cons] at short
      exact List.length_eq_zero_iff.mp (by omega)
    rw [none]
    exact .inl ⟨_, rfl, found⟩
  · -- Behind the separator of the front, or at the `else` itself.
    cases rest with
    | nil =>
      rw [(List.cons.inj isBack).1.symm, isSeparator_eq_false_of_isElse found] at isSeparator
      cases isSeparator
    | cons first rest =>
      obtain ⟨rfl, rfl⟩ := List.cons.inj (isBack.trans List.cons_append)
      have none : rest = [] := by
        rw [List.length_append, List.length_cons] at brief
        exact List.length_eq_zero_iff.mp (by omega)
      rw [none]
      exact .inr ⟨_, List.getLast?_concat, found⟩

theorem length_maybe_token {kind : TokenKind} {row : List Shape}
    (fits : row ∈ (maybe (token kind) : Language Shape)) : row.length ≤ 1 := by
  rcases fits with none | ⟨_, -, rfl⟩
  · rw [show row = [] from none]
    exact Nat.zero_le 1
  · exact Nat.le_refl 1

theorem linked_instanceJoint {row : List Shape}
    (fits : row ∈ (instanceJoint : Language Shape)) : Linked row := by
  obtain ⟨front, inFront, _, ⟨_, ⟨_, ⟨other, rfl, isElse⟩, rfl⟩, back, inBack, rfl⟩, rfl⟩ := fits
  exact linked_around (of_decide_eq_true isElse) (length_maybe_token inFront)
    (length_maybe_token inBack)

theorem linked_kstar {part : Language Shape} (linked : ∀ row ∈ part, Linked row)
    {row : List Shape} (fits : row ∈ part∗) : Linked row := by
  obtain ⟨rows, rfl, parts⟩ := Language.mem_kstar.mp fits
  clear fits
  induction rows with
  | nil =>
    intro front _ _ split
    exact absurd split.symm (List.append_ne_nil_of_right_ne_nil _ nofun)
  | cons first rest ih =>
    exact (linked first (parts first List.mem_cons_self)).append
      (ih fun piece member => parts piece (List.mem_cons_of_mem _ member))

theorem linked_instanceChain {row : List Shape} (fits : row ∈ production .instanceChain) :
    Linked row := by
  obtain ⟨front, inFront, back, inBack, rfl⟩ := fits
  refine (linked_node inFront).append (linked_kstar ?_ inBack)
  rintro _ ⟨joint, inJoint, last, inLast, rfl⟩
  exact (linked_instanceJoint inJoint).append (linked_node inLast)

end Phrase

/-! ### The table -/

def NodeKind.hasMarks (kind : NodeKind) : Bool :=
  [NodeKind.wholeModule, .instanceChain, .classBody, .instanceBody, .whereClause, .exprCase,
    .letBindings, .exprDo, .exprAdo].contains kind

theorem isPlain_pattern {kind : NodeKind} (without : kind.hasMarks = false) :
    (pattern kind).isPlain = true := by
  cases kind <;> first | rfl | cases without

theorem arranged_wholeModule {row : List Shape} (fits : row ∈ production .wholeModule) :
    Arranged .wholeModule row := by
  obtain ⟨header, inHeader, _, ⟨body, inBody | inBody, rest, inRest, rfl⟩, rfl⟩ := fits
  · refine @arranged_block _ (maybe (Phrase.node .moduleHeader)) (maybe (token .eof))
      NodeKind.isDecl rfl rfl rfl _ ?_
    exact Language.append_mem_mul inHeader (Language.append_mem_mul inBody inRest)
  · let loose : Pattern := maybe (Phrase.node .moduleHeader) *
      ((maybe (token .layoutSep) * maybe (Phrase.items (nodeIn NodeKind.isDecl))) *
        maybe (token .eof))
    have fits : header ++ (body ++ rest) ∈ loose.language :=
      Language.append_mem_mul inHeader (Language.append_mem_mul inBody inRest)
    exact .top (Pattern.avoids_of_mem rfl fits)

theorem arranged_of_spelled {kind : NodeKind} {row : List Shape}
    (spelled : row ∈ production kind) : Arranged kind row := by
  by_cases without : kind.hasMarks = false
  · exact .plain (Pattern.isPlain_of_mem (isPlain_pattern without) spelled)
  rw [Bool.not_eq_false, NodeKind.hasMarks, List.contains_iff_mem] at without
  simp only [List.mem_cons, List.not_mem_nil, or_false] at without
  rcases without with rfl | rfl | rfl | rfl | rfl | rfl | rfl | rfl | rfl
  · exact arranged_wholeModule spelled
  · exact .chain (Pattern.avoids_of_mem rfl
      spelled) (linked_instanceChain spelled)
  · exact @arranged_lastBlock _ _ _ rfl rfl _
      spelled
  · exact @arranged_lastBlock _ _ isLocalDecl rfl rfl _ spelled
  · exact @arranged_lastSomeBlock _ _ isLocalDecl rfl rfl _ spelled
  · refine @arranged_lastSomeBlock _ (keyword .caseWord * (separated .comma expr * keyword .ofWord))
      (fun other => other = .caseBranch) rfl rfl _ ?_
    show row ∈ keyword .caseWord * (separated .comma expr * keyword .ofWord) * someBlock _
    rw [mul_assoc, mul_assoc]
    exact spelled
  · refine @arranged_lastSomeBlock _ .empty isLocalDecl rfl rfl _ ?_
    rw [Pattern.language, one_mul]
    exact spelled
  · exact @arranged_lastSomeBlock _
      _ isStatement rfl rfl _
      spelled
  · exact @arranged_block _ _
      _ isStatement rfl rfl rfl _ spelled

/-! ### Items and separators -/

namespace Phrase

theorem isFlat_of_items {row : List Shape}
    (alternate : row ∈ (maybe (Phrase.items (nodeIn fun kind => kind ≠ .wholeModule)) :
      Language Shape)) : ∀ shape ∈ row, shape.isFlat = true := by
  let sequence : Pattern := maybe (Phrase.items (nodeIn fun kind => kind ≠ .wholeModule))
  exact Pattern.avoids_of_mem (show sequence.avoids _ _ = true from rfl) alternate

theorem countP_node {accepts : NodeKind → Bool} {row : List Shape}
    (fits : row ∈ (nodeIn accepts : Language Shape)) :
    row.countP Shape.isNode = 1 ∧ row.countP Shape.isSeparator = 0 := by
  obtain ⟨_, ⟨kind, children, rfl, -⟩, rfl⟩ := fits
  exact ⟨rfl, rfl⟩

theorem countP_separator {row : List Shape} (fits : row ∈ (token .layoutSep : Language Shape)) :
    row.countP Shape.isNode = 0 ∧ row.countP Shape.isSeparator = 1 := by
  obtain ⟨_, ⟨separator, rfl, isSeparator⟩, rfl⟩ := fits
  have counted : (Shape.leaf separator).isSeparator = true := isSeparator
  exact ⟨rfl, by rw [List.countP_cons_of_pos counted, List.countP_nil]⟩

theorem countP_items {accepts : NodeKind → Bool} {row : List Shape}
    (fits : row ∈ (Phrase.items (nodeIn accepts) : Language Shape)) :
    row.countP Shape.isNode = row.countP Shape.isSeparator + 1 := by
  obtain ⟨first, inFirst, _, inRest, rfl⟩ := fits
  obtain ⟨rows, rfl, parts⟩ := Language.mem_kstar.mp inRest
  clear inRest
  have rest : rows.flatten.countP Shape.isNode = rows.flatten.countP Shape.isSeparator := by
    induction rows with
    | nil => rfl
    | cons piece others ih =>
      obtain ⟨sep, inSep, item, inItem, same⟩ := parts piece List.mem_cons_self
      have split : piece = sep ++ item := same.symm
      rw [List.flatten_cons, split]
      simp only [List.countP_append, countP_node inItem, countP_separator inSep,
        ih fun row member => parts row (List.mem_cons_of_mem _ member)]
  rw [List.countP_append, List.countP_append, (countP_node inFirst).1, (countP_node inFirst).2]
  omega

end Phrase

theorem Arranged.countP_between {kind : NodeKind} {row front body back : List Shape}
    {start stop : Token} (arranged : Arranged kind row)
    (split : row = front ++ .leaf start :: (body ++ .leaf stop :: back))
    (isStart : start.kind = .layoutStart) (isStop : stop.kind = .layoutEnd) :
    body.countP Shape.isNode = body.countP Shape.isSeparator + 1 ∨
      body.countP Shape.isNode = 0 ∧ body.countP Shape.isSeparator = 0 := by
  have startNotFlat : (Shape.leaf start).isFlat = false := by
    rw [Shape.isFlat, Shape.avoids, isStart]
    rfl
  have stopNotFlat : (Shape.leaf stop).isFlat = false := by
    rw [Shape.isFlat, Shape.avoids, isStop]
    rfl
  have notMem : ∀ {token : Token} {part : List Shape}, (Shape.leaf token).isFlat = false →
      (∀ shape ∈ part, shape.isFlat = true) → .leaf token ∉ part :=
    fun isMark flat member => Bool.false_ne_true (isMark.symm.trans (flat _ member))
  have notFlat : ¬∀ shape ∈ row, shape.isFlat = true := fun flat =>
    notMem startNotFlat flat (split ▸ List.mem_append_right _ List.mem_cons_self)
  cases arranged with
  | plain isPlain =>
    exact absurd (fun shape member => isFlat_of_isPlain (isPlain shape member)) notFlat
  | top isFlat => exact absurd isFlat notFlat
  | chain isFlat _ => exact absurd isFlat notFlat
  | @block _ _ items behind _ close _ isEnd frontPlain alternate backPlain =>
    -- The marks of the block are the only ones of their kinds.
    have itemsFlat := isFlat_of_items alternate
    have behindFlat := fun shape member => isFlat_of_isPlain (backPlain shape member)
    have others : Shape.leaf start ∉ items ++ .leaf close :: behind := by
      rw [List.mem_append, List.mem_cons]
      rintro (inItems | same | inBehind)
      · exact notMem startNotFlat itemsFlat inItems
      · rw [(Shape.leaf.inj same), isEnd] at isStart
        cases isStart
      · exact notMem startNotFlat behindFlat inBehind
    obtain ⟨-, -, inner⟩ := (List.append_cons_inj_of_notMem
      (notMem startNotFlat fun shape member => isFlat_of_isPlain (frontPlain shape member))
      others).mp split
    obtain ⟨rfl, -, -⟩ := (List.append_cons_inj_of_notMem (notMem stopNotFlat itemsFlat)
      (notMem stopNotFlat behindFlat)).mp inner
    rcases alternate with empty | items
    · rw [show items = [] from empty]
      exact .inr ⟨rfl, rfl⟩
    · exact .inl (countP_items items)

end Offside
