import Offside.Proofs.CoreRoundTrip

/-!
# What can label a field of a record

An identifier, a keyword or a string can label a field of a record.  But the
scanner and the layout resolver know nothing of records: the sign `∀` runs
together with the colon behind it, and a keyword that opens a block opens one
in front of the colon.  A record with other labels is read field by field.
-/

namespace Offside

open Grammar

theorem TokenKind.isSolid_of_isLabel {kind : TokenKind} (label : kind.isLabel = true) :
    kind.isSolid = true := by
  cases kind <;> first | rfl | cases label

/-- A field of a record: what labels it, and a number. -/
structure LabelledNumber where
  kind : TokenKind
  label : Word kind
  isLabel : kind.isLabel = true
  number : Word .integer

namespace LabelledNumber

def text (field : LabelledNumber) : String :=
  field.label.text ++ ": " ++ field.number.text

def line (fields : List LabelledNumber) : String :=
  "x = \x7b " ++ ", ".intercalate (fields.map text) ++ " \x7d"

/-- The label is a word in front of a colon, and it opens no block. -/
def IsClear (field : LabelledNumber) : Prop :=
  field.label.text ≠ "∀" ∧ Layout.Block.ofKeyword? field.kind = none

instance (field : LabelledNumber) : Decidable field.IsClear :=
  inferInstanceAs (Decidable (_ ∧ _))

/-! ### The words of the line -/

def words (field : LabelledNumber) : List Sight :=
  [field.label.sight, ⟨.colon, ":"⟩, field.number.sight]

def recordWords (fields : List LabelledNumber) : List Sight :=
  ⟨.openBrace, "\x7b"⟩ ::
    ([⟨.comma, ","⟩].intercalate (fields.map words) ++ [⟨.closeBrace, "\x7d"⟩])

theorem writes_field {field : LabelledNumber} (clear : field.IsClear) {more : List Char}
    {later : List Sight} (number : Writes (field.number.text.toList ++ more)
      (field.number.sight :: later)) :
    Writes (field.text.toList ++ more) (field.words ++ later) := by
  have colon := @Sight.IsWord.spaced ⟨.colon, ":"⟩ _ _ (by decide +kernel) rfl number
  have label := field.label.isWord.writes (TokenKind.isSolid_of_isLabel field.isLabel)
    (by simp [Token.delimiters]) (fun _ => ⟨field.isLabel, clear.1⟩) colon
  simpa [text, words, Word.sight] using label

theorem writes_fields {fields : List LabelledNumber} (nonempty : fields ≠ [])
    (clear : ∀ field ∈ fields, field.IsClear) :
    Writes ((", ".intercalate (fields.map text)).toList ++ [' ', '\x7d'])
      ([⟨.comma, ","⟩].intercalate (fields.map words) ++ [⟨.closeBrace, "\x7d"⟩]) := by
  rw [String.toList_intercalate]
  induction fields with
  | nil => exact absurd rfl nonempty
  | cons field rest ih =>
    obtain ⟨clearField, clearRest⟩ := List.forall_mem_cons.mp clear
    cases rest with
    | nil =>
      have brace := @Sight.IsWord.writes_last ⟨.closeBrace, "\x7d"⟩ (by decide +kernel) rfl
      simpa using writes_field clearField (field.number.isWord.spaced rfl brace)
    | cons next others =>
      have later := ih (List.cons_ne_nil _ _) clearRest
      have comma := @Sight.IsWord.spaced ⟨.comma, ","⟩ _ _ (by decide +kernel) rfl later
      have number := field.number.isWord.writes rfl (by simp [Token.delimiters]) (by simp) comma
      simpa [List.intercalate_cons_cons] using writes_field clearField number

theorem writes_line {fields : List LabelledNumber} (nonempty : fields ≠ [])
    (clear : ∀ field ∈ fields, field.IsClear) :
    Writes (line fields).toList
      (⟨.lowerName, "x"⟩ :: ⟨.equals, "="⟩ :: recordWords fields) := by
  have brace := @Sight.IsWord.spaced ⟨.openBrace, "\x7b"⟩ _ _ (by decide +kernel) rfl
    (writes_fields nonempty clear)
  have sign := @Sight.IsWord.spaced ⟨.equals, "="⟩ _ _ (by decide +kernel) rfl brace
  have name := @Sight.IsWord.spaced ⟨.lowerName, "x"⟩ _ _ (by decide +kernel) rfl sign
  simpa [line, recordWords] using name

theorem isPlain_of_mem_line {fields : List LabelledNumber}
    (clear : ∀ field ∈ fields, field.IsClear) :
    ∀ word ∈ ⟨.lowerName, "x"⟩ :: ⟨.equals, "="⟩ :: recordWords fields, word.IsPlain := by
  rw [recordWords, List.forall_mem_cons, List.forall_mem_cons, List.forall_mem_cons,
    List.forall_mem_append]
  refine ⟨by decide +kernel, by decide +kernel, by decide +kernel,
    CoreExpr.isPlain_intercalate ?_, by decide +kernel⟩
  rw [List.forall_mem_map]
  intro field member
  rw [words, List.forall_mem_cons, List.forall_mem_cons, List.forall_mem_singleton]
  exact ⟨CoreExpr.isPlain_sight field.label (TokenKind.isSolid_of_isLabel field.isLabel)
    (clear field member).2, by decide +kernel, CoreExpr.isPlain_sight field.number rfl rfl⟩

/-! ### How the line is read -/

variable {ground : Ground} {calls : Nat}

def sketch (field : LabelledNumber) : Sketch :=
  .node .recordField none [.leaf field.kind field.label.text, .leaf .colon ":",
    .node .exprLiteral none [.leaf .integer field.number.text]]

def recordSketch (fields : List LabelledNumber) : Sketch :=
  .node .exprRecord none (.leaf .openBrace "\x7b" ::
    ((fields.map sketch).intersperse (.leaf .comma ",") ++ [.leaf .closeBrace "\x7d"]))

theorem carries_field (field : LabelledNumber) (result : Sketch) (rest : List Sight)
    (done : List Sketch) (isSketch : result = field.sketch)
    (enough : 8 * field.words.length + 3 ≤ calls)
    (ends : CoreExpr.endsExpr (frontKind rest) = true) :
    Carries ground calls (recordField (ignore (.call .expr))) () 1
      ⟨field.words ++ rest, done⟩ ⟨rest, done ++ [result]⟩ := by
  obtain ⟨calls, rfl⟩ := Nat.exists_eq_add_of_le' ((Nat.le_add_left 3 _).trans enough)
  rw [isSketch]
  exact .recordField field.isLabel
    (.ignore (CoreExpr.expr_of_atom .exprAtom_integer nofun ends))

theorem carries_record (first : LabelledNumber) (others : List LabelledNumber)
    (done : List Sketch) :
    Carries ground (8 * (recordWords (first :: others)).length + 3) (.call .expr) true 2
      ⟨recordWords (first :: others) ++ [⟨.eof, ""⟩], done⟩
      ⟨[⟨.eof, ""⟩], done ++ [recordSketch (first :: others)]⟩ := by
  have sketches : List.Forall₂ (fun field result => result = field.sketch) (first :: others)
      ((first :: others).map sketch) :=
    List.forall₂_map_right_iff.mpr (List.forall₂_same.mpr fun _ _ => rfl)
  have most (fields : List LabelledNumber) : fields.foldr (fun _ most => max 1 most) 0 ≤ 1 := by
    induction fields with
    | nil => exact Nat.zero_le 1
    | cons field rest ih => exact max_le le_rfl ih
  have noComma : frontKind [⟨.closeBrace, "\x7d"⟩, ⟨.eof, ""⟩] ≠ .comma := by rintro ⟨⟩
  have atom : Carries ground (8 * (recordWords (first :: others)).length) exprAtom true 1
      ⟨recordWords (first :: others) ++ [⟨.eof, ""⟩], done⟩
      ⟨[⟨.eof, ""⟩], done ++ [recordSketch (first :: others)]⟩ := by
    rw [recordWords, List.cons_append, List.append_assoc]
    refine .of_need (Carries.exprAtom_record ?_ (CoreExpr.turns_listed rfl sketches
      (List.cons_ne_nil _ _)
      carries_field ?_ rfl noComma)) (max_eq_left (most others))
    · rw [List.map_cons, words, CoreExpr.frontKind_intercalate]
      exact fun same => Bool.false_ne_true
        ((congrArg TokenKind.isLabel same).symm.trans first.isLabel)
    · rw [List.length_cons, List.length_append]
      simp only [List.length_singleton]
      omega
  exact CoreExpr.expr_of_atom atom nofun rfl

/--
The line of a record whose labels are clear is read without a fault.  Its
right-hand side is a record with a field for each label and number, in order.
-/
theorem parse_labelled_record (fields : List LabelledNumber) (nonempty : fields ≠ [])
    (clear : ∀ field ∈ fields, field.IsClear) :
    (Parse.ofSource (line fields)).hasErrors = false ∧
      (Parse.ofSource (line fields)).root.shape?.map Shape.sketch =
        some (.node .wholeModule none [.node .valueDecl none [.leaf .lowerName "x",
          .node .unguardedRhs none [.leaf .equals "=", recordSketch fields]], .leaf .eof ""]) := by
  obtain ⟨first, others, rfl⟩ := List.exists_cons_of_ne_nil nonempty
  let job := Job.ofSource (line (first :: others))
  obtain ⟨shown, harmless⟩ := (writes_line nonempty clear).lexemes
    (fun word member => (isPlain_of_mem_line clear word member).2) 8
  have never : ∀ count, job.ground.setting.isCancelled count = false := fun _ => rfl
  obtain ⟨reads, -⟩ := job.readWhole?_of_carries shown harmless
    (CoreExpr.carries_definition never (carries_record first others _)) (by
      simp only [List.length_append, List.length_cons]
      omega)
  obtain ⟨reading, read, sketches⟩ := reads (by decide)
  obtain ⟨-, clean, root⟩ := job.run_of_readWhole? read
  refine ⟨clean, ?_⟩
  rw [Parse.ofSource, Parse.withTable, root, Option.map_some, Shape.sketch, sketches]

theorem parse_labelled_record_mixed :
    (Parse.ofSource "x = \x7b if: 1, \"a: b\": 0x2, then: 3, _y: 4 \x7d").hasErrors = false :=
  (parse_labelled_record
    [⟨.keyword .ifWord, ⟨"if", by decide +kernel⟩, rfl, ⟨"1", by decide +kernel⟩⟩,
      ⟨.string, ⟨"\"a: b\"", by decide +kernel⟩, rfl, ⟨"0x2", by decide +kernel⟩⟩,
      ⟨.keyword .thenWord, ⟨"then", by decide +kernel⟩, rfl, ⟨"3", by decide +kernel⟩⟩,
      ⟨.lowerName, ⟨"_y", by decide +kernel⟩, rfl, ⟨"4", by decide +kernel⟩⟩]
    (List.cons_ne_nil _ _) (by decide)).1

/-- The labels that are not clear: what follows them is no field. -/
theorem hasErrors_of_unclear_label :
    ["ado", "do", "let", "of", "where", "∀"].all (fun label =>
      (Parse.ofSource ("x = \x7b " ++ label ++ ": 1 \x7d")).hasErrors) = true := by
  decide +kernel

end LabelledNumber

end Offside
