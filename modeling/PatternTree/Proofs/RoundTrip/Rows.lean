import PatternTree.Proofs.RoundTrip.Canonical

/-!
The phrases of a tree: the rows that its canonical text is written with. Main statements: the rows
spell the text, and those of a well-formed tree are legal wherever nothing to repeat them follows.
-/

namespace PatternTree

mutual

/-- The phrases that an expression is written with. -/
def Expression.phrases : Expression → List Phrase
  | .single b => b.phrases
  | .alternation left right _ => left.phrases ++ .bar :: right.phrases

def Branch.phrases : Branch → List Phrase
  | ⟨items, _⟩ => Item.rowPhrases items

/-- The phrase that an item and the quantifiers after it are written with. -/
def Item.phrase (rs : List Repetition) : Item → Phrase
  | .character c => .single c.glyph.lexeme rs
  | .lineStart _ => .single (.mark .caret) rs
  | .lineEnd _ => .single (.mark .dollar) rs
  | .anyCharacter _ => .single (.mark .dot) rs
  | .set s => .set s.bracket rs
  | .group kind body _ => .group (.kind kind) body.phrases true rs
  | .quantified item q _ => item.phrase (q.repetition item.endsGreedy :: rs)

def Item.rowPhrases : List Item → List Phrase
  | [] => []
  | item :: row => item.phrase [] :: Item.rowPhrases row

end

-- ═══════════════════════════════════════════════════════════════
-- Rows spell the text
-- ═══════════════════════════════════════════════════════════════

mutual

theorem Expression.spelledAs_phrases (e : Expression) (wellFormed : ∀ x ∈ e.nodes, x.WellFormed) :
    SpelledAs (Phrase.rowLexemes e.phrases) e.source := by
  match e with
  | .single b =>
    exact b.spelledAs_phrases (Expression.everywhere_single wellFormed)
  | .alternation left right s =>
    obtain ⟨leftFormed, rightFormed⟩ := Expression.everywhere_alternation wellFormed
    have first := left.spelledAs_phrases leftFormed
    have second := right.spelledAs_phrases rightFormed
    rw [Expression.phrases, Phrase.rowLexemes_append]
    exact first.append ((SpelledAs.mark .bar).append second)

theorem Branch.spelledAs_phrases (b : Branch) (wellFormed : ∀ x ∈ b.nodes, x.WellFormed) :
    SpelledAs (Phrase.rowLexemes b.phrases) b.source := by
  match b with
  | ⟨items, s⟩ =>
    exact Item.spelledAs_row items (Branch.everywhere_items wellFormed)

theorem Item.spelledAs_phrase (i : Item) (wellFormed : ∀ x ∈ i.nodes, x.WellFormed)
    {rs : List Repetition} {source : List Char}
    (repeated : SpelledAs (rs.flatMap Repetition.lexemes) source) :
    SpelledAs (i.phrase rs).lexemes (i.source ++ source) := by
  match i with
  | .character c => exact (SpelledAs.lexeme c.glyph.lexeme_writes).append repeated
  | .lineStart s => exact (SpelledAs.mark .caret).append repeated
  | .lineEnd s => exact (SpelledAs.mark .dollar).append repeated
  | .anyCharacter s => exact (SpelledAs.mark .dot).append repeated
  | .set s => exact s.spelledAs_bracket.append repeated
  | .group kind body s =>
    obtain ⟨named, bodyFormed⟩ := Item.everywhere_group wellFormed
    have header : SpelledAs kind.lexemes kind.opening := GroupKind.spelledAs_lexemes named
    have inside := body.spelledAs_phrases bodyFormed
    exact ((header.append inside).append (SpelledAs.mark .closeParen)).append repeated
  | .quantified item q s =>
    rw [Item.phrase, Item.source, List.append_assoc]
    exact item.spelledAs_phrase (Item.everywhere_quantified wellFormed).2
      ((q.spelledAs_repetition item.endsGreedy).append repeated)

theorem Item.spelledAs_row (items : List Item)
    (wellFormed : ∀ x ∈ Item.rowNodes items, x.WellFormed) :
    SpelledAs (Phrase.rowLexemes (Item.rowPhrases items)) (Item.rowSource items) := by
  match items with
  | [] => exact SpelledAs.nil
  | i :: row =>
    obtain ⟨iFormed, rowFormed⟩ := Item.everywhere_row wellFormed
    have first : SpelledAs (i.phrase []).lexemes (i.source ++ []) :=
      i.spelledAs_phrase iFormed SpelledAs.nil
    have rest := Item.spelledAs_row row rowFormed
    rw [List.append_nil] at first
    exact first.append rest

end

-- ═══════════════════════════════════════════════════════════════
-- Rows are legal
-- ═══════════════════════════════════════════════════════════════

/-- The phrase of an item is none that stands for no item. -/
theorem Item.phrase_ne_stray (i : Item) (rs : List Repetition) (l : Lexeme) :
    i.phrase rs ≠ .stray l := by
  cases i with
  | quantified item q => exact item.phrase_ne_stray _ l
  | _ => simp [phrase]

/-- No quantifier begins where an item does. -/
theorem Item.read?_phrase (i : Item) (rs : List Repetition) (rest : List Lexeme) :
    Repetition.read? ((i.phrase rs).lexemes ++ rest) = none := by
  cases i with
  | character c =>
    rcases c.glyph.lexeme_writes.bare_or_escaped with ⟨d, written⟩ | ⟨d, written⟩ <;>
      rw [phrase, Phrase.lexemes, written] <;> rfl
  | group kind body =>
    obtain ⟨more, opening⟩ := (Header.kind kind).lexemes_eq_cons
    rw [phrase, Phrase.lexemes, opening]
    rfl
  | quantified item q => exact item.read?_phrase _ rest
  | _ => rfl

theorem Branch.read?_phrases (b : Branch) {rest : List Lexeme}
    (stop : Repetition.read? rest = none) :
    Repetition.read? (Phrase.rowLexemes b.phrases ++ rest) = none := by
  obtain ⟨items, s⟩ := b
  cases items with
  | nil => exact stop
  | cons i row =>
    rw [phrases, Item.rowPhrases, Phrase.rowLexemes, List.append_assoc]
    exact i.read?_phrase [] _

theorem Expression.read?_phrases (e : Expression) {rest : List Lexeme}
    (stop : Repetition.read? rest = none) :
    Repetition.read? (Phrase.rowLexemes e.phrases ++ rest) = none := by
  cases e with
  | single b => exact b.read?_phrases stop
  | alternation left right =>
    rw [phrases, Phrase.rowLexemes_append, List.append_assoc]
    exact left.read?_phrases rfl

theorem Repetition.head?_ne_question {ls : List Lexeme} (stop : read? ls = none) :
    ls.head? ≠ some (.mark .question) := by
  intro head
  obtain ⟨more, rfl⟩ := List.head?_eq_some_iff.mp head
  cases stop

mutual

theorem Expression.rowLegal_phrases (e : Expression) (wellFormed : ∀ x ∈ e.nodes, x.WellFormed)
    {levels : Nat} (shallow : e.depth ≤ levels) (inGroup : Bool) {rest : List Lexeme}
    (stop : Repetition.read? rest = none) :
    Phrase.RowLegal levels inGroup rest e.phrases := by
  match e with
  | .single b =>
    exact b.rowLegal_phrases (Expression.everywhere_single wellFormed) shallow inGroup stop
  | .alternation left right s =>
    obtain ⟨shallowLeft, shallowRight⟩ := Nat.max_le.mp shallow
    obtain ⟨leftFormed, rightFormed⟩ := Expression.everywhere_alternation wellFormed
    -- No quantifier begins with the bar, so it stops the alternatives before it.
    have first : Phrase.RowLegal levels inGroup
        (.mark .bar :: (Phrase.rowLexemes right.phrases ++ rest)) left.phrases :=
      left.rowLegal_phrases leftFormed shallowLeft inGroup rfl
    have second := right.rowLegal_phrases rightFormed shallowRight inGroup stop
    exact Phrase.rowLegal_append.mpr ⟨first, trivial, by simp, second⟩

theorem Branch.rowLegal_phrases (b : Branch) (wellFormed : ∀ x ∈ b.nodes, x.WellFormed)
    {levels : Nat} (shallow : b.depth ≤ levels) (inGroup : Bool) {rest : List Lexeme}
    (stop : Repetition.read? rest = none) :
    Phrase.RowLegal levels inGroup rest b.phrases := by
  match b with
  | ⟨items, s⟩ =>
    exact Item.rowLegal_row items (Branch.everywhere_items wellFormed) shallow inGroup stop

/-- The phrase of an item is legal with any quantifiers that can stand after the item's own. -/
theorem Item.legal_phrase (i : Item) (wellFormed : ∀ x ∈ i.nodes, x.WellFormed)
    {levels : Nat} (shallow : i.depth ≤ levels) {rs : List Repetition} {rest : List Lexeme}
    (repeated : Repetition.RowLegal rest rs)
    (bare : i.endsGreedy → (rs.flatMap Repetition.lexemes ++ rest).head? ≠
      some (.mark .question)) :
    (i.phrase rs).Legal levels rest := by
  match i with
  | .character c =>
    refine ⟨?_, repeated⟩
    rcases c.glyph.lexeme_writes.bare_or_escaped with ⟨d, written⟩ | ⟨d, written⟩ <;>
      rw [written] <;> rfl
  | .lineStart _ | .lineEnd _ | .anyCharacter _ => exact ⟨rfl, repeated⟩
  | .set s => exact ⟨s.legal_bracket _, repeated⟩
  | .group kind body s =>
    obtain ⟨inner, rfl⟩ : ∃ inner, levels = inner + 1 :=
      Nat.exists_eq_add_one.mpr (Nat.zero_lt_of_lt shallow)
    obtain ⟨named, bodyFormed⟩ := Item.everywhere_group wellFormed
    let after := .mark .closeParen :: (rs.flatMap Repetition.lexemes ++ rest)
    have inside : Phrase.RowLegal inner true after body.phrases :=
      body.rowLegal_phrases bodyFormed (Nat.le_of_succ_le_succ shallow) true rfl
    have header : (Header.kind kind).Legal (Phrase.rowLexemes body.phrases ++ after) := by
      cases kind with
      -- A body that began with a question mark would be taken for a modifier.
      | capture => exact Repetition.head?_ne_question (body.read?_phrases rfl)
      | named name => exact named
      | grouping | look _ => trivial
    exact ⟨⟨inner, rfl, inside⟩, header, Or.inl rfl, repeated⟩
  | .quantified item q s =>
    -- The quantifier joins those after it, and it is written to suit the one inside.
    have greedy : ¬q.lazy → (rs.flatMap Repetition.lexemes ++ rest).head? ≠
        some (.mark .question) := fun greedy => bare (by simpa [Item.endsGreedy] using greedy)
    obtain ⟨-, itemFormed⟩ := Item.everywhere_quantified wellFormed
    have joined : Repetition.RowLegal rest (q.repetition item.endsGreedy :: rs) :=
      ⟨q.legal_amount _, greedy, repeated⟩
    apply item.legal_phrase itemFormed shallow joined
    intro afterGreedy
    rw [afterGreedy, List.flatMap_cons, List.append_assoc]
    exact q.repetition_afterGreedy _

theorem Item.rowLegal_row (items : List Item)
    (wellFormed : ∀ x ∈ Item.rowNodes items, x.WellFormed) {levels : Nat}
    (shallow : Item.rowDepth items ≤ levels) (inGroup : Bool) {rest : List Lexeme}
    (stop : Repetition.read? rest = none) :
    Phrase.RowLegal levels inGroup rest (Item.rowPhrases items) := by
  match items with
  | [] => trivial
  | i :: row =>
    obtain ⟨shallowFirst, shallowRow⟩ := Nat.max_le.mp shallow
    obtain ⟨iFormed, rowFormed⟩ := Item.everywhere_row wellFormed
    -- What comes next is another item or what stops the row, and neither is a quantifier.
    have next : Repetition.read? (Phrase.rowLexemes (Item.rowPhrases row) ++ rest) = none :=
      Branch.read?_phrases ⟨row, default⟩ stop
    have first : (i.phrase []).Legal levels (Phrase.rowLexemes (Item.rowPhrases row) ++ rest) :=
      i.legal_phrase iFormed shallowFirst next fun _ => Repetition.head?_ne_question next
    exact ⟨first, fun _ => i.phrase_ne_stray [] _,
      Item.rowLegal_row row rowFormed shallowRow inGroup stop⟩

end

end PatternTree
