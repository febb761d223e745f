import PatternTree.Proofs.Meaning.WellFormed
import PatternTree.Proofs.RoundTrip.Places
import PatternTree.Proofs.RoundTrip.Rows

/-!
Parsing undoes printing. The phrases of a well-formed tree are what its text is read as, they stand
for the tree with each node in its place, and there is nothing wrong with them.
-/

namespace PatternTree

-- ═══════════════════════════════════════════════════════════════
-- Widths
-- ═══════════════════════════════════════════════════════════════

theorem Lexeme.Writes.width {l : Lexeme} {source : List Char} (written : l.Writes source) :
    l.width = source.length := by
  rw [← written.text, length_text]

theorem SpelledAs.width {ls : List Lexeme} {source : List Char} (spelled : SpelledAs ls source) :
    textWidth ls = source.length := by
  rw [← spelled.1, length_flatMap_text]

theorem Quantifier.width_repetition (q : Quantifier) (afterGreedy : Bool) :
    (q.repetition afterGreedy).width = (q.source afterGreedy).length := by
  rw [← Repetition.textWidth_lexemes, (q.spelledAs_repetition afterGreedy).width]

theorem CharSet.width_bracket (s : CharSet) : s.bracket.width = s.source.length := by
  rw [← Bracket.textWidth_lexemes, s.spelledAs_bracket.width]

theorem Expression.rowWidth_phrases {e : Expression} (wellFormed : ∀ x ∈ e.nodes, x.WellFormed) :
    Phrase.rowWidth e.phrases = e.source.length := by
  rw [← Phrase.textWidth_rowLexemes, (e.spelledAs_phrases wellFormed).width]

theorem Item.width_phrase {i : Item} (wellFormed : ∀ x ∈ i.nodes, x.WellFormed) :
    (i.phrase []).width = i.source.length := by
  have spelled : SpelledAs (i.phrase []).lexemes (i.source ++ []) :=
    i.spelledAs_phrase wellFormed SpelledAs.nil
  rw [← Phrase.textWidth_lexemes, spelled.width, List.append_nil]

namespace Member

theorem width_piece (m : Member) : m.piece.width = m.source.length := by
  cases m with
  | single c => exact c.glyph.lexemeInSet_writes.width
  | range first last s =>
    simp [piece, source, Piece.width, first.glyph.lexemeInSet_writes.width,
      last.glyph.lexemeInSet_writes.width, Nat.add_assoc, Nat.add_comm 1]

theorem member?_piece {m : Member} (wellFormed : m.WellFormed) (start : Nat) :
    m.piece.member? start = some (m.placed start) ∧ m.piece.diagnostics start = [] := by
  have lone (g : Glyph) : g.lexemeInSet ≠ .dangling := by
    rcases g.lexemeInSet_writes.bare_or_escaped with ⟨c, written⟩ | ⟨c, written⟩ <;>
      simp [written]
  have width := m.width_piece
  cases m with
  | single c =>
    rw [piece, Piece.width] at width
    constructor
    · rw [piece, Piece.member?, Glyph.glyphInSet?_lexemeInSet wellFormed, width]
      rfl
    · simp [piece, Piece.diagnostics, Piece.reversed, lone]
  | range first last s =>
    obtain ⟨low, high, inOrder⟩ := wellFormed
    obtain ⟨stands, kept⟩ := Piece.member?_range (Glyph.glyphInSet?_lexemeInSet low)
      (Glyph.glyphInSet?_lexemeInSet high) inOrder start
    constructor
    · rw [piece, stands, placed, Span.ofText, Span.ofText, Span.ofText, ← width, piece,
        Piece.width, first.glyph.lexemeInSet_writes.width, last.glyph.lexemeInSet_writes.width]
      simp [Nat.add_assoc]
    · simp [piece, Piece.diagnostics, kept]

theorem members_pieces {ms : List Member} (wellFormed : ∀ m ∈ ms, m.WellFormed) (start : Nat) :
    Piece.members start (ms.map piece) = placedRow start ms ∧
      Piece.rowDiagnostics start (ms.map piece) = [] := by
  induction ms generalizing start with
  | nil => exact ⟨rfl, rfl⟩
  | cons m ms ih =>
    obtain ⟨stands, clean⟩ := member?_piece (wellFormed m (by simp)) start
    obtain ⟨members, diagnostics⟩ := ih (fun n member => wellFormed n (by simp [member]))
      (start + m.source.length)
    simp [Piece.members, Piece.rowDiagnostics, placedRow, stands, clean, members, diagnostics,
      width_piece]

end Member

theorem CharSet.charSet_bracket (s : CharSet) (wellFormed : ∀ m ∈ s.members, m.WellFormed)
    (start : Nat) :
    s.bracket.charSet start = s.placed start ∧ s.bracket.diagnostics start = [] := by
  obtain ⟨members, clean⟩ := Member.members_pieces wellFormed
    (start + (1 + s.inverted.toNat))
  constructor
  · rw [Bracket.charSet, s.width_bracket]
    exact congrArg (CharSet.mk s.inverted · _) members
  · rw [Bracket.diagnostics]
    exact congrArg (· ++ []) clean

-- ═══════════════════════════════════════════════════════════════
-- Phrases stand for the tree
-- ═══════════════════════════════════════════════════════════════

/-- The lexeme of a character stands for the character wherever it is written. -/
theorem Glyph.item?_lexeme (g : Glyph) (start : Nat) :
    g.lexeme.item? start = some (.character ⟨g, .ofText start g.source⟩) := by
  have glyph := g.glyph?_lexeme
  have width := g.lexeme_writes.width
  have unmarked : g.lexeme.item? start =
      g.lexeme.glyph?.map fun g' => .character ⟨g', ⟨start, start + g.lexeme.width⟩⟩ := by
    rcases g.lexeme_writes.bare_or_escaped with ⟨c, written⟩ | ⟨c, written⟩ <;>
      rw [written] <;> rfl
  rw [unmarked, glyph, width]
  rfl

/-- A quantifier counts the same on its item and on the row of those after it. -/
theorem Item.stacked_inside {i : Item} {q : Quantifier} {s : Span} {rs : List Repetition}
    (few : (Item.quantified i q s).stacked + rs.length ≤ maxStacked) (r : Repetition) :
    i.stacked + (r :: rs).length ≤ maxStacked := by
  rw [stacked] at few
  rw [List.length_cons]
  omega

mutual

theorem Expression.expression_phrases (e : Expression) (wellFormed : ∀ x ∈ e.nodes, x.WellFormed)
    (start : Nat) : Phrase.expression start e.phrases = e.placed start := by
  match e with
  | .single b =>
    have branch := b.branches_phrases (Expression.everywhere_single wellFormed) start
    rw [Phrase.expression, Expression.phrases, branch]
    rfl
  | .alternation left right s =>
    obtain ⟨leftFormed, rightFormed⟩ := Expression.everywhere_alternation wellFormed
    have first := left.expression_phrases leftFormed start
    have last := right.branches_phrases rightFormed (start + left.source.length + 1)
    -- The fold spans both sides and the bar between them, which is the text of the alternation.
    have whole : (Span.ofText start left.source).hull
        (Span.ofText (start + left.source.length + 1) right.source) =
          Span.ofText start (Expression.alternation left right s).source := by
      simp [Span.hull, Span.ofText, Expression.source]
      omega
    rw [Phrase.expression] at first
    rw [Phrase.expression, Expression.phrases, Phrase.branches_append_bar,
      left.rowWidth_phrases leftFormed, last, Expression.ofBranches_append_singleton, first,
      Expression.placed, left.span_placed, right.span_placed, whole]

theorem Branch.branches_phrases (b : Branch) (wellFormed : ∀ x ∈ b.nodes, x.WellFormed)
    (start : Nat) : Phrase.branches start start b.phrases = (b.placed start, []) := by
  match b with
  | ⟨items, s⟩ =>
    exact Item.branches_row items (Branch.everywhere_items wellFormed) start start

/-- The phrase of an item stands for the item in its place, wrapped in the quantifiers that come
after its own. -/
theorem Item.item?_phrase (i : Item) (wellFormed : ∀ x ∈ i.nodes, x.WellFormed) (start : Nat)
    {rs : List Repetition} (few : i.stacked + rs.length ≤ maxStacked) :
    (i.phrase rs).item? start =
      some (Repetition.wrapAll start (i.placed start) (start + i.source.length) rs) := by
  have own : rs.length ≤ maxStacked := Nat.le_trans (Nat.le_add_left _ _) few
  match i with
  | .character c =>
    have stands := c.glyph.item?_lexeme start
    have width := c.glyph.lexeme_writes.width
    rw [Item.phrase, Phrase.item?, stands, width, Option.map_some, Repetition.wrap_eq_wrapAll own]
    rfl
  | .lineStart _ | .lineEnd _ | .anyCharacter _ =>
    exact congrArg some (Repetition.wrap_eq_wrapAll own start _ _)
  | .set s =>
    have set := (s.charSet_bracket (Item.everywhere_members wellFormed) start).1
    rw [Item.phrase, Phrase.item?, set, s.width_bracket, Repetition.wrap_eq_wrapAll own]
    rfl
  | .group kind body s =>
    obtain ⟨-, bodyFormed⟩ := Item.everywhere_group wellFormed
    have inside := body.expression_phrases bodyFormed (start + kind.opening.length)
    have stop : start + kind.opening.length + body.source.length + 1 =
        start + (Item.group kind body s).source.length := by
      simp [Item.source, Nat.add_assoc]
    rw [Phrase.expression] at inside
    simp only [Item.phrase, Phrase.item?, Header.width, inside, body.rowWidth_phrases bodyFormed,
      Bool.toNat_true, stop, Repetition.wrap_eq_wrapAll own]
    rfl
  | .quantified item q s =>
    obtain ⟨⟨-, ordered⟩, itemFormed⟩ := Item.everywhere_quantified wellFormed
    let around := q.repetition item.endsGreedy
    have inside := item.item?_phrase itemFormed start (Item.stacked_inside few around)
    have stop : start + item.source.length + (q.source item.endsGreedy).length =
        start + (Item.quantified item q s).source.length := by
      simp [Item.source, Nat.add_assoc]
    rw [Item.phrase, inside, Repetition.wrapAll, (Quantifier.quantifier_repetition ordered _).1,
      q.width_repetition, stop]
    rfl

theorem Item.branches_row (row : List Item) (wellFormed : ∀ x ∈ Item.rowNodes row, x.WellFormed)
    (start position : Nat) :
    Phrase.branches start position (Item.rowPhrases row) =
      (⟨Item.placedRow position row, ⟨start, position + (Item.rowSource row).length⟩⟩, []) := by
  match row with
  | [] => rfl
  | i :: row =>
    obtain ⟨iFormed, rowFormed⟩ := Item.everywhere_row wellFormed
    have first : (i.phrase []).item? position = some (i.placed position) :=
      i.item?_phrase iFormed position (Item.stacked_le (iFormed _ i.mem_nodes))
    have rest := Item.branches_row row rowFormed start (position + i.source.length)
    rw [Item.rowPhrases, Phrase.branches_item first, Item.width_phrase iFormed, rest]
    simp [Item.placedRow, Item.rowSource, Nat.add_assoc]

end

-- ═══════════════════════════════════════════════════════════════
-- Nothing is wrong
-- ═══════════════════════════════════════════════════════════════

mutual

theorem Expression.rowDiagnostics_phrases (e : Expression)
    (wellFormed : ∀ x ∈ e.nodes, x.WellFormed) (start : Nat) :
    Phrase.rowDiagnostics start e.phrases = [] := by
  match e with
  | .single b =>
    exact b.rowDiagnostics_phrases (Expression.everywhere_single wellFormed) start
  | .alternation left right s =>
    obtain ⟨leftFormed, rightFormed⟩ := Expression.everywhere_alternation wellFormed
    have first := left.rowDiagnostics_phrases leftFormed start
    have second := right.rowDiagnostics_phrases rightFormed
    rw [Expression.phrases, Phrase.rowDiagnostics_append, first, Phrase.rowDiagnostics, second]
    rfl

theorem Branch.rowDiagnostics_phrases (b : Branch) (wellFormed : ∀ x ∈ b.nodes, x.WellFormed)
    (start : Nat) : Phrase.rowDiagnostics start b.phrases = [] := by
  match b with
  | ⟨items, s⟩ =>
    exact Item.rowDiagnostics_row items (Branch.everywhere_items wellFormed) start

theorem Item.diagnostics_phrase (i : Item) (wellFormed : ∀ x ∈ i.nodes, x.WellFormed)
    (start : Nat) {rs : List Repetition} (few : i.stacked + rs.length ≤ maxStacked)
    (inOrder : ∀ r ∈ rs, r.amount.reversed = false) : (i.phrase rs).diagnostics start = [] := by
  have own : rs.length ≤ maxStacked := Nat.le_trans (Nat.le_add_left _ _) few
  have repeated (stop : Nat) : Repetition.diagnostics stop rs = [] :=
    Repetition.diagnostics_eq_nil_iff.mpr ⟨inOrder, own⟩
  match i with
  | .character _ | .lineStart _ | .lineEnd _ | .anyCharacter _ =>
    exact repeated _
  | .set s =>
    have set := (s.charSet_bracket (Item.everywhere_members wellFormed) start).2
    rw [Item.phrase, Phrase.diagnostics, set, repeated]
    rfl
  | .group kind body s =>
    have inside := body.rowDiagnostics_phrases (Item.everywhere_group wellFormed).2
    simp only [Item.phrase, Phrase.diagnostics, inside, repeated]
    rfl
  | .quantified item q s =>
    obtain ⟨⟨-, ordered⟩, itemFormed⟩ := Item.everywhere_quantified wellFormed
    apply item.diagnostics_phrase itemFormed start (Item.stacked_inside few _)
    simpa [(Quantifier.quantifier_repetition ordered item.endsGreedy).2] using inOrder

theorem Item.rowDiagnostics_row (row : List Item)
    (wellFormed : ∀ x ∈ Item.rowNodes row, x.WellFormed) (start : Nat) :
    Phrase.rowDiagnostics start (Item.rowPhrases row) = [] := by
  match row with
  | [] => rfl
  | i :: row =>
    obtain ⟨iFormed, rowFormed⟩ := Item.everywhere_row wellFormed
    have first : (i.phrase []).diagnostics start = [] :=
      i.diagnostics_phrase iFormed start (Item.stacked_le (iFormed _ i.mem_nodes)) (by simp)
    have rest := Item.rowDiagnostics_row row rowFormed
    rw [Item.rowPhrases, Phrase.rowDiagnostics, first, rest]
    rfl

end

-- ═══════════════════════════════════════════════════════════════
-- Parsing undoes printing
-- ═══════════════════════════════════════════════════════════════

/-- The text of a well-formed tree is read as the phrases of the tree. -/
theorem Expression.phrases_ofText {e : Expression} (wellFormed : e.WellFormed) (unicode : Bool) :
    (Pattern.ofText e.text unicode).phrases = e.phrases := by
  obtain ⟨shallow, nodes⟩ := wellFormed
  have spelled := e.spelledAs_phrases nodes
  apply Pattern.phrases_eq
  · rw [Pattern.lexemes, Pattern.ofText, Expression.text, String.toList_ofList]
    exact spelled.scan_eq.symm
  -- A well-formed tree nests no deeper than reading goes.
  · exact e.rowLegal_phrases nodes shallow false rfl

/-- Parsing undoes printing: the text of a well-formed tree has nothing wrong with it and parses
to the tree, except that the span of each node now delimits the text of the node. -/
theorem Expression.parse_text {e : Expression} (wellFormed : e.WellFormed) (unicode : Bool) :
    let parsed := (Pattern.ofText e.text unicode).parse
    parsed.diagnostics = [] ∧ parsed.expression = e.placed 0 ∧
      parsed.expression.shape = e.shape ∧
      ∀ x ∈ parsed.expression.nodes, x.Delimits 0 e.source := by
  have phrases := phrases_ofText wellFormed unicode
  have expression := e.expression_phrases wellFormed.2 0
  have diagnostics := e.rowDiagnostics_phrases wellFormed.2 0
  simp only [Pattern.parse, phrases, expression, diagnostics]
  exact ⟨trivial, trivial, e.shape_placed 0, e.delimits_placed 0⟩

/-- A tree with a set, a quantifier, a named group and an escaped parenthesis. -/
def Expression.sample : Expression :=
  let letters : Member := .range ⟨.literal 'a', .blank⟩ ⟨.literal 'z', .blank⟩ .blank
  let repeated : Item := .quantified (.set ⟨true, [letters], .blank⟩) ⟨2, some 3, true⟩ .blank
  let inside : Expression := .single ⟨[.character ⟨.literal '(', .blank⟩], .blank⟩
  .alternation (.single ⟨[repeated], .blank⟩) ⟨[.group (.named "n") inside .blank], .blank⟩ .blank

theorem Expression.parse_text_sample :
    let parsed := (Pattern.ofText Expression.sample.text true).parse
    Expression.sample.text = "[^a-z]\x7b2,3\x7d?|(?<n>\\()" ∧ Expression.sample.WellFormed ∧
      parsed.diagnostics = [] ∧ parsed.expression = Expression.sample.placed 0 ∧
      parsed.expression.shape = Expression.sample.shape ∧
      ∀ x ∈ parsed.expression.nodes, x.Delimits 0 Expression.sample.source := by
  have wellFormed : Expression.sample.WellFormed := by decide
  exact ⟨by decide, wellFormed, Expression.parse_text wellFormed true⟩

end PatternTree
