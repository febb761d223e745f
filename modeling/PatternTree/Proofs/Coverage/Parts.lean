import PatternTree.Proofs.Coverage.Diagnostics
import PatternTree.Proofs.Legality.Places

/-!
Coverage of the parts that hold others: the members of a set share out what is between its
brackets, and the body of a group is all that is between its header and its end.
-/

namespace PatternTree

namespace Piece

theorem lexemes_ne_nil (p : Piece) : p.lexemes ≠ [] := by
  cases p <;> simp [lexemes]

/-- A piece stands for a member unless it is a lone backslash. -/
theorem exists_member? {p : Piece} (start : Nat) (whole : .dangling ∉ p.lexemes) :
    ∃ m, p.member? start = some m := by
  cases p with
  | single l =>
    obtain ⟨g, glyph⟩ := l.exists_glyphInSet? fun lone => whole (by simp [lone, lexemes])
    exact ⟨_, by rw [member?, glyph]; rfl⟩
  | range first last =>
    obtain ⟨g, low⟩ := first.exists_glyphInSet? fun lone => whole (by simp [lone, lexemes])
    obtain ⟨h, high⟩ := last.exists_glyphInSet? fun lone => whole (by simp [lone, lexemes])
    simp only [member?, low, high]
    split
    · split <;> exact ⟨_, rfl⟩
    · exact ⟨_, rfl⟩

/-- Only a piece of its own can be a lone backslash, and then it is the end of the text. -/
theorem whole_or_dangling {p : Piece} {more : List Lexeme} {ps : List Piece}
    {after : List Lexeme} (row : RowLegal after (p :: ps))
    (last : Lexeme.DanglingLast (p.lexemes ++ more)) :
    .dangling ∉ p.lexemes ∨ p = single .dangling ∧ more = [] := by
  cases p with
  | single l =>
    by_cases lone : l = .dangling
    · subst lone
      exact Or.inr ⟨rfl, last.1 rfl⟩
    · exact Or.inl fun member => lone (List.mem_singleton.mp member).symm
  | range low high =>
    have low_whole : low ≠ .dangling := fun lone => List.cons_ne_nil _ _ (last.1 lone)
    have high_whole : high ≠ .dangling := by
      rintro rfl
      cases row.2.1
    left
    simp [lexemes, low_whole.symm, high_whole.symm]

theorem rowLegal_tail {p : Piece} {ps : List Piece} {after : List Lexeme}
    (row : RowLegal after (p :: ps)) : RowLegal after ps := by
  cases p with
  | single => exact row.2.2
  | range => exact row.2.2

/-- Members share out the text of their pieces, but for a lone backslash at the end of the text. -/
theorem tile_members (ps : List Piece) {text : List Char} {after : List Lexeme} {start : Nat}
    (row : RowLegal after ps) (here : ReadAt text start (ps.flatMap lexemes ++ after)) :
    ∃ stop, Span.Tile start ((members start ps).map Member.span) stop ∧
      (stop = start + rowWidth ps ∨
        after = [] ∧ stop + 1 = text.length ∧ text[stop]? = some '\\' ∧
          ⟨.unknownPart, ⟨stop, stop + 1⟩⟩ ∈ rowDiagnostics start ps) := by
  -- By induction on the pieces, with what is left of the text read from where each begins.
  induction ps generalizing start with
  | nil => exact ⟨start, rfl, Or.inl rfl⟩
  | cons p ps ih =>
    rw [List.flatMap_cons, List.append_assoc] at here
    rcases whole_or_dangling row here.danglingLast with whole | ⟨rfl, none⟩
    · have next := here.skip
      rw [p.textWidth_lexemes] at next
      obtain ⟨stop, tile, ended⟩ := ih (rowLegal_tail row) next
      obtain ⟨m, stands⟩ := exists_member? start whole
      have span := span_member? stands
      refine ⟨stop, ?_, ?_⟩
      · rw [members, stands]
        refine ⟨congrArg Span.start span, ?_, ?_⟩
        · rw [span]
          exact Nat.lt_add_of_pos_right p.width_pos
        · rwa [span]
      · rw [rowWidth, ← Nat.add_assoc]
        refine ended.imp_right ?_
        rintro ⟨noRest, length, char, reported⟩
        exact ⟨noRest, length, char, List.mem_append_right _ reported⟩
    · -- Nothing can stand after a lone backslash, so this piece is the last.
      obtain ⟨noPieces, noRest⟩ := List.append_eq_nil_iff.mp none
      obtain rfl : ps = [] := by
        cases ps with
        | nil => rfl
        | cons q qs =>
          rw [List.flatMap_cons] at noPieces
          exact absurd (List.append_eq_nil_iff.mp noPieces).1 q.lexemes_ne_nil
      subst noRest
      have length := here.length_eq
      have char := congrArg List.head? here.drop_eq
      rw [List.head?_drop] at char
      exact ⟨start, rfl, Or.inr ⟨rfl, length.symm, char, List.mem_cons_self⟩⟩

end Piece

/-- The lexemes that open a set. -/
def Bracket.opening (inverted : Bool) : List Lexeme :=
  .mark .openBracket :: if inverted then [.mark .caret] else []

theorem Bracket.textWidth_opening (inverted : Bool) :
    textWidth (opening inverted) = 1 + inverted.toNat := by
  cases inverted <;> rfl

theorem Bracket.flatMap_text_opening (inverted : Bool) :
    (opening inverted).flatMap Lexeme.text = '[' :: if inverted then ['^'] else [] := by
  cases inverted <;> rfl

/-- A legal set is covered where it is written. -/
theorem Bracket.covered_charSet {b : Bracket} {text : List Char} {start : Nat}
    {rest : List Lexeme} {ds : List Diagnostic} (legal : b.Legal rest)
    (here : ReadAt text start (b.lexemes ++ rest)) (reported : ∀ d ∈ b.diagnostics start, d ∈ ds) :
    (b.charSet start).Covered text ds := by
  obtain ⟨inverted, pieces, closed⟩ := b
  obtain ⟨bare, row, ended⟩ := legal
  have split : (Bracket.mk inverted pieces closed).lexemes ++ rest = opening inverted ++
      (pieces.flatMap Piece.lexemes ++ (closing .closeBracket closed ++ rest)) := by
    simp [Bracket.lexemes, opening]
  rw [split] at here
  have inside := here.skip
  rw [textWidth_opening] at inside
  have closes := inside.skip
  rw [Piece.textWidth_row] at closes
  obtain ⟨stop, tile, reached⟩ := Piece.tile_members pieces row inside
  constructor
  · rw [charSet, ← flatMap_text_opening]
    exact here.prefix_drop
  · intro upright
    cases inverted with
    | true => exact absurd rfl upright
    | false => exact here.tail.getElem?_ne_mark (bare upright)
  · refine ⟨stop, tile, ?_⟩
    cases closed with
    -- A lone backslash has no bracket after it, so a closed set is shared out in full.
    | true =>
      left
      rcases reached with rfl | ⟨noBracket, -⟩
      · exact ⟨closes.getElem?_mark, by simp [charSet, width, openingWidth, Nat.add_assoc]⟩
      · cases noBracket
    | false =>
      right
      obtain rfl : rest = [] := by simpa using ended
      have length := closes.length_eq
      refine ⟨?_, reported _ (List.mem_append_right _ (List.mem_singleton.mpr rfl)), ?_⟩
      · rw [length]
        simp [charSet, width, openingWidth, closing, Nat.add_assoc]
      · rcases reached with rfl | ⟨-, last, char, found⟩
        · exact Or.inl length.symm
        · exact Or.inr ⟨last, char, reported _ (List.mem_append_left _ found)⟩

/-- A legal group is covered where it is written. -/
theorem Header.covered_group {h : Header} {text : List Char} {start : Nat}
    {body : List Phrase} {closed : Bool} {after : List Lexeme} {ds : List Diagnostic}
    {inside : Span}
    (legal : h.Legal (Phrase.rowLexemes body ++ (closing .closeParen closed ++ after)))
    (ended : closed ∨ after = [])
    (here : ReadAt text start
      (h.lexemes ++ (Phrase.rowLexemes body ++ (closing .closeParen closed ++ after))))
    (span : inside = ⟨start + h.width, start + h.width + Phrase.rowWidth body⟩)
    (header : ∀ d ∈ h.diagnostics start, d ∈ ds)
    (unclosed : closed = false → ⟨.unclosedGroup, ⟨start, start + 1⟩⟩ ∈ ds) :
    h.groupKind.Covered text ds inside
      ⟨start, start + h.width + Phrase.rowWidth body + closed.toNat⟩ := by
  have within := here.skip
  rw [h.textWidth_lexemes] at within
  have closes := within.skip
  rw [Phrase.textWidth_rowLexemes] at closes
  subst span
  constructor
  · cases h with
    | kind k =>
      left
      refine ⟨?_, rfl, ?_⟩
      · show k.opening <+: _
        rw [← k.flatMap_text_lexemes]
        exact here.prefix_drop
      · intro capture
        obtain rfl : k = .capture := capture
        exact within.getElem?_ne_mark legal
    | unknown =>
      right
      exact ⟨rfl, here.prefix_drop, rfl, header _ (List.mem_singleton.mpr rfl)⟩
  · cases closed with
    | true =>
      left
      exact ⟨closes.getElem?_mark, rfl⟩
    | false =>
      right
      obtain rfl : after = [] := by simpa using ended
      have length := closes.length_eq
      exact ⟨length.symm, length.symm, unclosed rfl⟩

end PatternTree
