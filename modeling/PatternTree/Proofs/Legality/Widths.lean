import PatternTree.Proofs.Legality.Rows

/-!
Widths: a phrase takes up as many characters as its lexemes do. So the places of phrases are places
in the text.
-/

namespace PatternTree

@[simp] theorem textWidth_nil : textWidth [] = 0 := rfl

@[simp] theorem textWidth_cons (l : Lexeme) (ls : List Lexeme) :
    textWidth (l :: ls) = l.width + textWidth ls := rfl

@[simp] theorem textWidth_append (ls more : List Lexeme) :
    textWidth (ls ++ more) = textWidth ls + textWidth more := by
  induction ls with
  | nil => simp
  | cons l ls ih => rw [List.cons_append, textWidth_cons, ih, textWidth_cons, Nat.add_assoc]

@[simp] theorem textWidth_plainRow (cs : List Char) : textWidth (plainRow cs) = cs.length := by
  induction cs with
  | nil => rfl
  | cons c cs ih =>
    rw [plainRow, List.map_cons, textWidth_cons, List.length_cons, Nat.add_comm]
    exact congrArg (· + 1) ih

@[simp] theorem textWidth_closing (m : Mark) (closed : Bool) :
    textWidth (closing m closed) = closed.toNat := by
  cases closed <;> rfl

theorem Amount.textWidth_lexemes (a : Amount) : textWidth a.lexemes = a.width := by
  cases a <;> simp [lexemes, width, Lexeme.width] <;> omega

theorem Repetition.textWidth_lexemes (r : Repetition) : textWidth r.lexemes = r.width := by
  obtain ⟨amount, lazy⟩ := r
  cases lazy <;> simp [lexemes, width, amount.textWidth_lexemes, Lexeme.width]

theorem Repetition.textWidth_row (rs : List Repetition) :
    textWidth (rs.flatMap lexemes) = rowWidth rs := by
  induction rs with
  | nil => rfl
  | cons r rs ih => simp [rowWidth, ih, textWidth_lexemes]

theorem Repetition.lexemes_ne_nil (r : Repetition) : r.lexemes ≠ [] := by
  obtain ⟨amount, lazy⟩ := r
  cases amount <;> simp [lexemes, Amount.lexemes]

theorem Repetition.row_append_eq_nil_iff {rs : List Repetition} {rest : List Lexeme} :
    rs.flatMap lexemes ++ rest = [] ↔ rs = [] ∧ rest = [] := by
  cases rs <;> simp [lexemes_ne_nil]

theorem Piece.textWidth_lexemes (p : Piece) : textWidth p.lexemes = p.width := by
  cases p with
  | single => rfl
  | range first last => simp [lexemes, width, Lexeme.width, Nat.add_assoc]

theorem Piece.textWidth_row (ps : List Piece) :
    textWidth (ps.flatMap lexemes) = rowWidth ps := by
  induction ps with
  | nil => rfl
  | cons p ps ih => simp [rowWidth, ih, textWidth_lexemes]

theorem Bracket.textWidth_lexemes (b : Bracket) : textWidth b.lexemes = b.width := by
  obtain ⟨inverted, pieces, closed⟩ := b
  cases inverted <;>
    simp [lexemes, width, openingWidth, Piece.textWidth_row, Lexeme.width] <;> omega

theorem Header.textWidth_lexemes (h : Header) : textWidth h.lexemes = h.width := by
  cases h with
  | unknown => rfl
  | kind k =>
    cases k with
    | named name =>
      simp [lexemes, width, GroupKind.lexemes, GroupKind.opening, Lexeme.width]
      omega
    | look l => cases l <;> rfl
    | _ => rfl

mutual

theorem Phrase.textWidth_lexemes (p : Phrase) : textWidth p.lexemes = p.width := by
  match p with
  | .bar => rfl
  | .stray l => simp [lexemes, width]
  | .tooDeep ls => rfl
  | .single l rs => simp [lexemes, width, Repetition.textWidth_row]
  | .set b rs => simp [lexemes, width, Repetition.textWidth_row, b.textWidth_lexemes]
  | .group h body closed rs =>
    have inside := textWidth_rowLexemes body
    simp [lexemes, width, Repetition.textWidth_row, h.textWidth_lexemes, inside]
    omega

theorem Phrase.textWidth_rowLexemes (ps : List Phrase) :
    textWidth (rowLexemes ps) = rowWidth ps := by
  match ps with
  | [] => rfl
  | p :: ps =>
    have first := textWidth_lexemes p
    have rest := textWidth_rowLexemes ps
    simp [rowLexemes, rowWidth, first, rest]

end

theorem Phrase.width_pos {levels : Nat} {rest : List Lexeme} {p : Phrase}
    (legal : p.Legal levels rest) : 0 < p.width := by
  obtain ⟨l, more, written, -⟩ := lexemes_eq_cons legal
  rw [← p.textWidth_lexemes, written, textWidth_cons]
  exact Nat.add_pos_left l.width_pos _

/-- The phrases of a pattern take up all of it. -/
theorem Pattern.rowWidth_phrases (p : Pattern) : Phrase.rowWidth p.phrases = p.length := by
  rw [← Phrase.textWidth_rowLexemes, p.rowLexemes_phrases, ← length_flatMap_text, lexemes,
    Lexeme.flatMap_text_scan]
  rfl

end PatternTree
