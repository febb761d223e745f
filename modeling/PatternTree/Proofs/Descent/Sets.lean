import PatternTree.Descent.Sets
import PatternTree.Proofs.Descent.Steps
import PatternTree.Proofs.Meaning.Extents

/-!
The descent through character sets. Main statement: it finds the set that is read from the lexemes
and reports the same of it. A range always has its end, since the look past the dash lets only
characters through.
-/

namespace PatternTree

theorem Token.character?_kind (l : Lexeme) (span : Span) :
    Token.character? ⟨l.kind, span⟩ = l.glyph?.map (⟨·, span⟩) := by
  cases l with
  | escape c =>
    rcases Lexeme.kind_escape c with ⟨d, kind, glyph⟩ | ⟨d, kind, glyph⟩ | ⟨kind, glyph⟩ <;>
    · have stands : (Lexeme.escape c).glyph? = some (Glyph.ofEscape c) := rfl
      rw [stands, glyph, kind]
      rfl
  | _ => rfl

theorem Lexeme.endsRange_kind (l : Lexeme) : l.kind.endsRange = l.endsRange := by
  cases l with
  | mark m => cases m <;> rfl
  | escape c =>
    rcases kind_escape c with ⟨d, kind, -⟩ | ⟨d, kind, -⟩ | ⟨kind, -⟩ <;>
    · rw [kind]
      rfl
  | _ => rfl

theorem Lexeme.kind_eq_shorthand {l : Lexeme} {d : Shorthand} :
    l.kind = .shorthand d ↔ l.glyph? = some (.shorthand d) := by
  cases l with
  | escape c =>
    have stands : (escape c).glyph? = some (Glyph.ofEscape c) := rfl
    rcases kind_escape c with ⟨_, kind, glyph⟩ | ⟨_, kind, glyph⟩ | ⟨kind, glyph⟩ <;>
      simp [kind, stands, glyph]
  | _ => simp [kind, glyph?]

namespace Descent

variable {s : State} {l : Lexeme} {ls rest : List Lexeme}

theorem setCharacter_run (here : s.At (l :: ls)) :
    let span : Span := ⟨s.cursor.consumed, s.cursor.consumed + l.width⟩
    setCharacter.run s = .ok (l.glyphInSet?.map (⟨·, span⟩),
      s.past l.width (if l = .dangling then [⟨.unknownPart, span⟩] else [])) := by
  intro span
  rw [setCharacter, run_bind_ok (advance_cons here)]
  simp only [Lexeme.first, Lexeme.firstKind, Lexeme.firstWidth, Token.character?_kind,
    Lexeme.kind_eq_shorthand]
  by_cases boundary : l.glyph? = some (.shorthand .wordBoundary)
  · have other : l ≠ .dangling := by
      rintro rfl
      cases boundary
    simp [boundary, Lexeme.glyphInSet?, other, span]
  · rw [if_neg boundary]
    cases stands : l.glyph? with
    | none =>
      have lone : l = .dangling := by
        cases l <;> first | rfl | cases stands
      subst lone
      refine (run_bind_ok (report_run _ _ _) _).trans ?_
      rw [State.past_past]
      rfl
    | some g =>
      have other : l ≠ .dangling := by
        rintro rfl
        cases stands
      have plain : g ≠ .shorthand .wordBoundary := by
        rintro rfl
        exact boundary stands
      simp [Lexeme.glyphInSet?, stands, other, plain, span]

theorem rangeGoesOn_run (here : s.At ls) :
    rangeGoesOn.run s = .ok (Piece.rangeFollows ls, s) := by
  have plain : Control.letter? '-' = none := rfl
  rw [rangeGoesOn, run_bind_ok (current_run here)]
  by_cases dash : ls.head? = some (.plain '-')
  · obtain ⟨more, rfl⟩ := List.head?_eq_some_iff.mp dash
    rw [if_pos ((Lexeme.isBare_kind_first plain).mpr rfl), run_bind_ok (after_run here)]
    cases more with
    | nil => rfl
    | cons last more =>
      simp [Lexeme.first, Lexeme.firstKind, Lexeme.endsRange_kind, Piece.rangeFollows]
  · have alone : Piece.rangeFollows ls = false := by
      unfold Piece.rangeFollows
      split
      · exact absurd rfl dash
      · rfl
    rw [if_neg (Lexeme.not_isBare_kind_first plain dash), alone]
    rfl

/-- A character that a range may begin or end with. -/
theorem setCharacter_glyph {g : Glyph} (here : s.At (l :: ls)) (stands : l.glyphInSet? = some g) :
    setCharacter.run s =
      .ok (some ⟨g, ⟨s.cursor.consumed, s.cursor.consumed + l.width⟩⟩, s.past l.width []) := by
  have other : l ≠ .dangling := by
    rintro rfl
    cases stands
  rw [setCharacter_run here, stands, if_neg other]
  rfl

-- ═══════════════════════════════════════════════════════════════
-- Members
-- ═══════════════════════════════════════════════════════════════

/-- The descent through a piece answers as reading does. -/
def PieceRun (s : State) (p : Piece) : Prop :=
  member.run s =
    .ok (p.member? s.cursor.consumed, s.past p.width (p.diagnostics s.cursor.consumed))

theorem member_single (here : s.At (l :: ls)) (alone : ¬Piece.rangeFollows ls) :
    PieceRun s (.single l) := by
  rw [PieceRun, member]
  by_cases lone : l = .dangling
  · subst lone
    rw [run_bind_ok (setCharacter_run here)]
    rfl
  · obtain ⟨g, stands⟩ := Lexeme.exists_glyphInSet? lone
    have none : Piece.diagnostics s.cursor.consumed (.single l) = [] := by
      simp [Piece.diagnostics, Piece.reversed, lone]
    have next := rangeGoesOn_run (here.tail [])
    rw [run_bind_ok (setCharacter_glyph here stands)]
    refine (run_bind_ok next _).trans ?_
    rw [if_neg alone, none, Piece.member?, stands]
    rfl

/-- The descent through two characters with a dash between them answers as reading does. -/
theorem rangeBetween_run {first last : Lexeme} {g h : Glyph} (low : first.glyphInSet? = some g)
    (high : last.glyphInSet? = some h) :
    let p := Piece.range first last
    let start := s.cursor.consumed
    let dash := start + (first.width + 1)
    ∃ m, p.member? start = some m ∧
      (rangeBetween ⟨g, ⟨start, start + first.width⟩⟩ ⟨h, ⟨dash, dash + last.width⟩⟩).run
        (s.past p.width []) = .ok (m, s.past p.width (p.diagnostics start)) := by
  intro p start dash
  have hull : Span.hull ⟨start, start + first.width⟩ ⟨dash, dash + last.width⟩ =
      ⟨start, start + p.width⟩ := by
    simp only [Span.hull, p, Piece.width, dash, Span.mk.injEq]
    omega
  have behind : start + first.width + 1 = dash := rfl
  have stop : dash + last.width = start + p.width := by
    simp only [p, Piece.width, dash]
    omega
  have ordered : Span.Ordered ⟨start, start + first.width⟩ := Nat.le_add_right _ _
  have other : p ≠ .single .dangling := by simp [p]
  rw [rangeBetween, run_bind_ok (cover_run ordered _), hull, Piece.member?, low, high, behind, stop,
    Piece.diagnostics, if_neg other, Piece.reversed, low, high]
  cases g with
  | shorthand => exact ⟨_, rfl, rfl⟩
  | literal c =>
    cases h with
    | shorthand => exact ⟨_, rfl, rfl⟩
    | literal d =>
      by_cases reversed : d < c
      · refine ⟨_, if_pos reversed, ?_⟩
        simp only [if_pos reversed]
        rw [run_bind_ok (report_run _ _ _), State.past_past]
        simp [reversed]
      · simp [reversed]

theorem member_range {first last : Lexeme}
    (here : s.At (first :: .plain '-' :: last :: ls)) (ends : last.endsRange) :
    PieceRun s (.range first last) := by
  have before : first ≠ .dangling := fun lone => List.cons_ne_nil _ _ (here.danglingLast.1 lone)
  obtain ⟨g, low⟩ := Lexeme.exists_glyphInSet? before
  obtain ⟨h, high⟩ := Lexeme.exists_glyphInSet? (Lexeme.ne_of_endsRange ends).2
  -- The dash is looked past before it is consumed, and found to join the two.
  have dash := here.tail []
  have next : (s.past (first.width + 1) []).At (last :: ls) := by
    rw [← State.past_past_nil]
    exact dash.tail []
  have goesOn := rangeGoesOn_run dash
  have joins : Piece.rangeFollows (.plain '-' :: last :: ls) := ends
  obtain ⟨m, stands, run⟩ := rangeBetween_run (s := s) low high
  rw [PieceRun, member, run_bind_ok (setCharacter_glyph here low)]
  refine (run_bind_ok goesOn _).trans ?_
  rw [if_pos joins, run_bind_ok (advance_cons dash)]
  rw [State.past_past_nil, show (Lexeme.plain '-').width = 1 from rfl]
  rw [run_bind_ok (setCharacter_glyph next high), stands, State.past_past_nil]
  exact run_bind_ok run _

-- ═══════════════════════════════════════════════════════════════
-- Sets
-- ═══════════════════════════════════════════════════════════════

section

variable {p : Piece} {opening : Token} {members : List Member}

theorem setRound_member (here : s.At (l :: ls)) (other : l ≠ .mark .closeBracket)
    (run : PieceRun s p) :
    (setRound opening members).run s =
      .ok (.inl (members ++ (p.member? s.cursor.consumed).toList),
        s.past p.width (p.diagnostics s.cursor.consumed)) := by
  rw [setRound, run_bind_ok (current_run here)]
  split
  next kind => exact absurd (Lexeme.kind_eq_mark.mp kind) other
  next kind => exact absurd kind l.kind_ne_finish
  · rw [run_bind_ok run]
    rfl

theorem setRound_close (here : s.At (.mark .closeBracket :: ls)) :
    (setRound opening members).run s = .ok (.inr members, s.past 1 []) := by
  rw [setRound, run_bind_ok (current_run here)]
  exact run_bind_ok (advance_cons here) _

theorem setRound_finish (here : s.At []) :
    (setRound opening members).run s =
      .ok (.inr members, s.past 0 [⟨.unclosedSet, opening.span⟩]) := by
  rw [setRound, run_bind_ok (current_run here)]
  exact run_bind_ok (report_run _ _ _) _

/-- A piece is one round. -/
theorem consuming_piece (here : s.At (l :: ls)) (other : l ≠ .mark .closeBracket)
    (run : PieceRun s p) (next : (s.past p.width (p.diagnostics s.cursor.consumed)).At rest) :
    (consuming (setRound opening) members).run s =
      (consuming (setRound opening) (members ++ (p.member? s.cursor.consumed).toList)).run
        (s.past p.width (p.diagnostics s.cursor.consumed)) :=
  consuming_next next (setRound_member here other run) p.width_pos

/-- The pieces of a set are its rounds, up to the closing bracket or the end of the text. -/
theorem consuming_setRound {ps : List Piece} {closed : Bool}
    (row : Piece.RowLegal (closing .closeBracket closed ++ rest) ps)
    (here : s.At (ps.flatMap Piece.lexemes ++ (closing .closeBracket closed ++ rest)))
    (ended : closed ∨ rest = []) :
    let unclosed : List Diagnostic := if closed then [] else [⟨.unclosedSet, opening.span⟩]
    (consuming (setRound opening) members).run s =
      .ok (members ++ Piece.members s.cursor.consumed ps,
        s.past (Piece.rowWidth ps + closed.toNat)
          (Piece.rowDiagnostics s.cursor.consumed ps ++ unclosed)) := by
  induction ps generalizing s members with
  | nil =>
    cases closed with
    | true =>
      rw [consuming_answer (setRound_close here)]
      simp [Piece.members, Piece.rowWidth, Piece.rowDiagnostics]
    | false =>
      obtain rfl : rest = [] := by simpa using ended
      rw [consuming_answer (setRound_finish here)]
      simp [Piece.members, Piece.rowWidth, Piece.rowDiagnostics]
  | cons p ps ih =>
    rw [List.flatMap_cons, List.append_assoc] at here
    have next := here.past p.textWidth_lexemes (p.diagnostics s.cursor.consumed)
    cases p with
    | single l =>
      obtain ⟨other, alone, row⟩ := row
      rw [consuming_piece here other (member_single here alone) next, ih row next]
      simp [Piece.members, Piece.rowWidth, Piece.rowDiagnostics, Nat.add_assoc]
    | range first last =>
      obtain ⟨other, ends, row⟩ := row
      rw [consuming_piece here other (member_range here ends) next, ih row next]
      simp [Piece.members, Piece.rowWidth, Piece.rowDiagnostics, Nat.add_assoc]

end

/-- The caret is consumed where the set has one. -/
theorem eat_caret {inverted : Bool}
    (here : s.At ((if inverted then [.mark .caret] else []) ++ ls))
    (bare : ¬inverted → ls.head? ≠ some (.mark .caret)) :
    (eat (.mark .caret)).run s = .ok (inverted, s.past inverted.toNat []) ∧
      (s.past inverted.toNat []).At ls := by
  cases inverted with
  | true => exact ⟨eat_mark here, here.tail []⟩
  | false =>
    rw [Bool.toNat_false, State.past_zero]
    exact ⟨eat_other here (bare Bool.false_ne_true), here⟩

/-- The descent through a set finds the set that is read, and reports the same of it. -/
theorem set_run {b : Bracket} (legal : b.Legal rest) (here : s.At (b.lexemes ++ rest)) :
    set.run s =
      .ok (b.charSet s.cursor.consumed, s.past b.width (b.diagnostics s.cursor.consumed)) := by
  obtain ⟨bare, row, ended⟩ := legal
  simp only [Bracket.lexemes, List.append_assoc, List.cons_append] at here
  obtain ⟨eaten, inside⟩ := eat_caret (here.tail []) bare
  rw [State.past_past_nil] at eaten inside
  have width : 1 + b.inverted.toNat + (Piece.rowWidth b.pieces + b.closed.toNat) =
      b.width := by
    simp only [Bracket.width, Bracket.openingWidth, Nat.add_assoc]
  have span := spanFrom_run (s := s.past b.width (b.diagnostics s.cursor.consumed))
    (Nat.le_add_right s.cursor.consumed b.width)
  rw [set, run_bind_ok (advance_cons here), run_bind_ok eaten,
    run_bind_ok (consuming_setRound row inside ended), State.past_past, List.nil_append]
  rw [show (Lexeme.mark .openBracket).width = 1 from rfl, width]
  exact run_bind_ok span _

end Descent

end PatternTree
