import PatternTree.Proofs.Coverage.Spans
import PatternTree.Proofs.Legality.Widths
import PatternTree.Proofs.Meaning.Extents

/-!
Where diagnostics are: each keeps to the text of the phrase that it is about, and is about some of
it.
-/

namespace PatternTree

namespace Diagnostic

/-- The diagnostic is about some of the characters from `a` to `b`. -/
def Fits (a b : Nat) (d : Diagnostic) : Prop :=
  a ≤ d.span.start ∧ d.span.start < d.span.stop ∧ d.span.stop ≤ b

theorem Fits.widen {a b a' b' : Nat} {d : Diagnostic} (fits : d.Fits a b) (left : a' ≤ a)
    (right : b ≤ b') : d.Fits a' b' :=
  ⟨Nat.le_trans left fits.1, fits.2.1, Nat.le_trans fits.2.2 right⟩

end Diagnostic

namespace Repetition

theorem reversals_fit (start : Nat) (rs : List Repetition) :
    ∀ d ∈ reversals start rs, d.Fits start (start + rowWidth rs) ∧ ¬d.kind.skips := by
  induction rs generalizing start with
  | nil => simp [reversals]
  | cons r rs ih =>
    have width : start + rowWidth (r :: rs) = start + r.width + rowWidth rs := by
      simp [rowWidth, Nat.add_assoc]
    have := r.amount.width_pos
    have amount_le : r.amount.width ≤ r.width := Nat.le_add_right _ _
    intro d member
    rw [width]
    -- A quantifier whose bounds are reversed is reported without its lazy mark.
    rcases List.mem_append.mp member with here | later
    · split at here
      · obtain rfl := List.mem_singleton.mp here
        refine ⟨⟨Nat.le_refl _, ?_, ?_⟩, by simp [Diagnostic.Kind.skips]⟩ <;> simp only <;> omega
      · cases here
    · obtain ⟨fits, keeps⟩ := ih (start + r.width) d later
      exact ⟨fits.widen (Nat.le_add_right _ _) (Nat.le_refl _), keeps⟩

theorem rowWidth_append (rs more : List Repetition) :
    rowWidth (rs ++ more) = rowWidth rs + rowWidth more := by
  induction rs with
  | nil => simp [rowWidth]
  | cons r rs ih => simp [rowWidth, ih, Nat.add_assoc]

theorem rowWidth_pos {rs : List Repetition} (some' : rs ≠ []) : 0 < rowWidth rs := by
  obtain ⟨r, more, rfl⟩ := List.exists_cons_of_ne_nil some'
  have := r.width_pos
  rw [rowWidth]
  omega

/-- The quantifiers past the most that an item keeps take up some text. -/
theorem rowWidth_take_lt {rs : List Repetition} (many : maxStacked < rs.length) :
    rowWidth (rs.take maxStacked) < rowWidth rs := by
  -- More quantifiers than are kept leave some to drop, and none is empty.
  have dropped : 0 < rowWidth (rs.drop maxStacked) := by
    apply rowWidth_pos
    intro none
    rw [List.drop_eq_nil_iff] at none
    omega
  have whole := rowWidth_append (rs.take maxStacked) (rs.drop maxStacked)
  rw [List.take_append_drop] at whole
  omega

theorem diagnostics_fit (start : Nat) (rs : List Repetition) :
    ∀ d ∈ diagnostics start rs, d.Fits start (start + rowWidth rs) := by
  intro d member
  rcases List.mem_append.mp member with here | surplus
  · exact (reversals_fit start rs d here).1
  · split at surplus
    next many =>
      obtain rfl := List.mem_singleton.mp surplus
      have := rowWidth_take_lt many
      exact ⟨Nat.le_add_right _ _, Nat.add_lt_add_left this start, Nat.le_refl _⟩
    · cases surplus

end Repetition

theorem Piece.rowDiagnostics_fit (start : Nat) (ps : List Piece) :
    ∀ d ∈ rowDiagnostics start ps, d.Fits start (start + rowWidth ps) := by
  induction ps generalizing start with
  | nil => simp [rowDiagnostics]
  | cons p ps ih =>
    have := p.width_pos
    intro d member
    rw [rowWidth, ← Nat.add_assoc]
    rcases List.mem_append.mp member with here | later
    · have span : d.span = ⟨start, start + p.width⟩ := by
        unfold diagnostics at here
        split at here
        · rw [List.mem_singleton.mp here]
        · split at here
          · rw [List.mem_singleton.mp here]
          · cases here
      simp only [Diagnostic.Fits, span]
      omega
    · exact (ih _ d later).widen (Nat.le_add_right _ _) (Nat.le_refl _)

theorem Bracket.diagnostics_fit (start : Nat) (b : Bracket) :
    ∀ d ∈ b.diagnostics start, d.Fits start (start + b.width) := by
  -- The pieces end before the closing bracket.
  have whole : start + b.openingWidth + Piece.rowWidth b.pieces ≤ start + b.width := by
    rw [width]
    omega
  intro d member
  rcases List.mem_append.mp member with inside | unclosed
  · exact (Piece.rowDiagnostics_fit _ _ d inside).widen (Nat.le_add_right _ _) whole
  · split at unclosed
    · cases unclosed
    · obtain rfl := List.mem_singleton.mp unclosed
      refine ⟨Nat.le_refl _, Nat.lt_succ_self _, ?_⟩
      simp only [width, openingWidth]
      omega

theorem Header.diagnostics_fit (start : Nat) (h : Header) :
    ∀ d ∈ h.diagnostics start, d.Fits start (start + h.width) := by
  cases h with
  | kind k => simp [diagnostics]
  | unknown => simp [diagnostics, Diagnostic.Fits, width]

namespace Phrase

/-- The diagnostics of a group but for those about its quantifiers. -/
theorem enclosed_fit {h : Header} {body : List Phrase} {start : Nat}
    (inside : ∀ d ∈ rowDiagnostics (start + h.width) body,
      d.Fits (start + h.width) (start + h.width + rowWidth body)) (closed : Bool) :
    ∀ d ∈ h.diagnostics start ++ rowDiagnostics (start + h.width) body ++
        (if closed then [] else [⟨.unclosedGroup, ⟨start, start + 1⟩⟩]),
      d.Fits start (start + h.width + rowWidth body + closed.toNat) := by
  have := h.width_pos
  intro d member
  simp only [List.mem_append] at member
  rcases member with (header | within) | unclosed
  · exact (h.diagnostics_fit start d header).widen (Nat.le_refl _) (by omega)
  · exact (inside d within).widen (Nat.le_add_right _ _) (Nat.le_add_right _ _)
  · split at unclosed
    · cases unclosed
    · obtain rfl := List.mem_singleton.mp unclosed
      refine ⟨Nat.le_refl _, Nat.lt_succ_self _, ?_⟩
      simp only
      omega

mutual

theorem diagnostics_fit (p : Phrase) {levels : Nat} {rest : List Lexeme}
    (legal : p.Legal levels rest) (start : Nat) :
    ∀ d ∈ p.diagnostics start, d.Fits start (start + p.width) := by
  intro d member
  match p with
  | .bar => cases member
  | .stray l =>
    obtain rfl := List.mem_singleton.mp member
    exact ⟨Nat.le_refl _, Nat.lt_add_of_pos_right l.width_pos, Nat.le_refl _⟩
  | .tooDeep ls =>
    obtain rfl := List.mem_singleton.mp member
    obtain ⟨-, inner, rfl, -⟩ := legal
    have wide : 0 < textWidth (.mark .openParen :: inner) := by
      rw [textWidth_cons]
      exact Nat.add_pos_left (Lexeme.width_pos _) _
    exact ⟨Nat.le_refl _, Nat.lt_add_of_pos_right wide, Nat.le_refl _⟩
  | .single l rs =>
    have fits := Repetition.diagnostics_fit _ rs d member
    exact fits.widen (Nat.le_add_right _ _) (by rw [width]; omega)
  | .set b rs =>
    rw [width]
    rcases List.mem_append.mp member with inside | after
    · exact (b.diagnostics_fit start d inside).widen (Nat.le_refl _) (by omega)
    · exact (Repetition.diagnostics_fit _ rs d after).widen (Nat.le_add_right _ _) (by omega)
  | .group h body closed rs =>
    obtain ⟨⟨inner, -, row⟩, -⟩ := legal
    have inside := rowDiagnostics_fit body row (start + h.width)
    rw [width]
    rcases List.mem_append.mp member with enclosed | after
    · exact (enclosed_fit inside closed d enclosed).widen (Nat.le_refl _) (by omega)
    · exact (Repetition.diagnostics_fit _ rs d after).widen (by omega) (by omega)

theorem rowDiagnostics_fit (ps : List Phrase) {levels : Nat} {inGroup : Bool} {rest : List Lexeme}
    (row : RowLegal levels inGroup rest ps) (start : Nat) :
    ∀ d ∈ rowDiagnostics start ps, d.Fits start (start + rowWidth ps) := by
  intro d member
  match ps with
  | [] => cases member
  | p :: ps =>
    obtain ⟨legal, -, row⟩ := row
    rw [rowWidth, ← Nat.add_assoc]
    rcases List.mem_append.mp member with here | later
    · exact (diagnostics_fit p legal start d here).widen (Nat.le_refl _) (Nat.le_add_right _ _)
    · exact (rowDiagnostics_fit ps row _ d later).widen (Nat.le_add_right _ _) (Nat.le_refl _)

end

end Phrase

end PatternTree
