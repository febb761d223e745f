import Mathlib.Data.List.Perm.Subperm
import PatternTree.Proofs.Diagnosis.Order
import PatternTree.Proofs.Legality.Tokens

/-!
What diagnostics point at. A diagnostic about a single lexeme has the span of that lexeme, so the
text under it shows what is wrong. Main statement: `diagnostics_parse`, where the diagnostics of a
pattern are, in which order they come, and that none of them comes twice.
-/

namespace PatternTree

-- ═══════════════════════════════════════════════════════════════
-- Lexemes of a pattern
-- ═══════════════════════════════════════════════════════════════

namespace Pattern

/-- The span is that of a token of the pattern, and the text under it is the lexeme. -/
def Shows (p : Pattern) (l : Lexeme) (s : Span) : Prop :=
  ⟨l.kind, s⟩ ∈ p.tokens ∧ p.chars.toList.extract s.start s.stop = l.text

/-- The lexemes are the last ones of the pattern, from `start` on. -/
def EndsIn (p : Pattern) (start : Nat) (ls : List Lexeme) : Prop :=
  ∃ before, p.lexemes = before ++ ls ∧ start = textWidth before

namespace EndsIn

variable {p : Pattern} {start : Nat} {l : Lexeme} {ls more : List Lexeme}

theorem skip (here : p.EndsIn start (ls ++ more)) : p.EndsIn (start + textWidth ls) more := by
  obtain ⟨before, whole, rfl⟩ := here
  exact ⟨before ++ ls, by rw [whole, List.append_assoc], (textWidth_append before ls).symm⟩

theorem tail (here : p.EndsIn start (l :: ls)) : p.EndsIn (start + l.width) ls :=
  (show p.EndsIn start ([l] ++ ls) from here).skip

theorem readAt (here : p.EndsIn start ls) : ReadAt p.chars.toList start ls := by
  obtain ⟨before, whole, rfl⟩ := here
  have all : ReadAt p.chars.toList 0 (before ++ ls) := whole ▸ p.readAt_lexemes
  have rest := all.skip
  rwa [Nat.zero_add] at rest

theorem shown (here : p.EndsIn start (l :: ls)) : p.Shows l ⟨start, start + l.width⟩ := by
  have under := here.readAt.drop_eq
  obtain ⟨before, whole, rfl⟩ := here
  constructor
  · rw [tokens_eq, whole, Lexeme.tokens_append, Nat.zero_add, Lexeme.tokens]
    simp
  · rw [List.extract_eq_take_drop, under, Nat.add_sub_cancel_left, List.flatMap_cons,
      ← l.length_text, List.take_left]

/-- A lone backslash is the last character of a pattern. -/
theorem stop_dangling (here : p.EndsIn start (.dangling :: ls)) : start + 1 = p.length := by
  have last := here.readAt
  obtain rfl := last.danglingLast.1 rfl
  exact last.length_eq.symm

end EndsIn

end Pattern

-- ═══════════════════════════════════════════════════════════════
-- Diagnostics of parts
-- ═══════════════════════════════════════════════════════════════

/-- A diagnostic about a single lexeme points at that lexeme. Others are about a stretch of text. -/
def Diagnostic.PointsIn (p : Pattern) (d : Diagnostic) : Prop :=
  match d.kind with
  | .unopenedGroup => p.Shows (.mark .closeParen) d.span
  | .nothingToRepeat => ∃ m ∈ [Mark.question, .star, .plus], p.Shows (.mark m) d.span
  | .unknownGroupHeader =>
    p.Shows (.mark .question) d.span ∧ ∃ start, p.Shows (.mark .openParen) ⟨start, d.span.start⟩
  | .unclosedGroup => p.Shows (.mark .openParen) d.span
  | .unclosedSet => p.Shows (.mark .openBracket) d.span
  | .unknownPart => p.Shows .dangling d.span ∧ d.span.stop = p.length
  | .reversedRange | .reversedBounds | .groupTooDeep | .tooManyQuantifiers => True

section Parts

variable {p : Pattern} {start : Nat} {rest : List Lexeme}

theorem Repetition.diagnostics_point (rs : List Repetition) :
    ∀ d ∈ diagnostics start rs, d.PointsIn p := by
  intro d member
  rcases List.mem_append.mp member with reversed | surplus
  · rw [Diagnostic.PointsIn, kind_reversals start rs d reversed]
    trivial
  · split at surplus
    · obtain rfl := List.mem_singleton.mp surplus
      trivial
    · cases surplus

theorem Piece.rowDiagnostics_point {ps : List Piece}
    (here : p.EndsIn start (ps.flatMap lexemes ++ rest)) :
    ∀ d ∈ rowDiagnostics start ps, d.PointsIn p := by
  induction ps generalizing start with
  | nil => exact List.forall_mem_nil _
  | cons piece ps ih =>
    rw [List.flatMap_cons, List.append_assoc] at here
    have after := here.skip
    rw [piece.textWidth_lexemes] at after
    refine List.forall_mem_append.mpr ⟨?_, ih after⟩
    unfold diagnostics
    split
    next lone =>
      subst lone
      exact List.forall_mem_singleton.mpr ⟨here.shown, here.stop_dangling⟩
    · split
      · exact List.forall_mem_singleton.mpr trivial
      · exact List.forall_mem_nil _

theorem Bracket.diagnostics_point {b : Bracket} (here : p.EndsIn start (b.lexemes ++ rest)) :
    ∀ d ∈ b.diagnostics start, d.PointsIn p := by
  have opening : textWidth (.mark .openBracket :: if b.inverted then [.mark .caret] else []) =
      b.openingWidth := by
    rw [openingWidth]
    cases b.inverted <;> rfl
  have bracket := here.shown
  rw [lexemes, List.append_assoc, List.append_assoc] at here
  have inside := here.skip
  rw [opening] at inside
  refine List.forall_mem_append.mpr ⟨Piece.rowDiagnostics_point inside, ?_⟩
  split
  · exact List.forall_mem_nil _
  · exact List.forall_mem_singleton.mpr bracket

theorem Header.diagnostics_point {h : Header} (here : p.EndsIn start (h.lexemes ++ rest)) :
    ∀ d ∈ h.diagnostics start, d.PointsIn p := by
  cases h with
  | kind k => exact List.forall_mem_nil _
  | unknown => exact List.forall_mem_singleton.mpr ⟨here.tail.shown, start, here.shown⟩

/-- The lexeme that opens a group is the parenthesis. -/
theorem Header.shows_openParen {h : Header} (here : p.EndsIn start (h.lexemes ++ rest)) :
    p.Shows (.mark .openParen) ⟨start, start + 1⟩ := by
  obtain ⟨more, opening⟩ := h.lexemes_eq_cons
  rw [opening] at here
  exact here.shown

theorem Lexeme.fault_points {l : Lexeme} (stray : l.isStray)
    (here : p.EndsIn start (l :: rest)) :
    (Diagnostic.mk l.fault ⟨start, start + l.width⟩).PointsIn p := by
  have shown := here.shown
  cases l with
  | mark m =>
    cases m with
    | closeParen => exact shown
    | question | star | plus => exact ⟨_, by decide, shown⟩
    | _ => cases stray
  | dangling => exact ⟨shown, here.stop_dangling⟩
  | _ => cases stray

end Parts

-- ═══════════════════════════════════════════════════════════════
-- Diagnostics of phrases
-- ═══════════════════════════════════════════════════════════════

namespace Phrase

mutual

theorem diagnostics_point (phrase : Phrase) {p : Pattern} {levels start : Nat} {rest : List Lexeme}
    (legal : phrase.Legal levels rest) (here : p.EndsIn start (phrase.lexemes ++ rest)) :
    ∀ d ∈ phrase.diagnostics start, d.PointsIn p := by
  match phrase with
  | .bar => exact List.forall_mem_nil _
  | .stray l => exact List.forall_mem_singleton.mpr (Lexeme.fault_points legal here)
  | .tooDeep ls => exact List.forall_mem_singleton.mpr trivial
  | .single l rs => exact Repetition.diagnostics_point rs
  | .set b rs =>
    rw [lexemes, List.append_assoc] at here
    exact List.forall_mem_append.mpr
      ⟨Bracket.diagnostics_point here, Repetition.diagnostics_point rs⟩
  | .group h body closed rs =>
    obtain ⟨⟨inner, -, row⟩, -⟩ := legal
    simp only [lexemes, List.append_assoc] at here
    have within := here.skip
    rw [h.textWidth_lexemes] at within
    refine List.forall_mem_append.mpr
      ⟨List.forall_mem_append.mpr ⟨List.forall_mem_append.mpr ⟨?_, ?_⟩, ?_⟩, ?_⟩
    · exact Header.diagnostics_point here
    · exact rowDiagnostics_point body row within
    · split
      · exact List.forall_mem_nil _
      · exact List.forall_mem_singleton.mpr (Header.shows_openParen here)
    · exact Repetition.diagnostics_point rs

theorem rowDiagnostics_point (ps : List Phrase) {p : Pattern} {levels start : Nat} {inGroup : Bool}
    {rest : List Lexeme} (row : RowLegal levels inGroup rest ps)
    (here : p.EndsIn start (rowLexemes ps ++ rest)) :
    ∀ d ∈ rowDiagnostics start ps, d.PointsIn p := by
  match ps with
  | [] => exact List.forall_mem_nil _
  | phrase :: ps =>
    obtain ⟨legal, -, row⟩ := row
    rw [rowLexemes, List.append_assoc] at here
    have after := here.skip
    rw [phrase.textWidth_lexemes] at after
    exact List.forall_mem_append.mpr
      ⟨diagnostics_point phrase legal here, rowDiagnostics_point ps row after⟩

end

end Phrase

-- ═══════════════════════════════════════════════════════════════
-- Diagnostics of a pattern
-- ═══════════════════════════════════════════════════════════════

namespace Pattern

theorem points_parse (p : Pattern) : ∀ d ∈ p.parse.diagnostics, d.PointsIn p := by
  have here : p.EndsIn 0 (Phrase.rowLexemes p.phrases ++ []) := by
    refine ⟨[], ?_, rfl⟩
    rw [List.append_nil, p.rowLexemes_phrases, List.nil_append]
  exact Phrase.rowDiagnostics_point p.phrases p.rowLegal_phrases here

/-- A lexeme takes up the whole span that shows it. -/
theorem Shows.stop_eq {p : Pattern} {l : Lexeme} {s : Span} (shown : p.Shows l s)
    (inside : s.stop ≤ p.length) : s.stop = s.start + l.width := by
  have width := congrArg List.length shown.2
  rw [List.extract_eq_take_drop, List.length_take, List.length_drop, l.length_text] at width
  have size : p.chars.toList.length = p.length := rfl
  have := l.width_pos
  omega

/-- There is one last character, and so at most one backslash that is alone at the end. -/
theorem eq_of_unknownPart {p : Pattern} {d : Diagnostic} (points : d.PointsIn p)
    (fits : d.Fits 0 p.length) (unknown : d.kind = .unknownPart) :
    d = ⟨.unknownPart, ⟨p.length - 1, p.length⟩⟩ := by
  obtain ⟨kind, start, stop⟩ := d
  subst unknown
  obtain ⟨shown, last⟩ := points
  have whole : stop = start + 1 := shown.stop_eq fits.2.2
  obtain rfl : stop = p.length := last
  simp [whole]

end Pattern

/-- A kind that fixes the whole diagnostic is that of one diagnostic at most. -/
theorem Diagnostic.count_le_one {ds : List Diagnostic} {k : Kind} {d : Diagnostic}
    (unique : ds.Nodup) (only : ∀ e ∈ ds, e.kind = k → e = d) : (ds.map kind).count k ≤ 1 := by
  rw [List.count, List.countP_map, List.countP_eq_length_filter]
  have alone : ds.filter ((· == k) ∘ kind) ⊆ [d] := by
    intro e found
    obtain ⟨member, same⟩ := List.mem_filter.mp found
    exact List.mem_singleton.mpr (only e member (by simpa using same))
  exact (List.subperm_of_subset (unique.filter _) alone).length_le

/-- Each diagnostic is about some of the pattern and points at what it is about, and none comes
twice. Those about faults inside the text come first, in the order in which they end; then comes
what the end of the text leaves open, from the inside out. -/
theorem Pattern.diagnostics_parse (p : Pattern) :
    let ds := p.parse.diagnostics
    (∀ d ∈ ds, d.Fits 0 p.length ∧ d.PointsIn p) ∧ ds.Nodup ∧
      (ds.map Diagnostic.kind).count .unknownPart ≤ 1 ∧
      ∃ settled sets groups, ds = settled ++ (sets ++ groups) ∧
        (∀ d ∈ settled, d.kind ≠ .unclosedSet ∧ d.kind ≠ .unclosedGroup) ∧
        settled.Pairwise Diagnostic.Before ∧
        (∀ d ∈ sets, d.kind = .unclosedSet) ∧ sets.length ≤ 1 ∧
        (∀ d ∈ groups, d.kind = .unclosedGroup) ∧ groups.length ≤ maxDepth ∧
        (sets ++ groups).Pairwise fun d e => e.span.start < d.span.start := by
  have fits : ∀ d ∈ p.parse.diagnostics, d.Fits 0 p.length := by
    have fit := Phrase.rowDiagnostics_fit p.phrases p.rowLegal_phrases 0
    rwa [p.rowWidth_phrases, Nat.zero_add] at fit
  have points := p.points_parse
  have reported := p.reported_parse
  have unique := reported.nodup
  refine ⟨fun d member => ⟨fits d member, points d member⟩, unique, ?_, ?_⟩
  · apply Diagnostic.count_le_one unique
    exact fun d member => eq_of_unknownPart (points d member) (fits d member)
  · obtain ⟨settled, sets, groups, whole, inOrder, left, -⟩ := reported
    have closed := fun d member => Diagnostic.Kind.ne_of_not_leftOpen (inOrder.closed d member)
    exact ⟨settled, sets, groups, whole, closed, inOrder.ordered, left.set, left.one, left.group,
      left.few, left.outward⟩

end PatternTree
