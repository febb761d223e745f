import PatternTree.Proofs.Meaning.Branches
import PatternTree.Proofs.Tree.Nodes

/-!
Moved trees: a tree with all of its spans some characters further on. Main statements: phrases that
stand further on in a text stand for the same tree, moved, and the same is wrong with them there.
-/

namespace PatternTree

-- ═══════════════════════════════════════════════════════════════
-- Moving spans
-- ═══════════════════════════════════════════════════════════════

/-- The span `k` characters further on. -/
def Span.moved (k : Nat) (s : Span) : Span := ⟨s.start + k, s.stop + k⟩

def Diagnostic.moved (k : Nat) (d : Diagnostic) : Diagnostic := ⟨d.kind, d.span.moved k⟩

def Character.moved (k : Nat) (c : Character) : Character := ⟨c.glyph, c.span.moved k⟩

def Member.moved (k : Nat) : Member → Member
  | single c => single (c.moved k)
  | range first last s => range (first.moved k) (last.moved k) (s.moved k)

def CharSet.moved (k : Nat) (s : CharSet) : CharSet :=
  ⟨s.inverted, s.members.map (Member.moved k), s.span.moved k⟩

mutual

/-- The expression with every span `k` characters further on. -/
def Expression.moved (k : Nat) : Expression → Expression
  | .single b => .single (b.moved k)
  | .alternation left right s => .alternation (left.moved k) (right.moved k) (s.moved k)

def Branch.moved (k : Nat) : Branch → Branch
  | ⟨items, s⟩ => ⟨Item.rowMoved k items, s.moved k⟩

def Item.moved (k : Nat) : Item → Item
  | .character c => .character (c.moved k)
  | .lineStart s => .lineStart (s.moved k)
  | .lineEnd s => .lineEnd (s.moved k)
  | .anyCharacter s => .anyCharacter (s.moved k)
  | .set s => .set (s.moved k)
  | .group kind body s => .group kind (body.moved k) (s.moved k)
  | .quantified item q s => .quantified (item.moved k) q (s.moved k)

def Item.rowMoved (k : Nat) : List Item → List Item
  | [] => []
  | item :: row => item.moved k :: Item.rowMoved k row

end

theorem Span.hull_moved (k : Nat) (s t : Span) :
    (s.moved k).hull (t.moved k) = (s.hull t).moved k := by
  simp [hull, moved, Nat.add_min_add_right, Nat.add_max_add_right]

theorem Branch.span_moved (k : Nat) (b : Branch) : (b.moved k).span = b.span.moved k := by
  cases b
  rfl

theorem Branch.cons?_moved (k : Nat) (item : Option Item) (b : Branch) :
    (b.moved k).cons? (item.map (Item.moved k)) = (b.cons? item).moved k := by
  cases b
  cases item <;> rfl

theorem Expression.span_moved (k : Nat) (e : Expression) : (e.moved k).span = e.span.moved k := by
  cases e with
  | single b => exact b.span_moved k
  | alternation => rfl

/-- Folding alternatives and moving them comes to the same in either order. -/
theorem Expression.ofBranches_moved (k : Nat) (first : Branch) (others : List Branch) :
    ofBranches (first.moved k) (others.map (Branch.moved k)) =
      (ofBranches first others).moved k := by
  induction others using List.reverseRecOn with
  | nil => rfl
  | append_singleton others last ih =>
    rw [List.map_append, List.map_singleton, ofBranches_append_singleton,
      ofBranches_append_singleton, ih, moved, span_moved, last.span_moved, Span.hull_moved]

-- ═══════════════════════════════════════════════════════════════
-- Parts of phrases further on
-- ═══════════════════════════════════════════════════════════════

namespace Repetition

theorem wrapAll_moved (k start : Nat) (item : Item) (stop : Nat) (rs : List Repetition) :
    wrapAll (start + k) (item.moved k) (stop + k) rs = (wrapAll start item stop rs).moved k := by
  induction rs generalizing item stop with
  | nil => rfl
  | cons r rs ih =>
    have span : Span.moved k ⟨start, stop + r.width⟩ = ⟨start + k, stop + k + r.width⟩ := by
      simp [Span.moved, Nat.add_right_comm]
    have next := ih (.quantified item r.quantifier ⟨start, stop + r.width⟩) (stop + r.width)
    rw [Nat.add_right_comm, Item.moved, span] at next
    exact next

theorem wrap_moved (k start : Nat) (item : Item) (stop : Nat) (rs : List Repetition) :
    wrap (start + k) (item.moved k) (stop + k) rs = (wrap start item stop rs).moved k :=
  wrapAll_moved k start item stop _

theorem reversals_moved (k start : Nat) (rs : List Repetition) :
    reversals (start + k) rs = (reversals start rs).map (Diagnostic.moved k) := by
  induction rs generalizing start with
  | nil => rfl
  | cons r rs ih =>
    have rest := ih (start + r.width)
    rw [Nat.add_right_comm] at rest
    rw [reversals, reversals, rest, List.map_append]
    split <;> simp [Diagnostic.moved, Span.moved, Nat.add_right_comm]

theorem diagnostics_moved (k start : Nat) (rs : List Repetition) :
    diagnostics (start + k) rs = (diagnostics start rs).map (Diagnostic.moved k) := by
  rw [diagnostics, diagnostics, reversals_moved, List.map_append]
  split <;> simp [Diagnostic.moved, Span.moved, Nat.add_right_comm]

end Repetition

namespace Piece

theorem member?_moved (k start : Nat) (p : Piece) :
    p.member? (start + k) = (p.member? start).map (Member.moved k) := by
  cases p with
  | single l =>
    cases glyph : l.glyphInSet? <;>
      simp [member?, glyph, Member.moved, Character.moved, Span.moved, Nat.add_right_comm]
  | range first last =>
    -- Which end comes first does not depend on where the range stands.
    cases low : first.glyphInSet? with
    | none => simp [member?, low]
    | some g =>
      cases high : last.glyphInSet? with
      | none => simp [member?, low, high]
      | some h =>
        simp only [member?, low, high]
        split
        · split <;> simp [Member.moved, Character.moved, Span.moved, Nat.add_right_comm]
        · simp [Member.moved, Character.moved, Span.moved, Nat.add_right_comm]

theorem members_moved (k start : Nat) (ps : List Piece) :
    members (start + k) ps = (members start ps).map (Member.moved k) := by
  induction ps generalizing start with
  | nil => rfl
  | cons p ps ih =>
    have rest := ih (start + p.width)
    rw [Nat.add_right_comm] at rest
    rw [members, members, rest, p.member?_moved, List.map_append]
    cases p.member? start <;> rfl

theorem diagnostics_moved (k start : Nat) (p : Piece) :
    p.diagnostics (start + k) = (p.diagnostics start).map (Diagnostic.moved k) := by
  unfold diagnostics
  split
  · simp [Diagnostic.moved, Span.moved, Nat.add_right_comm]
  · split <;> simp [Diagnostic.moved, Span.moved, Nat.add_right_comm]

theorem rowDiagnostics_moved (k start : Nat) (ps : List Piece) :
    rowDiagnostics (start + k) ps = (rowDiagnostics start ps).map (Diagnostic.moved k) := by
  induction ps generalizing start with
  | nil => rfl
  | cons p ps ih =>
    have rest := ih (start + p.width)
    rw [Nat.add_right_comm] at rest
    rw [rowDiagnostics, rowDiagnostics, rest, p.diagnostics_moved, List.map_append]

end Piece

namespace Bracket

theorem charSet_moved (k start : Nat) (b : Bracket) :
    b.charSet (start + k) = (b.charSet start).moved k := by
  rw [charSet, Nat.add_right_comm, Piece.members_moved, Nat.add_right_comm]
  rfl

theorem diagnostics_moved (k start : Nat) (b : Bracket) :
    b.diagnostics (start + k) = (b.diagnostics start).map (Diagnostic.moved k) := by
  rw [diagnostics, Nat.add_right_comm, Piece.rowDiagnostics_moved, diagnostics, List.map_append]
  split <;> simp [Diagnostic.moved, Span.moved, Nat.add_right_comm]

end Bracket

theorem Header.diagnostics_moved (k start : Nat) (h : Header) :
    h.diagnostics (start + k) = (h.diagnostics start).map (Diagnostic.moved k) := by
  cases h <;> simp [diagnostics, Diagnostic.moved, Span.moved, Nat.add_right_comm]

theorem Lexeme.item?_moved (k start : Nat) (l : Lexeme) :
    l.item? (start + k) = (l.item? start).map (Item.moved k) := by
  have span : (⟨start + k, start + k + l.width⟩ : Span) =
      Span.moved k ⟨start, start + l.width⟩ := by
    simp [Span.moved, Nat.add_right_comm]
  unfold item?
  rw [span]
  split
  case h_4 => cases l.glyph? <;> rfl
  all_goals rfl

-- ═══════════════════════════════════════════════════════════════
-- Phrases further on
-- ═══════════════════════════════════════════════════════════════

namespace Phrase

mutual

theorem item?_moved (k : Nat) (p : Phrase) (start : Nat) :
    p.item? (start + k) = (p.item? start).map (Item.moved k) := by
  match p with
  | .bar | .stray _ | .tooDeep _ => rfl
  | .single l rs =>
    rw [item?, item?, l.item?_moved, Nat.add_right_comm]
    cases l.item? start with
    | none => rfl
    | some item => exact congrArg some (Repetition.wrap_moved k start item _ rs)
  | .set b rs =>
    rw [item?, item?, b.charSet_moved, Nat.add_right_comm]
    exact congrArg some (Repetition.wrap_moved k start (.set (b.charSet start)) _ rs)
  | .group h body closed rs =>
    have inside := branches_moved k body (start + h.width) (start + h.width)
    have stop : start + h.width + k + rowWidth body + closed.toNat =
        start + h.width + rowWidth body + closed.toNat + k := by omega
    simp only [item?, Nat.add_right_comm start k, inside, stop, Expression.ofBranches_moved]
    exact congrArg some (Repetition.wrap_moved k start (.group _ _ ⟨start, _⟩) _ rs)

theorem branches_moved (k : Nat) (ps : List Phrase) (start position : Nat) :
    branches (start + k) (position + k) ps =
      ((branches start position ps).1.moved k,
        (branches start position ps).2.map (Branch.moved k)) := by
  match ps with
  | [] => rfl
  | p :: ps =>
    by_cases bar : p = .bar
    · subst bar
      have others := branches_moved k ps (position + 1) (position + 1)
      rw [branches, Nat.add_right_comm, others, branches]
      rfl
    · have rest := branches_moved k ps start (position + p.width)
      rw [Nat.add_right_comm] at rest
      rw [branches_other bar, branches_other bar, rest, item?_moved k p position,
        Branch.cons?_moved]

end

/-- Phrases that stand further on stand for the same tree, moved. -/
theorem expression_moved (k start : Nat) (ps : List Phrase) :
    expression (start + k) ps = (expression start ps).moved k := by
  rw [expression, branches_moved, Expression.ofBranches_moved]
  rfl

mutual

theorem diagnostics_moved (k : Nat) (p : Phrase) (start : Nat) :
    p.diagnostics (start + k) = (p.diagnostics start).map (Diagnostic.moved k) := by
  match p with
  | .bar => rfl
  | .stray l => simp [diagnostics, Diagnostic.moved, Span.moved, Nat.add_right_comm]
  | .tooDeep ls => simp [diagnostics, Diagnostic.moved, Span.moved, Nat.add_right_comm]
  | .single l rs =>
    rw [diagnostics, diagnostics, Nat.add_right_comm, Repetition.diagnostics_moved]
  | .set b rs =>
    rw [diagnostics, diagnostics, Nat.add_right_comm, Repetition.diagnostics_moved,
      b.diagnostics_moved, List.map_append]
  | .group h body closed rs =>
    have inside := rowDiagnostics_moved k body (start + h.width)
    have stop : start + h.width + k + rowWidth body + closed.toNat =
        start + h.width + rowWidth body + closed.toNat + k := by omega
    simp only [diagnostics, Nat.add_right_comm start k, inside, stop, h.diagnostics_moved,
      Repetition.diagnostics_moved, List.map_append]
    cases closed <;> rfl

/-- The same is wrong with phrases that stand further on, further on. -/
theorem rowDiagnostics_moved (k : Nat) (ps : List Phrase) (start : Nat) :
    rowDiagnostics (start + k) ps = (rowDiagnostics start ps).map (Diagnostic.moved k) := by
  match ps with
  | [] => rfl
  | p :: ps =>
    have rest := rowDiagnostics_moved k ps (start + p.width)
    rw [Nat.add_right_comm] at rest
    rw [rowDiagnostics, rowDiagnostics, rest, diagnostics_moved k p start, List.map_append]

end

end Phrase

end PatternTree
