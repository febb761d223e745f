import PatternTree.Proofs.Meaning.Branches
import PatternTree.Proofs.Tree.Nodes

/-!
Extents: every node that phrases stand for keeps to the text that the phrases take up, and items
and members take up some of it. The expression of a row takes up all of the row's text, alternative
by alternative.
-/

namespace PatternTree

/-- The node keeps to the characters from `a` to `b`. An alternative may be empty, but an item or a
member is not. -/
def Node.Fits (a b : Nat) (x : Node) : Prop :=
  a ≤ x.span.start ∧ x.span.stop ≤ b ∧
    match x with
    | expression _ | branch _ => x.span.start ≤ x.span.stop
    | item _ | member _ => x.span.start < x.span.stop

theorem Node.Fits.widen {a b a' b' : Nat} {x : Node} (fits : x.Fits a b) (left : a' ≤ a)
    (right : b ≤ b') : x.Fits a' b' :=
  ⟨Nat.le_trans left fits.1, Nat.le_trans fits.2.1 right, fits.2.2⟩

/-- What holds of every alternative's span holds of the expression's. -/
theorem Expression.fits_ofBranches {a b : Nat} {first : Branch} {others : List Branch}
    (each : ∀ x ∈ first :: others, (Node.branch x).Fits a b) :
    (Node.expression (ofBranches first others)).Fits a b := by
  induction others using List.reverseRecOn with
  | nil => exact each first (by simp)
  | append_singleton others last ih =>
    -- The hull of two spans goes no further than either does.
    obtain ⟨leftStart, leftStop, leftOrder⟩ := ih fun x member => each x (by grind)
    obtain ⟨lastStart, lastStop, lastOrder⟩ := each last (by simp)
    rw [ofBranches_append_singleton]
    simp only [Node.Fits, Node.span, span, Span.hull] at *
    omega

theorem Expression.nodes_ofBranches_fit {a b : Nat} {first : Branch} {others : List Branch}
    (each : ∀ c ∈ first :: others, ∀ x ∈ c.nodes, x.Fits a b) :
    ∀ x ∈ (ofBranches first others).nodes, x.Fits a b := by
  intro x member
  rcases mem_nodes_ofBranches.mp member with ⟨some, before, rfl⟩ | ⟨c, among, inside⟩
  · refine fits_ofBranches fun c among => each c ?_ _ (by simp [Branch.nodes_eq])
    exact List.cons_subset_cons first before.subset among
  · exact each c among x inside

theorem Amount.width_pos (a : Amount) : 0 < a.width := by
  cases a <;> simp [width]

theorem Piece.width_pos (p : Piece) : 0 < p.width := by
  cases p with
  | single l => exact l.width_pos
  | range first last => exact Nat.lt_of_lt_of_le last.width_pos (Nat.le_add_left _ _)

namespace Repetition

theorem width_pos (r : Repetition) : 0 < r.width :=
  Nat.lt_of_lt_of_le r.amount.width_pos (Nat.le_add_right _ _)

theorem rowWidth_take_le (n : Nat) (rs : List Repetition) : rowWidth (rs.take n) ≤ rowWidth rs := by
  induction rs generalizing n with
  | nil => simp
  | cons r rs ih =>
    cases n with
    | zero => simp [rowWidth]
    | succ n => simpa [rowWidth] using ih n

theorem fits_wrapAll {start stop : Nat} {item : Item} (rs : List Repetition)
    (fits : ∀ x ∈ item.nodes, x.Fits start stop) :
    ∀ x ∈ (wrapAll start item stop rs).nodes, x.Fits start (stop + rowWidth rs) := by
  induction rs generalizing item stop with
  | nil => exact fits
  | cons r rs ih =>
    obtain ⟨left, right, order⟩ := fits _ item.mem_nodes
    simp only [Node.span] at left right order
    have deeper : ∀ x ∈ (Item.quantified item r.quantifier ⟨start, stop + r.width⟩).nodes,
        x.Fits start (stop + r.width) := by
      intro x member
      rcases List.mem_cons.mp member with rfl | inside
      · exact ⟨Nat.le_refl _, Nat.le_refl _, by simp only [Node.span, Item.span]; omega⟩
      · exact (fits x inside).widen (Nat.le_refl _) (Nat.le_add_right _ _)
    have rest := ih deeper
    rwa [Nat.add_assoc] at rest

theorem fits_wrap {start stop : Nat} {item : Item} (rs : List Repetition)
    (fits : ∀ x ∈ item.nodes, x.Fits start stop) :
    ∀ x ∈ (wrap start item stop rs).nodes, x.Fits start (stop + rowWidth rs) := by
  intro x member
  have kept := fits_wrapAll (rs.take maxStacked) fits x member
  exact kept.widen (Nat.le_refl _) (Nat.add_le_add_left (rowWidth_take_le maxStacked rs) stop)

end Repetition

theorem Lexeme.exists_glyphInSet? {l : Lexeme} (other : l ≠ .dangling) :
    ∃ g, l.glyphInSet? = some g := by
  cases l with
  | dangling => exact absurd rfl other
  | _ => exact ⟨_, rfl⟩

/-- A member takes up all of its piece. -/
theorem Piece.span_member? {start : Nat} {p : Piece} {m : Member}
    (stands : p.member? start = some m) : m.span = ⟨start, start + p.width⟩ := by
  unfold member? at stands
  split at stands
  · obtain ⟨g, -, rfl⟩ := Option.map_eq_some_iff.mp stands
    rfl
  · simp only at stands
    split at stands
    · split at stands
      · split at stands <;> cases stands <;> simp [Member.span, width, Nat.add_assoc]
      · cases stands
        simp [Member.span, width, Nat.add_assoc]
    · cases stands

theorem Piece.fits_members (ps : List Piece) (start : Nat) :
    ∀ m ∈ members start ps, (Node.member m).Fits start (start + rowWidth ps) := by
  induction ps generalizing start with
  | nil => simp [members]
  | cons p ps ih =>
    intro m member
    -- A member takes up its piece, and those after it begin where the piece ends.
    rcases List.mem_append.mp member with here | later
    · have span := span_member? (Option.mem_toList.mp here)
      have := p.width_pos
      simp only [Node.Fits, Node.span, span, rowWidth]
      omega
    · rw [rowWidth, ← Nat.add_assoc]
      exact (ih _ m later).widen (Nat.le_add_right _ _) (Nat.le_refl _)

theorem Bracket.fits_charSet (b : Bracket) (start : Nat) :
    ∀ x ∈ (Item.set (b.charSet start)).nodes, x.Fits start (start + b.width) := by
  intro x member
  rcases List.mem_cons.mp member with rfl | inside
  · simp only [Node.Fits, Node.span, Item.span, charSet, width, openingWidth]
    omega
  · obtain ⟨m, among, rfl⟩ := List.mem_map.mp inside
    apply (Piece.fits_members _ _ m among).widen (Nat.le_add_right _ _)
    simp only [width]
    omega

theorem Lexeme.nodes_item? {start : Nat} {l : Lexeme} {item : Item}
    (stands : l.item? start = some item) :
    item.nodes = [.item item] ∧ item.span = ⟨start, start + l.width⟩ := by
  unfold item? at stands
  split at stands
  case h_4 =>
    obtain ⟨g, -, rfl⟩ := Option.map_eq_some_iff.mp stands
    exact ⟨rfl, rfl⟩
  all_goals
    cases stands
    exact ⟨rfl, rfl⟩

namespace Phrase

mutual

theorem fits_item? (p : Phrase) {start : Nat} {item : Item} (stands : p.item? start = some item) :
    ∀ x ∈ item.nodes, x.Fits start (start + p.width) := by
  match p with
  | .bar | .stray _ | .tooDeep _ => cases stands
  | .single l rs =>
    obtain ⟨inner, found, rfl⟩ := Option.map_eq_some_iff.mp stands
    obtain ⟨nodes, span⟩ := Lexeme.nodes_item? found
    rw [width, ← Nat.add_assoc]
    apply Repetition.fits_wrap rs
    intro x member
    have := l.width_pos
    obtain rfl := List.mem_singleton.mp (nodes ▸ member)
    simp only [Node.Fits, Node.span, span]
    omega
  | .set b rs =>
    cases stands
    rw [width, ← Nat.add_assoc]
    exact Repetition.fits_wrap rs (b.fits_charSet start)
  | .group h body closed rs =>
    cases stands
    have inside := fits_branches body (Nat.le_refl (start + h.width))
    have := h.width_pos
    have stop : start + (Phrase.group h body closed rs).width =
        start + h.width + rowWidth body + closed.toNat + Repetition.rowWidth rs := by
      simp [width, Nat.add_assoc]
    rw [stop]
    apply Repetition.fits_wrap rs
    intro x member
    rcases List.mem_cons.mp member with rfl | member
    · simp only [Node.Fits, Node.span, Item.span]
      omega
    · refine (Expression.nodes_ofBranches_fit inside x member).widen ?_ ?_ <;> omega

theorem fits_branches (ps : List Phrase) {start position : Nat} (le : start ≤ position) :
    ∀ b ∈ (branches start position ps).1 :: (branches start position ps).2,
      ∀ x ∈ b.nodes, x.Fits start (position + rowWidth ps) := by
  match ps with
  | [] =>
    simp [branches, Branch.nodes, Item.rowNodes, Node.Fits, Node.span, rowWidth, le]
  | p :: ps =>
    by_cases bar : p = .bar
    · subst bar
      have others := fits_branches ps (Nat.le_refl (position + 1))
      -- The bar ends an alternative whose items are all before it, and the others begin anew.
      rw [branches, rowWidth, width, ← Nat.add_assoc]
      intro b member x inside
      rcases List.mem_cons.mp member with rfl | later
      · obtain rfl := List.mem_singleton.mp inside
        simp only [Node.Fits, Node.span]
        omega
      · exact (others b later x inside).widen (Nat.le_succ_of_le le) (Nat.le_refl _)
    · have rest := fits_branches ps (Nat.le_trans le (Nat.le_add_right position p.width))
      rw [rowWidth, ← Nat.add_assoc]
      cases stands : p.item? position with
      | none => rwa [branches_none bar stands]
      | some item =>
        have here := fits_item? p stands
        rw [branches_item stands]
        intro b member x inside
        -- Only the first alternative changes, and its span stays as it was.
        rcases List.mem_cons.mp member with rfl | later
        · have kept := rest _ List.mem_cons_self
          simp only [Branch.nodes_eq] at inside kept
          rcases List.mem_cons.mp inside with rfl | inside
          · have span_kept : (Node.branch (branches start (position + p.width) ps).1).Fits start
                (position + p.width + rowWidth ps) := kept _ List.mem_cons_self
            exact span_kept
          · rcases List.mem_append.mp inside with new | old
            · exact (here x new).widen le (Nat.le_add_right _ _)
            · exact kept x (List.mem_cons_of_mem _ old)
        · exact rest b (List.mem_cons_of_mem _ later) x inside

end

theorem fits_expression (ps : List Phrase) (start : Nat) :
    ∀ x ∈ (expression start ps).nodes, x.Fits start (start + rowWidth ps) :=
  Expression.nodes_ofBranches_fit (fits_branches ps (Nat.le_refl start))

end Phrase

-- ═══════════════════════════════════════════════════════════════
-- Rows and their last bar
-- ═══════════════════════════════════════════════════════════════

namespace Phrase

theorem rowWidth_append (ps qs : List Phrase) :
    rowWidth (ps ++ qs) = rowWidth ps + rowWidth qs := by
  induction ps with
  | nil => simp [rowWidth]
  | cons p ps ih => simp [rowWidth, ih, Nat.add_assoc]

/-- A row without a bar is one alternative. -/
theorem branches_barless {ps : List Phrase} (barless : .bar ∉ ps) (start position : Nat) :
    (branches start position ps).1.span = ⟨start, position + rowWidth ps⟩ ∧
      (branches start position ps).2 = [] := by
  induction ps generalizing position with
  | nil => exact ⟨rfl, rfl⟩
  | cons p ps ih =>
    obtain ⟨other, barless⟩ := List.ne_and_not_mem_of_not_mem_cons barless
    obtain ⟨span, none⟩ := ih barless (position + p.width)
    rw [branches_other other.symm, rowWidth, ← Nat.add_assoc]
    exact ⟨span, none⟩

/-- The last bar of a row splits one alternative off the expression. -/
theorem expression_append_bar {qs : List Phrase} (barless : .bar ∉ qs) (start : Nat)
    (ps : List Phrase) :
    let stop := start + rowWidth ps
    let last := (branches (stop + 1) (stop + 1) qs).1
    expression start (ps ++ .bar :: qs) =
      .alternation (expression start ps) last ((expression start ps).span.hull last.span) := by
  have none := (branches_barless barless (start + rowWidth ps + 1) (start + rowWidth ps + 1)).2
  simp only [expression, branches_append_bar, none, Expression.ofBranches_append_singleton]

/-- Row by row: what holds of a row without a bar, and of a row with one more alternative, holds of
every row. -/
@[elab_as_elim]
theorem bar_induction {motive : List Phrase → Prop} (ps : List Phrase)
    (barless : ∀ ps, .bar ∉ ps → motive ps)
    (bar : ∀ ps qs, .bar ∉ qs → motive ps → motive (ps ++ .bar :: qs)) : motive ps := by
  -- What is after the last bar so far is kept apart until the next bar comes.
  suffices h : ∀ qs, .bar ∉ qs → motive (ps ++ qs) by
    simpa using h [] (by simp)
  induction ps using List.reverseRecOn with
  | nil => exact barless
  | append_singleton ps p ih =>
    intro qs none
    rw [List.append_assoc, List.singleton_append]
    by_cases last : p = .bar
    · subst last
      have before := ih [] (by simp)
      rw [List.append_nil] at before
      exact bar ps qs none before
    · exact ih (p :: qs) (by simp [none, Ne.symm last])

theorem span_expression (ps : List Phrase) (start : Nat) :
    (expression start ps).span = ⟨start, start + rowWidth ps⟩ := by
  induction ps using bar_induction with
  | barless ps none =>
    obtain ⟨span, single⟩ := branches_barless none start start
    rw [expression, single]
    exact span
  | bar ps qs none ih =>
    have last := branches_barless none (start + rowWidth ps + 1) (start + rowWidth ps + 1)
    rw [expression_append_bar none, Expression.span, ih, last.1, rowWidth_append, rowWidth, width]
    simp only [Span.hull, Span.mk.injEq]
    omega

end Phrase

end PatternTree
