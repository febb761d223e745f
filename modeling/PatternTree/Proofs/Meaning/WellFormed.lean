import PatternTree.Proofs.Legality.Widths
import PatternTree.Proofs.Meaning.Extents
import PatternTree.Proofs.Tree.WellFormed

/-!
Parsed trees are well-formed, whatever is wrong with the pattern. Legal phrases stand for
well-formed items: reversed ends change places, surplus quantifiers are dropped, and a group that is
nested too deeply stands for nothing.
-/

namespace PatternTree

theorem Amount.ordered_bounds {a : Amount} (legal : a.Legal) (lazy : Bool) :
    (Quantifier.mk a.bounds.1 a.bounds.2 lazy).Ordered := by
  -- Legal counts fit in 32 bits, so they compare as numbers do.
  have le_of_le {m n : List Char} (first : LegalCount m) (second : LegalCount n)
      (le : countValue m ≤ countValue n) :
      UInt32.ofNat (countValue m) ≤ UInt32.ofNat (countValue n) := by
    rw [UInt32.le_iff_toNat_le, first.toNat_ofNat, second.toNat_ofNat]
    exact le
  cases a with
  | zeroOrOne => exact UInt32.le_iff_toNat_le.mpr (Nat.zero_le _)
  | zeroOrMore | oneOrMore | atLeast n => trivial
  | exactly n => exact UInt32.le_refl _
  | between m n =>
    rw [bounds]
    split
    next reversed => exact le_of_le legal.2 legal.1 (Nat.le_of_lt reversed)
    next inOrder => exact le_of_le legal.1 legal.2 (Nat.not_lt.mp inOrder)

theorem Branch.depth_eq (b : Branch) : b.depth = Item.rowDepth b.items := by
  cases b
  rfl

namespace Repetition

theorem legal_of_rowLegal {rest : List Lexeme} {rs : List Repetition} (row : RowLegal rest rs) :
    ∀ r ∈ rs, r.amount.Legal := by
  induction rs with
  | nil => simp
  | cons r rs ih =>
    obtain ⟨legal, -, row⟩ := row
    intro s member
    rcases List.mem_cons.mp member with rfl | later
    · exact legal
    · exact ih row s later

theorem depth_wrapAll (start : Nat) (item : Item) (stop : Nat) (rs : List Repetition) :
    (wrapAll start item stop rs).depth = item.depth := by
  induction rs generalizing item stop with
  | nil => rfl
  | cons r rs ih => exact ih _ _

theorem wellFormed_wrapAll {start stop : Nat} {item : Item} {rs : List Repetition}
    (few : item.stacked + rs.length ≤ maxStacked) (legal : ∀ r ∈ rs, r.amount.Legal)
    (wellFormed : ∀ x ∈ item.nodes, x.WellFormed) :
    ∀ x ∈ (wrapAll start item stop rs).nodes, x.WellFormed := by
  induction rs generalizing item stop with
  | nil => exact wellFormed
  | cons r rs ih =>
    rw [List.length_cons] at few
    -- The stack grows by the quantifier that the row loses.
    refine ih ?_ (fun s member => legal s (List.mem_cons_of_mem _ member)) fun x member => ?_
    · rw [Item.stacked]
      omega
    · rcases List.mem_cons.mp member with rfl | inside
      · exact ⟨by omega, Amount.ordered_bounds (legal r List.mem_cons_self) r.lazy⟩
      · exact wellFormed x inside

/-- An item without quantifiers stays well-formed in those that it keeps. -/
theorem wellFormed_wrap {start stop : Nat} {item : Item} {rs : List Repetition}
    {rest : List Lexeme} (bare : item.stacked = 0) (row : RowLegal rest rs)
    (wellFormed : ∀ x ∈ item.nodes, x.WellFormed) :
    ∀ x ∈ (wrap start item stop rs).nodes, x.WellFormed := by
  have few : item.stacked + (rs.take maxStacked).length ≤ maxStacked := by
    rw [bare, Nat.zero_add]
    exact List.length_take_le _ _
  exact wellFormed_wrapAll few
    (fun r member => legal_of_rowLegal row r (List.mem_of_mem_take member)) wellFormed

end Repetition

theorem Lexeme.wellFormed_item? {start : Nat} {l : Lexeme} {item : Item}
    (stands : l.item? start = some item) :
    item.stacked = 0 ∧ item.depth = 0 ∧ (Node.item item).WellFormed := by
  unfold item? at stands
  split at stands
  case h_4 =>
    obtain ⟨g, -, rfl⟩ := Option.map_eq_some_iff.mp stands
    exact ⟨rfl, rfl, trivial⟩
  all_goals
    cases stands
    exact ⟨rfl, rfl, trivial⟩

/-- In a set the letter of a word boundary stands for a backspace. -/
theorem Lexeme.glyphInSet?_ne_wordBoundary {l : Lexeme} {g : Glyph}
    (stands : l.glyphInSet? = some g) : g ≠ .shorthand .wordBoundary := by
  obtain ⟨g', -, rfl⟩ := Option.map_eq_some_iff.mp stands
  split
  · simp
  next other => exact other

theorem Piece.wellFormed_member? {start : Nat} {p : Piece} {m : Member}
    (stands : p.member? start = some m) : m.WellFormed := by
  cases p with
  | single l =>
    obtain ⟨g, glyph, rfl⟩ := Option.map_eq_some_iff.mp stands
    exact Lexeme.glyphInSet?_ne_wordBoundary glyph
  | range first last =>
    simp only [member?] at stands
    split at stands
    next g h low high =>
      -- The ends change places if they are reversed, so they are in order either way.
      have lowChar := Lexeme.glyphInSet?_ne_wordBoundary low
      have highChar := Lexeme.glyphInSet?_ne_wordBoundary high
      split at stands
      next c d _ _ =>
        split at stands
        next reversed =>
          cases stands
          exact ⟨highChar, lowChar, Char.not_lt.mp (Char.lt_asymm reversed)⟩
        next inOrder =>
          cases stands
          exact ⟨lowChar, highChar, Char.not_lt.mp inOrder⟩
      next noLetters =>
        cases stands
        refine ⟨lowChar, highChar, ?_⟩
        cases g with
        | shorthand => trivial
        | literal c =>
          cases h with
          | shorthand => trivial
          | literal d => exact absurd rfl (noLetters c d rfl)
    · cases stands

/-- The ends of a range are its member's, in their places unless they are reversed. -/
theorem Piece.member?_range_eq (start : Nat) {first last : Lexeme} {g h : Glyph}
    (low : first.glyphInSet? = some g) (high : last.glyphInSet? = some h) :
    let dash := start + first.width
    let a : Character := ⟨g, ⟨start, dash⟩⟩
    let b : Character := ⟨h, ⟨dash + 1, dash + 1 + last.width⟩⟩
    let span : Span := ⟨start, dash + 1 + last.width⟩
    (range first last).member? start =
      some (if (range first last).reversed then .range b a span else .range a b span) := by
  cases g with
  | shorthand => simp [member?, reversed, low, high]
  | literal c =>
    cases h with
    | shorthand => simp [member?, reversed, low, high]
    | literal d => by_cases reversed : d < c <;> simp [member?, Piece.reversed, low, high, reversed]

/-- A range in order keeps the order of its ends, and nothing is wrong with it. -/
theorem Piece.member?_range {first last : Lexeme} {g h : Glyph}
    (low : first.glyphInSet? = some g) (high : last.glyphInSet? = some h) (inOrder : g.InOrder h)
    (start : Nat) :
    let middle := start + first.width
    let stop := middle + 1 + last.width
    (range first last).member? start =
        some (.range ⟨g, ⟨start, middle⟩⟩ ⟨h, ⟨middle + 1, stop⟩⟩ ⟨start, stop⟩) ∧
      (range first last).reversed = false := by
  have kept : (range first last).reversed = false := by
    cases g with
    | shorthand => simp [reversed, low]
    | literal c =>
      cases h with
      | shorthand => simp [reversed, low, high]
      | literal d =>
        have kept : ¬d < c := Char.not_lt.mpr inOrder
        simp [reversed, low, high, kept]
  refine ⟨?_, kept⟩
  rw [member?_range_eq start low high, kept]
  rfl

theorem Piece.wellFormed_members (ps : List Piece) (start : Nat) :
    ∀ m ∈ members start ps, m.WellFormed := by
  induction ps generalizing start with
  | nil => simp [members]
  | cons p ps ih =>
    intro m member
    rcases List.mem_append.mp member with here | later
    · exact wellFormed_member? (Option.mem_toList.mp here)
    · exact ih _ m later

theorem Header.wellFormed_groupKind {h : Header} {rest : List Lexeme} (legal : h.Legal rest) :
    h.groupKind.WellFormed := by
  cases h with
  | unknown => trivial
  | kind k =>
    cases k with
    | named name => exact legal
    | _ => trivial

theorem Expression.depth_ofBranches_le {levels : Nat} {first : Branch} {others : List Branch}
    (each : ∀ b ∈ first :: others, b.depth ≤ levels) :
    (ofBranches first others).depth ≤ levels := by
  induction others using List.reverseRecOn with
  | nil => exact each first List.mem_cons_self
  | append_singleton others last ih =>
    rw [ofBranches_append_singleton]
    exact Nat.max_le.mpr ⟨ih fun b member => each b (by grind), each last (by simp)⟩

/-- The fold of alternatives adds no node that could be wrong. -/
theorem Expression.wellFormed_ofBranches {first : Branch} {others : List Branch}
    (each : ∀ b ∈ first :: others, ∀ x ∈ b.nodes, x.WellFormed) :
    ∀ x ∈ (ofBranches first others).nodes, x.WellFormed := by
  intro x member
  rcases mem_nodes_ofBranches.mp member with ⟨some, -, rfl⟩ | ⟨b, among, inside⟩
  · trivial
  · exact each b among x inside

namespace Phrase

mutual

theorem wellFormed_item? (p : Phrase) {levels start : Nat} {rest : List Lexeme} {item : Item}
    (legal : p.Legal levels rest) (stands : p.item? start = some item) :
    item.depth ≤ levels ∧ ∀ x ∈ item.nodes, x.WellFormed := by
  match p with
  | .bar | .stray _ | .tooDeep _ => cases stands
  | .single l rs =>
    obtain ⟨inner, found, rfl⟩ := Option.map_eq_some_iff.mp stands
    obtain ⟨bare, flat, wellFormed⟩ := Lexeme.wellFormed_item? found
    have nodes := (Lexeme.nodes_item? found).1
    constructor
    · rw [Repetition.wrap, Repetition.depth_wrapAll, flat]
      exact Nat.zero_le _
    · apply Repetition.wellFormed_wrap bare legal.2
      intro x member
      obtain rfl := List.mem_singleton.mp (nodes ▸ member)
      exact wellFormed
  | .set b rs =>
    cases stands
    constructor
    · rw [Repetition.wrap, Repetition.depth_wrapAll]
      exact Nat.zero_le _
    · apply Repetition.wellFormed_wrap rfl legal.2
      intro x member
      rcases List.mem_cons.mp member with rfl | inside
      · trivial
      · obtain ⟨m, among, rfl⟩ := List.mem_map.mp inside
        exact Piece.wellFormed_members _ _ m among
  | .group h body closed rs =>
    cases stands
    obtain ⟨⟨inner, rfl, row⟩, header, -, repeated⟩ := legal
    let inside := start + h.width
    have branches := wellFormed_branches body inside inside row
    -- A body has one level less, and the group adds it back.
    constructor
    · rw [Repetition.wrap, Repetition.depth_wrapAll]
      exact Nat.succ_le_succ (Expression.depth_ofBranches_le fun b member => (branches b member).1)
    · apply Repetition.wellFormed_wrap rfl repeated
      intro x member
      rcases List.mem_cons.mp member with rfl | deeper
      · exact Header.wellFormed_groupKind header
      · exact Expression.wellFormed_ofBranches (fun b member => (branches b member).2) x deeper

theorem wellFormed_branches (ps : List Phrase) (start position : Nat) {levels : Nat}
    {inGroup : Bool} {rest : List Lexeme} (row : RowLegal levels inGroup rest ps) :
    ∀ b ∈ (branches start position ps).1 :: (branches start position ps).2,
      b.depth ≤ levels ∧ ∀ x ∈ b.nodes, x.WellFormed := by
  match ps with
  | [] => simp [branches, Branch.depth, Branch.nodes, Item.rowDepth, Item.rowNodes, Node.WellFormed]
  | p :: ps =>
    obtain ⟨legal, -, row⟩ := row
    by_cases bar : p = .bar
    · subst bar
      have others := wellFormed_branches ps (position + 1) (position + 1) row
      rw [branches]
      intro b member
      rcases List.mem_cons.mp member with rfl | later
      · simp [Branch.depth, Branch.nodes, Item.rowDepth, Item.rowNodes, Node.WellFormed]
      · exact others b later
    · have after := wellFormed_branches ps start (position + p.width) row
      cases stands : p.item? position with
      | none => rwa [branches_none bar stands]
      | some item =>
        obtain ⟨shallow, here⟩ := wellFormed_item? p legal stands
        rw [branches_item stands]
        intro b member
        -- The new item is at the front of the first alternative.
        rcases List.mem_cons.mp member with rfl | later
        · obtain ⟨flat, kept⟩ := after _ List.mem_cons_self
          rw [Branch.depth_eq, Branch.nodes_eq] at *
          refine ⟨Nat.max_le.mpr ⟨shallow, flat⟩, fun x inside => ?_⟩
          rcases List.mem_cons.mp inside with rfl | inside
          · trivial
          · rcases List.mem_append.mp inside with new | old
            · exact here x new
            · exact kept x (List.mem_cons_of_mem _ old)
        · exact after b (List.mem_cons_of_mem _ later)

end

end Phrase

/-- Whatever the pattern, its tree is well-formed, every node keeps to the pattern, and items and
members take up some of it. -/
theorem Pattern.wellFormed_parse (p : Pattern) : p.parse.expression.WellFormed ∧
    ∀ x ∈ p.parse.expression.nodes, x.Fits 0 p.length := by
  have branches := Phrase.wellFormed_branches p.phrases 0 0 p.rowLegal_phrases
  refine ⟨⟨?_, ?_⟩, ?_⟩
  · exact Expression.depth_ofBranches_le fun b member => (branches b member).1
  · exact Expression.wellFormed_ofBranches fun b member => (branches b member).2
  · have fits := Phrase.fits_expression p.phrases 0
    rwa [p.rowWidth_phrases, Nat.zero_add] at fits

end PatternTree
