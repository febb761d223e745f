import PatternTree.Proofs.Meaning.WellFormed

/-!
How high trees are, which is how deep a walk over them goes. Groups and quantifiers add no more
than a fixed number of nodes to a path, but alternatives fold to the left, so every bar adds two.
Main statements: no height is enough for all patterns, and the height of a tree is bounded by the
number of alternatives that its expressions have.
-/

namespace PatternTree

-- ═══════════════════════════════════════════════════════════════
-- Height of trees
-- ═══════════════════════════════════════════════════════════════

mutual

/-- The most nodes on a path down from an expression. An alternation is an expression and the node
that holds its two sides; items that hold nothing more do not count. -/
def Expression.height : Expression → Nat
  | .single b => b.height + 1
  | .alternation left right _ => max left.height right.height + 2

def Branch.height : Branch → Nat
  | ⟨items, _⟩ => Item.rowHeight items + 1

def Item.height : Item → Nat
  | .group _ body _ => body.height + 1
  | .quantified item _ _ => item.height + 1
  | .character _ | .lineStart _ | .lineEnd _ | .anyCharacter _ | .set _ => 0

def Item.rowHeight : List Item → Nat
  | [] => 0
  | item :: row => max item.height (Item.rowHeight row)

end

theorem Branch.height_pos (b : Branch) : 0 < b.height := by
  cases b
  exact Nat.succ_pos _

namespace Expression

theorem alternatives_alternation (left : Expression) (right : Branch) (s : Span) :
    (alternation left right s).alternatives = left.alternatives ++ [right] :=
  alternativesThen_eq_append left [right]

/-- Alternatives nest to the left, and each adds two nodes to the path down to the first. -/
theorem alternatives_le_height (e : Expression) : 2 * e.alternatives.length ≤ e.height := by
  cases e with
  | single b =>
    have := b.height_pos
    simp only [alternatives, alternativesThen, List.length_singleton, height]
    omega
  | alternation left right s =>
    have inside := alternatives_le_height left
    rw [alternatives_alternation, List.length_append, List.length_singleton, height]
    omega

theorem alternatives_pos (e : Expression) : 0 < e.alternatives.length := by
  cases e with
  | single b => exact Nat.one_pos
  | alternation left right s => simp [alternatives_alternation]

end Expression

-- ═══════════════════════════════════════════════════════════════
-- What bounds the height
-- ═══════════════════════════════════════════════════════════════

/-- If the node is an expression, it has no more than `n` alternatives. -/
def Node.Narrow (n : Nat) : Node → Prop
  | expression e => e.alternatives.length ≤ n
  | _ => True

instance (n : Nat) (x : Node) : Decidable (x.Narrow n) :=
  match x with
  | .expression e => inferInstanceAs (Decidable (e.alternatives.length ≤ n))
  | .branch _ | .item _ | .member _ => inferInstanceAs (Decidable True)

section

variable {n : Nat}

mutual

/-- A level of groups adds as many nodes as an expression, its alternatives, a row of quantifiers
and the group have. -/
theorem Expression.height_le (e : Expression) {levels : Nat} (nested : e.depth ≤ levels)
    (all : ∀ x ∈ e.nodes, x.WellFormed ∧ x.Narrow n) :
    e.height ≤ 2 * e.alternatives.length + maxStacked + levels * (2 * n + maxStacked + 1) := by
  match e with
  | .single b =>
    have inside := b.height_le nested (Expression.everywhere_single all)
    simp only [Expression.alternatives, Expression.alternativesThen, List.length_singleton,
      Expression.height]
    omega
  | .alternation left right s =>
    obtain ⟨leftNested, rightNested⟩ := Nat.max_le.mp nested
    obtain ⟨leftAll, rightAll⟩ := Expression.everywhere_alternation all
    have before := left.height_le leftNested leftAll
    have last := right.height_le rightNested rightAll
    have := left.alternatives_pos
    rw [Expression.alternatives_alternation, List.length_append, List.length_singleton,
      Expression.height]
    omega

theorem Branch.height_le (b : Branch) {levels : Nat} (nested : b.depth ≤ levels)
    (all : ∀ x ∈ b.nodes, x.WellFormed ∧ x.Narrow n) :
    b.height ≤ 1 + maxStacked + levels * (2 * n + maxStacked + 1) := by
  match b with
  | ⟨items, s⟩ =>
    have inside := Item.rowHeight_le items nested (Branch.everywhere_items all)
    rw [Branch.height]
    omega

theorem Item.height_le (i : Item) {levels : Nat} (nested : i.depth ≤ levels)
    (all : ∀ x ∈ i.nodes, x.WellFormed ∧ x.Narrow n) :
    i.height ≤ i.stacked + levels * (2 * n + maxStacked + 1) := by
  match i with
  | .character _ | .lineStart _ | .lineEnd _ | .anyCharacter _ | .set _ => exact Nat.zero_le _
  | .group kind body s =>
    obtain ⟨inner, rfl⟩ := Nat.exists_eq_succ_of_ne_zero (Nat.ne_zero_of_lt nested)
    -- The group takes one level from its body, and that level pays for both.
    obtain ⟨-, within⟩ := Item.everywhere_group all
    have inside := body.height_le (Nat.le_of_succ_le_succ nested) within
    have narrow : body.alternatives.length ≤ n := (within _ body.mem_nodes).2
    rw [Nat.succ_mul, Item.height]
    omega
  | .quantified i q s =>
    have inside := i.height_le nested (Item.everywhere_quantified all).2
    rw [Item.height, Item.stacked]
    omega

theorem Item.rowHeight_le (row : List Item) {levels : Nat} (nested : Item.rowDepth row ≤ levels)
    (all : ∀ x ∈ Item.rowNodes row, x.WellFormed ∧ x.Narrow n) :
    Item.rowHeight row ≤ maxStacked + levels * (2 * n + maxStacked + 1) := by
  match row with
  | [] => exact Nat.zero_le _
  | i :: row =>
    obtain ⟨here, later⟩ := Item.everywhere_row all
    obtain ⟨first, others⟩ := Nat.max_le.mp nested
    have item := i.height_le first here
    have few := Item.stacked_le (here _ i.mem_nodes).1
    have rest := Item.rowHeight_le row others later
    rw [Item.rowHeight]
    omega

end

end

-- ═══════════════════════════════════════════════════════════════
-- Height of parsed trees
-- ═══════════════════════════════════════════════════════════════

namespace Phrase

theorem rowLegal_bars (levels count : Nat) :
    rowLexemes (List.replicate count .bar) = List.replicate count (.mark .bar) ∧
      RowLegal levels false [] (List.replicate count .bar) := by
  induction count with
  | zero => exact ⟨rfl, trivial⟩
  | succ count ih =>
    rw [List.replicate_succ, List.replicate_succ, rowLexemes, ih.1]
    exact ⟨rfl, trivial, by simp, ih.2⟩

/-- Each bar ends an alternative. -/
theorem length_branches_bars (count start position : Nat) :
    (branches start position (List.replicate count .bar)).2.length = count := by
  induction count generalizing start position with
  | zero => rfl
  | succ count ih => rw [List.replicate_succ, branches, List.length_cons, ih]

end Phrase

namespace Pattern

theorem lexemes_bars (count : Nat) :
    Lexeme.scan (List.replicate count '|') = List.replicate count (.mark .bar) := by
  induction count with
  | zero => rfl
  | succ count ih =>
    rw [List.replicate_succ, Lexeme.scan_cons_bare (by decide), ih]
    rfl

/-- A pattern of bars alone has one alternative more than it has bars. -/
theorem alternatives_bars (count : Nat) (unicode : Bool) :
    (ofText (String.ofList (List.replicate count '|')) unicode).parse.expression.alternatives.length
      = count + 1 := by
  obtain ⟨written, row⟩ := Phrase.rowLegal_bars maxDepth count
  have phrases : (ofText (String.ofList (List.replicate count '|')) unicode).phrases =
      List.replicate count .bar := by
    apply phrases_eq _ row
    rw [written, lexemes, ofText, String.toList_ofList, lexemes_bars]
  rw [parse, phrases, Phrase.expression, Expression.alternatives_ofBranches, List.length_cons,
    Phrase.length_branches_bars]

/-- No height is enough for the trees of all patterns: bars make them as high as they are many. -/
theorem height_unbounded : ¬∃ bound, ∀ p : Pattern, p.parse.expression.height ≤ bound := by
  rintro ⟨bound, enough⟩
  have many := alternatives_bars bound false
  have high := Expression.alternatives_le_height
    (ofText (String.ofList (List.replicate bound '|')) false).parse.expression
  have low := enough (ofText (String.ofList (List.replicate bound '|')) false)
  omega

/-- Apart from alternatives all that nests is limited, so the number of alternatives in an
expression bounds the height from both sides. -/
theorem height_parse (p : Pattern) {n : Nat}
    (narrow : ∀ x ∈ p.parse.expression.nodes, x.Narrow n) :
    2 * p.parse.expression.alternatives.length ≤ p.parse.expression.height ∧
      p.parse.expression.height < (maxDepth + 1) * (2 * n + maxStacked + 1) := by
  have branches := Phrase.wellFormed_branches p.phrases 0 0 p.rowLegal_phrases
  have nested : p.parse.expression.depth ≤ maxDepth :=
    Expression.depth_ofBranches_le fun b member => (branches b member).1
  have wellFormed : ∀ x ∈ p.parse.expression.nodes, x.WellFormed :=
    Expression.wellFormed_ofBranches fun b member => (branches b member).2
  have bound := p.parse.expression.height_le nested fun x member =>
    ⟨wellFormed x member, narrow x member⟩
  have few : p.parse.expression.alternatives.length ≤ n := narrow _ p.parse.expression.mem_nodes
  refine ⟨Expression.alternatives_le_height _, ?_⟩
  rw [Nat.succ_mul]
  omega

/-- The bounds for alternatives inside a group in quantifiers, and beside it: the tree is 18 nodes
high under two alternatives, where the bounds are 4 and 2967. -/
theorem height_parse_nested :
    let p := ofText "((a|b\x7b2\x7d?|)*+|c)(?:d|[x-z])|e" true
    (∀ x ∈ p.parse.expression.nodes, x.Narrow 3) ∧
      2 * p.parse.expression.alternatives.length ≤ p.parse.expression.height ∧
      p.parse.expression.height < (maxDepth + 1) * (2 * 3 + maxStacked + 1) ∧
      p.parse.expression.alternatives.length = 2 ∧ p.parse.expression.height = 18 := by
  have narrow : ∀ x ∈ (ofText "((a|b\x7b2\x7d?|)*+|c)(?:d|[x-z])|e" true).parse.expression.nodes,
      x.Narrow 3 := by decide +kernel
  obtain ⟨above, below⟩ := height_parse _ narrow
  exact ⟨narrow, above, below, by decide +kernel, by decide +kernel⟩

end Pattern

end PatternTree
