import PatternTree.Proofs.Tree.Nodes
import PatternTree.Text.Name

/-!
Well-formed trees: those that canonical text can be written for. Groups nest and quantifiers stack
only so far, bounds and ranges are in order, names are names, and sets hold characters only.
-/

namespace PatternTree

/-- The number of quantifiers around an item's innermost part. -/
def Item.stacked : Item → Nat
  | .quantified item _ _ => item.stacked + 1
  | _ => 0

mutual

/-- How many levels groups nest. -/
def Expression.depth : Expression → Nat
  | .single b => b.depth
  | .alternation left right _ => max left.depth right.depth

def Branch.depth : Branch → Nat
  | ⟨items, _⟩ => Item.rowDepth items

def Item.depth : Item → Nat
  | .group _ body _ => body.depth + 1
  | .quantified item _ _ => item.depth
  | .character _ | .lineStart _ | .lineEnd _ | .anyCharacter _ | .set _ => 0

def Item.rowDepth : List Item → Nat
  | [] => 0
  | item :: row => max item.depth (Item.rowDepth row)

end

/-- The lower bound is not above the upper one. -/
def Quantifier.Ordered (q : Quantifier) : Prop :=
  match q.max with
  | some max => q.min ≤ max
  | none => True

instance (q : Quantifier) : Decidable q.Ordered :=
  match q with
  | ⟨min, some max, _⟩ => inferInstanceAs (Decidable (min ≤ max))
  | ⟨_, none, _⟩ => inferInstanceAs (Decidable True)

/-- Two characters are in order. Shorthands are in order with everything. -/
def Glyph.InOrder : Glyph → Glyph → Prop
  | literal c, literal d => c ≤ d
  | _, _ => True

instance (g h : Glyph) : Decidable (g.InOrder h) :=
  match g, h with
  | .literal c, .literal d => inferInstanceAs (Decidable (c ≤ d))
  | .literal _, .shorthand _ => inferInstanceAs (Decidable True)
  | .shorthand _, _ => inferInstanceAs (Decidable True)

/-- A member is no place between characters, and the ends of a range are in order. -/
def Member.WellFormed : Member → Prop
  | single c => c.glyph ≠ .shorthand .wordBoundary
  | range first last _ => first.glyph ≠ .shorthand .wordBoundary ∧
      last.glyph ≠ .shorthand .wordBoundary ∧ first.glyph.InOrder last.glyph

instance (m : Member) : Decidable m.WellFormed :=
  match m with
  | .single c => inferInstanceAs (Decidable (c.glyph ≠ .shorthand .wordBoundary))
  | .range first last _ => inferInstanceAs (Decidable (first.glyph ≠ .shorthand .wordBoundary ∧
      last.glyph ≠ .shorthand .wordBoundary ∧ first.glyph.InOrder last.glyph))

def GroupKind.WellFormed : GroupKind → Prop
  | named name => Text.isName name.toList
  | _ => True

instance (k : GroupKind) : Decidable k.WellFormed :=
  match k with
  | .named name => inferInstanceAs (Decidable (Text.isName name.toList = true))
  | .capture | .grouping | .look _ => inferInstanceAs (Decidable True)

/-- What a node has to be like on its own. -/
def Node.WellFormed : Node → Prop
  | item (.group kind _ _) => kind.WellFormed
  | item (.quantified i q _) => i.stacked < maxStacked ∧ q.Ordered
  | member m => m.WellFormed
  | _ => True

instance (x : Node) : Decidable x.WellFormed :=
  match x with
  | .item (.group kind _ _) => inferInstanceAs (Decidable kind.WellFormed)
  | .item (.quantified i q _) => inferInstanceAs (Decidable (i.stacked < maxStacked ∧ q.Ordered))
  | .member m => inferInstanceAs (Decidable m.WellFormed)
  | .expression _ | .branch _ => inferInstanceAs (Decidable True)
  | .item (.character _) | .item (.lineStart _) | .item (.lineEnd _) | .item (.anyCharacter _)
  | .item (.set _) => inferInstanceAs (Decidable True)

theorem Item.stacked_le {i : Item} (wellFormed : (Node.item i).WellFormed) :
    i.stacked ≤ maxStacked := by
  cases i with
  | quantified => exact wellFormed.1
  | _ => exact Nat.zero_le _

/-- Canonical text can be written for the tree, and reads back as the tree. -/
def Expression.WellFormed (e : Expression) : Prop :=
  e.depth ≤ maxDepth ∧ ∀ x ∈ e.nodes, x.WellFormed

instance (e : Expression) : Decidable e.WellFormed :=
  inferInstanceAs (Decidable (e.depth ≤ maxDepth ∧ ∀ x ∈ e.nodes, x.WellFormed))

end PatternTree
