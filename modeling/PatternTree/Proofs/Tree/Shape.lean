import PatternTree.Proofs.Tree.Nodes

/-!
The shape of a tree: the tree without its spans. Trees of one shape are equal except for spans, and
they are written alike.
-/

namespace PatternTree

/-- The span that stands in a shape where a tree has one. -/
def Span.blank : Span := .empty 0

def Character.shape (c : Character) : Character := ⟨c.glyph, .blank⟩

def Member.shape : Member → Member
  | single c => single c.shape
  | range first last _ => range first.shape last.shape .blank

def CharSet.shape (s : CharSet) : CharSet := ⟨s.inverted, s.members.map Member.shape, .blank⟩

mutual

def Expression.shape : Expression → Expression
  | .single b => .single b.shape
  | .alternation left right _ => .alternation left.shape right.shape .blank

def Branch.shape : Branch → Branch
  | ⟨items, _⟩ => ⟨Item.rowShape items, .blank⟩

def Item.shape : Item → Item
  | .character c => .character c.shape
  | .lineStart _ => .lineStart .blank
  | .lineEnd _ => .lineEnd .blank
  | .anyCharacter _ => .anyCharacter .blank
  | .set s => .set s.shape
  | .group kind body _ => .group kind body.shape .blank
  | .quantified item q _ => .quantified item.shape q .blank

def Item.rowShape : List Item → List Item
  | [] => []
  | item :: row => item.shape :: Item.rowShape row

end

theorem Branch.span_shape (b : Branch) : b.shape.span = .blank := by
  cases b
  rfl

theorem Expression.span_shape (e : Expression) : e.shape.span = .blank := by
  cases e with
  | single b => exact b.span_shape
  | alternation => rfl

/-- Folding keeps to shapes: the hull of blank spans is blank. -/
theorem Expression.shape_ofBranches (first : Branch) (others : List Branch) :
    (ofBranches first others).shape = ofBranches first.shape (others.map Branch.shape) := by
  induction others using List.reverseRecOn with
  | nil => rfl
  | append_singleton others last ih =>
    have left : (ofBranches first.shape (others.map Branch.shape)).span = .blank := by
      rw [← ih, span_shape]
    rw [List.map_append, List.map_singleton, ofBranches_append_singleton,
      ofBranches_append_singleton, left, last.span_shape, shape, ih]
    rfl

theorem Member.source_shape (m : Member) : m.shape.source = m.source := by
  cases m <;> rfl

theorem CharSet.source_shape (s : CharSet) : s.shape.source = s.source := by
  have members : (s.members.map Member.shape).flatMap Member.source =
      s.members.flatMap Member.source := by
    rw [List.flatMap_map]
    exact congrArg (s.members.flatMap ·) (funext Member.source_shape)
  rw [source, shape, members, source]

theorem Item.endsGreedy_shape (i : Item) : i.shape.endsGreedy = i.endsGreedy := by
  cases i <;> rfl

mutual

theorem Expression.source_shape (e : Expression) : e.shape.source = e.source := by
  match e with
  | .single b => exact b.source_shape
  | .alternation left right s =>
    rw [Expression.shape, Expression.source, Expression.source, left.source_shape,
      right.source_shape]

theorem Branch.source_shape (b : Branch) : b.shape.source = b.source := by
  match b with
  | ⟨items, s⟩ => exact Item.source_rowShape items

theorem Item.source_shape (i : Item) : i.shape.source = i.source := by
  match i with
  | .character c | .lineStart s | .lineEnd s | .anyCharacter s => rfl
  | .set s => exact s.source_shape
  | .group kind body s => rw [Item.shape, Item.source, Item.source, body.source_shape]
  | .quantified item q s =>
    rw [Item.shape, Item.source, Item.source, item.source_shape, item.endsGreedy_shape]

theorem Item.source_rowShape (row : List Item) :
    Item.rowSource (Item.rowShape row) = Item.rowSource row := by
  match row with
  | [] => rfl
  | i :: row =>
    rw [Item.rowShape, Item.rowSource, Item.rowSource, i.source_shape, Item.source_rowShape]

end

end PatternTree
