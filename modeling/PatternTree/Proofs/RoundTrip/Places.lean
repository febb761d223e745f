import PatternTree.Proofs.Tree.Shape

/-!
Places: a tree with every node at the place of its own text. Main statements: placing a tree changes
nothing but spans, and then the span of each node delimits the piece of the whole text that is the
node's own.
-/

namespace PatternTree

/-- The place that a text takes up from `start` on. -/
def Span.ofText (start : Nat) (text : List Char) : Span := ⟨start, start + text.length⟩

/-- A member at the place that its text takes up from `start` on, and the ends of a range each at
its own. -/
def Member.placed (start : Nat) : Member → Member
  | single c => single ⟨c.glyph, .ofText start c.glyph.sourceInSet⟩
  | range first last s =>
    range ⟨first.glyph, .ofText start first.glyph.sourceInSet⟩
      ⟨last.glyph, .ofText (start + first.glyph.sourceInSet.length + 1) last.glyph.sourceInSet⟩
      (.ofText start (range first last s).source)

def Member.placedRow (start : Nat) : List Member → List Member
  | [] => []
  | m :: ms => m.placed start :: placedRow (start + m.source.length) ms

def CharSet.placed (start : Nat) (s : CharSet) : CharSet :=
  ⟨s.inverted, Member.placedRow (start + (1 + s.inverted.toNat)) s.members, .ofText start s.source⟩

mutual

/-- An expression with every node at the place of its own text, if it is written from `start`
on. -/
def Expression.placed (start : Nat) : Expression → Expression
  | .single b => .single (b.placed start)
  | .alternation left right s =>
    .alternation (left.placed start) (right.placed (start + left.source.length + 1))
      (.ofText start (Expression.alternation left right s).source)

def Branch.placed (start : Nat) : Branch → Branch
  | ⟨items, _⟩ => ⟨Item.placedRow start items, .ofText start (Item.rowSource items)⟩

def Item.placed (start : Nat) : Item → Item
  | .character c => .character ⟨c.glyph, .ofText start c.glyph.source⟩
  | .lineStart _ => .lineStart (.ofText start ['^'])
  | .lineEnd _ => .lineEnd (.ofText start ['$'])
  | .anyCharacter _ => .anyCharacter (.ofText start ['.'])
  | .set s => .set (s.placed start)
  | .group kind body s =>
    .group kind (body.placed (start + kind.opening.length))
      (.ofText start (Item.group kind body s).source)
  | .quantified item q s =>
    .quantified (item.placed start) q (.ofText start (Item.quantified item q s).source)

def Item.placedRow (start : Nat) : List Item → List Item
  | [] => []
  | item :: row => item.placed start :: Item.placedRow (start + item.source.length) row

end

-- ═══════════════════════════════════════════════════════════════
-- Placing changes nothing but spans
-- ═══════════════════════════════════════════════════════════════

theorem Member.span_placed (m : Member) (start : Nat) :
    (m.placed start).span = .ofText start m.source := by
  cases m <;> rfl

theorem Branch.span_placed (b : Branch) (start : Nat) :
    (b.placed start).span = .ofText start b.source := by
  cases b
  rfl

theorem Expression.span_placed (e : Expression) (start : Nat) :
    (e.placed start).span = .ofText start e.source := by
  cases e with
  | single b => exact b.span_placed start
  | alternation => rfl

theorem Item.span_placed (i : Item) (start : Nat) :
    (i.placed start).span = .ofText start i.source := by
  cases i <;> rfl

theorem Member.shape_placed (m : Member) (start : Nat) : (m.placed start).shape = m.shape := by
  cases m <;> rfl

theorem Member.shape_placedRow (ms : List Member) (start : Nat) :
    (placedRow start ms).map shape = ms.map shape := by
  induction ms generalizing start with
  | nil => rfl
  | cons m ms ih => rw [placedRow, List.map_cons, List.map_cons, m.shape_placed, ih]

theorem CharSet.shape_placed (s : CharSet) (start : Nat) : (s.placed start).shape = s.shape := by
  rw [shape, placed, Member.shape_placedRow, shape]

mutual

theorem Expression.shape_placed (e : Expression) (start : Nat) :
    (e.placed start).shape = e.shape := by
  match e with
  | .single b => exact congrArg Expression.single (b.shape_placed start)
  | .alternation left right s =>
    rw [Expression.placed, Expression.shape, Expression.shape, left.shape_placed,
      right.shape_placed]

theorem Branch.shape_placed (b : Branch) (start : Nat) : (b.placed start).shape = b.shape := by
  match b with
  | ⟨items, s⟩ => rw [Branch.placed, Branch.shape, Branch.shape, Item.shape_placedRow]

theorem Item.shape_placed (i : Item) (start : Nat) : (i.placed start).shape = i.shape := by
  match i with
  | .character c | .lineStart s | .lineEnd s | .anyCharacter s => rfl
  | .set s => exact congrArg Item.set (s.shape_placed start)
  | .group kind body s => rw [Item.placed, Item.shape, Item.shape, body.shape_placed]
  | .quantified item q s => rw [Item.placed, Item.shape, Item.shape, item.shape_placed]

theorem Item.shape_placedRow (row : List Item) (start : Nat) :
    Item.rowShape (Item.placedRow start row) = Item.rowShape row := by
  match row with
  | [] => rfl
  | i :: row =>
    rw [Item.placedRow, Item.rowShape, Item.rowShape, i.shape_placed, Item.shape_placedRow]

end

-- ═══════════════════════════════════════════════════════════════
-- Spans delimit texts
-- ═══════════════════════════════════════════════════════════════

namespace Node

/-- The span of a node delimits the node's own text in a text that starts at `start`. -/
def Delimits (start : Nat) (text : List Char) (x : Node) : Prop :=
  ∃ before after, text = before ++ x.source ++ after ∧
    x.span = .ofText (start + before.length) x.source

theorem Delimits.whole {x : Node} {start : Nat} {text : List Char} (own : x.source = text)
    (span : x.span = .ofText start text) : x.Delimits start text := by
  subst own
  exact ⟨[], [], by simp, span⟩

/-- What a span delimits in a piece of a text it delimits in the text. -/
theorem Delimits.within {x : Node} {start : Nat} {piece : List Char} (before after : List Char)
    (inside : x.Delimits (start + before.length) piece) :
    x.Delimits start (before ++ piece ++ after) := by
  obtain ⟨left, right, rfl, span⟩ := inside
  refine ⟨before ++ left, right ++ after, by simp, ?_⟩
  rw [span, List.length_append, Nat.add_assoc]

end Node

theorem Member.source_placed (m : Member) (start : Nat) : (m.placed start).source = m.source := by
  rw [← source_shape, shape_placed, source_shape]

theorem Branch.source_placed (b : Branch) (start : Nat) : (b.placed start).source = b.source := by
  rw [← source_shape, shape_placed, source_shape]

theorem Expression.source_placed (e : Expression) (start : Nat) :
    (e.placed start).source = e.source := by
  rw [← source_shape, shape_placed, source_shape]

theorem Item.source_placed (i : Item) (start : Nat) : (i.placed start).source = i.source := by
  rw [← source_shape, shape_placed, source_shape]

theorem Member.delimits_placedRow (ms : List Member) (start : Nat) :
    ∀ m ∈ placedRow start ms, (Node.member m).Delimits start (ms.flatMap source) := by
  induction ms generalizing start with
  | nil => simp [placedRow]
  | cons m ms ih =>
    intro n member
    rw [List.flatMap_cons]
    rcases List.mem_cons.mp member with rfl | later
    · have here : (Node.member (m.placed start)).Delimits start m.source :=
        Node.Delimits.whole (m.source_placed start) (m.span_placed start)
      exact here.within [] _
    · simpa using (ih _ n later).within m.source []

mutual

theorem Expression.delimits_placed (e : Expression) (start : Nat) :
    ∀ x ∈ (e.placed start).nodes, x.Delimits start e.source := by
  intro x member
  match e with
  | .single b =>
    rcases List.mem_cons.mp member with rfl | inside
    · exact Node.Delimits.whole (b.source_placed start) (b.span_placed start)
    · exact b.delimits_placed start x inside
  | .alternation left right s =>
    rcases List.mem_cons.mp member with rfl | inside
    · exact Node.Delimits.whole
        ((Expression.alternation left right s).source_placed start) rfl
    rcases List.mem_append.mp inside with inLeft | inRight
    · exact (left.delimits_placed start x inLeft).within [] ('|' :: right.source)
    -- The right side stands after the left one and a bar.
    · have place : start + left.source.length + 1 = start + (left.source ++ ['|']).length := by
        simp [Nat.add_assoc]
      have inside := right.delimits_placed _ x inRight
      rw [place] at inside
      simpa [Expression.source] using inside.within (left.source ++ ['|']) []

theorem Branch.delimits_placed (b : Branch) (start : Nat) :
    ∀ x ∈ (b.placed start).nodes, x.Delimits start b.source := by
  intro x member
  match b with
  | ⟨items, s⟩ =>
    rcases List.mem_cons.mp member with rfl | inside
    · exact Node.Delimits.whole (Branch.source_placed ⟨items, s⟩ start) rfl
    · exact Item.delimits_placedRow items start x inside

theorem Item.delimits_placed (i : Item) (start : Nat) :
    ∀ x ∈ (i.placed start).nodes, x.Delimits start i.source := by
  have here : (Node.item (i.placed start)).Delimits start i.source :=
    Node.Delimits.whole (i.source_placed start) (i.span_placed start)
  intro x member
  match i with
  | .character c | .lineStart s | .lineEnd s | .anyCharacter s =>
    obtain rfl := List.mem_singleton.mp member
    exact here
  | .set s =>
    rcases List.mem_cons.mp member with rfl | inside
    · exact here
    · obtain ⟨m, among, rfl⟩ := List.mem_map.mp inside
      -- Members stand after the bracket, and after the caret if there is one.
      let opening := '[' :: if s.inverted then ['^'] else []
      have place : start + (1 + s.inverted.toNat) = start + opening.length := by
        cases inverted : s.inverted <;> simp [opening, inverted]
      have inside := Member.delimits_placedRow s.members _ m among
      rw [place] at inside
      simpa [Item.source, CharSet.source, opening] using inside.within opening [']']
  | .group kind body s =>
    rcases List.mem_cons.mp member with rfl | inside
    · exact here
    · exact (body.delimits_placed _ x inside).within kind.opening [')']
  | .quantified item q s =>
    rcases List.mem_cons.mp member with rfl | inside
    · exact here
    · exact (item.delimits_placed start x inside).within [] (q.source item.endsGreedy)

theorem Item.delimits_placedRow (row : List Item) (start : Nat) :
    ∀ x ∈ Item.rowNodes (Item.placedRow start row), x.Delimits start (Item.rowSource row) := by
  intro x member
  match row with
  | [] => cases member
  | i :: row =>
    rcases List.mem_append.mp member with inside | later
    · exact (i.delimits_placed start x inside).within [] (Item.rowSource row)
    · simpa [Item.rowSource] using
        (Item.delimits_placedRow row _ x later).within i.source []

end

end PatternTree
