import PatternTree.Lexeme
import PatternTree.Span

/-!
The tree of a pattern. An expression is one or more alternatives, folded to the left; an
alternative is a row of items. Every node carries the span of the text it was read from.
-/

namespace PatternTree

/-- A glyph at its place. -/
structure Character where
  glyph : Glyph
  span : Span
deriving DecidableEq

/-- A member of a character set: a character, or all from `first` to `last`. -/
inductive Member
  | single (c : Character)
  | range (first last : Character) (span : Span)
deriving DecidableEq

def Member.span : Member → Span
  | single c => c.span
  | range _ _ s => s

/-- A character set; if `inverted`, of all characters but its members. -/
structure CharSet where
  inverted : Bool
  members : List Member
  span : Span
deriving DecidableEq

/-- A look at the text around a place that consumes none of it. -/
inductive Lookaround
  | ahead | notAhead | behind | notBehind
deriving DecidableEq

inductive GroupKind
  | capture
  | named (name : String)
  | grouping
  | look (l : Lookaround)
deriving DecidableEq

/-- How often an item repeats. There is no upper bound if `max` is `none`. -/
structure Quantifier where
  min : UInt32
  max : Option UInt32
  lazy : Bool
deriving DecidableEq

mutual

inductive Expression
  | single (branch : Branch)
  | alternation (left : Expression) (right : Branch) (span : Span)

/-- One alternative. -/
structure Branch where
  items : List Item
  span : Span

inductive Item
  | character (c : Character)
  | lineStart (span : Span)
  | lineEnd (span : Span)
  | anyCharacter (span : Span)
  | set (s : CharSet)
  | group (kind : GroupKind) (body : Expression) (span : Span)
  | quantified (item : Item) (quantifier : Quantifier) (span : Span)

end

mutual

/-- Trees are compared node by node. -/
def Expression.decEq : (e f : Expression) → Decidable (e = f)
  | .single b, .single c =>
    have := b.decEq c
    decidable_of_iff (b = c) (by rw [Expression.single.injEq])
  | .alternation left right s, .alternation left' right' s' =>
    have := left.decEq left'
    have := right.decEq right'
    decidable_of_iff (left = left' ∧ right = right' ∧ s = s')
      (by rw [Expression.alternation.injEq])
  | .single _, .alternation .. | .alternation .., .single _ => .isFalse nofun

def Branch.decEq : (b c : Branch) → Decidable (b = c)
  | ⟨items, s⟩, ⟨items', s'⟩ =>
    have := Item.rowDecEq items items'
    decidable_of_iff (items = items' ∧ s = s') (by rw [Branch.mk.injEq])

def Item.decEq (i j : Item) : Decidable (i = j) :=
  if same : i.ctorIdx = j.ctorIdx then
    match i, j, same with
    | .character c, .character d, _ => decidable_of_iff (c = d) (by rw [Item.character.injEq])
    | .lineStart s, .lineStart t, _ => decidable_of_iff (s = t) (by rw [Item.lineStart.injEq])
    | .lineEnd s, .lineEnd t, _ => decidable_of_iff (s = t) (by rw [Item.lineEnd.injEq])
    | .anyCharacter s, .anyCharacter t, _ =>
      decidable_of_iff (s = t) (by rw [Item.anyCharacter.injEq])
    | .set s, .set t, _ => decidable_of_iff (s = t) (by rw [Item.set.injEq])
    | .group kind body s, .group kind' body' s', _ =>
      have := body.decEq body'
      decidable_of_iff (kind = kind' ∧ body = body' ∧ s = s') (by rw [Item.group.injEq])
    | .quantified i q s, .quantified j r t, _ =>
      have := i.decEq j
      decidable_of_iff (i = j ∧ q = r ∧ s = t) (by rw [Item.quantified.injEq])
  else .isFalse fun equal => same (congrArg Item.ctorIdx equal)

def Item.rowDecEq : (row others : List Item) → Decidable (row = others)
  | [], [] => .isTrue rfl
  | i :: row, j :: others =>
    have := i.decEq j
    have := Item.rowDecEq row others
    decidable_of_iff (i = j ∧ row = others) (by rw [List.cons.injEq])
  | [], _ :: _ | _ :: _, [] => .isFalse nofun

end

instance : DecidableEq Expression := Expression.decEq
instance : DecidableEq Branch := Branch.decEq
instance : DecidableEq Item := Item.decEq

namespace Expression

def span : Expression → Span
  | single b => b.span
  | alternation _ _ s => s

/-- The alternatives of an expression, then those given. -/
def alternativesThen : Expression → List Branch → List Branch
  | single b, more => b :: more
  | alternation left right _, more => left.alternativesThen (right :: more)

/-- The alternatives in the order of the text. -/
def alternatives (e : Expression) : List Branch := e.alternativesThen []

/-- Folds alternatives to the left. Each alternation spans all that it joins. -/
def ofBranches (first : Branch) (others : List Branch) : Expression :=
  others.foldl (fun left right => alternation left right (left.span.hull right.span)) (single first)

theorem alternativesThen_eq_append (e : Expression) (more : List Branch) :
    e.alternativesThen more = e.alternatives ++ more := by
  match e with
  | single b => rfl
  | alternation left right _ =>
    simp only [alternatives, alternativesThen]
    rw [alternativesThen_eq_append left, alternativesThen_eq_append left [right]]
    simp

theorem alternatives_ofBranches (first : Branch) (others : List Branch) :
    (ofBranches first others).alternatives = first :: others := by
  suffices h : ∀ e : Expression, (others.foldl
      (fun left right => alternation left right (left.span.hull right.span)) e).alternatives
        = e.alternatives ++ others by
    exact h (single first)
  induction others with
  | nil => simp
  | cons b others ih =>
    intro e
    rw [List.foldl_cons, ih, alternatives, alternativesThen, alternativesThen_eq_append]
    simp

end Expression

def Item.span : Item → Span
  | character c => c.span
  | lineStart s | lineEnd s | anyCharacter s => s
  | set s => s.span
  | group _ _ s => s
  | quantified _ _ s => s

end PatternTree
