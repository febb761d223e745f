import Mathlib.Data.List.Chain
import PatternTree.Diagnostic
import PatternTree.Proofs.Tree.Nodes

/-!
Coverage: no character of a text is lost, and none is claimed twice. What that means for each kind
of node, given the text and the diagnostics: alternatives meet at bars, items and skipped text share
an alternative out between them, and members share out the inside of a set.
-/

namespace PatternTree

attribute [ext] Span

namespace Span

def Covers (s : Span) (k : Nat) : Prop := s.start ≤ k ∧ k < s.stop

def Within (s t : Span) : Prop := t.start ≤ s.start ∧ s.stop ≤ t.stop

instance (s t : Span) : Decidable (s.Within t) :=
  inferInstanceAs (Decidable (t.start ≤ s.start ∧ s.stop ≤ t.stop))

/-- The spans follow one another from `a` to `b` without a gap, and none is empty. -/
def Tile : Nat → List Span → Nat → Prop
  | a, [], b => a = b
  | a, s :: ss, b => s.start = a ∧ a < s.stop ∧ Tile s.stop ss b

end Span

/-- Whether a diagnostic of the kind is about text that is skipped. -/
def Diagnostic.Kind.skips : Diagnostic.Kind → Bool
  | unopenedGroup | nothingToRepeat | unknownPart | groupTooDeep | tooManyQuantifiers => true
  | _ => false

/-- One alternative ends where a bar stands, and the other begins right after it. -/
def Branch.Meets (text : List Char) (b c : Branch) : Prop :=
  text[b.span.stop]? = some '|' ∧ c.span.start = b.span.stop + 1

/-- The diagnostics about skipped text of an alternative that is inside none of its items. -/
def Branch.skipped (b : Branch) (ds : List Diagnostic) : List Diagnostic :=
  ds.filter fun d =>
    d.kind.skips ∧ d.span.Within b.span ∧ ∀ i ∈ b.items, ¬d.span.Within i.span

/-- The items of an alternative and what is skipped between them share it out: what no item covers
is covered by skipped text, and nothing is covered twice. -/
structure Branch.Covered (ds : List Diagnostic) (b : Branch) : Prop where
  ordered : b.span.start ≤ b.span.stop
  inside : ∀ i ∈ b.items, i.span.Within b.span ∧ i.span.start < i.span.stop
  increasing : b.items.Pairwise fun i j => i.span.stop ≤ j.span.start
  skipped_nonempty : ∀ d ∈ b.skipped ds, d.span.start < d.span.stop
  skipped_increasing : (b.skipped ds).Pairwise fun d e => d.span.stop ≤ e.span.start
  uncovered : ∀ k, b.span.Covers k →
    ((¬∃ i ∈ b.items, i.span.Covers k) ↔ ∃ d ∈ b.skipped ds, d.span.Covers k)

/-- The alternatives of an expression begin and end where the expression does, and meet at bars in
between. -/
structure Expression.Covered (text : List Char) (e : Expression) : Prop where
  start : (e.alternatives.head?.map fun b => b.span.start) = some e.span.start
  stop : (e.alternatives.getLast?.map fun b => b.span.stop) = some e.span.stop
  meet : e.alternatives.IsChain (Branch.Meets text)

/-- The body of a group begins right after the header, or after the question mark if what follows
the parenthesis is no modifier, and ends right before the closing parenthesis, or with the text if
there is none. -/
structure GroupKind.Covered (text : List Char) (ds : List Diagnostic) (kind : GroupKind)
    (body span : Span) : Prop where
  header : (kind.opening <+: text.drop span.start ∧
      body.start = span.start + kind.opening.length ∧
      (kind = .capture → text[body.start]? ≠ some '?')) ∨
    (kind = .capture ∧ ['(', '?'] <+: text.drop span.start ∧ body.start = span.start + 2 ∧
      ⟨.unknownGroupHeader, ⟨span.start + 1, span.start + 2⟩⟩ ∈ ds)
  close : (text[body.stop]? = some ')' ∧ span.stop = body.stop + 1) ∨
    (body.stop = text.length ∧ span.stop = text.length ∧
      ⟨.unclosedGroup, ⟨span.start, span.start + 1⟩⟩ ∈ ds)

/-- The members of a set share out what is between its brackets. Without a closing bracket that is
all to the end of the text, but for a lone backslash there. -/
structure CharSet.Covered (text : List Char) (ds : List Diagnostic) (s : CharSet) : Prop where
  opening : ('[' :: if s.inverted then ['^'] else []) <+: text.drop s.span.start
  bare : ¬s.inverted → text[s.span.start + 1]? ≠ some '^'
  members : ∃ stop,
    Span.Tile (s.span.start + (1 + s.inverted.toNat)) (s.members.map Member.span) stop ∧
      ((text[stop]? = some ']' ∧ s.span.stop = stop + 1) ∨
        (s.span.stop = text.length ∧
          ⟨.unclosedSet, ⟨s.span.start, s.span.start + 1⟩⟩ ∈ ds ∧
          (stop = text.length ∨ stop + 1 = text.length ∧ text[stop]? = some '\\' ∧
            ⟨.unknownPart, ⟨stop, stop + 1⟩⟩ ∈ ds)))

/-- No character in the node is lost, and none is claimed twice. -/
def Node.Covered (text : List Char) (ds : List Diagnostic) : Node → Prop
  | expression e => e.Covered text
  | branch b => b.Covered ds
  | item (.group kind body s) => kind.Covered text ds body.span s
  | item (.set s) => s.Covered text ds
  | _ => True

end PatternTree
