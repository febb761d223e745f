import Mathlib.Data.List.Induction
import PatternTree.Expression.Source
import PatternTree.Phrase

/-!
The nodes of a tree, from the whole expression down to the members of its sets. What holds of a
tree everywhere is stated as what holds of each of its nodes.
-/

namespace PatternTree

inductive Node
  | expression (e : Expression)
  | branch (b : Branch)
  | item (i : Item)
  | member (m : Member)

namespace Node

def span : Node → Span
  | expression e => e.span
  | branch b => b.span
  | item i => i.span
  | member m => m.span

/-- The canonical text of a node on its own. -/
def source : Node → List Char
  | expression e => e.source
  | branch b => b.source
  | item i => i.source
  | member m => m.source

end Node

mutual

/-- The nodes of an expression, itself first. -/
def Expression.nodes : Expression → List Node
  | .single b => .expression (.single b) :: b.nodes
  | .alternation left right s =>
    .expression (.alternation left right s) :: (left.nodes ++ right.nodes)

def Branch.nodes : Branch → List Node
  | ⟨items, s⟩ => .branch ⟨items, s⟩ :: Item.rowNodes items

def Item.nodes : Item → List Node
  | .set s => .item (.set s) :: s.members.map .member
  | .group kind body s => .item (.group kind body s) :: body.nodes
  | .quantified item q s => .item (.quantified item q s) :: item.nodes
  | .character c => [.item (.character c)]
  | .lineStart s => [.item (.lineStart s)]
  | .lineEnd s => [.item (.lineEnd s)]
  | .anyCharacter s => [.item (.anyCharacter s)]

def Item.rowNodes : List Item → List Node
  | [] => []
  | item :: row => item.nodes ++ Item.rowNodes row

end

theorem Branch.nodes_eq (b : Branch) : b.nodes = .branch b :: Item.rowNodes b.items := by
  cases b
  rfl

section Everywhere

-- What holds of all nodes of a tree holds of its root and of all nodes of its parts.
variable {P : Node → Prop}

theorem Expression.everywhere_single {b : Branch} (all : ∀ x ∈ (single b).nodes, P x) :
    ∀ x ∈ b.nodes, P x :=
  (List.forall_mem_cons.mp all).2

theorem Expression.everywhere_alternation {left : Expression} {right : Branch} {s : Span}
    (all : ∀ x ∈ (alternation left right s).nodes, P x) :
    (∀ x ∈ left.nodes, P x) ∧ ∀ x ∈ right.nodes, P x :=
  List.forall_mem_append.mp (List.forall_mem_cons.mp all).2

theorem Branch.everywhere_items {items : List Item} {s : Span}
    (all : ∀ x ∈ (Branch.mk items s).nodes, P x) : ∀ x ∈ Item.rowNodes items, P x :=
  (List.forall_mem_cons.mp all).2

theorem Item.everywhere_members {s : CharSet} (all : ∀ x ∈ (set s).nodes, P x) :
    ∀ m ∈ s.members, P (.member m) :=
  List.forall_mem_map.mp (List.forall_mem_cons.mp all).2

theorem Item.everywhere_group {kind : GroupKind} {body : Expression} {s : Span}
    (all : ∀ x ∈ (group kind body s).nodes, P x) :
    P (.item (.group kind body s)) ∧ ∀ x ∈ body.nodes, P x :=
  List.forall_mem_cons.mp all

theorem Item.everywhere_quantified {i : Item} {q : Quantifier} {s : Span}
    (all : ∀ x ∈ (quantified i q s).nodes, P x) :
    P (.item (.quantified i q s)) ∧ ∀ x ∈ i.nodes, P x :=
  List.forall_mem_cons.mp all

theorem Item.everywhere_row {i : Item} {row : List Item}
    (all : ∀ x ∈ rowNodes (i :: row), P x) :
    (∀ x ∈ i.nodes, P x) ∧ ∀ x ∈ rowNodes row, P x :=
  List.forall_mem_append.mp all

end Everywhere

theorem Expression.mem_nodes (e : Expression) : .expression e ∈ e.nodes := by
  cases e <;> simp [nodes]

theorem Item.mem_nodes (i : Item) : .item i ∈ i.nodes := by
  cases i <;> simp [Item.nodes]

theorem Expression.ofBranches_append_singleton (first last : Branch) (others : List Branch) :
    ofBranches first (others ++ [last]) = .alternation (ofBranches first others) last
      ((ofBranches first others).span.hull last.span) := by
  simp [ofBranches, List.foldl_append]

/-- The nodes of alternatives folded to an expression: the expressions on the way, each of the
first so many alternatives, and the nodes of the alternatives. -/
theorem Expression.mem_nodes_ofBranches {first : Branch} {others : List Branch} {x : Node} :
    x ∈ (ofBranches first others).nodes ↔
      (∃ some, some <+: others ∧ x = .expression (ofBranches first some)) ∨
      ∃ b ∈ first :: others, x ∈ b.nodes := by
  induction others using List.reverseRecOn with
  | nil => simp [ofBranches, nodes]
  | append_singleton others last ih =>
    have fold := ofBranches_append_singleton first last others
    rw [fold, nodes, List.mem_cons, List.mem_append, ih, ← fold]
    constructor
    · rintro (rfl | (⟨some, before, rfl⟩ | ⟨b, member, inside⟩) | inside)
      · exact Or.inl ⟨_, List.prefix_refl _, rfl⟩
      · exact Or.inl ⟨some, before.trans (List.prefix_append _ _), rfl⟩
      · exact Or.inr ⟨b, by grind, inside⟩
      · exact Or.inr ⟨last, by simp, inside⟩
    · rintro (⟨some, before, rfl⟩ | ⟨b, member, inside⟩)
      · rcases List.prefix_concat_iff.mp before with rfl | before
        · exact Or.inl rfl
        · exact Or.inr (Or.inl (Or.inl ⟨some, before, rfl⟩))
      · have : b ∈ first :: others ∨ b = last := by grind
        rcases this with earlier | rfl
        · exact Or.inr (Or.inl (Or.inr ⟨b, earlier, inside⟩))
        · exact Or.inr (Or.inr inside)

end PatternTree
