import PatternTree.Diagnostic
import PatternTree.Proofs.Meaning.Branches
import PatternTree.Proofs.Tree.Nodes

/-!
The spans of diagnostics of one kind and of the groups in a tree. Main statements: no part but a
phrase itself has a diagnostic about brackets, and the groups of a row of phrases are those of each
phrase, whatever bars stand between them.
-/

namespace PatternTree

/-- The span of the character at a position. -/
def Span.single (start : Nat) : Span := ⟨start, start + 1⟩

/-- The spans of the diagnostics of one kind. -/
def Diagnostic.spans (kind : Diagnostic.Kind) (ds : List Diagnostic) : List Span :=
  (ds.filter (·.kind = kind)).map Diagnostic.span

def Node.groupSpan? : Node → Option Span
  | item (.group _ _ s) => some s
  | _ => none

/-- The spans of the groups among some nodes. -/
def Node.groupSpans (xs : List Node) : List Span := xs.filterMap groupSpan?

-- ═══════════════════════════════════════════════════════════════
-- Diagnostics and groups of parts
-- ═══════════════════════════════════════════════════════════════

namespace Diagnostic

/-- Whether a diagnostic is about brackets that do not match or nest too deeply. -/
def Kind.ofBrackets : Kind → Bool
  | unopenedGroup | groupTooDeep | unclosedSet | unclosedGroup => true
  | _ => false

@[simp] theorem spans_nil (kind : Kind) : spans kind [] = [] := rfl

@[simp] theorem spans_singleton (kind : Kind) (d : Diagnostic) :
    spans kind [d] = if d.kind = kind then [d.span] else [] := by
  by_cases same : d.kind = kind <;> simp [spans, same]

@[simp] theorem spans_append (kind : Kind) (ds more : List Diagnostic) :
    spans kind (ds ++ more) = spans kind ds ++ spans kind more := by
  simp [spans]

theorem spans_eq_nil {ds : List Diagnostic} (quiet : ∀ d ∈ ds, ¬d.kind.ofBrackets) {kind : Kind}
    (bracket : kind.ofBrackets) : spans kind ds = [] := by
  have others : ∀ d ∈ ds, d.kind ≠ kind := fun d member same => quiet d member (same ▸ bracket)
  simpa [spans] using others

end Diagnostic

theorem Repetition.ofBrackets_diagnostics (start : Nat) (rs : List Repetition) :
    ∀ d ∈ diagnostics start rs, ¬d.kind.ofBrackets := by
  have none : ∀ d ∈ reversals start rs, ¬d.kind.ofBrackets := by
    induction rs generalizing start with
    | nil => simp [reversals]
    | cons r rs ih =>
      refine List.forall_mem_append.mpr ⟨?_, ih _⟩
      split <;> simp [Diagnostic.Kind.ofBrackets]
  refine List.forall_mem_append.mpr ⟨none, ?_⟩
  split <;> simp [Diagnostic.Kind.ofBrackets]

theorem Header.ofBrackets_diagnostics (start : Nat) (h : Header) :
    ∀ d ∈ h.diagnostics start, ¬d.kind.ofBrackets := by
  cases h <;> simp [diagnostics, Diagnostic.Kind.ofBrackets]

theorem Piece.ofBrackets_diagnostics (start : Nat) (ps : List Piece) :
    ∀ d ∈ rowDiagnostics start ps, ¬d.kind.ofBrackets := by
  induction ps generalizing start with
  | nil => simp [rowDiagnostics]
  | cons p ps ih =>
    refine List.forall_mem_append.mpr ⟨?_, ih _⟩
    unfold diagnostics
    split
    · simp [Diagnostic.Kind.ofBrackets]
    · split <;> simp [Diagnostic.Kind.ofBrackets]

namespace Node

@[simp] theorem groupSpans_nil : groupSpans [] = [] := rfl

@[simp] theorem groupSpans_append (xs ys : List Node) :
    groupSpans (xs ++ ys) = groupSpans xs ++ groupSpans ys := List.filterMap_append

@[simp] theorem groupSpans_cons_expression (e : Expression) (xs : List Node) :
    groupSpans (.expression e :: xs) = groupSpans xs := rfl

@[simp] theorem groupSpans_cons_branch (b : Branch) (xs : List Node) :
    groupSpans (.branch b :: xs) = groupSpans xs := rfl

end Node

/-- The groups of alternatives are those of the expression. -/
theorem Expression.groupSpans_ofBranches (first : Branch) (others : List Branch) :
    Node.groupSpans (ofBranches first others).nodes =
      (first :: others).flatMap fun b => Node.groupSpans b.nodes := by
  induction others using List.reverseRecOn with
  | nil => simp [ofBranches, nodes]
  | append_singleton others last ih =>
    rw [ofBranches_append_singleton, nodes, ← List.cons_append (a := first), List.flatMap_append,
      ← ih]
    simp

theorem Repetition.groupSpans_wrapAll (start : Nat) (item : Item) (stop : Nat)
    (rs : List Repetition) :
    Node.groupSpans (wrapAll start item stop rs).nodes = Node.groupSpans item.nodes := by
  induction rs generalizing item stop with
  | nil => rfl
  | cons r rs ih => rw [wrapAll, ih, Item.nodes]; rfl

theorem Lexeme.groupSpans_item? {start : Nat} {l : Lexeme} {item : Item}
    (stands : l.item? start = some item) : Node.groupSpans item.nodes = [] := by
  unfold item? at stands
  split at stands
  case h_4 =>
    obtain ⟨g, -, rfl⟩ := Option.map_eq_some_iff.mp stands
    rfl
  all_goals
    cases stands
    rfl

theorem Bracket.groupSpans_charSet (b : Bracket) (start : Nat) :
    Node.groupSpans (Item.set (b.charSet start)).nodes = [] := by
  simp [Node.groupSpans, Item.nodes, Node.groupSpan?]

namespace Phrase

/-- The spans of the groups in the item of a phrase that starts at `start`. -/
def groupSpans (start : Nat) (p : Phrase) : List Span :=
  (p.item? start).toList.flatMap fun item => Node.groupSpans item.nodes

/-- The spans of the groups in a row of phrases that starts at `start`. -/
def rowGroupSpans (start : Nat) : List Phrase → List Span
  | [] => []
  | p :: ps => p.groupSpans start ++ rowGroupSpans (start + p.width) ps

theorem groupSpans_branches (ps : List Phrase) (start position : Nat) :
    let all := branches start position ps
    ((all.1 :: all.2).flatMap fun b => Node.groupSpans b.nodes) = rowGroupSpans position ps := by
  induction ps generalizing start position with
  | nil => rfl
  | cons p ps ih =>
    by_cases bar : p = .bar
    · subst bar
      exact ih (position + 1) (position + 1)
    · have rest := ih start (position + p.width)
      rw [branches_other bar, rowGroupSpans, ← rest]
      cases stands : p.item? position <;>
        simp [groupSpans, stands, Branch.cons?, Branch.nodes_eq, Item.rowNodes]

theorem groupSpans_expression (start : Nat) (ps : List Phrase) :
    Node.groupSpans (expression start ps).nodes = rowGroupSpans start ps := by
  rw [expression, Expression.groupSpans_ofBranches]
  exact groupSpans_branches ps start start

theorem groupSpans_single (start : Nat) (l : Lexeme) (rs : List Repetition) :
    (Phrase.single l rs).groupSpans start = [] := by
  simp only [groupSpans, item?, Repetition.wrap]
  cases stands : l.item? start with
  | none => rfl
  | some item => simp [Repetition.groupSpans_wrapAll, Lexeme.groupSpans_item? stands]

theorem groupSpans_set (start : Nat) (b : Bracket) (rs : List Repetition) :
    (Phrase.set b rs).groupSpans start = [] := by
  simp [groupSpans, item?, Repetition.wrap, Repetition.groupSpans_wrapAll, b.groupSpans_charSet]

/-- A group comes before those inside it. -/
theorem groupSpans_group (start : Nat) (h : Header) (body : List Phrase) (closed : Bool)
    (rs : List Repetition) :
    (Phrase.group h body closed rs).groupSpans start =
      ⟨start, start + h.width + rowWidth body + closed.toNat⟩ ::
        rowGroupSpans (start + h.width) body := by
  simp only [groupSpans, item?, Option.toList_some, List.flatMap_cons, List.flatMap_nil,
    List.append_nil, Repetition.wrap, Repetition.groupSpans_wrapAll]
  rw [← groupSpans_expression]
  rfl

end Phrase

end PatternTree
