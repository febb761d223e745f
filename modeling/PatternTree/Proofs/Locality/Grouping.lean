import Mathlib.Order.Basic
import PatternTree.Proofs.Locality.Moved
import PatternTree.Proofs.Locality.Surroundings
import PatternTree.Proofs.Meaning.WellFormed
import PatternTree.Proofs.RoundTrip.Canonical

/-!
A group around a pattern leaves it as it is. Main statement: a pattern that leaves nothing open and
closes nothing that it did not open parses inside a group to the tree and the diagnostics that it
has alone, moved past the header of the group.
-/

namespace PatternTree

-- ═══════════════════════════════════════════════════════════════
-- Depth of phrases and of trees
-- ═══════════════════════════════════════════════════════════════

theorem Expression.depth_ofBranches_le_iff {levels : Nat} {first : Branch} {others : List Branch} :
    (ofBranches first others).depth ≤ levels ↔ ∀ b ∈ first :: others, b.depth ≤ levels := by
  induction others using List.reverseRecOn with
  | nil => simp [ofBranches, depth]
  | append_singleton others last ih =>
    rw [ofBranches_append_singleton, depth, Nat.max_le, ih, ← List.cons_append,
      List.forall_mem_append, List.forall_mem_singleton]

namespace Phrase

theorem depth_eq_zero_of_item? {p : Phrase} {start : Nat} (none : p.item? start = none) :
    p.depth = 0 := by
  cases p with
  | group => cases none
  | _ => rfl

mutual

/-- Groups nest in the item of a phrase as they do in the phrase. -/
theorem depth_item? (p : Phrase) {start : Nat} {item : Item} (stands : p.item? start = some item) :
    item.depth = p.depth := by
  match p with
  | .bar | .stray _ | .tooDeep _ => cases stands
  | .single l rs =>
    obtain ⟨inner, found, rfl⟩ := Option.map_eq_some_iff.mp stands
    rw [Repetition.wrap, Repetition.depth_wrapAll]
    exact (Lexeme.wellFormed_item? found).2.1
  | .set b rs =>
    cases stands
    rw [Repetition.wrap, Repetition.depth_wrapAll]
    rfl
  | .group h body closed rs =>
    cases stands
    rw [Repetition.wrap, Repetition.depth_wrapAll]
    have inside : (expression (start + h.width) body).depth = rowDepth body :=
      eq_of_forall_ge_iff fun levels =>
        Expression.depth_ofBranches_le_iff.trans (rowDepth_le_iff body _ _).symm
    exact congrArg (· + 1) inside

theorem rowDepth_le_iff (ps : List Phrase) (start position : Nat) {levels : Nat} :
    rowDepth ps ≤ levels ↔
      ∀ b ∈ (branches start position ps).1 :: (branches start position ps).2, b.depth ≤ levels := by
  match ps with
  | [] => simp [branches, Branch.depth, Item.rowDepth, rowDepth]
  | p :: ps =>
    rw [rowDepth, Nat.max_le]
    by_cases bar : p = .bar
    · subst bar
      rw [rowDepth_le_iff ps (position + 1) (position + 1), branches]
      simp [depth, Branch.depth, Item.rowDepth]
    · rw [rowDepth_le_iff ps start (position + p.width)]
      cases stands : p.item? position with
      | none => simp [branches_none bar stands, depth_eq_zero_of_item? stands]
      | some item =>
        rw [branches_item stands, ← depth_item? p stands, List.forall_mem_cons,
          List.forall_mem_cons, Branch.depth_eq, Branch.depth_eq, Item.rowDepth, Nat.max_le,
          and_assoc]

end

theorem depth_expression (ps : List Phrase) (start : Nat) :
    (expression start ps).depth = rowDepth ps :=
  eq_of_forall_ge_iff fun _ =>
    Expression.depth_ofBranches_le_iff.trans (rowDepth_le_iff ps start start).symm

/-- A closed group that nothing else stands beside is the only item of the only alternative. -/
theorem expression_group (kind : GroupKind) (body : List Phrase) (start : Nat) :
    let inside := start + kind.opening.length
    let span : Span := ⟨start, inside + rowWidth body + 1⟩
    expression start [.group (.kind kind) body true []] =
      .single ⟨[.group kind (expression inside body) span], span⟩ := by
  have stands : (Phrase.group (.kind kind) body true []).item? start =
      some (.group kind (expression (start + kind.opening.length) body)
        ⟨start, start + kind.opening.length + rowWidth body + 1⟩) := rfl
  rw [expression, branches_item stands]
  simp [branches, Expression.ofBranches, width, Header.width, Repetition.rowWidth, Nat.add_assoc]

/-- A closing parenthesis that closes nothing is reported. -/
theorem closeParen_not_mem {ps : List Phrase} {start : Nat}
    (opened : ∀ d ∈ rowDiagnostics start ps, d.kind ≠ .unopenedGroup) :
    .stray (.mark .closeParen) ∉ ps := by
  induction ps generalizing start with
  | nil => exact List.not_mem_nil
  | cons p ps ih =>
    have later := ih fun d member => opened d (List.mem_append_right _ member)
    refine List.not_mem_cons_of_ne_of_not_mem ?_ later
    rintro rfl
    exact opened _ (List.mem_append_left _ List.mem_cons_self) rfl

end Phrase

-- ═══════════════════════════════════════════════════════════════
-- A pattern in a group
-- ═══════════════════════════════════════════════════════════════

namespace Pattern

/-- The header of a group is read into its lexemes, and so is the parenthesis that closes it. -/
theorem lexemes_group {a : String} (complete : trailingBackslashes a.toList % 2 = 0)
    {kind : GroupKind} (valid : kind.WellFormed) (unicode : Bool) :
    (ofText (String.ofList kind.opening ++ a ++ ")") unicode).lexemes =
      kind.lexemes ++ ((ofText a unicode).lexemes ++ [.mark .closeParen]) := by
  have spelled := GroupKind.spelledAs_lexemes valid
  have opening : Lexeme.scan kind.opening = kind.lexemes := spelled.scan_eq
  have whole : .dangling ∉ Lexeme.scan kind.opening := by
    rw [opening]
    exact spelled.dangling_not_mem
  have close : (ofText ")" unicode).lexemes = [.mark .closeParen] := rfl
  rw [← close, ← lexemes_append complete, String.append_assoc]
  simp only [lexemes, ofText, String.toList_append, String.toList_ofList]
  rw [← opening]
  exact Lexeme.scan_append whole _

/-- A header is read as such in front of a text that does not begin with what would make it
another. -/
theorem legal_header {a : Pattern} {kind : GroupKind} (valid : kind.WellFormed)
    (bare : kind = .capture → a.chars.toList.head? ≠ some '?') :
    (Header.kind kind).Legal (a.lexemes ++ [.mark .closeParen]) := by
  cases kind with
  | capture =>
    intro head
    cases first : a.lexemes with
    | nil => simp [first] at head
    | cons l ls =>
      obtain rfl : l = .mark .question := by simpa [first] using head
      have here : ReadAt a.chars.toList 0 (.mark .question :: ls) := first ▸ a.readAt_lexemes
      exact bare rfl (List.head?_eq_getElem?.trans here.getElem?_mark)
  | named name => exact valid
  | grouping | look _ => trivial

/-- A pattern that is balanced is read alike inside a group. -/
theorem rowLegal_inside {a : Pattern}
    (balanced : ∀ d ∈ a.parse.diagnostics, d.kind ≠ .unclosedGroup ∧ d.kind ≠ .unclosedSet ∧
      d.kind ≠ .unopenedGroup ∧ d.kind ≠ .groupTooDeep)
    {levels : Nat} (nested : a.parse.expression.depth ≤ levels) :
    Phrase.RowLegal levels true [.mark .closeParen] a.phrases := by
  have closed : Phrase.RowLegal maxDepth false [.mark .closeParen] a.phrases :=
    a.rowLegal_phrases.follow 0 (.ended rfl [] []) fun _ => Or.inr fun d member =>
      ⟨(balanced d member).1, (balanced d member).2.1, fun _ => (balanced d member).2.2.2⟩
  apply closed.relevel 0
  · rwa [← Phrase.depth_expression a.phrases 0]
  · exact fun _ => Phrase.closeParen_not_mem fun d member => (balanced d member).2.2.1
  · exact fun d member => (balanced d member).2.2.2

/-- Grouping is compositional: a pattern that is balanced, and not nested so deeply that a group
around it would be skipped, parses inside a group as it does alone. -/
theorem parse_group (a : String) (unicode : Bool) (kind : GroupKind) (valid : kind.WellFormed)
    (bare : kind = .capture → a.toList.head? ≠ some '?')
    (balanced : ∀ d ∈ (ofText a unicode).parse.diagnostics, d.kind ≠ .unclosedGroup ∧
      d.kind ≠ .unclosedSet ∧ d.kind ≠ .unopenedGroup ∧ d.kind ≠ .groupTooDeep)
    (nested : (ofText a unicode).parse.expression.depth < maxDepth)
    (complete : trailingBackslashes a.toList % 2 = 0) :
    let width := kind.opening.length
    let alone := (ofText a unicode).parse
    let whole := (ofText (String.ofList kind.opening ++ a ++ ")") unicode).parse
    let span : Span := ⟨0, width + a.length + 1⟩
    whole.expression = .single ⟨[.group kind (alone.expression.moved width) span], span⟩ ∧
      whole.diagnostics = alone.diagnostics.map (Diagnostic.moved width) := by
  have header : (Header.kind kind).Legal ((ofText a unicode).lexemes ++ [.mark .closeParen]) :=
    legal_header valid (by simpa [ofText] using bare)
  have inside :
      Phrase.RowLegal (maxDepth - 1) true [.mark .closeParen] (ofText a unicode).phrases :=
    rowLegal_inside balanced (Nat.le_pred_of_lt nested)
  have phrases : (ofText (String.ofList kind.opening ++ a ++ ")") unicode).phrases =
      [.group (.kind kind) (ofText a unicode).phrases true []] := by
    apply phrases_eq
    · rw [lexemes_group complete valid, ← rowLexemes_phrases]
      simp [Phrase.rowLexemes, Phrase.lexemes, Header.lexemes, closing]
    · rw [← rowLexemes_phrases] at header
      exact ⟨⟨⟨_, rfl, inside⟩, header, Or.inl rfl, rfl⟩, by simp, trivial⟩
  have width : Phrase.rowWidth (ofText a unicode).phrases = a.length := by
    rw [rowWidth_phrases, length_ofText]
  have tree := Phrase.expression_moved kind.opening.length 0 (ofText a unicode).phrases
  have wrong := Phrase.rowDiagnostics_moved kind.opening.length (ofText a unicode).phrases 0
  rw [Nat.zero_add] at tree wrong
  simp only [parse, phrases, Phrase.expression_group, Phrase.rowDiagnostics_group,
    Header.diagnostics, Header.width, if_true, List.nil_append, List.append_nil, width, tree, wrong,
    Nat.zero_add, and_self]

/-- The law for a named group around a stray quantifier, reversed bounds, a reversed range and an
unknown header. -/
theorem parse_group_malformed :
    let kind := GroupKind.named "n1"
    let a := "*b\x7b3,1\x7d|[z-a](?x)\\\\"
    let alone := (ofText a true).parse
    let whole := (ofText (String.ofList kind.opening ++ a ++ ")") true).parse
    let span : Span := ⟨0, 6 + a.length + 1⟩
    kind.WellFormed ∧ (kind = .capture → a.toList.head? ≠ some '?') ∧
      (∀ d ∈ alone.diagnostics, d.kind ≠ .unclosedGroup ∧ d.kind ≠ .unclosedSet ∧
        d.kind ≠ .unopenedGroup ∧ d.kind ≠ .groupTooDeep) ∧
      alone.expression.depth < maxDepth ∧ trailingBackslashes a.toList % 2 = 0 ∧
      whole.expression = .single ⟨[.group kind (alone.expression.moved 6) span], span⟩ ∧
      whole.diagnostics = alone.diagnostics.map (Diagnostic.moved 6) ∧
      whole.diagnostics = [⟨.nothingToRepeat, ⟨6, 7⟩⟩, ⟨.reversedBounds, ⟨8, 13⟩⟩,
        ⟨.reversedRange, ⟨15, 18⟩⟩, ⟨.unknownGroupHeader, ⟨20, 21⟩⟩] ∧
      whole.expression.text = "(?<n1>b\x7b1,3\x7d|[a-z](x)\\\\)" := by
  have valid : (GroupKind.named "n1").WellFormed := by decide +kernel
  have balanced : ∀ d ∈ (ofText "*b\x7b3,1\x7d|[z-a](?x)\\\\" true).parse.diagnostics,
      d.kind ≠ .unclosedGroup ∧ d.kind ≠ .unclosedSet ∧ d.kind ≠ .unopenedGroup ∧
        d.kind ≠ .groupTooDeep := by decide +kernel
  have nested : (ofText "*b\x7b3,1\x7d|[z-a](?x)\\\\" true).parse.expression.depth < maxDepth := by
    decide +kernel
  have complete : trailingBackslashes "*b\x7b3,1\x7d|[z-a](?x)\\\\".toList % 2 = 0 := by
    decide +kernel
  have named : GroupKind.named "n1" = .capture →
      "*b\x7b3,1\x7d|[z-a](?x)\\\\".toList.head? ≠ some '?' := by simp
  obtain ⟨tree, diagnostics⟩ :=
    parse_group _ true (.named "n1") valid named balanced nested complete
  exact ⟨valid, named, balanced, nested, complete, tree, diagnostics, by decide +kernel,
    by decide +kernel⟩

end Pattern

end PatternTree
