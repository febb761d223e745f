import PatternTree.Phrase.Meaning

/-!
The meaning of a row of phrases: what each phrase adds to the alternatives, what a bar ends, and
when nothing is wrong.
-/

namespace PatternTree

theorem Branch.cons?_none (b : Branch) : b.cons? none = b := by
  cases b
  rfl

namespace Repetition

theorem wrap_eq_wrapAll {rs : List Repetition} (few : rs.length ≤ maxStacked) (start : Nat)
    (item : Item) (stop : Nat) : wrap start item stop rs = wrapAll start item stop rs := by
  rw [wrap, List.take_of_length_le few]

/-- Nothing is wrong with quantifiers that are in order and not too many. -/
theorem diagnostics_eq_nil_iff {start : Nat} {rs : List Repetition} :
    diagnostics start rs = [] ↔
      (∀ r ∈ rs, r.amount.reversed = false) ∧ rs.length ≤ maxStacked := by
  -- Where the quantifiers stand makes no difference to whether they are in order.
  have none : reversals start rs = [] ↔ ∀ r ∈ rs, r.amount.reversed = false := by
    induction rs generalizing start with
    | nil => simp [reversals]
    | cons r rs ih => simp [reversals, ih]
  simp [diagnostics, none]

end Repetition

namespace Phrase

/-- Only a bar ends an alternative. -/
theorem branches_other {p : Phrase} (other : p ≠ .bar) (start position : Nat) (ps : List Phrase) :
    let rest := branches start (position + p.width) ps
    branches start position (p :: ps) = (rest.1.cons? (p.item? position), rest.2) := by
  rw [branches]
  exact other

/-- A phrase that stands for an item adds it to the alternative. -/
theorem branches_item {start position : Nat} {p : Phrase} {item : Item}
    (stands : p.item? position = some item) (ps : List Phrase) :
    let rest := branches start (position + p.width) ps
    branches start position (p :: ps) = (⟨item :: rest.1.items, rest.1.span⟩, rest.2) := by
  have other : p ≠ .bar := by
    rintro rfl
    cases stands
  rw [branches_other other, stands]
  rfl

/-- A phrase that stands for no item adds nothing to the alternative. -/
theorem branches_none {start position : Nat} {p : Phrase} (other : p ≠ .bar)
    (none : p.item? position = none) (ps : List Phrase) :
    branches start position (p :: ps) = branches start (position + p.width) ps := by
  rw [branches_other other, none, Branch.cons?_none]

/-- A bar ends the last alternative before it. -/
theorem branches_append_bar (start position : Nat) (ps qs : List Phrase) :
    let before := branches start position ps
    let stop := position + rowWidth ps
    let after := branches (stop + 1) (stop + 1) qs
    branches start position (ps ++ .bar :: qs) = (before.1, before.2 ++ after.1 :: after.2) := by
  induction ps generalizing start position with
  | nil => simp [branches, rowWidth]
  | cons p ps ih =>
    cases p with
    | bar => simp [branches, ih, rowWidth, width, Nat.add_assoc]
    | _ => simp [branches, ih, rowWidth, Nat.add_assoc]

theorem rowDiagnostics_append (start : Nat) (ps qs : List Phrase) :
    rowDiagnostics start (ps ++ qs) =
      rowDiagnostics start ps ++ rowDiagnostics (start + rowWidth ps) qs := by
  induction ps generalizing start with
  | nil => simp [rowDiagnostics, rowWidth]
  | cons p ps ih => simp [rowDiagnostics, rowWidth, ih, Nat.add_assoc]

/-- What is wrong with a set that has no quantifiers is wrong inside it. -/
theorem rowDiagnostics_set (start : Nat) (b : Bracket) :
    rowDiagnostics start [.set b []] = b.diagnostics start := by
  simp [rowDiagnostics, diagnostics, Repetition.diagnostics, Repetition.reversals]

/-- What is wrong with a group that has no quantifiers is wrong with its header or inside it, or it
is left open. -/
theorem rowDiagnostics_group (start : Nat) (h : Header) (body : List Phrase) (closed : Bool) :
    rowDiagnostics start [.group h body closed []] =
      h.diagnostics start ++ (rowDiagnostics (start + h.width) body ++
        if closed then [] else [⟨.unclosedGroup, ⟨start, start + 1⟩⟩]) := by
  simp [rowDiagnostics, diagnostics, Repetition.diagnostics, Repetition.reversals]

end Phrase

end PatternTree
