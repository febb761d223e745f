import PatternTree.Proofs.Coverage.Diagnostics
import PatternTree.Proofs.Coverage.Spans
import PatternTree.Proofs.Legality.Places

/-!
How the items of an alternative and its diagnostics are laid out. Main statements: each phrase takes
up its text with an item, with skipped text that has a diagnostic, or with both in turn, and a row
of phrases does so alternative by alternative.
-/

namespace PatternTree

/-- Items and skipped text, one after the other from `a` to `b`. Of the diagnostics `ds` there,
`skips` are those about skipped text between items. -/
inductive Laid : Nat → Nat → List Item → List Diagnostic → List Diagnostic → Prop
  | nil {a : Nat} : Laid a a [] [] []
  | item {a b : Nat} {i : Item} {items : List Item} {inner ds skips : List Diagnostic}
    (start : i.span.start = a) (nonempty : a < i.span.stop)
    (inside : ∀ d ∈ inner, d.Fits a i.span.stop) (rest : Laid i.span.stop b items ds skips) :
    Laid a b (i :: items) (inner ++ ds) skips
  | skip {a b : Nat} {items : List Item} {d : Diagnostic} {ds skips : List Diagnostic}
    (skipping : d.kind.skips) (start : d.span.start = a) (nonempty : a < d.span.stop)
    (rest : Laid d.span.stop b items ds skips) : Laid a b items (d :: ds) (d :: skips)
  | other {a b : Nat} {items : List Item} {d : Diagnostic} {ds skips : List Diagnostic}
    (keeps : ¬d.kind.skips) (rest : Laid a b items ds skips) : Laid a b items (d :: ds) skips

-- ═══════════════════════════════════════════════════════════════
-- Items and skipped text in turn
-- ═══════════════════════════════════════════════════════════════

namespace Laid

variable {a b m : Nat} {items items' : List Item} {ds ds' skips skips' : List Diagnostic}

theorem append (first : Laid a m items ds skips) (second : Laid m b items' ds' skips') :
    Laid a b (items ++ items') (ds ++ ds') (skips ++ skips') := by
  induction first with
  | nil => exact second
  | item start nonempty inside _ ih =>
    rw [List.append_assoc]
    exact .item start nonempty inside (ih second)
  | skip skipping start nonempty _ ih => exact .skip skipping start nonempty (ih second)
  | other keeps _ ih => exact .other keeps (ih second)

theorem others {more : List Diagnostic} (keep : ∀ d ∈ more, ¬d.kind.skips)
    (laid : Laid a b items ds skips) : Laid a b items (more ++ ds) skips := by
  induction more with
  | nil => exact laid
  | cons d more ih =>
    exact .other (keep d List.mem_cons_self)
      (ih fun e member => keep e (List.mem_cons_of_mem _ member))

theorem le (laid : Laid a b items ds skips) : a ≤ b := by
  induction laid with
  | nil => exact Nat.le_refl _
  | item _ nonempty _ _ ih | skip _ _ nonempty _ ih => exact Nat.le_trans (Nat.le_of_lt nonempty) ih
  | other _ _ ih => exact ih

theorem items_fit (laid : Laid a b items ds skips) :
    ∀ i ∈ items, a ≤ i.span.start ∧ i.span.start < i.span.stop ∧ i.span.stop ≤ b := by
  induction laid with
  | nil => simp
  | item start nonempty _ rest ih =>
    intro j member
    rcases List.mem_cons.mp member with rfl | later
    · have := rest.le
      omega
    · have := ih j later
      omega
  | skip _ start nonempty rest ih =>
    intro j member
    have := ih j member
    omega
  | other _ _ ih => exact ih

theorem skips_fit (laid : Laid a b items ds skips) :
    ∀ d ∈ skips, d.kind.skips ∧ d.Fits a b := by
  induction laid with
  | nil => simp
  | item _ nonempty _ _ ih =>
    intro d member
    obtain ⟨skipping, fits⟩ := ih d member
    exact ⟨skipping, fits.widen (Nat.le_of_lt nonempty) (Nat.le_refl _)⟩
  | skip skipping start nonempty rest ih =>
    intro e member
    rcases List.mem_cons.mp member with rfl | later
    · exact ⟨skipping, Nat.le_of_eq start.symm, start ▸ nonempty, rest.le⟩
    · obtain ⟨skipping', fits⟩ := ih e later
      exact ⟨skipping', fits.widen (Nat.le_of_lt nonempty) (Nat.le_refl _)⟩
  | other _ _ ih => exact ih

theorem items_increasing (laid : Laid a b items ds skips) :
    items.Pairwise fun i j => i.span.stop ≤ j.span.start := by
  induction laid with
  | nil => exact List.Pairwise.nil
  | item _ _ _ rest ih =>
    exact List.pairwise_cons.mpr ⟨fun j member => (rest.items_fit j member).1, ih⟩
  | skip _ _ _ _ ih | other _ _ ih => exact ih

theorem skips_increasing (laid : Laid a b items ds skips) :
    skips.Pairwise fun d e => d.span.stop ≤ e.span.start := by
  induction laid with
  | nil => exact List.Pairwise.nil
  | skip _ _ _ rest ih =>
    exact List.pairwise_cons.mpr ⟨fun e member => (rest.skips_fit e member).2.1, ih⟩
  | item _ _ _ _ ih | other _ _ ih => exact ih

/-- Skipped text and items are apart. -/
theorem apart (laid : Laid a b items ds skips) :
    ∀ i ∈ items, ∀ d ∈ skips, i.span.stop ≤ d.span.start ∨ d.span.stop ≤ i.span.start := by
  induction laid with
  | nil => simp
  | item _ _ _ rest ih =>
    intro j member d skipped
    rcases List.mem_cons.mp member with rfl | later
    · exact Or.inl (rest.skips_fit d skipped).2.1
    · exact ih j later d skipped
  | skip _ _ _ rest ih =>
    intro j member e skipped
    rcases List.mem_cons.mp skipped with rfl | later
    · exact Or.inr (rest.items_fit j member).1
    · exact ih j member e later
  | other _ _ ih => exact ih

theorem covers (laid : Laid a b items ds skips) (k : Nat) (above : a ≤ k) (below : k < b) :
    (∃ i ∈ items, i.span.Covers k) ∨ ∃ d ∈ skips, d.span.Covers k := by
  induction laid with
  | nil => omega
  | @item _ _ i _ _ _ _ start nonempty _ _ ih =>
    by_cases within : k < i.span.stop
    · exact Or.inl ⟨i, List.mem_cons_self, by omega, within⟩
    · rcases ih (Nat.not_lt.mp within) below with ⟨j, member, covers⟩ | skipped
      · exact Or.inl ⟨j, List.mem_cons_of_mem _ member, covers⟩
      · exact Or.inr skipped
  | @skip _ _ _ d _ _ _ start nonempty _ ih =>
    by_cases within : k < d.span.stop
    · exact Or.inr ⟨d, List.mem_cons_self, by omega, within⟩
    · rcases ih (Nat.not_lt.mp within) below with item | ⟨e, member, covers⟩
      · exact Or.inl item
      · exact Or.inr ⟨e, List.mem_cons_of_mem _ member, covers⟩
  | other _ _ ih => exact ih above below

/-- The diagnostics about skipped text between items are those that are laid out as such. -/
theorem skipped_eq {branch : Branch} (laid : Laid a b items ds skips)
    (among : ∀ i ∈ items, i ∈ branch.items)
    (kept : ∀ d ∈ skips, d.span.Within branch.span ∧ ∀ i ∈ branch.items, ¬d.span.Within i.span) :
    branch.skipped ds = skips := by
  induction laid with
  | nil => rfl
  | @item _ _ i _ inner _ _ start _ inside _ ih =>
    -- What is reported inside an item is not loose in the alternative.
    have within : branch.skipped inner = [] := by
      apply List.filter_eq_nil_iff.mpr
      intro d member
      have fits := inside d member
      have inItem : d.span.Within i.span := ⟨start ▸ fits.1, fits.2.2⟩
      simp only [decide_eq_true_eq]
      exact fun loose => loose.2.2 i (among i List.mem_cons_self) inItem
    rw [Branch.skipped, List.filter_append]
    exact (congrArg (· ++ _) within).trans
      (ih (fun j member => among j (List.mem_cons_of_mem _ member)) kept)
  | @skip _ _ _ d _ _ skipping _ _ _ ih =>
    obtain ⟨within, loose⟩ := kept d List.mem_cons_self
    have rest := ih among fun e member => kept e (List.mem_cons_of_mem _ member)
    rw [Branch.skipped, List.filter_cons_of_pos (by simpa [skipping, within] using loose)]
    exact congrArg (d :: ·) rest
  | other keeps _ ih =>
    rw [Branch.skipped, List.filter_cons_of_neg (by simp [keeps])]
    exact ih among kept

/-- An alternative that is laid out in full is covered. -/
theorem covered {branch : Branch} (laid : Laid a b branch.items ds skips)
    (span : branch.span = ⟨a, b⟩) : branch.Covered ds := by
  -- Skipped text is apart from every item and not empty, so it is inside none.
  have skipped : branch.skipped ds = skips := by
    apply laid.skipped_eq (fun i member => member)
    intro d member
    obtain ⟨-, fits⟩ := laid.skips_fit d member
    refine ⟨by rw [span]; exact ⟨fits.1, fits.2.2⟩, fun i among within => ?_⟩
    have apart := laid.apart i among d member
    have nonempty := fits.2.1
    obtain ⟨left, right⟩ := within
    omega
  constructor
  · rw [span]
    exact laid.le
  · intro i member
    obtain ⟨left, nonempty, right⟩ := laid.items_fit i member
    rw [span]
    exact ⟨⟨left, right⟩, nonempty⟩
  · exact laid.items_increasing
  · rw [skipped]
    exact fun d member => (laid.skips_fit d member).2.2.1
  · rw [skipped]
    exact laid.skips_increasing
  · rw [skipped, span]
    rintro k ⟨above, below⟩
    constructor
    · intro uncovered
      exact (laid.covers k above below).resolve_left uncovered
    · rintro ⟨d, skip, left, right⟩ ⟨i, member, left', right'⟩
      have apart := laid.apart i member d skip
      omega

end Laid

-- ═══════════════════════════════════════════════════════════════
-- What phrases are laid out as
-- ═══════════════════════════════════════════════════════════════

namespace Repetition

/-- Surplus quantifiers are skipped. -/
theorem laid (start : Nat) (rs : List Repetition) : ∃ skips,
    Laid (start + rowWidth (rs.take maxStacked)) (start + rowWidth rs) []
      (diagnostics start rs) skips := by
  have keep : ∀ d ∈ reversals start rs, ¬d.kind.skips :=
    fun d member => (reversals_fit start rs d member).2
  -- The item ends with the last quantifier that is kept, and all after it are skipped at once.
  by_cases many : maxStacked < rs.length
  · rw [diagnostics, if_pos many]
    have surplus := Nat.add_lt_add_left (rowWidth_take_lt many) start
    exact ⟨_, .others keep (.skip rfl rfl surplus .nil)⟩
  · rw [diagnostics, if_neg many, List.take_of_length_le (Nat.not_lt.mp many)]
    exact ⟨_, .others keep .nil⟩

theorem span_wrapAll {start stop : Nat} {item : Item} (span : item.span = ⟨start, stop⟩)
    (rs : List Repetition) :
    (wrapAll start item stop rs).span = ⟨start, stop + rowWidth rs⟩ := by
  induction rs generalizing item stop with
  | nil => exact span
  | cons r rs ih =>
    have rest := ih (show (Item.quantified item r.quantifier ⟨start, stop + r.width⟩).span = _
      from rfl)
    rwa [Nat.add_assoc] at rest

/-- An item with the diagnostics inside it, and the quantifiers after it. -/
theorem laid_wrap {start stop : Nat} {item : Item} {inner : List Diagnostic}
    (span : item.span = ⟨start, stop⟩) (nonempty : start < stop)
    (inside : ∀ d ∈ inner, d.Fits start stop) (rs : List Repetition) : ∃ skips,
      Laid start (stop + rowWidth rs) [wrap start item stop rs]
        (inner ++ diagnostics stop rs) skips := by
  obtain ⟨skips, after⟩ := laid stop rs
  have whole : (wrap start item stop rs).span = ⟨start, stop + rowWidth (rs.take maxStacked)⟩ :=
    span_wrapAll span _
  refine ⟨skips, .item ?_ ?_ ?_ ?_⟩
  · rw [whole]
  · rw [whole]
    exact Nat.lt_add_right _ nonempty
  · intro d member
    rw [whole]
    exact (inside d member).widen (Nat.le_refl _) (Nat.le_add_right _ _)
  · rw [whole]
    exact after

end Repetition

theorem Lexeme.exists_item? {l : Lexeme} (item : l.isItem) (start : Nat) :
    ∃ i, l.item? start = some i := by
  cases l with
  | mark m => cases m <;> exact ⟨_, rfl⟩
  | dangling => cases item
  | _ => exact ⟨_, rfl⟩

/-- A phrase takes up its text with its item and with skipped text. -/
theorem Phrase.laid {p : Phrase} {levels : Nat} {rest : List Lexeme}
    (legal : p.Legal levels rest) (other : p ≠ .bar) (start : Nat) : ∃ skips,
      Laid start (start + p.width) (p.item? start).toList (p.diagnostics start) skips := by
  have fits := diagnostics_fit p legal start
  cases p with
  | bar => exact absurd rfl other
  | stray l =>
    -- Whatever the fault, the lexeme stands for nothing.
    have skipping : l.fault.skips := by
      unfold Lexeme.fault
      split <;> rfl
    have here := fits _ (List.mem_singleton.mpr rfl)
    exact ⟨_, .skip skipping rfl here.2.1 .nil⟩
  | tooDeep ls =>
    have here := fits _ (List.mem_singleton.mpr rfl)
    exact ⟨_, .skip rfl rfl here.2.1 .nil⟩
  | single l rs =>
    obtain ⟨item, found⟩ := Lexeme.exists_item? legal.1 start
    have span := (Lexeme.nodes_item? found).2
    rw [width, ← Nat.add_assoc, item?, found]
    exact Repetition.laid_wrap span (Nat.lt_add_of_pos_right l.width_pos)
      (List.forall_mem_nil _) rs
  | set b rs =>
    have nonempty : 0 < b.width := by
      rw [Bracket.width, Bracket.openingWidth]
      omega
    have span : (Item.set (b.charSet start)).span = ⟨start, start + b.width⟩ := rfl
    rw [width, ← Nat.add_assoc]
    exact Repetition.laid_wrap span (Nat.lt_add_of_pos_right nonempty)
      (b.diagnostics_fit start) rs
  | group h body closed rs =>
    obtain ⟨⟨inner, -, row⟩, -⟩ := legal
    have inside := rowDiagnostics_fit body row (start + h.width)
    have nonempty : start < start + h.width + rowWidth body + closed.toNat := by
      have := h.width_pos
      omega
    have stop : start + (Phrase.group h body closed rs).width =
        start + h.width + rowWidth body + closed.toNat + Repetition.rowWidth rs := by
      simp [width, Nat.add_assoc]
    let inner := branches (start + h.width) (start + h.width) body
    have span : (Item.group h.groupKind (Expression.ofBranches inner.1 inner.2)
        ⟨start, start + h.width + rowWidth body + closed.toNat⟩).span =
          ⟨start, start + h.width + rowWidth body + closed.toNat⟩ := rfl
    rw [stop]
    exact Repetition.laid_wrap span nonempty (enclosed_fit inside closed) rs

-- ═══════════════════════════════════════════════════════════════
-- Rows of phrases
-- ═══════════════════════════════════════════════════════════════

/-- The alternatives of a row that begins at `a` and ends at `b`, each laid out, with bars in
between. -/
inductive RowLaid (text : List Char) :
    Nat → Nat → Branch → List Branch → List Diagnostic → Prop
  | last {a b : Nat} {x : Branch} {ds skips : List Diagnostic} (stop : x.span.stop = b)
    (laid : Laid a b x.items ds skips) (fit : ∀ d ∈ ds, d.Fits a b) :
    RowLaid text a b x [] ds
  | more {a b m : Nat} {x y : Branch} {others : List Branch} {ds ds' skips : List Diagnostic}
    (stop : x.span.stop = m) (laid : Laid a m x.items ds skips) (fit : ∀ d ∈ ds, d.Fits a m)
    (meet : x.Meets text y) (rest : RowLaid text (m + 1) b y others ds') :
    RowLaid text a b x (y :: others) (ds ++ ds')

namespace RowLaid

variable {text : List Char} {a b m : Nat} {first : Branch} {others : List Branch}
  {ds : List Diagnostic}

/-- Another phrase in front. -/
theorem cons {items : List Item} {here skips : List Diagnostic} (laid : Laid a m items here skips)
    (fit : ∀ d ∈ here, d.Fits a m) (row : RowLaid text m b first others ds) :
    RowLaid text a b ⟨items ++ first.items, first.span⟩ others (here ++ ds) := by
  -- The alternative now reports what it did and what is new, all of it inside.
  have joined {n : Nat} {ds : List Diagnostic} (rest : m ≤ n) (fit' : ∀ d ∈ ds, d.Fits m n) :
      ∀ d ∈ here ++ ds, d.Fits a n := by
    intro d member
    rcases List.mem_append.mp member with before | after
    · exact (fit d before).widen (Nat.le_refl _) rest
    · exact (fit' d after).widen laid.le (Nat.le_refl _)
  cases row with
  | last stop laid' fit' => exact .last stop (laid.append laid') (joined laid'.le fit')
  | more stop laid' fit' meet rest =>
    rw [← List.append_assoc]
    exact .more stop (laid.append laid') (joined laid'.le fit') meet rest

theorem le (row : RowLaid text a b first others ds) : a ≤ b := by
  induction row with
  | last _ laid => exact laid.le
  | more _ laid _ _ _ ih => exact Nat.le_trans laid.le (Nat.le_of_succ_le ih)

theorem fits (row : RowLaid text a b first others ds) : ∀ d ∈ ds, d.Fits a b := by
  induction row with
  | last _ _ fit => exact fit
  | more _ laid fit _ rest ih =>
    intro d member
    rcases List.mem_append.mp member with here | later
    · exact (fit d here).widen (Nat.le_refl _) (Nat.le_of_succ_le rest.le)
    · exact (ih d later).widen (Nat.le_trans laid.le (Nat.le_succ _)) (Nat.le_refl _)

theorem chain (row : RowLaid text a b first others ds) :
    (first :: others).IsChain (Branch.Meets text) := by
  induction row with
  | last => exact List.isChain_singleton _
  | more _ _ _ meet _ ih => exact List.isChain_cons_cons.mpr ⟨meet, ih⟩

theorem stop (row : RowLaid text a b first others ds) :
    ((first :: others).getLast?.map fun x => x.span.stop) = some b := by
  induction row with
  | last stop => exact congrArg some stop
  | more _ _ _ _ _ ih => rwa [List.getLast?_cons_cons]

end RowLaid

/-- A row of phrases is laid out as its alternatives. -/
theorem Phrase.rowLaid (ps : List Phrase) {text : List Char} {levels : Nat} {inGroup : Bool}
    (start : Nat) {position : Nat} {rest : List Lexeme} (row : RowLegal levels inGroup rest ps)
    (here : ReadAt text position (rowLexemes ps ++ rest)) :
    (branches start position ps).1.span.start = start ∧
      RowLaid text position (position + rowWidth ps) (branches start position ps).1
        (branches start position ps).2 (rowDiagnostics position ps) := by
  induction ps generalizing start position with
  | nil => exact ⟨rfl, .last rfl .nil (List.forall_mem_nil _)⟩
  | cons p ps ih =>
    obtain ⟨legal, -, row⟩ := row
    rw [rowLexemes, List.append_assoc] at here
    have after := here.skip
    rw [p.textWidth_lexemes] at after
    by_cases bar : p = .bar
    · subst bar
      obtain ⟨began, others⟩ := ih (position + 1) row after
      rw [branches, rowWidth, ← Nat.add_assoc]
      -- A bar is the empty rest of one alternative, and the next one begins right after it.
      exact ⟨rfl, .more rfl .nil (List.forall_mem_nil _) ⟨here.getElem?_mark, began⟩ others⟩
    · obtain ⟨began, others⟩ := ih start row after
      obtain ⟨skips, laid⟩ := laid legal bar position
      -- Without an item the phrase is skipped text, and the alternative keeps its items.
      have joined := others.cons laid (diagnostics_fit p legal position)
      rw [rowWidth, ← Nat.add_assoc]
      cases stands : p.item? position with
      | none =>
        have same := (branches start (position + p.width) ps).1.cons?_none
        rw [Branch.cons?] at same
        rw [stands, same] at joined
        rw [branches_none bar stands]
        exact ⟨began, joined⟩
      | some item =>
        rw [stands] at joined
        rw [branches_item stands]
        exact ⟨began, joined⟩

end PatternTree
