import PatternTree.Parse
import PatternTree.Proofs.Coverage.Laid
import PatternTree.Proofs.Coverage.Parts

/-!
Parsing covers every pattern: whatever is wrong with it, no character is lost without a diagnostic
about it, and none is claimed twice. Diagnostics are one list for the whole pattern, so the proof
goes from the outside in: of all the diagnostics, those inside a part are the ones about that part.
-/

namespace PatternTree

-- ═══════════════════════════════════════════════════════════════
-- Diagnostics inside a part
-- ═══════════════════════════════════════════════════════════════

/-- Of all the diagnostics, those about the text from `a` to `b` are `ds`. -/
def Diagnostic.Local (all : List Diagnostic) (a b : Nat) (ds : List Diagnostic) : Prop :=
  (all.filter fun d => d.span.Within ⟨a, b⟩) = ds

namespace Diagnostic

variable {all ds before here after : List Diagnostic} {a b m n : Nat}

theorem Fits.outside {d : Diagnostic} (fits : d.Fits a b) (apart : b ≤ m ∨ n ≤ a) :
    ¬d.span.Within ⟨m, n⟩ := by
  rintro ⟨left, right⟩
  obtain ⟨start, nonempty, stop⟩ := fits
  simp only at left right
  omega

theorem filter_inside (inside : ∀ d ∈ ds, d.Fits m n) :
    (ds.filter fun d => d.span.Within ⟨m, n⟩) = ds := by
  apply List.filter_eq_self.mpr
  intro d member
  obtain ⟨start, -, stop⟩ := inside d member
  exact decide_eq_true ⟨start, stop⟩

theorem filter_outside (outside : ∀ d ∈ ds, ¬d.span.Within ⟨m, n⟩) :
    (ds.filter fun d => d.span.Within ⟨m, n⟩) = [] :=
  List.filter_eq_nil_iff.mpr fun d member within => outside d member (of_decide_eq_true within)

namespace Local

theorem mem (whole : Local all a b ds) : ∀ d ∈ ds, d ∈ all := by
  intro d member
  rw [← whole] at member
  exact List.mem_of_mem_filter member

/-- Of what is inside a text, a part of the text keeps what is inside the part. -/
theorem filter (whole : Local all a b ds) (left : a ≤ m) (right : n ≤ b) :
    Local all m n (ds.filter fun d => d.span.Within ⟨m, n⟩) := by
  rw [← whole, Local, List.filter_filter]
  refine List.filter_congr fun d _ => ?_
  rw [eq_comm, Bool.and_eq_left_iff_imp]
  intro within
  obtain ⟨start, stop⟩ := of_decide_eq_true within
  exact decide_eq_true ⟨Nat.le_trans left start, Nat.le_trans stop right⟩

theorem part (whole : Local all a b (before ++ here ++ after)) (left : a ≤ m) (right : n ≤ b)
    (earlier : ∀ d ∈ before, ¬d.span.Within ⟨m, n⟩) (inside : ∀ d ∈ here, d.Fits m n)
    (later : ∀ d ∈ after, ¬d.span.Within ⟨m, n⟩) : Local all m n here := by
  have kept := whole.filter left right
  rwa [List.filter_append, List.filter_append, filter_outside earlier, filter_inside inside,
    filter_outside later, List.append_nil] at kept

/-- Two parts of a text with `m` between them. -/
theorem split (whole : Local all a b (here ++ after)) (first : ∀ d ∈ here, d.Fits a m)
    (second : ∀ d ∈ after, d.Fits n b) (le : a ≤ m) (apart : m ≤ n) (le' : n ≤ b) :
    Local all a m here ∧ Local all n b after := by
  constructor
  · have parts : Local all a b ([] ++ here ++ after) := whole
    exact parts.part (Nat.le_refl _) (Nat.le_trans apart le') (List.forall_mem_nil _) first
      fun d member => (second d member).outside (Or.inr apart)
  · have parts : Local all a b (here ++ after ++ []) := by rwa [List.append_nil]
    exact parts.part (Nat.le_trans le apart) (Nat.le_refl _)
      (fun d member => (first d member).outside (Or.inl apart)) second (List.forall_mem_nil _)

end Local

end Diagnostic

-- ═══════════════════════════════════════════════════════════════
-- Alternatives and expressions
-- ═══════════════════════════════════════════════════════════════

open Diagnostic (Local)

variable {text : List Char} {all : List Diagnostic}

/-- Only what is inside an alternative can be skipped there. -/
theorem Branch.skipped_eq_of_local {x : Branch} {a b : Nat} {ds : List Diagnostic}
    (span : x.span = ⟨a, b⟩) (reported : Local all a b ds) : x.skipped all = x.skipped ds := by
  rw [← reported, skipped, skipped, List.filter_filter]
  refine List.filter_congr fun d _ => ?_
  rw [span, eq_comm, Bool.and_eq_left_iff_imp]
  intro loose
  exact decide_eq_true (of_decide_eq_true loose).2.1

theorem Branch.Covered.of_local {x : Branch} {a b : Nat} {ds : List Diagnostic}
    (covered : x.Covered ds) (span : x.span = ⟨a, b⟩) (reported : Local all a b ds) :
    x.Covered all := by
  have same := skipped_eq_of_local span reported
  obtain ⟨ordered, inside, increasing, nonempty, apart, uncovered⟩ := covered
  constructor
  · exact ordered
  · exact inside
  · exact increasing
  · rwa [same]
  · rwa [same]
  · rwa [same]

theorem RowLaid.covered {a b : Nat} {first : Branch} {others : List Branch}
    {ds : List Diagnostic} (row : RowLaid text a b first others ds) (reported : Local all a b ds)
    (began : first.span.start = a) : ∀ x ∈ first :: others, x.Covered all := by
  induction row with
  | @last _ _ x _ _ stop laid fit =>
    have span : x.span = ⟨_, _⟩ := Span.ext began stop
    intro y member
    obtain rfl := List.mem_singleton.mp member
    exact (laid.covered span).of_local span reported
  | @more _ _ _ x _ _ _ _ _ stop laid fit meet rest ih =>
    have span : x.span = ⟨_, _⟩ := Span.ext began stop
    -- A bar is between this alternative and the rest, so each keeps its own diagnostics.
    obtain ⟨here, after⟩ := reported.split fit rest.fits laid.le (Nat.le_succ _) rest.le
    intro y member
    rcases List.mem_cons.mp member with rfl | later
    · exact (laid.covered span).of_local span here
    · refine ih after ?_ y later
      rw [meet.2, stop]

namespace Expression

/-- Alternatives that meet at bars are folded to an expression that begins with the first of them
and ends with the last. -/
theorem covered_ofBranches {first : Branch} {others : List Branch}
    (chain : (first :: others).IsChain (Branch.Meets text))
    (ordered : ∀ x ∈ first :: others, x.span.start ≤ x.span.stop) :
    (ofBranches first others).Covered text ∧
      (ofBranches first others).span.start = first.span.start ∧
      first.span.start ≤ (ofBranches first others).span.stop := by
  induction others using List.reverseRecOn with
  | nil => exact ⟨⟨rfl, rfl, chain⟩, rfl, ordered first List.mem_cons_self⟩
  | append_singleton others last ih =>
    obtain ⟨before, -, join⟩ := List.isChain_append.mp (show ((first :: others) ++ [last]).IsChain _
      from chain)
    obtain ⟨covered, start, le⟩ := ih before fun x member => ordered x (by grind)
    have stop := covered.stop
    rw [alternatives_ofBranches] at stop
    obtain ⟨previous, found, stop⟩ := Option.map_eq_some_iff.mp stop
    -- The fold so far ends where `previous` does, and a bar later `last` begins.
    have meet := (join previous found last rfl).2
    have extent := ordered last (by simp)
    have span : (ofBranches first (others ++ [last])).span =
        ⟨first.span.start, last.span.stop⟩ := by
      rw [ofBranches_append_singleton, Expression.span, Span.hull, start]
      congr <;> omega
    rw [span]
    refine ⟨⟨?_, ?_, ?_⟩, rfl, ?_⟩
    · rw [alternatives_ofBranches, span]
      rfl
    · rw [alternatives_ofBranches, span, ← List.cons_append, List.getLast?_concat]
      rfl
    · rwa [alternatives_ofBranches]
    · simp only
      omega

/-- So is every expression on the way of the fold. -/
theorem covered_nodes_ofBranches {first : Branch} {others : List Branch}
    (chain : (first :: others).IsChain (Branch.Meets text))
    (each : ∀ x ∈ first :: others, x.Covered all ∧
      ∀ i ∈ Item.rowNodes x.items, i.Covered text all) :
    ∀ x ∈ (ofBranches first others).nodes, x.Covered text all := by
  intro x member
  rcases mem_nodes_ofBranches.mp member with ⟨some, before, rfl⟩ | ⟨b, among, inside⟩
  -- An expression on the way joins the first so many alternatives, which meet as they all do.
  · have shorter : first :: some <+: first :: others := List.cons_prefix_cons.mpr ⟨rfl, before⟩
    have meet := List.IsChain.prefix chain shorter
    exact (covered_ofBranches meet fun y member => (each y (shorter.subset member)).1.ordered).1
  · obtain ⟨covered, items⟩ := each b among
    rw [Branch.nodes_eq] at inside
    rcases List.mem_cons.mp inside with rfl | inside
    · exact covered
    · exact items x inside

end Expression

-- ═══════════════════════════════════════════════════════════════
-- Items
-- ═══════════════════════════════════════════════════════════════

/-- Quantifiers hold one item each, so they add nothing that could be lost. -/
theorem Repetition.covered_wrapAll {start stop : Nat} {item : Item} (rs : List Repetition)
    (covered : ∀ x ∈ item.nodes, x.Covered text all) :
    ∀ x ∈ (wrapAll start item stop rs).nodes, x.Covered text all := by
  induction rs generalizing item stop with
  | nil => exact covered
  | cons r rs ih =>
    apply ih
    intro x member
    rcases List.mem_cons.mp member with rfl | inside
    · trivial
    · exact covered x inside

theorem Lexeme.covered_item? {start : Nat} {l : Lexeme} {item : Item}
    (stands : l.item? start = some item) : (Node.item item).Covered text all := by
  unfold item? at stands
  split at stands
  case h_4 =>
    obtain ⟨g, -, rfl⟩ := Option.map_eq_some_iff.mp stands
    trivial
  all_goals
    cases stands
    trivial

namespace Phrase

/-- The span of the expression that a row of phrases stands for, and its nodes, if the items of the
row are covered. -/
theorem covered_expression (ps : List Phrase) {levels start : Nat} {inGroup : Bool}
    {rest : List Lexeme} (row : RowLegal levels inGroup rest ps)
    (here : ReadAt text start (rowLexemes ps ++ rest))
    (reported : Local all start (start + rowWidth ps) (rowDiagnostics start ps))
    (items : ∀ b ∈ (branches start start ps).1 :: (branches start start ps).2,
      ∀ x ∈ Item.rowNodes b.items, x.Covered text all) :
    (expression start ps).span = ⟨start, start + rowWidth ps⟩ ∧
      ∀ x ∈ (expression start ps).nodes, x.Covered text all := by
  obtain ⟨began, laid⟩ := rowLaid ps start row here
  have covered := laid.covered reported began
  obtain ⟨fold, first, -⟩ :=
    Expression.covered_ofBranches laid.chain fun x member => (covered x member).ordered
  constructor
  · have stop := fold.stop
    rw [Expression.alternatives_ofBranches, laid.stop] at stop
    exact Span.ext (first.trans began) (Option.some.inj stop).symm
  · exact Expression.covered_nodes_ofBranches laid.chain fun x member =>
      ⟨covered x member, items x member⟩

mutual

theorem covered_item? (p : Phrase) {levels start : Nat} {rest : List Lexeme} {item : Item}
    (legal : p.Legal levels rest) (here : ReadAt text start (p.lexemes ++ rest))
    (reported : Local all start (start + p.width) (p.diagnostics start))
    (stands : p.item? start = some item) : ∀ x ∈ item.nodes, x.Covered text all := by
  match p with
  | .bar | .stray _ | .tooDeep _ => cases stands
  | .single l rs =>
    obtain ⟨inner, found, rfl⟩ := Option.map_eq_some_iff.mp stands
    apply Repetition.covered_wrapAll _
    intro x member
    rw [(Lexeme.nodes_item? found).1] at member
    obtain rfl := List.mem_singleton.mp member
    exact Lexeme.covered_item? found
  | .set b rs =>
    cases stands
    rw [lexemes, List.append_assoc] at here
    apply Repetition.covered_wrapAll _
    intro x member
    rcases List.mem_cons.mp member with rfl | inside
    · exact Bracket.covered_charSet legal.1 here fun d among =>
        reported.mem d (List.mem_append_left _ among)
    · obtain ⟨m, -, rfl⟩ := List.mem_map.mp inside
      trivial
  | .group h body closed rs =>
    cases stands
    obtain ⟨⟨inner, -, row⟩, header, ended, -⟩ := legal
    have := h.width_pos
    -- The diagnostic about a missing parenthesis stands last but is about the first character.
    have bodyReported : Local all (start + h.width) (start + h.width + rowWidth body)
        (rowDiagnostics (start + h.width) body) := by
      have whole : Local all start (start + (Phrase.group h body closed rs).width)
          (h.diagnostics start ++ rowDiagnostics (start + h.width) body ++
            ((if closed then [] else [⟨.unclosedGroup, ⟨start, start + 1⟩⟩]) ++
              Repetition.diagnostics (start + h.width + rowWidth body + closed.toNat) rs)) := by
        rw [← List.append_assoc]
        exact reported
      refine whole.part (Nat.le_add_right _ _) (by rw [width]; omega) ?_ ?_ ?_
      · exact fun d member => (h.diagnostics_fit start d member).outside (Or.inl (Nat.le_refl _))
      · exact rowDiagnostics_fit body row _
      · intro d member
        rcases List.mem_append.mp member with unclosed | repeated
        · cases closed with
          | true => cases unclosed
          | false =>
            obtain rfl := List.mem_singleton.mp unclosed
            rintro ⟨left, -⟩
            simp only at left
            omega
        · exact (Repetition.diagnostics_fit _ rs d repeated).outside
            (Or.inr (Nat.le_add_right _ _))
    rw [lexemes] at here
    simp only [List.append_assoc] at here
    have within := here.skip
    rw [h.textWidth_lexemes] at within
    have items := covered_branches body (start + h.width) row within bodyReported
    obtain ⟨span, nodes⟩ := covered_expression body row within bodyReported items
    apply Repetition.covered_wrapAll _
    intro x member
    rcases List.mem_cons.mp member with rfl | inside
    · refine Header.covered_group header ended here span (fun d among => reported.mem d ?_) ?_
      · simp only [diagnostics, List.mem_append]
        exact Or.inl (Or.inl (Or.inl among))
      · rintro rfl
        exact reported.mem _ (by simp [diagnostics])
    · exact nodes x inside

theorem covered_branches (ps : List Phrase) {levels : Nat} (start : Nat) {position : Nat}
    {inGroup : Bool} {rest : List Lexeme} (row : RowLegal levels inGroup rest ps)
    (here : ReadAt text position (rowLexemes ps ++ rest))
    (reported : Local all position (position + rowWidth ps) (rowDiagnostics position ps)) :
    ∀ b ∈ (branches start position ps).1 :: (branches start position ps).2,
      ∀ x ∈ Item.rowNodes b.items, x.Covered text all := by
  match ps with
  | [] => simp [branches, Item.rowNodes]
  | p :: ps =>
    obtain ⟨legal, -, row⟩ := row
    rw [rowLexemes, List.append_assoc] at here
    have after := here.skip
    rw [p.textWidth_lexemes] at after
    rw [rowWidth, ← Nat.add_assoc] at reported
    -- The phrase and the row after it share the text out, and so the diagnostics about it.
    obtain ⟨first, others⟩ := reported.split (diagnostics_fit p legal position)
      (rowDiagnostics_fit ps row (position + p.width)) (Nat.le_add_right _ _) (Nat.le_refl _)
      (Nat.le_add_right _ _)
    by_cases bar : p = .bar
    · subst bar
      have rest := covered_branches ps (position + 1) row after others
      rw [branches]
      intro b member
      rcases List.mem_cons.mp member with rfl | later
      · exact List.forall_mem_nil _
      · exact rest b later
    · have rest := covered_branches ps start row after others
      cases stands : p.item? position with
      | none => rwa [branches_none bar stands]
      | some item =>
        have items := covered_item? p legal here first stands
        rw [branches_item stands]
        intro b member
        rcases List.mem_cons.mp member with rfl | later
        · intro x inside
          rcases List.mem_append.mp inside with new | old
          · exact items x new
          · exact rest _ List.mem_cons_self x old
        · exact rest b (List.mem_cons_of_mem _ later)

end

end Phrase

/-- Parsing loses no character and claims none twice: the tree spans the pattern, and each of its
nodes is covered. -/
theorem Pattern.covered_parse (p : Pattern) :
    p.parse.expression.span = ⟨0, p.length⟩ ∧
      ∀ x ∈ p.parse.expression.nodes, x.Covered p.chars.toList p.parse.diagnostics := by
  have row := p.rowLegal_phrases
  have here : ReadAt p.chars.toList 0 (Phrase.rowLexemes p.phrases ++ []) := by
    rw [List.append_nil, p.rowLexemes_phrases]
    exact p.readAt_lexemes
  -- At the outset every diagnostic is inside the text.
  have whole : Local p.parse.diagnostics 0 (0 + Phrase.rowWidth p.phrases) p.parse.diagnostics :=
    Diagnostic.filter_inside (Phrase.rowDiagnostics_fit p.phrases row 0)
  have items := Phrase.covered_branches p.phrases 0 row here whole
  have covered := Phrase.covered_expression p.phrases row here whole items
  rwa [p.rowWidth_phrases, Nat.zero_add] at covered

end PatternTree
