import PatternTree.Proofs.Coverage.Diagnostics

/-!
The order of diagnostics. What is wrong inside a text is reported in the order in which it ends,
and after that, from the inside out, what the end of the text leaves open. Main statements: the
diagnostics of a row of phrases come in these two parts, and no diagnostic comes twice.
-/

namespace PatternTree

-- ═══════════════════════════════════════════════════════════════
-- Diagnostics in order
-- ═══════════════════════════════════════════════════════════════

namespace Diagnostic

/-- Whether a diagnostic of the kind is about what the end of the text leaves open. -/
def Kind.leftOpen : Kind → Bool
  | unclosedSet | unclosedGroup => true
  | _ => false

theorem Kind.ne_of_not_leftOpen {k : Kind} (closed : ¬k.leftOpen) :
    k ≠ .unclosedSet ∧ k ≠ .unclosedGroup := by
  constructor <;>
  · rintro rfl
    exact closed rfl

/-- The text of the first diagnostic ends before that of the second does. Only reversed bounds and
the surplus quantifiers that they are the last of end together. -/
def Before (d e : Diagnostic) : Prop :=
  d.span.stop < e.span.stop ∨
    d.span.stop = e.span.stop ∧ d.kind = .reversedBounds ∧ e.kind = .tooManyQuantifiers

theorem Before.ne {d e : Diagnostic} (before : d.Before e) : d ≠ e := by
  rintro rfl
  rcases before with earlier | ⟨-, reversed, surplus⟩
  · exact Nat.lt_irrefl _ earlier
  · cases reversed.symm.trans surplus

/-- Diagnostics about text from `a` to `b`, in order. None is about what is left open. -/
structure Settled (a b : Nat) (ds : List Diagnostic) : Prop where
  le : a ≤ b
  fits : ∀ d ∈ ds, d.Fits a b
  closed : ∀ d ∈ ds, ¬d.kind.leftOpen
  ordered : ds.Pairwise Before

/-- Diagnostics about what the end of a text leaves open from `a` on: at most one set, and then the
groups around it from the inside out, at most `levels` of them. -/
structure LeftOpen (levels a : Nat) (sets groups : List Diagnostic) : Prop where
  set : ∀ d ∈ sets, d.kind = .unclosedSet
  group : ∀ d ∈ groups, d.kind = .unclosedGroup
  one : sets.length ≤ 1
  few : groups.length ≤ levels
  inside : ∀ d ∈ sets ++ groups, a ≤ d.span.start
  outward : (sets ++ groups).Pairwise fun d e => e.span.start < d.span.start

/-- The diagnostics of a text from `a` to `b` in front of `rest`. Only the end of the text leaves
something open. -/
def Reported (levels a b : Nat) (rest : List Lexeme) (ds : List Diagnostic) : Prop :=
  ∃ settled sets groups, ds = settled ++ (sets ++ groups) ∧ Settled a b settled ∧
    LeftOpen levels a sets groups ∧ (rest ≠ [] → sets ++ groups = [])

section

variable {a b m levels : Nat} {d : Diagnostic} {ds more sets groups : List Diagnostic}
  {rest after : List Lexeme}

namespace Settled

theorem nil (le : a ≤ b) : Settled a b [] :=
  ⟨le, List.forall_mem_nil _, List.forall_mem_nil _, List.Pairwise.nil⟩

theorem singleton (fits : d.Fits a b) (closed : ¬d.kind.leftOpen) : Settled a b [d] := by
  have le : a ≤ b := Nat.le_trans fits.1 (Nat.le_trans (Nat.le_of_lt fits.2.1) fits.2.2)
  exact ⟨le, List.forall_mem_singleton.mpr fits, List.forall_mem_singleton.mpr closed,
    List.pairwise_singleton _ _⟩

theorem append (first : Settled a m ds) (second : Settled m b more) : Settled a b (ds ++ more) := by
  refine ⟨Nat.le_trans first.le second.le, ?_, ?_, ?_⟩
  · exact List.forall_mem_append.mpr
      ⟨fun d member => (first.fits d member).widen (Nat.le_refl _) second.le,
        fun d member => (second.fits d member).widen first.le (Nat.le_refl _)⟩
  · exact List.forall_mem_append.mpr ⟨first.closed, second.closed⟩
  · refine List.pairwise_append.mpr ⟨first.ordered, second.ordered, fun d here e later => ?_⟩
    obtain ⟨-, -, stop⟩ := first.fits d here
    obtain ⟨start, nonempty, -⟩ := second.fits e later
    exact Or.inl (Nat.lt_of_le_of_lt (Nat.le_trans stop start) nonempty)

theorem widen {a' b' : Nat} (settled : Settled a b ds) (left : a' ≤ a) (right : b ≤ b') :
    Settled a' b' ds :=
  ⟨Nat.le_trans left (Nat.le_trans settled.le right),
    fun d member => (settled.fits d member).widen left right, settled.closed, settled.ordered⟩

end Settled

namespace LeftOpen

theorem nil : LeftOpen levels a [] [] := by
  constructor <;> simp

theorem widen {a' : Nat} (left : LeftOpen levels a sets groups) (le : a' ≤ a) :
    LeftOpen levels a' sets groups :=
  { left with inside := fun d member => Nat.le_trans le (left.inside d member) }

theorem unclosedSet (levels a stop : Nat) : LeftOpen levels a [⟨.unclosedSet, ⟨a, stop⟩⟩] [] := by
  constructor <;> simp

/-- A group that is left open begins before all that is left open inside it. -/
theorem enclose {start : Nat} (left : LeftOpen levels a sets groups) (before : start < a)
    (stop : Nat) :
    LeftOpen (levels + 1) start sets (groups ++ [⟨.unclosedGroup, ⟨start, stop⟩⟩]) := by
  have outer : ∀ d ∈ sets ++ groups, start < d.span.start := fun d member =>
    Nat.lt_of_lt_of_le before (left.inside d member)
  constructor
  · exact left.set
  · exact List.forall_mem_append.mpr ⟨left.group, List.forall_mem_singleton.mpr rfl⟩
  · exact left.one
  · rw [List.length_append]
    exact Nat.succ_le_succ left.few
  · rw [← List.append_assoc]
    exact List.forall_mem_append.mpr ⟨fun d member => Nat.le_of_lt (outer d member),
      List.forall_mem_singleton.mpr (Nat.le_refl _)⟩
  · rw [← List.append_assoc]
    refine List.pairwise_append.mpr
      ⟨left.outward, List.pairwise_singleton _ _, fun d member e last => ?_⟩
    obtain rfl := List.mem_singleton.mp last
    exact outer d member

end LeftOpen

theorem Settled.reported (settled : Settled a b ds) (levels : Nat) (rest : List Lexeme) :
    Reported levels a b rest ds :=
  ⟨ds, [], [], (List.append_nil ds).symm, settled, .nil, fun _ => rfl⟩

namespace Reported

theorem append (first : Reported levels a m rest ds) (present : rest ≠ [])
    (second : Reported levels m b after more) : Reported levels a b after (ds ++ more) := by
  obtain ⟨settled, sets, groups, rfl, inOrder, -, none⟩ := first
  obtain ⟨settled', sets', groups', rfl, inOrder', left, none'⟩ := second
  refine ⟨settled ++ settled', sets', groups', ?_, inOrder.append inOrder',
    left.widen inOrder.le, none'⟩
  rw [none present, List.append_nil, List.append_assoc]

/-- Nothing that is left open has quantifiers after it. -/
theorem append_repetitions {rs : List Repetition}
    (first : Reported levels a m (rs.flatMap Repetition.lexemes ++ rest) ds)
    (repeated : Settled m b (Repetition.diagnostics m rs)) :
    Reported levels a b rest (ds ++ Repetition.diagnostics m rs) := by
  cases rs with
  | nil =>
    obtain ⟨settled, sets, groups, rfl, inOrder, left, none⟩ := first
    have same : Repetition.diagnostics m [] = [] := rfl
    rw [same, List.append_nil]
    exact ⟨settled, sets, groups, rfl, inOrder.widen (Nat.le_refl _) repeated.le, left, none⟩
  | cons r rs =>
    have present : (r :: rs).flatMap Repetition.lexemes ++ rest ≠ [] := by
      simp [r.lexemes_ne_nil]
    exact first.append present (repeated.reported levels rest)

/-- What is not the last in a text is not left open. -/
theorem closed (reported : Reported levels a b rest ds) (present : rest ≠ []) :
    ∀ d ∈ ds, ¬d.kind.leftOpen := by
  obtain ⟨settled, sets, groups, rfl, inOrder, -, none⟩ := reported
  rw [none present, List.append_nil]
  exact inOrder.closed

theorem nodup (reported : Reported levels a b rest ds) : ds.Nodup := by
  obtain ⟨settled, sets, groups, rfl, inOrder, left, -⟩ := reported
  refine List.nodup_append.mpr ⟨?_, ?_, ?_⟩
  · exact inOrder.ordered.imp Before.ne
  · apply left.outward.imp
    rintro d e outward rfl
    exact Nat.lt_irrefl _ outward
  · rintro d member e open' rfl
    apply inOrder.closed d member
    rcases List.mem_append.mp open' with set | group
    · rw [left.set d set]
      rfl
    · rw [left.group d group]
      rfl

end Reported

end

end Diagnostic

-- ═══════════════════════════════════════════════════════════════
-- Parts
-- ═══════════════════════════════════════════════════════════════

open Diagnostic (Settled LeftOpen Reported)

namespace Repetition

theorem kind_reversals (start : Nat) (rs : List Repetition) :
    ∀ d ∈ reversals start rs, d.kind = .reversedBounds := by
  induction rs generalizing start with
  | nil => exact List.forall_mem_nil _
  | cons r rs ih =>
    refine List.forall_mem_append.mpr ⟨?_, ih _⟩
    split <;> simp

theorem settled_reversals (start : Nat) (rs : List Repetition) :
    Settled start (start + rowWidth rs) (reversals start rs) := by
  induction rs generalizing start with
  | nil => exact .nil (Nat.le_add_right _ _)
  | cons r rs ih =>
    have rest := ih (start + r.width)
    rw [Nat.add_assoc] at rest
    refine .append ?_ rest
    split
    · have := r.amount.width_pos
      refine .singleton ⟨Nat.le_refl _, ?_, ?_⟩ (by simp [Diagnostic.Kind.leftOpen])
      · exact Nat.lt_add_of_pos_right this
      · exact Nat.add_le_add_left (Nat.le_add_right _ _) start
    · exact .nil (Nat.le_add_right _ _)

/-- Surplus quantifiers come last. They end where reversed bounds do if those are the last. -/
theorem settled_diagnostics (start : Nat) (rs : List Repetition) :
    Settled start (start + rowWidth rs) (diagnostics start rs) := by
  have reversed := settled_reversals start rs
  refine ⟨reversed.le, diagnostics_fit start rs, ?_, ?_⟩
  · refine List.forall_mem_append.mpr ⟨reversed.closed, ?_⟩
    split
    · exact List.forall_mem_singleton.mpr (by simp [Diagnostic.Kind.leftOpen])
    · exact List.forall_mem_nil _
  · refine List.pairwise_append.mpr ⟨reversed.ordered, ?_, fun d member e surplus => ?_⟩
    · split
      · exact List.pairwise_singleton _ _
      · exact List.Pairwise.nil
    · split at surplus
      · obtain rfl := List.mem_singleton.mp surplus
        rcases Nat.lt_or_eq_of_le (reversed.fits d member).2.2 with earlier | together
        · exact Or.inl earlier
        · exact Or.inr ⟨together, kind_reversals start rs d member, rfl⟩
      · cases surplus

end Repetition

namespace Piece

theorem settled_diagnostics (start : Nat) (p : Piece) :
    Settled start (start + p.width) (p.diagnostics start) := by
  have whole : start < start + p.width := Nat.lt_add_of_pos_right p.width_pos
  unfold diagnostics
  split
  · exact .singleton ⟨Nat.le_refl _, whole, Nat.le_refl _⟩ (by simp [Diagnostic.Kind.leftOpen])
  · split
    · exact .singleton ⟨Nat.le_refl _, whole, Nat.le_refl _⟩ (by simp [Diagnostic.Kind.leftOpen])
    · exact .nil (Nat.le_of_lt whole)

theorem settled_rowDiagnostics (start : Nat) (ps : List Piece) :
    Settled start (start + rowWidth ps) (rowDiagnostics start ps) := by
  induction ps generalizing start with
  | nil => exact .nil (Nat.le_add_right _ _)
  | cons p ps ih =>
    have rest := ih (start + p.width)
    rw [Nat.add_assoc] at rest
    exact (p.settled_diagnostics start).append rest

end Piece

theorem Bracket.reported {b : Bracket} {rest : List Lexeme} (legal : b.Legal rest)
    (levels start : Nat) : Reported levels start (start + b.width) rest (b.diagnostics start) := by
  have pieces : Settled start (start + b.width)
      (Piece.rowDiagnostics (start + b.openingWidth) b.pieces) := by
    apply (Piece.settled_rowDiagnostics _ _).widen (Nat.le_add_right _ _)
    rw [width]
    omega
  rw [diagnostics]
  cases closed : b.closed with
  | true =>
    rw [if_pos rfl, List.append_nil]
    exact pieces.reported levels rest
  | false =>
    obtain rfl : rest = [] := legal.2.2.resolve_left (by simp [closed])
    have open' := LeftOpen.unclosedSet levels start (start + 1)
    exact ⟨_, _, [], by simp, pieces, open', (absurd rfl ·)⟩

theorem Header.settled_diagnostics (start : Nat) (h : Header) :
    Settled start (start + h.width) (h.diagnostics start) := by
  cases h with
  | kind k => exact .nil (Nat.le_add_right _ _)
  | unknown =>
    refine .singleton ⟨Nat.le_succ _, Nat.lt_succ_self _, Nat.le_refl _⟩ ?_
    simp [Diagnostic.Kind.leftOpen]

-- ═══════════════════════════════════════════════════════════════
-- Phrases
-- ═══════════════════════════════════════════════════════════════

theorem Lexeme.leftOpen_fault (l : Lexeme) : ¬l.fault.leftOpen := by
  unfold fault
  split <;> simp [Diagnostic.Kind.leftOpen]

namespace Phrase

/-- A group that is left open is reported after all that is wrong inside it. -/
theorem reported_group {levels start : Nat} {h : Header} {body : List Phrase} {closed : Bool}
    {after : List Lexeme} (ended : closed ∨ after = [])
    (inside : Reported levels (start + h.width) (start + h.width + rowWidth body)
      (closing .closeParen closed ++ after) (rowDiagnostics (start + h.width) body)) :
    Reported (levels + 1) start (start + h.width + rowWidth body + closed.toNat) after
      (h.diagnostics start ++ rowDiagnostics (start + h.width) body ++
        if closed then [] else [⟨.unclosedGroup, ⟨start, start + 1⟩⟩]) := by
  have header := h.settled_diagnostics start
  obtain ⟨settled, sets, groups, within, inOrder, left, none⟩ := inside
  have both : Settled start (start + h.width + rowWidth body + closed.toNat)
      (h.diagnostics start ++ settled) :=
    (header.append inOrder).widen (Nat.le_refl _) (Nat.le_add_right _ _)
  cases closed with
  | true =>
    rw [within, none (by simp [closing]), if_pos rfl, List.append_nil, List.append_nil]
    exact both.reported _ _
  | false =>
    obtain rfl : after = [] := by simpa using ended
    have before : start < start + h.width := Nat.lt_add_of_pos_right h.width_pos
    have open' := left.enclose before (start + 1)
    exact ⟨_, sets, _, by simp [within], both, open', (absurd rfl ·)⟩

mutual

/-- What is wrong with a phrase is reported in order. -/
theorem reported (p : Phrase) {levels : Nat} {rest : List Lexeme} (legal : p.Legal levels rest)
    (start : Nat) : Reported levels start (start + p.width) rest (p.diagnostics start) := by
  match p with
  | .bar => exact (Settled.nil (Nat.le_add_right _ _)).reported _ _
  | .stray l =>
    have fits := diagnostics_fit (.stray l) legal start
    exact (Settled.singleton (fits _ List.mem_cons_self) l.leftOpen_fault).reported _ _
  | .tooDeep ls =>
    have fits := diagnostics_fit (.tooDeep ls) legal start
    refine (Settled.singleton (fits _ List.mem_cons_self) ?_).reported _ _
    simp [Diagnostic.Kind.leftOpen]
  | .single l rs =>
    have repeated := Repetition.settled_diagnostics (start + l.width) rs
    rw [Nat.add_assoc] at repeated
    exact (repeated.widen (Nat.le_add_right _ _) (Nat.le_refl _)).reported _ _
  | .set b rs =>
    rw [width, ← Nat.add_assoc]
    exact (Bracket.reported legal.1 levels start).append_repetitions
      (Repetition.settled_diagnostics _ rs)
  | .group h body closed rs =>
    obtain ⟨⟨inner, rfl, row⟩, -, ended, -⟩ := legal
    have inside := rowReported body row (start + h.width)
    have stop : start + (Phrase.group h body closed rs).width =
        start + h.width + rowWidth body + closed.toNat + Repetition.rowWidth rs := by
      simp [width, Nat.add_assoc]
    rw [stop]
    exact (reported_group ended inside).append_repetitions (Repetition.settled_diagnostics _ rs)

/-- What is wrong with a row of phrases is reported in order. -/
theorem rowReported (ps : List Phrase) {levels : Nat} {inGroup : Bool} {rest : List Lexeme}
    (row : RowLegal levels inGroup rest ps) (start : Nat) :
    Reported levels start (start + rowWidth ps) rest (rowDiagnostics start ps) := by
  match ps with
  | [] => exact (Settled.nil (Nat.le_refl _)).reported _ _
  | p :: ps =>
    obtain ⟨legal, -, row⟩ := row
    have first := reported p legal start
    have others := rowReported ps row (start + p.width)
    rw [rowWidth, ← Nat.add_assoc]
    -- What is left open is last, so nothing is reported after it.
    by_cases last : rowLexemes ps ++ rest = []
    · obtain ⟨bare, rfl⟩ := List.append_eq_nil_iff.mp last
      obtain rfl := row.eq_nil bare
      rw [rowDiagnostics, rowDiagnostics, List.append_nil]
      exact first
    · exact first.append last others

end

end Phrase

theorem Pattern.reported_parse (p : Pattern) :
    Reported maxDepth 0 p.length [] p.parse.diagnostics := by
  have reported := Phrase.rowReported p.phrases p.rowLegal_phrases 0
  rwa [p.rowWidth_phrases, Nat.zero_add] at reported

end PatternTree
