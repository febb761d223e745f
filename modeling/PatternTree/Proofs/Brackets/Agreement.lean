import PatternTree.Proofs.Brackets.Scan
import PatternTree.Proofs.Brackets.Spans
import PatternTree.Proofs.Meaning.Extents

/-!
Reading phrases against the scan for brackets. A phrase adds to the scan what its diagnostics and
its groups say; this is shown phrase by phrase, with the number of parentheses around it. Main
statement: the diagnostics about brackets and the groups in the tree of a pattern are those that the
scan of its tokens meets.
-/

namespace PatternTree

namespace BracketScan

/-- A scan met inside `around` parentheses, and the diagnostics and groups that are found there if
the text ends at `stop`. Groups come in another order: a tree names the outer one first, a scan the
one that is closed first. -/
structure Agrees (around stop : Nat) (e : BracketScan) (ds : List Diagnostic)
    (groups : List Span) : Prop where
  stray : Diagnostic.spans .unopenedGroup ds = e.stray
  tooDeep : Diagnostic.spans .groupTooDeep ds =
    ((e.enclosures stop around).filter (·.around = maxDepth)).map Enclosure.span
  set : Diagnostic.spans .unclosedSet ds =
    if around + e.opened.length ≤ maxDepth then e.set.toList.map Span.single else []
  opened : Diagnostic.spans .unclosedGroup ds =
    ((Enclosure.pending stop around e.opened).filter (·.around < maxDepth)).map
      fun x => Span.single x.span.start
  groups :
    groups.Perm (((e.enclosures stop around).filter (·.around < maxDepth)).map Enclosure.span)

/-- What the tokens in front of `rest` add to a scan agrees with the diagnostics and the groups.
Only the end of the text leaves something open. -/
def Matches (around stop : Nat) (ts : List Token) (rest : List Lexeme) (ds : List Diagnostic)
    (groups : List Span) : Prop :=
  ∃ e, Adds around ts e ∧ Agrees around stop e ds groups ∧ (rest ≠ [] → e.Settled)

section

variable {around stop : Nat} {e f : BracketScan} {ts us : List Token} {rest : List Lexeme}
  {ds more : List Diagnostic} {groups others : List Span}

theorem agrees_empty (around stop : Nat) (quiet : ∀ d ∈ ds, ¬d.kind.ofBrackets) :
    Agrees around stop empty ds [] := by
  have none := @Diagnostic.spans_eq_nil ds quiet
  exact ⟨none rfl, none rfl, (none rfl).trans (by simp [empty]), none rfl, .refl _⟩

theorem Agrees.append (first : Agrees around stop e ds groups) (settled : e.Settled)
    (second : Agrees around stop f more others) :
    Agrees around stop (e.join f) (ds ++ more) (groups ++ others) := by
  obtain ⟨opened, set⟩ := settled
  have both : (e.join f).enclosures stop around =
      e.enclosures stop around ++ f.enclosures stop around := by
    simp [join, enclosures, opened, Enclosure.pending]
  constructor
  · rw [Diagnostic.spans_append, first.stray, second.stray]
    rfl
  · rw [Diagnostic.spans_append, first.tooDeep, second.tooDeep, both]
    simp
  · rw [Diagnostic.spans_append, first.set, second.set]
    simp [join, opened, set]
  · rw [Diagnostic.spans_append, first.opened, second.opened]
    simp [join, opened, Enclosure.pending]
  · rw [both, List.filter_append, List.map_append]
    exact first.groups.append second.groups

theorem Agrees.of_spans_eq (agrees : Agrees around stop e ds groups)
    (same : ∀ kind : Diagnostic.Kind, kind.ofBrackets →
      Diagnostic.spans kind more = Diagnostic.spans kind ds) :
    Agrees around stop e more groups :=
  ⟨(same _ rfl).trans agrees.stray, (same _ rfl).trans agrees.tooDeep,
    (same _ rfl).trans agrees.set, (same _ rfl).trans agrees.opened, agrees.groups⟩

theorem Agrees.append_quiet (agrees : Agrees around stop e ds groups)
    (quiet : ∀ d ∈ more, ¬d.kind.ofBrackets) : Agrees around stop e (ds ++ more) groups :=
  agrees.of_spans_eq fun kind bracket => by simp [Diagnostic.spans_eq_nil quiet bracket]

theorem Agrees.quiet_append (quiet : ∀ d ∈ more, ¬d.kind.ofBrackets)
    (agrees : Agrees around stop e ds groups) : Agrees around stop e (more ++ ds) groups :=
  agrees.of_spans_eq fun kind bracket => by simp [Diagnostic.spans_eq_nil quiet bracket]

theorem Matches.append (first : Matches around stop ts rest ds groups) (present : rest ≠ [])
    {after : List Lexeme} (second : Matches around stop us after more others) :
    Matches around stop (ts ++ us) after (ds ++ more) (groups ++ others) := by
  obtain ⟨e, adds, agrees, settled⟩ := first
  obtain ⟨f, adds', agrees', settled'⟩ := second
  have bare := settled present
  exact ⟨e.join f, adds.append bare adds', agrees.append bare agrees', fun following => by
    simpa [Settled, join, bare.1] using settled' following⟩

theorem matches_outside {ls : List Lexeme} (others : ∀ l ∈ ls, ¬l.isBracket)
    (quiet : ∀ d ∈ ds, ¬d.kind.ofBrackets) (start : Nat) :
    Matches around stop (Lexeme.tokens start ls) rest ds [] :=
  ⟨empty, adds_outside around others start, agrees_empty around stop quiet, fun _ => settled_empty⟩

/-- What follows may be counted in if it has no bracket. -/
theorem Matches.append_outside {ls : List Lexeme}
    (first : Matches around stop ts (ls ++ rest) ds groups) (others : ∀ l ∈ ls, ¬l.isBracket)
    (quiet : ∀ d ∈ more, ¬d.kind.ofBrackets) (start : Nat) :
    Matches around stop (ts ++ Lexeme.tokens start ls) rest (ds ++ more) groups := by
  by_cases bare : ls = []
  · subst bare
    obtain ⟨e, adds, agrees, settled⟩ := first
    rw [Lexeme.tokens, List.append_nil]
    exact ⟨e, adds, agrees.append_quiet quiet, settled⟩
  · have outside : Matches around stop (Lexeme.tokens start ls) rest more [] :=
      matches_outside others quiet start
    have both := first.append (by simp [bare]) outside
    rwa [List.append_nil] at both

end

end BracketScan

-- ═══════════════════════════════════════════════════════════════
-- Parts
-- ═══════════════════════════════════════════════════════════════

theorem Lexeme.isBracket_of_isItem {l : Lexeme} (item : l.isItem) : ¬l.isBracket := by
  unfold isBracket
  split <;> first | cases item | simp

theorem Amount.isBracket_lexemes (a : Amount) : ∀ l ∈ a.lexemes, ¬l.isBracket := by
  cases a <;> simp [lexemes, plainRow, Lexeme.isBracket, or_imp, forall_and]

theorem Repetition.isBracket_lexemes (rs : List Repetition) :
    ∀ l ∈ rs.flatMap lexemes, ¬l.isBracket := by
  rintro l member
  obtain ⟨r, -, inside⟩ := List.mem_flatMap.mp member
  rcases List.mem_append.mp inside with amount | lazy
  · exact r.amount.isBracket_lexemes l amount
  · split at lazy
    · obtain rfl := List.mem_singleton.mp lazy
      simp [Lexeme.isBracket]
    · cases lazy

/-- After its parenthesis a header has no bracket. -/
theorem Header.isBracket_lexemes (h : Header) :
    ∃ more, h.lexemes = .mark .openParen :: more ∧ ∀ l ∈ more, ¬l.isBracket := by
  cases h with
  | unknown => exact ⟨_, rfl, by simp [Lexeme.isBracket]⟩
  | kind k =>
    cases k with
    | capture => exact ⟨[], rfl, by simp⟩
    | named name =>
      refine ⟨_, rfl, ?_⟩
      simp [plainRow, Lexeme.isBracket, or_imp, forall_and]
    | grouping => exact ⟨_, rfl, by simp [Lexeme.isBracket]⟩
    | look l => cases l <;> exact ⟨_, rfl, by simp [Lexeme.isBracket]⟩

/-- The first closing bracket after the opening one closes the set. -/
theorem Piece.closeBracket_not_mem_lexemes {after : List Lexeme} {ps : List Piece}
    (row : RowLegal after ps) : .mark .closeBracket ∉ ps.flatMap lexemes := by
  induction ps with
  | nil => simp
  | cons p ps ih =>
    cases p with
    | single l => simp [lexemes, ih row.2.2, row.1.symm]
    | range first last =>
      have other := (Lexeme.ne_of_endsRange row.2.1).1
      simp [lexemes, ih row.2.2, row.1.symm, other.symm]

namespace Bracket

open BracketScan

/-- The lexemes of a set before its closing bracket. -/
def unclosed (b : Bracket) : List Lexeme :=
  .mark .openBracket :: (if b.inverted then [.mark .caret] else []) ++
    b.pieces.flatMap Piece.lexemes

theorem run_unclosed {rest : List Lexeme} {b : Bracket} (legal : b.Legal rest) (start : Nat)
    {s : BracketScan} (outside : s.set = none) :
    s.run (Lexeme.tokens start b.unclosed) = { s with set := some start } := by
  have unclosed : .mark .closeBracket ∉
      (if b.inverted then [.mark .caret] else []) ++ b.pieces.flatMap Piece.lexemes := by
    have pieces := Piece.closeBracket_not_mem_lexemes legal.2.1
    split <;> simpa using pieces
  rw [Bracket.unclosed, List.cons_append, Lexeme.tokens, run_cons]
  have opens : s.step ⟨Lexeme.kind (.mark .openBracket), ⟨start, start + 1⟩⟩ =
      { s with set := some start } := by
    simp [step, outside]
  exact (congrArg (run · _) opens).trans (run_inside rfl unclosed _)

/-- A set is closed in the scan where it is closed as it is read. -/
theorem matches_lexemes {around : Nat} (start stop : Nat) (shallow : around ≤ maxDepth)
    {b : Bracket} {rest : List Lexeme} (legal : b.Legal rest) :
    Matches around stop (Lexeme.tokens start b.lexemes) rest (b.diagnostics start) [] := by
  have quiet := Piece.ofBrackets_diagnostics (start + b.openingWidth) b.pieces
  have written : b.lexemes = b.unclosed ++ closing .closeBracket b.closed := rfl
  rw [written, Lexeme.tokens_append, diagnostics]
  cases closed : b.closed with
  | true =>
    refine ⟨empty, fun s outside _ => ?_, agrees_empty _ _ (by simpa using quiet),
      fun _ => settled_empty⟩
    rw [run_append, run_unclosed legal start outside]
    simp [closing, Lexeme.tokens, step, join, empty, ← outside]
  | false =>
    refine ⟨⟨[], some start, [], []⟩, fun s outside _ => ?_, ?_, fun present => ?_⟩
    · rw [run_append, run_unclosed legal start outside]
      simp [closing, Lexeme.tokens, join]
    · refine .quiet_append quiet ?_
      constructor <;>
        simp [enclosures, Enclosure.pending, shallow, Span.single]
    · exact absurd (legal.2.2.resolve_left (by simp [closed])) present

end Bracket

-- ═══════════════════════════════════════════════════════════════
-- Phrases
-- ═══════════════════════════════════════════════════════════════

namespace Phrase

open BracketScan

theorem matches_stray {around stop start : Nat} {l : Lexeme} (stray : l.isStray)
    (outermost : l = .mark .closeParen → around = 0) (rest : List Lexeme) :
    Matches around stop (Lexeme.tokens start [l]) rest
      [⟨l.fault, ⟨start, start + l.width⟩⟩] [] := by
  by_cases paren : l = .mark .closeParen
  · subst paren
    obtain rfl := outermost rfl
    refine ⟨⟨[], none, [⟨start, start + 1⟩], []⟩, fun s outside depth => ?_, ?_,
      fun _ => ⟨rfl, rfl⟩⟩
    · have opened : s.opened = [] := List.eq_nil_of_length_eq_zero depth
      simp [Lexeme.tokens, step, join, outside, opened, Lexeme.width]
    · constructor <;>
        simp [enclosures, Enclosure.pending, Lexeme.fault, Lexeme.width]
  · have other : ¬l.isBracket ∧ ¬l.fault.ofBrackets := by
      unfold Lexeme.isStray at stray
      split at stray <;> first | exact absurd rfl paren | exact ⟨by decide, by decide⟩ | cases stray
    exact matches_outside (by simpa using other.1) (by simpa using other.2) start

/-- All that is met after a parenthesis at the greatest depth is nested deeper. -/
theorem agrees_tooDeep {stop : Nat} {e : BracketScan} {own : Span} {deeper : List Enclosure}
    (stray : e.stray = []) (set : e.opened = [] → e.set = none)
    (all : e.enclosures stop maxDepth = deeper ++ [⟨own, maxDepth⟩])
    (deep : ∀ x ∈ deeper, maxDepth < x.around) :
    Agrees maxDepth stop e [⟨.groupTooDeep, own⟩] [] := by
  have atDepth : deeper.filter (·.around = maxDepth) = [] := by
    simpa using fun x member => Nat.ne_of_gt (deep x member)
  have below : deeper.filter (·.around < maxDepth) = [] := by
    simpa using fun x member => Nat.le_of_lt (deep x member)
  have pending : (Enclosure.pending stop maxDepth e.opened).filter (·.around < maxDepth) = [] := by
    simpa using Enclosure.around_le_of_mem_pending stop maxDepth e.opened
  constructor
  · simp [stray]
  · simp [all, atDepth]
  · cases opened : e.opened with
    | nil => simp [set opened]
    | cons start outer =>
      have deeper : ¬maxDepth + (outer.length + 1) ≤ maxDepth := by omega
      simp [deeper]
  · simp [pending]
  · simp [all, below]

/-- A group that is skipped is met at the greatest depth. -/
theorem matches_tooDeep {stop start : Nat} {inner rest : List Lexeme}
    (after : afterGroup 0 false (inner ++ rest) = rest)
    (ended : rest = [] → start + textWidth (.mark .openParen :: inner) = stop) :
    Matches maxDepth stop (Lexeme.tokens start (.mark .openParen :: inner)) rest
      [⟨.groupTooDeep, ⟨start, start + textWidth (.mark .openParen :: inner)⟩⟩] [] := by
  have opens (s : BracketScan) (outside : s.set = none) :
      s.run (Lexeme.tokens start (.mark .openParen :: inner)) =
        ((s.push start).join empty).run (Lexeme.tokens (start + 1) inner) := by
    simp [Lexeme.tokens, Lexeme.width, step, push, join, empty, outside]
  have width : start + textWidth (.mark .openParen :: inner) = start + 1 + textWidth inner := by
    simp [Lexeme.width, Nat.add_assoc]
  rw [width] at ended ⊢
  obtain ⟨e, isInner, closes | ⟨atEnd, stays⟩⟩ := run_skip (inner_empty maxDepth) after (start + 1)
  · refine ⟨_, fun s outside depth => (opens s outside).trans (closes s start depth),
      agrees_tooDeep rfl (fun _ => rfl) ?_ isInner.deeper, fun _ => ⟨rfl, rfl⟩⟩
    simp [enclosures, Enclosure.pending]
  · have deep : ∀ x ∈ e.enclosures stop (maxDepth + 1), maxDepth < x.around :=
      List.forall_mem_append.mpr ⟨isInner.deeper, Enclosure.around_le_of_mem_pending _ _ _⟩
    refine ⟨⟨e.opened ++ [start], e.set, [], e.closed⟩, fun s outside depth => ?_,
      agrees_tooDeep rfl (by simp) ?_ deep, (absurd atEnd ·)⟩
    · rw [opens s outside, stays s start depth]
      simp [join, push, isInner.stray]
    · rw [enclosures, Enclosure.pending_append, ended atEnd, ← List.append_assoc]
      rfl

section

variable {around stop start : Nat} {e : BracketScan} {ds : List Diagnostic} {groups : List Span}

/-- After the parenthesis of a group and its body, that parenthesis is open below what the body left
open. -/
theorem run_opened (h : Header) {body : List Phrase}
    (adds : Adds (around + 1) (Lexeme.tokens (start + h.width) (rowLexemes body)) e)
    {s : BracketScan} (outside : s.set = none) (depth : s.opened.length = around) :
    s.run (Lexeme.tokens start (h.lexemes ++ rowLexemes body)) = (s.push start).join e := by
  obtain ⟨more, written, others⟩ := h.isBracket_lexemes
  have opens : s.step ⟨Lexeme.kind (.mark .openParen), ⟨start, start + 1⟩⟩ = s.push start := by
    simp [step, push, outside]
  have pushed : (s.push start).set = none := outside
  rw [Lexeme.tokens_append, run_append, h.textWidth_lexemes, written, Lexeme.tokens, run_cons,
    show Lexeme.width (.mark .openParen) = 1 from rfl, opens, run_outside pushed others,
    adds _ pushed (by simp [push, depth])]

/-- A group that is closed counts after the groups inside it. -/
theorem agrees_closed {own : Span} (shallow : around < maxDepth)
    (agrees : Agrees (around + 1) stop e ds groups) (settled : e.Settled) :
    Agrees around stop ⟨[], none, e.stray, e.closed ++ [⟨own, around⟩]⟩ ds (own :: groups) := by
  obtain ⟨opened, set⟩ := settled
  have notDeepest : ¬around = maxDepth := Nat.ne_of_lt shallow
  have all : e.enclosures stop (around + 1) = e.closed := by
    simp [enclosures, opened, Enclosure.pending]
  constructor
  · simp [agrees.stray]
  · rw [agrees.tooDeep, all]
    simp [enclosures, Enclosure.pending, notDeepest]
  · simp [agrees.set, set]
  · simp [agrees.opened, opened, Enclosure.pending]
  · have inside := agrees.groups
    rw [all] at inside
    simpa [enclosures, Enclosure.pending, shallow] using
      (inside.cons own).trans (List.perm_append_singleton _ _).symm

/-- A group that is left open is reported after those inside it that are. -/
theorem agrees_open (shallow : around < maxDepth)
    (agrees : Agrees (around + 1) stop e ds groups) :
    Agrees around stop ⟨e.opened ++ [start], e.set, e.stray, e.closed⟩
      (ds ++ [⟨.unclosedGroup, Span.single start⟩]) (⟨start, stop⟩ :: groups) := by
  have notDeepest : ¬around = maxDepth := Nat.ne_of_lt shallow
  have pending : Enclosure.pending stop around (e.opened ++ [start]) =
      Enclosure.pending stop (around + 1) e.opened ++ [⟨⟨start, stop⟩, around⟩] :=
    Enclosure.pending_append stop around e.opened [start]
  constructor
  · simp [agrees.stray]
  · simp [agrees.tooDeep, enclosures, pending, notDeepest]
  · simp [agrees.set, Nat.add_assoc, Nat.add_comm 1]
  · simp [agrees.opened, pending, shallow]
  · simpa [enclosures, pending, shallow] using
      (agrees.groups.cons ⟨start, stop⟩).trans (List.perm_append_singleton _ _).symm

/-- A group without its quantifiers. -/
theorem matches_enclosed (shallow : around < maxDepth) (h : Header) {body : List Phrase}
    {closed : Bool} {after : List Lexeme}
    (inside : Matches (around + 1) stop (Lexeme.tokens (start + h.width) (rowLexemes body))
      (closing .closeParen closed ++ after) ds groups)
    (ended : ¬closed → after = [] ∧ start + h.width + rowWidth body = stop) :
    Matches around stop
      (Lexeme.tokens start (h.lexemes ++ rowLexemes body ++ closing .closeParen closed)) after
      (h.diagnostics start ++ ds ++ if closed then [] else [⟨.unclosedGroup, ⟨start, start + 1⟩⟩])
      (⟨start, start + h.width + rowWidth body + closed.toNat⟩ :: groups) := by
  obtain ⟨e, adds, agrees, settled⟩ := inside
  have quiet := h.ofBrackets_diagnostics start
  have width : start + textWidth (h.lexemes ++ rowLexemes body) =
      start + h.width + rowWidth body := by
    rw [textWidth_append, h.textWidth_lexemes, textWidth_rowLexemes, Nat.add_assoc]
  rw [List.append_assoc (h.diagnostics start), Lexeme.tokens_append, width]
  cases closed with
  | true =>
    have bare := settled (by simp [closing])
    rw [if_pos rfl, List.append_nil]
    refine ⟨_, fun s outside depth => ?_, (agrees_closed shallow agrees bare).quiet_append quiet,
      fun _ => ⟨rfl, rfl⟩⟩
    rw [run_append, run_opened h adds outside depth]
    simp [closing, Lexeme.tokens, Lexeme.width, step, join, push, bare.1, bare.2, depth]
  | false =>
    obtain ⟨atEnd, rfl⟩ := ended Bool.false_ne_true
    refine ⟨_, fun s outside depth => ?_, (agrees_open shallow agrees).quiet_append quiet,
      (absurd atEnd ·)⟩
    rw [run_append, run_opened h adds outside depth]
    simp [closing, Lexeme.tokens, join, push]

end

/-- A group that is left open ends with its body: nothing follows it, and so no quantifiers do. -/
theorem stop_open {h : Header} {body : List Phrase} {closed : Bool} {rs : List Repetition}
    {rest : List Lexeme} (unclosed : ¬closed) (last : rs.flatMap Repetition.lexemes ++ rest = [])
    (start : Nat) :
    start + h.width + rowWidth body = start + (Phrase.group h body closed rs).width := by
  have none := Repetition.textWidth_row rs
  rw [(List.append_eq_nil_iff.mp last).1, textWidth_nil] at none
  simp [width, ← none, Bool.of_not_eq_true unclosed, Nat.add_assoc]

mutual

/-- What a phrase adds to the scan is what is said about it. Outside groups alone a closing
parenthesis is a phrase. -/
theorem matches_lexemes {p : Phrase} {levels around : Nat} (start stop : Nat) {rest : List Lexeme}
    (legal : p.Legal levels rest) (depth : around + levels = maxDepth)
    (outermost : p = .stray (.mark .closeParen) → around = 0)
    (ended : rest = [] → start + p.width = stop) :
    Matches around stop (Lexeme.tokens start p.lexemes) rest (p.diagnostics start)
      (p.groupSpans start) := by
  match p with
  | .bar =>
    exact matches_outside (by simp [lexemes, Lexeme.isBracket]) (by simp [diagnostics]) start
  | .stray l =>
    exact matches_stray legal (fun paren => outermost (paren ▸ rfl)) rest
  | .tooDeep ls =>
    obtain ⟨rfl, inner, rfl, after⟩ := legal
    obtain rfl : around = maxDepth := depth
    exact matches_tooDeep after ended
  | .single l rs =>
    rw [groupSpans_single]
    exact matches_outside (List.forall_mem_cons.mpr
      ⟨Lexeme.isBracket_of_isItem legal.1, Repetition.isBracket_lexemes rs⟩)
      (Repetition.ofBrackets_diagnostics _ rs) start
  | .set b rs =>
    have bracket := b.matches_lexemes start stop (by omega : around ≤ maxDepth) legal.1
    rw [groupSpans_set, lexemes, Lexeme.tokens_append, diagnostics]
    exact bracket.append_outside (Repetition.isBracket_lexemes rs)
      (Repetition.ofBrackets_diagnostics _ rs) _
  | .group h body closed rs =>
    obtain ⟨⟨inner, rfl, row⟩, -, ends, -⟩ := legal
    have atEnd (unclosed : ¬closed) (after : rs.flatMap Repetition.lexemes ++ rest = []) :
        start + h.width + rowWidth body = stop :=
      (stop_open unclosed after start).trans (ended (List.append_eq_nil_iff.mp after).2)
    have deeper : around + 1 + inner = maxDepth := by omega
    have inside := matches_rowLexemes (start + h.width) stop row deeper (by simp) fun last =>
      have unclosed := closing_append_eq_nil_iff.mp last
      atEnd unclosed.1 unclosed.2
    have enclosed := matches_enclosed (by omega) h inside fun unclosed =>
      ⟨ends.resolve_left unclosed, atEnd unclosed (ends.resolve_left unclosed)⟩
    rw [groupSpans_group, lexemes, Lexeme.tokens_append, diagnostics]
    exact enclosed.append_outside (Repetition.isBracket_lexemes rs)
      (Repetition.ofBrackets_diagnostics _ rs) _

theorem matches_rowLexemes {ps : List Phrase} {levels around : Nat} (start stop : Nat)
    {inGroup : Bool} {rest : List Lexeme} (row : RowLegal levels inGroup rest ps)
    (depth : around + levels = maxDepth) (outermost : ¬inGroup → around = 0)
    (ended : rest = [] → start + rowWidth ps = stop) :
    Matches around stop (Lexeme.tokens start (rowLexemes ps)) rest (rowDiagnostics start ps)
      (rowGroupSpans start ps) := by
  match ps with
  | [] => exact matches_outside (by simp [rowLexemes]) (by simp [rowDiagnostics]) start
  | p :: ps =>
    obtain ⟨legal, other, row⟩ := row
    have outermost' : p = .stray (.mark .closeParen) → around = 0 := fun paren =>
      outermost fun inside => other inside paren
    by_cases last : rowLexemes ps ++ rest = []
    · obtain ⟨bare, rfl⟩ := List.append_eq_nil_iff.mp last
      obtain rfl := row.eq_nil bare
      have only := matches_lexemes start stop legal depth outermost' ended
      simpa [rowLexemes, rowDiagnostics, rowGroupSpans] using only
    · have first := matches_lexemes start stop legal depth outermost'
        (absurd · last)
      have more := matches_rowLexemes (start + p.width) stop row depth outermost
        fun atEnd => by rw [← ended atEnd, rowWidth, Nat.add_assoc]
      rw [rowLexemes, Lexeme.tokens_append, p.textWidth_lexemes]
      exact first.append last more

end

end Phrase

-- ═══════════════════════════════════════════════════════════════
-- Patterns
-- ═══════════════════════════════════════════════════════════════

/-- Of the parentheses left open, those with fewer than `depth` others outside them are the
outermost. -/
theorem Enclosure.map_pending_filter (stop depth : Nat) (opened : List Nat) :
    ((pending stop 0 opened).filter (·.around < depth)).map (fun x => Span.single x.span.start) =
      (opened.drop (opened.length - depth)).map Span.single := by
  induction opened with
  | nil => simp [pending]
  | cons start outer ih =>
    rw [pending, Nat.zero_add]
    by_cases below : outer.length < depth
    · rw [Nat.sub_eq_zero_of_le (Nat.le_of_lt below)] at ih
      simp [below, ih, Nat.sub_eq_zero_of_le below]
    · have later : (start :: outer).length - depth = (outer.length - depth) + 1 := by
        rw [List.length_cons]
        omega
      rw [later, List.drop_succ_cons, ← ih]
      simp [below]

namespace Pattern

/-- The scan passes over the token past the end. -/
theorem bracketScan_eq (p : Pattern) :
    p.bracketScan = BracketScan.empty.run (Lexeme.tokens 0 p.lexemes) := by
  rw [bracketScan, tokens_eq, BracketScan.run_append]
  generalize BracketScan.empty.run _ = s
  obtain ⟨opened, set, stray, closed⟩ := s
  cases set <;> rfl

/-- Reading agrees with the scan for brackets: on the parentheses that close nothing, those that are
nested too deeply, a set that is not closed, the groups that are not closed, and the groups in the
tree. Of the groups that are not closed, the innermost comes first. -/
theorem brackets_parse (p : Pattern) :
    let scan := p.bracketScan
    let met := scan.enclosures p.length 0
    let wrong := p.parse.diagnostics
    Diagnostic.spans .unopenedGroup wrong = scan.stray ∧
      Diagnostic.spans .groupTooDeep wrong =
        (met.filter (·.around = maxDepth)).map Enclosure.span ∧
      Diagnostic.spans .unclosedSet wrong =
        (if scan.opened.length ≤ maxDepth then scan.set.toList.map Span.single else []) ∧
      Diagnostic.spans .unclosedGroup wrong =
        (scan.opened.drop (scan.opened.length - maxDepth)).map Span.single ∧
      (Node.groupSpans p.parse.expression.nodes).Perm
        ((met.filter (·.around < maxDepth)).map Enclosure.span) := by
  have whole := Phrase.matches_rowLexemes 0 p.length p.rowLegal_phrases
    (Nat.zero_add maxDepth) (fun _ => rfl) fun _ => by rw [p.rowWidth_phrases, Nat.zero_add]
  obtain ⟨e, adds, agrees, -⟩ := whole
  have scanned : p.bracketScan = e := by
    rw [bracketScan_eq, ← p.rowLexemes_phrases, adds BracketScan.empty rfl rfl]
    simp [BracketScan.join, BracketScan.empty]
  rw [scanned]
  refine ⟨agrees.stray, agrees.tooDeep, ?_, agrees.opened.trans ?_, ?_⟩
  · have set := agrees.set
    rwa [Nat.zero_add] at set
  · exact Enclosure.map_pending_filter p.length maxDepth e.opened
  · exact (Phrase.groupSpans_expression 0 p.phrases).symm ▸ agrees.groups

end Pattern

end PatternTree
