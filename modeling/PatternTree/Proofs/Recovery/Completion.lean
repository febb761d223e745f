import PatternTree.Proofs.Diagnosis.Order
import PatternTree.Proofs.Locality.Surroundings
import PatternTree.Proofs.Tree.Shape

/-!
What the end of a text leaves open, and what closes it. A row of phrases is completed with a
closing mark for the last phrase of each row that is open. Main statements: the phrases of a
pattern have a completion, which is written with the missing marks at the end, stands for the same
tree but for spans, and keeps the other diagnostics.
-/

namespace PatternTree

-- ═══════════════════════════════════════════════════════════════
-- Closing marks
-- ═══════════════════════════════════════════════════════════════

namespace Diagnostic

/-- The mark that would have closed what is left open. -/
def Kind.closer? : Kind → Option Mark
  | unclosedSet => some .closeBracket
  | unclosedGroup => some .closeParen
  | _ => none

/-- The marks that the diagnostics miss. -/
def closers (ds : List Diagnostic) : List Lexeme :=
  ds.filterMap fun d => d.kind.closer?.map Lexeme.mark

/-- The diagnostics that are not about what is left open. -/
def others (ds : List Diagnostic) : List Diagnostic :=
  ds.filter fun d => d.kind ≠ .unclosedSet ∧ d.kind ≠ .unclosedGroup

variable {ds : List Diagnostic}

theorem closers_eq_nil (closed : ∀ d ∈ ds, ¬d.kind.leftOpen) : closers ds = [] := by
  refine List.filterMap_eq_nil_iff.mpr fun d member => ?_
  obtain ⟨set, group⟩ := Kind.ne_of_not_leftOpen (closed d member)
  rw [Kind.closer?]
  · rfl
  · exact set
  · exact group

theorem others_eq_self (closed : ∀ d ∈ ds, ¬d.kind.leftOpen) : others ds = ds :=
  List.filter_eq_self.mpr fun d member => by
    simpa using Kind.ne_of_not_leftOpen (closed d member)

theorem closers_append (closed : ∀ d ∈ ds, ¬d.kind.leftOpen) (more : List Diagnostic) :
    closers (ds ++ more) = closers more := by
  rw [closers, List.filterMap_append, ← closers, closers_eq_nil closed, List.nil_append, closers]

theorem others_append (closed : ∀ d ∈ ds, ¬d.kind.leftOpen) (more : List Diagnostic) :
    others (ds ++ more) = ds ++ others more := by
  rw [others, List.filter_append, ← others, others_eq_self closed, others]

/-- Nothing that looks ahead looks past the closing marks. -/
theorem ends_closers (ds : List Diagnostic) : ∀ l ∈ closers ds, l.ends := by
  intro l member
  obtain ⟨d, -, found⟩ := List.mem_filterMap.mp member
  obtain ⟨m, closer, rfl⟩ := Option.map_eq_some_iff.mp found
  cases kind : d.kind <;> rw [kind] at closer <;> cases closer <;> rfl

end Diagnostic

open Diagnostic (closers others)

theorem BeginsNoMore.closers {now : List Lexeme} (less : BeginsNoMore [] now)
    (ds : List Diagnostic) : BeginsNoMore [] (closers ds ++ now) := by
  have ends := Diagnostic.ends_closers ds
  cases closing : Diagnostic.closers ds with
  | nil => exact less
  | cons l ls => exact .ended (ends l (by simp [closing])) [] (ls ++ now)

-- ═══════════════════════════════════════════════════════════════
-- Completed phrases
-- ═══════════════════════════════════════════════════════════════

namespace Phrase

/-- Nothing in the row is left open, wherever it stands. -/
def Closed (ps : List Phrase) : Prop :=
  ∀ start, ∀ d ∈ rowDiagnostics start ps, ¬d.kind.leftOpen

/-- The second row is the first with all that is left open closed: only its last phrase can be
open, and so can the last phrase inside that. -/
inductive Completes : List Phrase → List Phrase → Prop
  | closed {ps} (closed : Closed ps) : Completes ps ps
  | set {before} (closed : Closed before) (inverted : Bool) (pieces : List Piece) :
      Completes (before ++ [.set ⟨inverted, pieces, false⟩ []])
        (before ++ [.set ⟨inverted, pieces, true⟩ []])
  | group {before body body'} (closed : Closed before) (h : Header)
      (inside : Completes body body') :
      Completes (before ++ [.group h body false []]) (before ++ [.group h body' true []])

namespace Closed

theorem nil : Closed [] := fun _ => List.forall_mem_nil _

theorem cons {p : Phrase} {ps : List Phrase}
    (first : ∀ start, ∀ d ∈ p.diagnostics start, ¬d.kind.leftOpen) (closed : Closed ps) :
    Closed (p :: ps) :=
  fun start => List.forall_mem_append.mpr ⟨first start, closed _⟩

theorem singleton {p : Phrase} (closed : ∀ start, ∀ d ∈ p.diagnostics start, ¬d.kind.leftOpen) :
    Closed [p] := .cons closed .nil

theorem set (inverted : Bool) (pieces : List Piece) (rs : List Repetition) :
    Closed [.set ⟨inverted, pieces, true⟩ rs] := by
  apply singleton
  intro start
  refine List.forall_mem_append.mpr ⟨List.forall_mem_append.mpr ⟨?_, ?_⟩, ?_⟩
  · exact (Piece.settled_rowDiagnostics _ pieces).closed
  · exact List.forall_mem_nil _
  · exact (Repetition.settled_diagnostics _ rs).closed

theorem group {body : List Phrase} (inside : Closed body) (h : Header) (rs : List Repetition) :
    Closed [.group h body true rs] := by
  apply singleton
  intro start
  refine List.forall_mem_append.mpr
    ⟨List.forall_mem_append.mpr ⟨List.forall_mem_append.mpr ⟨?_, ?_⟩, ?_⟩, ?_⟩
  · exact (h.settled_diagnostics start).closed
  · exact inside _
  · exact List.forall_mem_nil _
  · exact (Repetition.settled_diagnostics _ rs).closed

end Closed

theorem Completes.cons {p : Phrase} {ps qs : List Phrase}
    (first : ∀ start, ∀ d ∈ p.diagnostics start, ¬d.kind.leftOpen) (completes : Completes ps qs) :
    Completes (p :: ps) (p :: qs) := by
  cases completes with
  | closed closed => exact .closed (.cons first closed)
  | set closed inverted pieces => exact .set (.cons first closed) inverted pieces
  | group closed h inside => exact .group (.cons first closed) h inside

mutual

theorem Legal.exists_completes {p : Phrase} {levels : Nat} {rest : List Lexeme}
    (legal : p.Legal levels rest) : ∃ q, Completes [p] [q] := by
  match p with
  | .bar => exact ⟨_, .closed (.singleton fun _ => List.forall_mem_nil _)⟩
  | .stray l =>
    exact ⟨_, .closed (.singleton fun _ => List.forall_mem_singleton.mpr l.leftOpen_fault)⟩
  | .tooDeep ls =>
    have closed : ¬Diagnostic.Kind.groupTooDeep.leftOpen := by simp [Diagnostic.Kind.leftOpen]
    exact ⟨_, .closed (.singleton fun _ => List.forall_mem_singleton.mpr closed)⟩
  | .single l rs =>
    exact ⟨_, .closed (.singleton fun _ => (Repetition.settled_diagnostics _ rs).closed)⟩
  | .set ⟨inverted, pieces, closed⟩ rs =>
    cases closed with
    | true => exact ⟨_, .closed (.set inverted pieces rs)⟩
    | false =>
      have last : rs.flatMap Repetition.lexemes ++ rest = [] := by simpa using legal.1.2.2
      obtain ⟨rfl, rfl⟩ := Repetition.row_append_eq_nil_iff.mp last
      exact ⟨_, .set .nil inverted pieces⟩
  | .group h body closed rs =>
    obtain ⟨⟨inner, rfl, row⟩, -, ends, -⟩ := legal
    cases closed with
    | true =>
      have inside : Closed body := fun start =>
        (rowReported body row start).closed (by simp [closing])
      exact ⟨_, .closed (.group inside h rs)⟩
    | false =>
      have last : rs.flatMap Repetition.lexemes ++ rest = [] := by simpa using ends
      obtain ⟨rfl, rfl⟩ := Repetition.row_append_eq_nil_iff.mp last
      obtain ⟨body', inside⟩ := row.exists_completes
      exact ⟨_, .group .nil h inside⟩

/-- Every row that is read has a completion. -/
theorem RowLegal.exists_completes {ps : List Phrase} {levels : Nat} {inGroup : Bool}
    {rest : List Lexeme} (row : RowLegal levels inGroup rest ps) : ∃ qs, Completes ps qs := by
  match ps with
  | [] => exact ⟨[], .closed .nil⟩
  | p :: ps =>
    obtain ⟨legal, -, row⟩ := row
    -- Only the last phrase can be open; any other stays as it is.
    by_cases last : rowLexemes ps ++ rest = []
    · obtain ⟨bare, rfl⟩ := List.append_eq_nil_iff.mp last
      obtain rfl := row.eq_nil bare
      obtain ⟨q, completes⟩ := legal.exists_completes
      exact ⟨[q], completes⟩
    · obtain ⟨qs, completes⟩ := row.exists_completes
      exact ⟨p :: qs, completes.cons fun start => (p.reported legal start).closed last⟩

end

-- ═══════════════════════════════════════════════════════════════
-- What a completion keeps
-- ═══════════════════════════════════════════════════════════════

namespace Completes

variable {ps qs : List Phrase}

/-- The marks that are missing are missing at the end. -/
theorem rowLexemes_eq (completes : Completes ps qs) (start : Nat) :
    rowLexemes qs = rowLexemes ps ++ closers (rowDiagnostics start ps) := by
  induction completes generalizing start with
  | closed closed => rw [Diagnostic.closers_eq_nil (closed start), List.append_nil]
  | @set before closed inverted pieces =>
    have inside := Piece.settled_rowDiagnostics
      (start + rowWidth before + Bracket.openingWidth ⟨inverted, pieces, false⟩) pieces
    rw [rowDiagnostics_append, Diagnostic.closers_append (closed start), rowDiagnostics_set,
      Bracket.diagnostics, Diagnostic.closers_append inside.closed, rowLexemes_append,
      rowLexemes_append]
    simp [rowLexemes, lexemes, Bracket.lexemes, closing, closers, Diagnostic.Kind.closer?]
  | @group before body body' closed h inside ih =>
    have header := h.settled_diagnostics (start + rowWidth before)
    rw [rowDiagnostics_append, Diagnostic.closers_append (closed start), rowDiagnostics_group,
      Diagnostic.closers_append header.closed, rowLexemes_append, rowLexemes_append]
    simp only [rowLexemes, lexemes, ih (start + rowWidth before + h.width)]
    simp [closing, closers, Diagnostic.Kind.closer?]

/-- All that is wrong otherwise stays wrong, and nothing else is. -/
theorem rowDiagnostics_eq (completes : Completes ps qs) (start : Nat) :
    rowDiagnostics start qs = others (rowDiagnostics start ps) := by
  induction completes generalizing start with
  | closed closed => rw [Diagnostic.others_eq_self (closed start)]
  | @set before closed inverted pieces =>
    have inside := Piece.settled_rowDiagnostics
      (start + rowWidth before + Bracket.openingWidth ⟨inverted, pieces, false⟩) pieces
    rw [rowDiagnostics_append, rowDiagnostics_append, Diagnostic.others_append (closed start),
      rowDiagnostics_set, rowDiagnostics_set, Bracket.diagnostics, Bracket.diagnostics,
      Diagnostic.others_append inside.closed]
    rfl
  | @group before body body' closed h inside ih =>
    have header := h.settled_diagnostics (start + rowWidth before)
    rw [rowDiagnostics_append, rowDiagnostics_append, Diagnostic.others_append (closed start),
      rowDiagnostics_group, rowDiagnostics_group, Diagnostic.others_append header.closed, ih]
    simp [others]

end Completes

-- ═══════════════════════════════════════════════════════════════
-- The tree of a completion
-- ═══════════════════════════════════════════════════════════════

theorem Branch.shape_cons? (item : Option Item) (b : Branch) :
    (b.cons? item).shape = b.shape.cons? (item.map Item.shape) := by
  cases b
  cases item <;> rfl

/-- The two rows stand for the same alternatives but for spans, wherever they stand. -/
def SameShape (ps qs : List Phrase) : Prop :=
  ∀ start position,
    (branches start position ps).1.shape = (branches start position qs).1.shape ∧
      (branches start position ps).2.map Branch.shape =
        (branches start position qs).2.map Branch.shape

namespace SameShape

variable {ps qs : List Phrase}

theorem expression (same : SameShape ps qs) (start : Nat) :
    (expression start ps).shape = (expression start qs).shape := by
  obtain ⟨first, others⟩ := same start start
  rw [Phrase.expression, Phrase.expression, Expression.shape_ofBranches,
    Expression.shape_ofBranches, first, others]

theorem cons (same : SameShape ps qs) (p : Phrase) : SameShape (p :: ps) (p :: qs) := by
  intro start position
  by_cases bar : p = .bar
  · subst bar
    obtain ⟨first, others⟩ := same (position + 1) (position + 1)
    simp [branches, first, others]
  · obtain ⟨first, others⟩ := same start (position + p.width)
    rw [branches_other bar, branches_other bar]
    exact ⟨by rw [Branch.shape_cons?, Branch.shape_cons?, first], others⟩

theorem append_left (same : SameShape ps qs) (before : List Phrase) :
    SameShape (before ++ ps) (before ++ qs) := by
  induction before with
  | nil => exact same
  | cons p before ih => exact ih.cons p

/-- Two phrases that stand for items of one shape. -/
theorem singleton {p q : Phrase} {item : Nat → Item} {item' : Nat → Item}
    (stands : ∀ start, p.item? start = some (item start))
    (stands' : ∀ start, q.item? start = some (item' start))
    (same : ∀ start, (item start).shape = (item' start).shape) : SameShape [p] [q] := by
  intro start position
  rw [branches_item (stands position), branches_item (stands' position)]
  simp [branches, Branch.shape, Item.rowShape, same]

end SameShape

/-- A completion stands for the same tree but for spans. -/
theorem Completes.sameShape {ps qs : List Phrase} (completes : Completes ps qs) :
    SameShape ps qs := by
  induction completes with
  | closed => exact fun _ _ => ⟨rfl, rfl⟩
  | set closed inverted pieces =>
    apply SameShape.append_left
    exact .singleton (fun _ => rfl) (fun _ => rfl) fun _ => rfl
  | group closed h inside ih =>
    apply SameShape.append_left
    refine .singleton (fun _ => rfl) (fun _ => rfl) fun start => ?_
    have body := ih.expression (start + h.width)
    exact congrArg (Item.group h.groupKind · .blank) body

-- ═══════════════════════════════════════════════════════════════
-- Reading a completion
-- ═══════════════════════════════════════════════════════════════

section

variable {ps qs : List Phrase} {levels start : Nat} {inGroup : Bool} {before now : List Lexeme}

/-- What leaves nothing open may be followed by less. -/
theorem Closed.follow (closed : Closed ps) (row : RowLegal levels inGroup before ps)
    (less : BeginsNoMore before now)
    (shallow : ∀ d ∈ rowDiagnostics start ps, d.kind ≠ .groupTooDeep) :
    RowLegal levels inGroup now ps := by
  refine row.follow start less fun _ => Or.inr fun d member => ?_
  obtain ⟨set, group⟩ := Diagnostic.Kind.ne_of_not_leftOpen (closed start d member)
  exact ⟨group, set, fun _ => shallow d member⟩

/-- Where the text may go on as it ends, the missing marks may stand before that. -/
theorem Completes.beginsNoMore (completes : Completes ps qs) (less : BeginsNoMore [] now) :
    BeginsNoMore (rowLexemes ps ++ []) (rowLexemes qs ++ now) := by
  rw [completes.rowLexemes_eq 0, List.append_assoc]
  exact (less.closers _).append _

/-- A completion is read where it is written, unless a group that is nested too deeply takes what
is missing. -/
theorem Completes.rowLegal (completes : Completes ps qs) (row : RowLegal levels inGroup [] ps)
    (less : BeginsNoMore [] now)
    (shallow : ∀ d ∈ rowDiagnostics start ps, d.kind ≠ .groupTooDeep) :
    RowLegal levels inGroup now qs := by
  induction completes generalizing levels inGroup start now with
  | closed closed => exact closed.follow row less shallow
  | @set before closed inverted pieces =>
    have last := (Completes.set .nil inverted pieces).beginsNoMore less
    rw [rowDiagnostics_append, List.forall_mem_append] at shallow
    obtain ⟨first, ⟨bracket, repeated⟩, -⟩ := rowLegal_append.mp row
    refine rowLegal_append.mpr ⟨closed.follow first last shallow.1, ⟨?_, ?_⟩, by simp, trivial⟩
    · exact Bracket.legal_closed_iff.mpr bracket
    · exact repeated.follow less
  | @group before body body' closed h inside ih =>
    have last := (Completes.group .nil h inside).beginsNoMore less
    rw [rowDiagnostics_append, List.forall_mem_append] at shallow
    obtain ⟨first, ⟨⟨inner, deeper, row⟩, header, -, repeated⟩, -⟩ := rowLegal_append.mp row
    -- The parenthesis that is added ends the body as the end of the text did.
    have close : BeginsNoMore [] (.mark .closeParen :: now) := .ended rfl [] now
    have shallowBody : ∀ d ∈ rowDiagnostics (start + rowWidth before + h.width) body,
        d.kind ≠ .groupTooDeep := by
      intro d member
      apply shallow.2 d
      rw [rowDiagnostics_group]
      simp [member]
    have row' : RowLegal inner true (.mark .closeParen :: now) body' := ih row close shallowBody
    refine rowLegal_append.mpr ⟨closed.follow first last shallow.1, ⟨?_, ?_, ?_⟩, by simp, trivial⟩
    · exact ⟨inner, deeper, row'⟩
    · exact header.follow (inside.beginsNoMore close)
    · exact ⟨Or.inl rfl, repeated.follow less⟩

end

end Phrase

-- ═══════════════════════════════════════════════════════════════
-- Texts
-- ═══════════════════════════════════════════════════════════════

namespace Diagnostic

theorem Settled.not_mem_kinds {a b : Nat} {ds : List Diagnostic} (settled : Settled a b ds)
    {k : Kind} (leftOpen : k.leftOpen) : k ∉ ds.map kind := by
  intro member
  obtain ⟨d, here, rfl⟩ := List.mem_map.mp member
  exact settled.closed d here leftOpen

/-- At most one bracket is missing, and the parentheses of all groups that are left open. -/
theorem Reported.closers_eq {levels a b : Nat} {rest : List Lexeme} {ds : List Diagnostic}
    (reported : Reported levels a b rest ds) :
    closers ds = (if .unclosedSet ∈ ds.map kind then [.mark .closeBracket] else []) ++
      List.replicate ((ds.map kind).count .unclosedGroup) (.mark .closeParen) := by
  obtain ⟨settled, sets, groups, rfl, inOrder, left, -⟩ := reported
  have noSet : .unclosedSet ∉ settled.map kind := inOrder.not_mem_kinds rfl
  have noGroup : .unclosedGroup ∉ settled.map kind := inOrder.not_mem_kinds rfl
  have ofKinds (ds : List Diagnostic) :
      closers ds = (ds.map kind).filterMap fun k => k.closer?.map Lexeme.mark := by
    rw [List.filterMap_map]
    rfl
  have setKinds := List.map_eq_replicate_iff.mpr left.set
  have groupKinds := List.map_eq_replicate_iff.mpr left.group
  rw [closers_append inOrder.closed, ofKinds]
  simp only [List.map_append, setKinds, groupKinds]
  obtain none | one := Nat.le_one_iff_eq_zero_or_eq_one.mp left.one
  · simp [none, noSet, List.count_eq_zero.mpr noGroup, Kind.closer?]
  · simp [one, List.count_eq_zero.mpr noGroup, Kind.closer?]

end Diagnostic

namespace Pattern

/-- The missing marks, written out, are scanned as such. -/
theorem lexemes_closers {ds : List Diagnostic} {marks : String}
    (written : marks.toList = (closers ds).flatMap Lexeme.text) (unicode : Bool) :
    (ofText marks unicode).lexemes = closers ds := by
  have spelled : ∀ l ∈ closers ds, l.Spelled := by
    intro l member
    obtain ⟨d, -, found⟩ := List.mem_filterMap.mp member
    obtain ⟨m, -, rfl⟩ := Option.map_eq_some_iff.mp found
    trivial
  rw [lexemes, ofText, written]
  exact Lexeme.scan_flatMap_text spelled

/-- The end of a text closes what is left open just as the missing marks do: where no group is
skipped and no backslash is left over, a text with the marks added parses to the same tree but for
spans, and all else that is wrong is reported as before. -/
theorem parse_closed (text : String) (unicode : Bool)
    (complete : trailingBackslashes text.toList % 2 = 0)
    (shallow : ∀ d ∈ (ofText text unicode).parse.diagnostics, d.kind ≠ .groupTooDeep) :
    let found := (ofText text unicode).parse
    let kinds := found.diagnostics.map Diagnostic.kind
    let bracket := if .unclosedSet ∈ kinds then "]" else ""
    let parens := String.ofList (List.replicate (kinds.count .unclosedGroup) ')')
    let whole := (ofText (text ++ bracket ++ parens) unicode).parse
    whole.expression.shape = found.expression.shape ∧
      whole.diagnostics =
        found.diagnostics.filter fun d => d.kind ≠ .unclosedSet ∧ d.kind ≠ .unclosedGroup := by
  intro found kinds bracket parens whole
  have row := (ofText text unicode).rowLegal_phrases
  obtain ⟨qs, completes⟩ := row.exists_completes
  have marks : (bracket ++ parens).toList = (closers found.diagnostics).flatMap Lexeme.text := by
    have reported := (ofText text unicode).reported_parse
    rw [reported.closers_eq, List.flatMap_append, String.toList_append, String.toList_ofList]
    have bracketText : bracket.toList =
        (if .unclosedSet ∈ kinds then [.mark .closeBracket] else []).flatMap Lexeme.text := by
      simp only [bracket]
      split <;> rfl
    rw [bracketText, List.flatMap_replicate]
    exact congrArg _ (List.flatten_replicate_singleton).symm
  have phrases : (ofText (text ++ bracket ++ parens) unicode).phrases = qs := by
    apply phrases_eq
    · rw [completes.rowLexemes_eq 0, rowLexemes_phrases, String.append_assoc,
        lexemes_append complete, lexemes_closers marks]
      rfl
    · exact completes.rowLegal row (.nil []) shallow
  constructor
  · have same := completes.sameShape.expression 0
    simp only [whole, parse, phrases]
    exact same.symm
  · have kept := completes.rowDiagnostics_eq 0
    simp only [whole, parse, phrases]
    exact kept

/-- The law where a parenthesis is stray, a header is not known, and bounds and a range are
reversed, with three groups and a set left open. Both trees are written with all of them closed. -/
theorem parse_closed_malformed :
    let text := "a)(?x\x7b3,1\x7d|[z-a](b+(?:c)|(d[^e-"
    let found := (ofText text true).parse
    let kinds := found.diagnostics.map Diagnostic.kind
    let bracket := if .unclosedSet ∈ kinds then "]" else ""
    let parens := String.ofList (List.replicate (kinds.count .unclosedGroup) ')')
    let whole := (ofText (text ++ bracket ++ parens) true).parse
    trailingBackslashes text.toList % 2 = 0 ∧
      (∀ d ∈ found.diagnostics, d.kind ≠ .groupTooDeep) ∧
      kinds = [.unopenedGroup, .unknownGroupHeader, .reversedBounds, .reversedRange, .unclosedSet,
        .unclosedGroup, .unclosedGroup, .unclosedGroup] ∧
      bracket ++ parens = "])))" ∧
      whole.expression.shape = found.expression.shape ∧
      found.expression.shape.text = "a(x\x7b1,3\x7d|[a-z](b+(?:c)|(d[^e\\-])))" ∧
      whole.diagnostics =
        (found.diagnostics.filter fun d => d.kind ≠ .unclosedSet ∧ d.kind ≠ .unclosedGroup) ∧
      whole.diagnostics = [⟨.unopenedGroup, ⟨1, 2⟩⟩, ⟨.unknownGroupHeader, ⟨3, 4⟩⟩,
        ⟨.reversedBounds, ⟨5, 10⟩⟩, ⟨.reversedRange, ⟨12, 15⟩⟩] := by
  intro text found kinds bracket parens whole
  have complete : trailingBackslashes text.toList % 2 = 0 := by decide +kernel
  have shallow : ∀ d ∈ found.diagnostics, d.kind ≠ .groupTooDeep := by decide +kernel
  have left : (found.diagnostics.filter fun d => d.kind ≠ .unclosedSet ∧ d.kind ≠ .unclosedGroup) =
      [⟨.unopenedGroup, ⟨1, 2⟩⟩, ⟨.unknownGroupHeader, ⟨3, 4⟩⟩, ⟨.reversedBounds, ⟨5, 10⟩⟩,
        ⟨.reversedRange, ⟨12, 15⟩⟩] := by decide +kernel
  obtain ⟨shape, diagnostics⟩ := parse_closed text true complete shallow
  exact ⟨complete, shallow, by decide +kernel, by decide +kernel, shape, by decide +kernel,
    diagnostics, diagnostics.trans left⟩

end Pattern

end PatternTree
