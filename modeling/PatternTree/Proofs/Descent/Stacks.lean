import PatternTree.Proofs.Descent.Ranges

/-!
The descent through the quantifiers after an item, against taking them one after another. Main
statement: an item keeps as many of them as it may, in the order of the text, and those past that
are reported together.
-/

namespace PatternTree

/-- A range of the grammar that is `width` characters wide begins at the cursor, and its counts are
reversed. -/
def Cursor.ReversedRange (c : Cursor) (width : Nat) : Prop :=
  ∃ rest m n, Grammar.Range c.kinds rest m n ∧ Grammar.countsReversed m n ∧
    width = c.kinds.length - rest.length

/-- A reversed amount is written as a range with reversed counts. -/
theorem Amount.reversed_derives {a : Amount} (legal : a.Legal) (reversed : a.reversed)
    (rest : List Lexeme) :
    ∃ m n, Grammar.Range ((a.lexemes ++ rest).map Lexeme.kind) (rest.map Lexeme.kind) m n ∧
      Grammar.countsReversed m n := by
  cases a with
  | between m n =>
    have range : Grammar.Range _ (rest.map Lexeme.kind) _ _ :=
      .between (Grammar.count_of_legal legal.1) (Grammar.count_of_legal legal.2)
    refine ⟨_, _, by simpa [lexemes, kinds_plainRow] using range, ?_⟩
    rw [Amount.reversed, decide_eq_true_iff, ← legal.1.toNat_ofNat, ← legal.2.toNat_ofNat,
      ← UInt32.lt_iff_toNat_lt] at reversed
    exact decide_eq_true reversed
  | _ => cases reversed

namespace Descent

-- ═══════════════════════════════════════════════════════════════
-- Quantifiers taken one after another
-- ═══════════════════════════════════════════════════════════════

/-- A quantifier that was taken: where it begins and ends, what it says, and what is reported of
it. -/
structure Taken where
  start : Nat
  stop : Nat
  quantifier : Quantifier
  reported : List Diagnostic

namespace Taken

/-- An item that begins at `start`, in quantifiers, the first of them innermost. -/
def stack (start : Nat) (item : Item) (qs : List Taken) : Item :=
  qs.foldl (fun i q => .quantified i q.quantifier ⟨start, q.stop⟩) item

/-- What is wrong with so many quantifiers, of which the last ends at `stop`. -/
def surplus (qs : List Taken) (stop : Nat) : List Diagnostic :=
  (qs[maxStacked]?).toList.map fun q => ⟨.tooManyQuantifiers, ⟨q.start, stop⟩⟩

/-- A quantifier reports its range if the counts of the range are reversed, and nothing else. -/
def Reports (p : Pattern) (q : Taken) : Prop :=
  (∀ width, (Cursor.mk p q.start).ReversedRange width →
    q.reported = [⟨.reversedBounds, ⟨q.start, q.start + width⟩⟩]) ∧
  ((¬∃ width, (Cursor.mk p q.start).ReversedRange width) → q.reported = [])

/-- Quantifiers that are written from `start` on. -/
def ofRow (start : Nat) : List Repetition → List Taken
  | [] => []
  | r :: rs =>
    ⟨start, start + r.width, r.quantifier, reversal start r.amount⟩ :: ofRow (start + r.width) rs

theorem ofRow_take (start n : Nat) (rs : List Repetition) :
    ofRow start (rs.take n) = (ofRow start rs).take n := by
  induction rs generalizing start n with
  | nil => simp [ofRow]
  | cons r rs ih =>
    cases n with
    | zero => rfl
    | succ n => simp [ofRow, ih]

theorem stack_ofRow (start : Nat) (item : Item) (stop : Nat) (rs : List Repetition) :
    stack start item (ofRow stop rs) = Repetition.wrapAll start item stop rs := by
  induction rs generalizing item stop with
  | nil => rfl
  | cons r rs ih => exact ih _ _

theorem start_getElem?_ofRow (start n : Nat) (rs : List Repetition) :
    (ofRow start rs)[n]?.map Taken.start =
      if n < rs.length then some (start + Repetition.rowWidth (rs.take n)) else none := by
  induction rs generalizing start n with
  | nil => simp [ofRow]
  | cons r rs ih =>
    cases n with
    | zero => simp [ofRow, Repetition.rowWidth]
    | succ n => simp [ofRow, ih, Repetition.rowWidth, Nat.add_assoc]

theorem reported_ofRow (start : Nat) (rs : List Repetition) :
    (ofRow start rs).flatMap Taken.reported = Repetition.reversals start rs := by
  induction rs generalizing start with
  | nil => rfl
  | cons r rs ih => exact congrArg (reversal start r.amount ++ ·) (ih _)

/-- Reversed ranges are reported before the surplus. -/
theorem diagnostics_ofRow (start : Nat) (rs : List Repetition) :
    Repetition.diagnostics start rs =
      (ofRow start rs).flatMap Taken.reported ++
        surplus (ofRow start rs) (start + Repetition.rowWidth rs) := by
  have first := start_getElem?_ofRow start maxStacked rs
  rw [Repetition.diagnostics, reported_ofRow, surplus]
  congr 1
  cases found : (ofRow start rs)[maxStacked]? with
  | none =>
    have few : ¬maxStacked < rs.length := by
      intro many
      simp [found, many] at first
    simp [few]
  | some q =>
    rw [found, Option.map_some] at first
    split at first
    next many =>
      rw [if_pos many, ← Option.some.inj first]
      rfl
    next => cases first

end Taken

/-- Taking quantifiers from a state until there is no more of them. -/
inductive Takes : State → List Taken → State → Prop
  | done {s s' : State} (none : quantifier.run s = .ok (none, s')) : Takes s [] s
  | next {s s' t : State} {q : Quantifier} {ds : List Diagnostic} {qs : List Taken}
    (found : quantifier.run s = .ok (some q, s')) (reported : s'.diagnostics = s.diagnostics ++ ds)
    (more : Takes s' qs t) : Takes s (⟨s.cursor.consumed, s'.cursor.consumed, q, ds⟩ :: qs) t

variable {s s' t t' : State} {q : Quantifier} {qs qs' : List Taken} {ds : List Diagnostic}
  {rs : List Repetition} {ls rest : List Lexeme}

theorem Takes.unique (takes : Takes s qs t) (takes' : Takes s qs' t') : qs = qs' ∧ t = t' := by
  induction takes generalizing qs' with
  | done none =>
    cases takes' with
    | done => exact ⟨rfl, rfl⟩
    | next found => cases none.symm.trans found
  | next found reported _ ih =>
    cases takes' with
    | done none => cases found.symm.trans none
    | next found' reported' more =>
      cases found.symm.trans found'
      obtain rfl := List.append_cancel_left (reported.symm.trans reported')
      obtain ⟨rfl, rfl⟩ := ih more
      exact ⟨rfl, rfl⟩

/-- The quantifiers that reading finds are taken. -/
theorem takes_row (row : Repetition.RowLegal rest rs)
    (here : s.At (rs.flatMap Repetition.lexemes ++ rest)) :
    Takes s (Taken.ofRow s.cursor.consumed rs)
      (s.past (Repetition.rowWidth rs) (Repetition.reversals s.cursor.consumed rs)) := by
  induction rs generalizing s with
  | nil =>
    have run := quantifier_run here
    rw [List.flatMap_nil, List.nil_append, show Repetition.read? rest = none from row] at run
    rw [Repetition.rowWidth, Repetition.reversals, State.past_zero]
    exact .done run
  | cons r rs ih =>
    obtain ⟨read, row⟩ := row.read?_cons
    have more := ih row (here.tail_row (reversal s.cursor.consumed r.amount))
    rw [State.past_past] at more
    exact .next (quantifier_found here read) rfl more

/-- What is reported of a quantifier is told by the range it is written as. -/
theorem reports_quantifier {r : Repetition} (here : s.At ls)
    (read : Repetition.read? ls = some (r, rest)) (stop : Nat) (q : Quantifier) :
    Taken.Reports s.cursor.pattern
      ⟨s.cursor.consumed, stop, q, reversal s.cursor.consumed r.amount⟩ := by
  have found := quantifier_found here read
  constructor
  -- A range that is ahead is the quantifier that was found, so the report is its own.
  · rintro width ⟨rest, m, n, range, reversed, rfl⟩
    obtain ⟨q', t, run, taken⟩ := quantifier_taken here range
    cases found.symm.trans run
    have reported := congrArg State.diagnostics taken.state
    rw [if_pos reversed] at reported
    exact List.append_cancel_left reported
  · intro inOrder
    apply if_neg
    intro reversed
    obtain ⟨rfl, legal, -⟩ := Repetition.read?_eq_some_iff.mp read
    rw [Repetition.lexemes, List.append_assoc] at here
    obtain ⟨m, n, range, reversed'⟩ := Amount.reversed_derives legal reversed _
    rw [← here.kinds_eq] at range
    exact inOrder ⟨_, _, m, n, range, reversed', rfl⟩

theorem reports_row (row : Repetition.RowLegal rest rs)
    (here : s.At (rs.flatMap Repetition.lexemes ++ rest)) :
    ∀ q ∈ Taken.ofRow s.cursor.consumed rs, q.Reports s.cursor.pattern := by
  induction rs generalizing s with
  | nil => simp [Taken.ofRow]
  | cons r rs ih =>
    obtain ⟨read, row⟩ := row.read?_cons
    have more := ih row (here.tail_row [])
    exact List.forall_mem_cons.mpr ⟨reports_quantifier here read _ _, more⟩

/-- The descent wraps an item in the quantifiers that are taken after it, as many as it keeps, and
stops after the last of them. The surplus is reported once, after the reversed ranges. -/
theorem quantified_stack (s : State) (item : Item)
    (inside : s.cursor.consumed ≤ s.cursor.pattern.length)
    (behind : item.span.start ≤ s.cursor.consumed) :
    (∃ qs t, Takes s qs t) ∧ ∀ qs t, Takes s qs t →
      (quantified item).run s =
        .ok (Taken.stack item.span.start item (qs.take maxStacked),
          t.past 0 (Taken.surplus qs t.cursor.consumed)) ∧
      t.cursor.pattern = s.cursor.pattern ∧ t.depth = s.depth ∧
      t.diagnostics = s.diagnostics ++ qs.flatMap Taken.reported ∧
      ∀ q ∈ qs, q.Reports s.cursor.pattern := by
  obtain ⟨ls, here⟩ : ∃ ls, s.At ls := ⟨_, inside, rfl⟩
  rw [← Repetition.lexemes_readAll ls] at here
  have row := Repetition.rowLegal_readAll ls
  have taken := takes_row row here
  refine ⟨⟨_, _, taken⟩, fun qs t takes => ?_⟩
  obtain ⟨rfl, rfl⟩ := takes.unique taken
  refine ⟨?_, rfl, rfl, ?_, reports_row row here⟩
  · rw [quantified_run row here behind, Repetition.wrap, ← Taken.stack_ofRow, Taken.ofRow_take,
      Taken.diagnostics_ofRow, Taken.reported_ofRow, State.past_past]
    rfl
  · rw [Taken.reported_ofRow]
    rfl

/-- The law for nineteen quantifiers in front of a brace. The item keeps the star, the reversed
bounds and fourteen of the pluses; what is left of the pluses and the reversed bounds after them is
surplus, and those bounds are reported nevertheless. -/
theorem quantified_stack_surplus :
    let s : State :=
      ⟨⟨.ofText "ab*\x7b3,1\x7d?++++++++++++++++\x7b9,0\x7d\x7b" true, 2⟩, [], 0⟩
    let item : Item := .character ⟨.literal 'b', ⟨1, 2⟩⟩
    let starred : Item := .quantified item ⟨0, none, false⟩ ⟨1, 3⟩
    let bounded : Item := .quantified starred ⟨1, some 3, true⟩ ⟨1, 9⟩
    let kept : Item :=
      (List.range 14).foldl (fun i k => .quantified i ⟨1, none, false⟩ ⟨1, 10 + k⟩) bounded
    let reversed : List Diagnostic := [⟨.reversedBounds, ⟨3, 8⟩⟩, ⟨.reversedBounds, ⟨25, 30⟩⟩]
    s.cursor.consumed ≤ s.cursor.pattern.length ∧ item.span.start ≤ s.cursor.consumed ∧
      ∃ qs t, Takes s qs t ∧ qs.length = 19 ∧ t = s.past 28 reversed ∧
        Taken.stack 1 item (qs.take maxStacked) = kept ∧
        Taken.surplus qs t.cursor.consumed = [⟨.tooManyQuantifiers, ⟨23, 30⟩⟩] ∧
        qs.flatMap Taken.reported = reversed ∧
        (quantified item).run s = .ok (kept, t.past 0 [⟨.tooManyQuantifiers, ⟨23, 30⟩⟩]) ∧
        ∀ q ∈ qs, q.Reports s.cursor.pattern := by
  intro s item starred bounded kept reversed
  have inside : s.cursor.consumed ≤ s.cursor.pattern.length := by decide +kernel
  have behind : item.span.start ≤ s.cursor.consumed := by decide
  let rs : List Repetition := ⟨.zeroOrMore, false⟩ :: ⟨.between ['3'] ['1'], true⟩ ::
    (List.replicate 16 ⟨.oneOrMore, false⟩ ++ [⟨.between ['9'] ['0'], false⟩])
  have row := Repetition.rowLegal_readAll (Lexeme.scan (s.cursor.pattern.chars.toList.drop 2))
  have read : Repetition.readAll (Lexeme.scan (s.cursor.pattern.chars.toList.drop 2)) =
      (rs, [.mark .openBrace]) := by decide +kernel
  rw [read] at row
  have here : s.At (rs.flatMap Repetition.lexemes ++ [.mark .openBrace]) :=
    ⟨inside, by decide +kernel⟩
  have takes := takes_row row here
  have width : Repetition.rowWidth rs = 28 := by decide
  have reversals : Repetition.reversals s.cursor.consumed rs = reversed := by decide +kernel
  rw [width, reversals] at takes
  have stack : Taken.stack 1 item ((Taken.ofRow 2 rs).take maxStacked) = kept := rfl
  have surplus : Taken.surplus (Taken.ofRow 2 rs) 30 = [⟨.tooManyQuantifiers, ⟨23, 30⟩⟩] := by
    decide +kernel
  obtain ⟨run, -, -, diagnostics, reports⟩ := (quantified_stack s item inside behind).2 _ _ takes
  have wrapped : (quantified item).run s = .ok (Taken.stack 1 item
      ((Taken.ofRow 2 rs).take maxStacked), (s.past 28 reversed).past 0
        (Taken.surplus (Taken.ofRow 2 rs) 30)) := run
  rw [stack, surplus] at wrapped
  exact ⟨inside, behind, _, _, takes, rfl, rfl, stack, surplus, diagnostics.symm, wrapped, reports⟩

end Descent

end PatternTree
