import PatternTree.Descent
import PatternTree.Proofs.Grammar.Tokens

/-!
Steps of the descent where the lexemes from the cursor on are known: what each step answers, and how
far it moves the cursor. Later proofs know a step only by these equations.
-/

namespace PatternTree

namespace Lexeme

/-- The kind of the token that lexemes begin with. -/
def firstKind : List Lexeme → Token.Kind
  | [] => .finish
  | l :: _ => l.kind

/-- The width of the token that lexemes begin with. -/
def firstWidth : List Lexeme → Nat
  | [] => 0
  | l :: _ => l.width

/-- The token that lexemes written from `start` on begin with. -/
def first (start : Nat) (ls : List Lexeme) : Token := ⟨firstKind ls, ⟨start, start + firstWidth ls⟩⟩

section

variable {start : Nat} {ls : List Lexeme}

theorem kind_first_eq_finish : (first start ls).kind = .finish ↔ ls = [] := by
  cases ls with
  | nil => simp [first, firstKind]
  | cons l ls => simp [first, firstKind, kind_ne_finish]

theorem kind_first_eq_mark {m : Mark} :
    (first start ls).kind = .mark m ↔ ls.head? = some (.mark m) := by
  cases ls with
  | nil => simp [first, firstKind]
  | cons l ls => simp [first, firstKind, kind_eq_mark]

/-- Only a control character has two spellings with the same token. -/
theorem kind_first_eq_bare {c : Char} (plain : Control.letter? c = none) :
    (first start ls).kind = .character c false ↔ ls.head? = some (.plain c) := by
  cases ls with
  | nil => simp [first, firstKind]
  | cons l ls => simp [first, firstKind, kind_eq_bare plain]

theorem isBare_kind_first {c : Char} (plain : Control.letter? c = none) :
    (first start ls).kind.isBare c ↔ ls.head? = some (.plain c) :=
  beq_iff_eq.trans (kind_first_eq_bare plain)

theorem not_isBare_kind_first {c : Char} (plain : Control.letter? c = none)
    (other : ls.head? ≠ some (.plain c)) : ¬(first start ls).kind.isBare c :=
  mt (isBare_kind_first plain).mp other

end

end Lexeme

theorem Pattern.tokenAt_eq_first {p : Pattern} {position : Nat} {ls : List Lexeme}
    (here : ReadAt p.chars.toList position ls) : p.tokenAt position = Lexeme.first position ls := by
  cases ls with
  | nil =>
    have length : p.length = position := p.length_eq_of_readAt here
    rw [tokenAt_nil here, length]
    rfl
  | cons l ls => exact tokenAt_cons here

namespace Descent

-- ═══════════════════════════════════════════════════════════════
-- States
-- ═══════════════════════════════════════════════════════════════

namespace State

/-- So many characters further on, with more diagnostics. -/
def past (s : State) (width : Nat) (ds : List Diagnostic) : State :=
  ⟨⟨s.cursor.pattern, s.cursor.consumed + width⟩, s.diagnostics ++ ds, s.depth⟩

@[simp] theorem past_zero (s : State) : s.past 0 [] = s := by simp [past]

@[simp] theorem past_past (s : State) (width more : Nat) (ds es : List Diagnostic) :
    (s.past width ds).past more es = s.past (width + more) (ds ++ es) := by
  simp [past, Nat.add_assoc]

theorem past_past_nil (s : State) (width more : Nat) :
    (s.past width []).past more [] = s.past (width + more) [] := past_past s width more [] []

@[simp] theorem pattern_past (s : State) (width : Nat) (ds : List Diagnostic) :
    (s.past width ds).cursor.pattern = s.cursor.pattern := rfl

@[simp] theorem consumed_past (s : State) (width : Nat) (ds : List Diagnostic) :
    (s.past width ds).cursor.consumed = s.cursor.consumed + width := rfl

@[simp] theorem depth_past (s : State) (width : Nat) (ds : List Diagnostic) :
    (s.past width ds).depth = s.depth := rfl

/-- The lexemes are those from the cursor on. -/
def At (s : State) (ls : List Lexeme) : Prop :=
  ReadAt s.cursor.pattern.chars.toList s.cursor.consumed ls

variable {s : State} {l : Lexeme} {ls rest : List Lexeme}

/-- Where the current token is a mark, the lexemes from the cursor on begin with it. -/
theorem exists_at_mark {m : Mark} (here : s.cursor.current.kind = .mark m) :
    ∃ ls, s.At (.mark m :: ls) := by
  have inside : s.cursor.consumed ≤ s.cursor.pattern.length := by
    refine Decidable.byContradiction fun past => ?_
    have none : s.cursor.pattern.lexemeAt? s.cursor.consumed = none := by
      simpa [Pattern.lexemeAt?, Pattern.length] using Nat.le_of_not_le past
    simp [Cursor.current, Pattern.tokenAt, none] at here
  have start : s.At _ := ⟨inside, rfl⟩
  rw [Cursor.current, Pattern.tokenAt_eq_first start, Lexeme.kind_first_eq_mark] at here
  obtain ⟨ls, begins⟩ := List.head?_eq_some_iff.mp here
  exact ⟨ls, begins ▸ start⟩

theorem At.past {width : Nat} (here : s.At (ls ++ rest)) (wide : textWidth ls = width)
    (ds : List Diagnostic) : (s.past width ds).At rest :=
  wide ▸ here.skip

theorem At.tail (here : s.At (l :: ls)) (ds : List Diagnostic) : (s.past l.width ds).At ls :=
  ReadAt.tail here

/-- The lexemes that are left tell how far on a state is. -/
theorem At.width_eq {width other : Nat} {ds es : List Diagnostic} (here : (s.past width ds).At rest)
    (there : (s.past other es).At rest) : width = other := by
  have length := here.length_eq
  have length' := there.length_eq
  simp only [pattern_past, consumed_past] at length length'
  omega

/-- Further on, less is left. -/
theorem At.remaining_lt {width : Nat} {ds : List Diagnostic} (next : (s.past width ds).At ls)
    (positive : 0 < width) : (s.past width ds).remaining < s.remaining := by
  have inside : s.cursor.consumed + width ≤ s.cursor.pattern.length := next.inside
  simp only [remaining, pattern_past, consumed_past]
  omega

end State

-- ═══════════════════════════════════════════════════════════════
-- Single steps
-- ═══════════════════════════════════════════════════════════════

section

variable {α β σ : Type} {s s' : State} {l : Lexeme} {ls rest : List Lexeme}

theorem run_bind_ok {x : Descent α} {a : α} (step : x.run s = .ok (a, s')) (f : α → Descent β) :
    (x >>= f).run s = (f a).run s' := by
  rw [StateT.run_bind, step]
  rfl

@[simp] theorem pure_eq_ok (a : α) : (pure a : Except Fault α) = .ok a := rfl

theorem checked_check {span : Span} (ordered : span.Ordered) (s : State) :
    (checked span.check).run s = .ok (span, s) := by
  rw [Span.check, if_pos ordered]
  rfl

/-- One of two spans in order is enough for their cover to be in order. -/
theorem cover_run {span other : Span} (ordered : span.Ordered) (s : State) :
    (checked (span.cover other)).run s = .ok (span.hull other, s) := by
  have within : (span.hull other).Ordered := by
    simp only [Span.Ordered, Span.hull] at ordered ⊢
    omega
  exact checked_check within s

theorem tokenAt_run {position : Nat} (here : ReadAt s.cursor.pattern.chars.toList position ls) :
    (tokenAt position).run s = .ok (Lexeme.first position ls, s) := by
  have ordered : (Lexeme.first position ls).span.Ordered := Nat.le_add_right _ _
  rw [tokenAt, run_bind_ok rfl, Pattern.tokenAt_eq_first here,
    run_bind_ok (checked_check ordered s)]
  rfl

theorem current_run (here : s.At ls) :
    current.run s = .ok (Lexeme.first s.cursor.consumed ls, s) := by
  rw [current, run_bind_ok rfl, tokenAt_run here]

theorem after_run {position : Nat}
    (here : ReadAt s.cursor.pattern.chars.toList position (l :: ls)) :
    (after (Lexeme.first position (l :: ls))).run s =
      .ok (Lexeme.first (position + l.width) ls, s) :=
  tokenAt_run here.tail

theorem position_run (here : s.At ls) : position.run s = .ok (s.cursor.consumed, s) := by
  rw [position, run_bind_ok (current_run here)]
  rfl

theorem atEnd_run (here : s.At []) : atEnd.run s = .ok (true, s) := by
  rw [atEnd, run_bind_ok (current_run here)]
  rfl

theorem advance_cons (here : s.At (l :: ls)) :
    advance.run s = .ok (Lexeme.first s.cursor.consumed (l :: ls), s.past l.width []) := by
  have token : s.cursor.current = Lexeme.first s.cursor.consumed (l :: ls) :=
    Pattern.tokenAt_eq_first here
  have inside : ¬s.cursor.atEnd := by
    simpa [Cursor.atEnd, token] using mt Lexeme.kind_first_eq_finish.mp (List.cons_ne_nil l ls)
  have moved : { s with cursor := s.cursor.advance } = s.past l.width [] := by
    rw [Cursor.advance, if_neg inside, token]
    simp [State.past, Lexeme.first, Lexeme.firstWidth]
  rw [advance, run_bind_ok (current_run here), ← moved]
  rfl

theorem advance_nil (here : s.At []) :
    advance.run s = .ok (Lexeme.first s.cursor.consumed [], s) := by
  have token : s.cursor.current = Lexeme.first s.cursor.consumed [] :=
    Pattern.tokenAt_eq_first here
  have ended : s.cursor.atEnd := by
    simpa [Cursor.atEnd, token] using Lexeme.kind_first_eq_finish.mpr rfl
  have stays : { s with cursor := s.cursor.advance } = s := by
    rw [Cursor.advance, if_pos ended]
  rw [advance, run_bind_ok (current_run here)]
  exact congrArg (fun s' => Except.ok (Lexeme.first s.cursor.consumed [], s')) stays

theorem eat_mark {m : Mark} (here : s.At (.mark m :: ls)) :
    (eat (.mark m)).run s = .ok (true, s.past 1 []) := by
  rw [eat, run_bind_ok (current_run here), if_pos (Lexeme.kind_first_eq_mark.mpr rfl),
    run_bind_ok (advance_cons here)]
  rfl

theorem eat_other {m : Mark} (here : s.At ls) (other : ls.head? ≠ some (.mark m)) :
    (eat (.mark m)).run s = .ok (false, s) := by
  rw [eat, run_bind_ok (current_run here), if_neg (mt Lexeme.kind_first_eq_mark.mp other)]
  rfl

theorem eatChar_plain {c : Char} (plain : Control.letter? c = none) (here : s.At (.plain c :: ls)) :
    (eatChar c).run s = .ok (true, s.past 1 []) := by
  rw [eatChar, run_bind_ok (current_run here), if_pos ((Lexeme.isBare_kind_first plain).mpr rfl),
    run_bind_ok (advance_cons here)]
  rfl

theorem eatChar_other {c : Char} (plain : Control.letter? c = none) (here : s.At ls)
    (other : ls.head? ≠ some (.plain c)) : (eatChar c).run s = .ok (false, s) := by
  rw [eatChar, run_bind_ok (current_run here),
    if_neg (Lexeme.not_isBare_kind_first plain other)]
  rfl

theorem advanceBy_run (here : s.At (ls ++ rest)) :
    (advanceBy ls.length).run s = .ok ((), s.past (textWidth ls) []) := by
  induction ls generalizing s with
  | nil =>
    rw [textWidth_nil, State.past_zero]
    rfl
  | cons l ls ih =>
    rw [List.length_cons, advanceBy, run_bind_ok (advance_cons here), ih (here.tail [])]
    simp

theorem spanFrom_run {start : Nat} (le : start ≤ s.cursor.consumed) :
    (spanFrom start).run s = .ok (⟨start, s.cursor.consumed⟩, s) := by
  have span : s.cursor.spanFrom start = ⟨start, s.cursor.consumed⟩ := by
    rw [Cursor.spanFrom, Nat.max_eq_left le]
  have ordered : Span.Ordered ⟨start, s.cursor.consumed⟩ := le
  rw [spanFrom, run_bind_ok rfl, span, checked_check ordered]

theorem report_run (kind : Diagnostic.Kind) (span : Span) (s : State) :
    (report kind span).run s = .ok ((), s.past 0 [⟨kind, span⟩]) := rfl

-- ═══════════════════════════════════════════════════════════════
-- Loops
-- ═══════════════════════════════════════════════════════════════

theorem loop_answer {left : σ → State → Nat} {round : σ → Descent (σ ⊕ β)} {x : σ} {answer : β}
    (ends : (round x).run s = .ok (.inr answer, s')) :
    (loop left round x).run s = .ok (answer, s') := by
  have ends' : round x s = .ok (.inr answer, s') := ends
  rw [StateT.run, loop, ends']

theorem loop_next {left : σ → State → Nat} {round : σ → Descent (σ ⊕ β)} {x x' : σ}
    (goesOn : (round x).run s = .ok (.inl x', s')) (less : left x' s' < left x s) :
    (loop left round x).run s = (loop left round x').run s' := by
  have goesOn' : round x s = .ok (.inl x', s') := goesOn
  rw [StateT.run, loop, goesOn']
  simp only
  rw [if_pos less]
  rfl

theorem consuming_answer {round : σ → Descent (σ ⊕ β)} {x : σ} {answer : β}
    (ends : (round x).run s = .ok (.inr answer, s')) :
    (consuming round x).run s = .ok (answer, s') := loop_answer ends

theorem consuming_next {round : σ → Descent (σ ⊕ β)} {x x' : σ} {width : Nat}
    {ds : List Diagnostic} (next : (s.past width ds).At rest)
    (goesOn : (round x).run s = .ok (.inl x', s.past width ds)) (positive : 0 < width) :
    (consuming round x).run s = (consuming round x').run (s.past width ds) :=
  loop_next goesOn (next.remaining_lt positive)

end

end Descent

end PatternTree
