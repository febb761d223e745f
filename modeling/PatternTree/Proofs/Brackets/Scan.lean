import PatternTree.Proofs.Legality.Tokens

/-!
A scan for brackets: one pass over the tokens of a pattern, with a stack of the parentheses that
are open and a mark where a set is open. It knows no phrases and no greatest depth. Main statements:
what the scan of a text adds to the scan of the text before it, and that a group that is skipped
ends where its parenthesis is popped.
-/

namespace PatternTree

/-- A parenthesis that was opened, up to the end of the one that closes it or to the end of the
text. `around` is how many others were open when it was met. -/
structure Enclosure where
  span : Span
  around : Nat
deriving DecidableEq

/-- What a scan has met. -/
structure BracketScan where
  /-- Where the open parentheses stand, the innermost first. -/
  opened : List Nat
  /-- Where the open set begins. -/
  set : Option Nat
  /-- The closing parentheses that close nothing. -/
  stray : List Span
  /-- The parentheses that were closed, in the order of closing. -/
  closed : List Enclosure
deriving DecidableEq

/-- What parentheses with `around` others outside them enclose if the text ends at `stop`. -/
def Enclosure.pending (stop around : Nat) : List Nat → List Enclosure
  | [] => []
  | start :: outer => ⟨⟨start, stop⟩, around + outer.length⟩ :: pending stop around outer

namespace BracketScan

def empty : BracketScan := ⟨[], none, [], []⟩

/-- Inside a set only the bracket that closes it counts. -/
def step (s : BracketScan) (t : Token) : BracketScan :=
  match s.set, t.kind with
  | some _, .mark .closeBracket => { s with set := none }
  | some _, _ => s
  | none, .mark .openBracket => { s with set := some t.span.start }
  | none, .mark .openParen => { s with opened := t.span.start :: s.opened }
  | none, .mark .closeParen =>
    match s.opened with
    | [] => { s with stray := s.stray ++ [t.span] }
    | start :: outer =>
      { s with opened := outer, closed := s.closed ++ [⟨⟨start, t.span.stop⟩, outer.length⟩] }
  | none, _ => s

def run (s : BracketScan) (ts : List Token) : BracketScan := ts.foldl step s

/-- All parentheses that were opened, those still open with the end of the text as their end. -/
def enclosures (stop around : Nat) (s : BracketScan) : List Enclosure :=
  s.closed ++ Enclosure.pending stop around s.opened

@[simp] theorem run_nil (s : BracketScan) : s.run [] = s := rfl

@[simp] theorem run_cons (s : BracketScan) (t : Token) (ts : List Token) :
    s.run (t :: ts) = (s.step t).run ts := rfl

@[simp] theorem run_append (s : BracketScan) (ts us : List Token) :
    s.run (ts ++ us) = (s.run ts).run us := List.foldl_append

end BracketScan

def Pattern.bracketScan (p : Pattern) : BracketScan := BracketScan.empty.run p.tokens

/-- The first closing parenthesis stands in a set, the last one closes nothing. -/
example : (Pattern.ofText "(a[)])b)(" true).bracketScan =
    ⟨[8], none, [⟨7, 8⟩], [⟨⟨0, 6⟩, 0⟩]⟩ := by decide +kernel

namespace Enclosure

theorem pending_append (stop around : Nat) (inner outer : List Nat) :
    pending stop around (inner ++ outer) =
      pending stop (around + outer.length) inner ++ pending stop around outer := by
  induction inner with
  | nil => rfl
  | cons start inner ih => simp [pending, ih, Nat.add_assoc, Nat.add_comm outer.length]

theorem around_le_of_mem_pending (stop around : Nat) (opened : List Nat) :
    ∀ x ∈ pending stop around opened, around ≤ x.around := by
  induction opened with
  | nil => simp [pending]
  | cons start outer ih => simpa [pending] using ih

end Enclosure

-- ═══════════════════════════════════════════════════════════════
-- One step
-- ═══════════════════════════════════════════════════════════════

/-- Whether a lexeme counts outside sets. -/
def Lexeme.isBracket : Lexeme → Bool
  | mark .openBracket | mark .openParen | mark .closeParen => true
  | _ => false

namespace BracketScan

theorem step_inside {s : BracketScan} {start : Nat} (inside : s.set = some start) {l : Lexeme}
    (other : l ≠ .mark .closeBracket) (span : Span) : s.step ⟨l.kind, span⟩ = s := by
  have kind : l.kind ≠ .mark .closeBracket := mt Lexeme.kind_eq_mark.mp other
  simp only [step, inside]

theorem step_outside {s : BracketScan} (outside : s.set = none) {l : Lexeme}
    (other : ¬l.isBracket) (span : Span) : s.step ⟨l.kind, span⟩ = s := by
  have kind {m : Mark} (bracket : Lexeme.isBracket (.mark m)) : l.kind ≠ .mark m := by
    rintro same
    rw [Lexeme.kind_eq_mark.mp same] at other
    exact other bracket
  have set := kind (m := .openBracket) rfl
  have opening := kind (m := .openParen) rfl
  have closing := kind (m := .closeParen) rfl
  simp only [step, outside]

/-- Inside a set nothing counts before the bracket that closes it. -/
theorem run_inside {s : BracketScan} {at' : Nat} (inside : s.set = some at') {ls : List Lexeme}
    (unclosed : .mark .closeBracket ∉ ls) (start : Nat) : s.run (Lexeme.tokens start ls) = s := by
  induction ls generalizing start with
  | nil => rfl
  | cons l ls ih =>
    obtain ⟨other, unclosed⟩ := List.ne_and_not_mem_of_not_mem_cons unclosed
    rw [Lexeme.tokens, run_cons, step_inside inside other.symm, ih unclosed]

theorem run_outside {s : BracketScan} (outside : s.set = none) {ls : List Lexeme}
    (others : ∀ l ∈ ls, ¬l.isBracket) (start : Nat) : s.run (Lexeme.tokens start ls) = s := by
  induction ls generalizing start with
  | nil => rfl
  | cons l ls ih =>
    obtain ⟨other, others⟩ := List.forall_mem_cons.mp others
    rw [Lexeme.tokens, run_cons, step_outside outside other, ih others]

-- ═══════════════════════════════════════════════════════════════
-- What a text adds
-- ═══════════════════════════════════════════════════════════════

/-- A scan that goes on with a further text, of which `e` is the scan. -/
def join (s e : BracketScan) : BracketScan :=
  ⟨e.opened ++ s.opened, e.set, s.stray ++ e.stray, s.closed ++ e.closed⟩

/-- Outside sets and inside `around` parentheses the tokens add `e` to a scan. -/
def Adds (around : Nat) (ts : List Token) (e : BracketScan) : Prop :=
  ∀ s : BracketScan, s.set = none → s.opened.length = around → s.run ts = s.join e

/-- Nothing is left open. -/
def Settled (e : BracketScan) : Prop := e.opened = [] ∧ e.set = none

theorem settled_empty : empty.Settled := ⟨rfl, rfl⟩

theorem Adds.append {around : Nat} {ts us : List Token} {e f : BracketScan}
    (first : Adds around ts e) (settled : e.Settled) (second : Adds around us f) :
    Adds around (ts ++ us) (e.join f) := by
  intro s outside depth
  have set : (s.join e).set = none := settled.2
  have opened : (s.join e).opened.length = around := by simp [join, settled.1, depth]
  rw [run_append, first s outside depth, second _ set opened]
  simp [join, settled.1]

/-- Lexemes that are no brackets add nothing. -/
theorem adds_outside (around : Nat) {ls : List Lexeme} (others : ∀ l ∈ ls, ¬l.isBracket)
    (start : Nat) : Adds around (Lexeme.tokens start ls) empty := by
  intro s outside _
  rw [run_outside outside others]
  simp [join, empty, ← outside]

-- ═══════════════════════════════════════════════════════════════
-- Groups that are skipped
-- ═══════════════════════════════════════════════════════════════

/-- A parenthesis that opens at `start`. -/
def push (s : BracketScan) (start : Nat) : BracketScan := { s with opened := start :: s.opened }

/-- What is met after a parenthesis with `around` others outside it, as long as that one is open:
nothing is stray, and all that is closed is nested deeper. -/
structure Inner (around : Nat) (e : BracketScan) : Prop where
  stray : e.stray = []
  deeper : ∀ x ∈ e.closed, around < x.around

theorem inner_empty (around : Nat) : empty.Inner around := ⟨rfl, nofun⟩

/-- Skipping a group goes on as long as its own parenthesis stays on the stack. -/
theorem step_skip {around : Nat} {e : BracketScan} (inner : e.Inner around) (l : Lexeme)
    (span : Span) (ls : List Lexeme) :
    (e.opened = [] ∧ e.set = none ∧ l = .mark .closeParen) ∨
      ∃ e' : BracketScan, e'.Inner around ∧
        afterGroup e.opened.length e.set.isSome (l :: ls) =
          afterGroup e'.opened.length e'.set.isSome ls ∧
        ∀ (s : BracketScan) (own : Nat), s.opened.length = around →
          ((s.push own).join e).step ⟨l.kind, span⟩ = (s.push own).join e' := by
  obtain ⟨opened, set, stray, closed⟩ := e
  cases set with
  | some start =>
    right
    by_cases closing : l = .mark .closeBracket
    · subst closing
      exact ⟨⟨opened, none, stray, closed⟩, ⟨inner.stray, inner.deeper⟩, by simp [afterGroup],
        by simp [step, join]⟩
    · exact ⟨_, inner, by simp [afterGroup, closing], fun s own _ => step_inside rfl closing span⟩
  | none =>
    by_cases bracket : l.isBracket
    · rw [Lexeme.isBracket.eq_def] at bracket
      split at bracket
      · right
        exact ⟨⟨opened, some span.start, stray, closed⟩, ⟨inner.stray, inner.deeper⟩,
          by simp [afterGroup], by simp [step, join]⟩
      · right
        exact ⟨⟨span.start :: opened, none, stray, closed⟩, ⟨inner.stray, inner.deeper⟩,
          by simp [afterGroup], by simp [step, join]⟩
      · cases opened with
        | nil => exact Or.inl ⟨rfl, rfl, rfl⟩
        | cons first outer =>
          right
          refine ⟨⟨outer, none, stray,
            closed ++ [⟨⟨first, span.stop⟩, outer.length + (around + 1)⟩]⟩,
            ⟨inner.stray, List.forall_mem_append.mpr ⟨inner.deeper, ?_⟩⟩,
            by simp [afterGroup], fun s own depth => by simp [step, join, push, depth]⟩
          simp only [List.mem_singleton, forall_eq]
          omega
      · cases bracket
    · right
      have goesOn : afterGroup opened.length false (l :: ls) =
          afterGroup opened.length false ls := by
        rw [afterGroup, if_neg Bool.false_ne_true]
        all_goals
          rintro rfl
          exact bracket rfl
      exact ⟨_, inner, goesOn, fun s own _ => step_outside rfl bracket span⟩

/-- A group that is skipped ends where its parenthesis is popped, or else with the text. -/
theorem run_skip {around : Nat} {e : BracketScan} (inner : e.Inner around) {ls rest : List Lexeme}
    (after : afterGroup e.opened.length e.set.isSome (ls ++ rest) = rest) (start : Nat) :
    ∃ e' : BracketScan, e'.Inner around ∧
      ((∀ (s : BracketScan) (own : Nat), s.opened.length = around →
          ((s.push own).join e).run (Lexeme.tokens start ls) =
            s.join ⟨[], none, [], e'.closed ++ [⟨⟨own, start + textWidth ls⟩, around⟩]⟩) ∨
        rest = [] ∧ ∀ (s : BracketScan) (own : Nat), s.opened.length = around →
          ((s.push own).join e).run (Lexeme.tokens start ls) = (s.push own).join e') := by
  induction ls generalizing e start with
  | nil =>
    -- Skipping takes something as long as there is something.
    have ended : rest = [] := by
      refine Decidable.byContradiction fun more => ?_
      have shorter := length_afterGroup_lt e.opened.length e.set.isSome more
      rw [show afterGroup e.opened.length e.set.isSome rest = rest from after] at shorter
      exact Nat.lt_irrefl _ shorter
    exact ⟨e, inner, Or.inr ⟨ended, fun s own _ => rfl⟩⟩
  | cons l ls ih =>
    rcases step_skip inner l ⟨start, start + l.width⟩ (ls ++ rest) with
      ⟨opened, set, rfl⟩ | ⟨e', inner', goesOn, steps⟩
    · obtain rfl : ls = [] := by simpa [afterGroup, opened, set] using after
      refine ⟨e, inner, Or.inl fun s own depth => ?_⟩
      simp [Lexeme.tokens, step, join, push, opened, set, inner.stray, depth]
    · obtain ⟨last, inner'', ended⟩ := ih inner' (goesOn.symm.trans after) (start + l.width)
      refine ⟨last, inner'', ended.imp (fun closes s own depth => ?_) fun stays =>
        ⟨stays.1, fun s own depth => ?_⟩⟩
      · rw [Lexeme.tokens, run_cons, steps s own depth, closes s own depth, textWidth_cons,
          Nat.add_assoc]
      · rw [Lexeme.tokens, run_cons, steps s own depth, stays.2 s own depth]

end BracketScan

end PatternTree
