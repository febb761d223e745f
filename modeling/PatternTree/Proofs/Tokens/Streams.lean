import Mathlib.Logic.Function.Iterate
import PatternTree.Proofs.Descent.Steps
import PatternTree.TokenStream

/-!
Streams of tokens in use. Main statement: after any moves the stream is at a boundary of the walk
over the pattern, the token it keeps is the one there, and going back to a snapshot undoes all that
came after it.
-/

namespace PatternTree

namespace Pattern

variable {p : Pattern} {place : Nat}

/-- A token of the walk over the pattern starts here, or the pattern ends. -/
def Boundary (p : Pattern) (place : Nat) : Prop := ∃ t ∈ p.tokens, t.span.start = place

theorem start_tokenAt (inside : place ≤ p.length) : (p.tokenAt place).span.start = place := by
  rw [tokenAt_eq_first ⟨inside, rfl⟩]
  rfl

theorem stop_tokenAt_le (inside : place ≤ p.length) : (p.tokenAt place).span.stop ≤ p.length := by
  have here : ReadAt p.chars.toList place _ := ⟨inside, rfl⟩
  generalize Lexeme.scan _ = ls at here
  rw [tokenAt_eq_first here]
  cases ls with
  | nil => exact inside
  | cons l ls => exact here.tail.inside

theorem tokenAt_of_finish (ended : (p.tokenAt place).kind = .finish) :
    p.tokenAt place = ⟨.finish, .empty p.length⟩ := by
  unfold tokenAt at ended ⊢
  split
  next l found =>
    rw [found] at ended
    exact absurd ended l.kind_ne_finish
  · rfl

theorem tokensFrom_eq_cons (p : Pattern) (place : Nat) :
    ∃ more, p.tokensFrom place = p.tokenAt place :: more := by
  rw [tokensFrom]
  split <;> exact ⟨_, rfl⟩

theorem boundary_tokenAt (inside : place ≤ p.length) :
    ∃ t ∈ p.tokensFrom place, t.span.start = place := by
  obtain ⟨more, walk⟩ := p.tokensFrom_eq_cons place
  exact ⟨p.tokenAt place, walk ▸ List.mem_cons_self, start_tokenAt inside⟩

/-- A token of the walk is the one at its start, and where it ends another one starts. -/
theorem restarts {start : Nat} (inside : start ≤ p.length) {t : Token}
    (member : t ∈ p.tokensFrom start) : t.span.start ≤ p.length ∧ p.tokenAt t.span.start = t ∧
      ∃ u ∈ p.tokensFrom start, u.span.start = t.span.stop := by
  -- Along the walk; it stays inside the pattern, so the token past the end starts at the length.
  fun_induction p.tokensFrom start with
  | case1 start before ih =>
    have within := stop_tokenAt_le inside
    rcases List.mem_cons.mp member with rfl | later
    · obtain ⟨u, member, starts⟩ := boundary_tokenAt within
      rw [start_tokenAt inside]
      exact ⟨inside, rfl, u, List.mem_cons_of_mem _ member, starts⟩
    · obtain ⟨bound, token, u, member, starts⟩ := ih within later
      exact ⟨bound, token, u, List.mem_cons_of_mem _ member, starts⟩
  | case2 start past =>
    obtain rfl := List.mem_singleton.mp member
    obtain rfl : start = p.length := by omega
    rw [p.tokenAt_length]
    exact ⟨Nat.le_refl _, p.tokenAt_length, _, List.mem_singleton_self _, rfl⟩

theorem boundary_zero (p : Pattern) : p.Boundary 0 := boundary_tokenAt (Nat.zero_le _)

theorem Boundary.le (boundary : p.Boundary place) : place ≤ p.length := by
  obtain ⟨t, member, rfl⟩ := boundary
  exact (restarts (Nat.zero_le _) member).1

theorem Boundary.stop (boundary : p.Boundary place) : p.Boundary (p.tokenAt place).span.stop := by
  obtain ⟨t, member, rfl⟩ := boundary
  obtain ⟨-, token, next⟩ := restarts (Nat.zero_le _) member
  rwa [token]

end Pattern

namespace Cursor

/-- The token that is current after a step is the one that was to be seen ahead. At the end both
are the current one. -/
theorem current_advance (c : Cursor) : c.advance.current = c.after c.current.span := by
  unfold advance
  split
  next ended =>
    have token : c.current = ⟨.finish, .empty c.pattern.length⟩ :=
      Pattern.tokenAt_of_finish (beq_iff_eq.mp ended)
    rw [token, after]
    exact c.pattern.tokenAt_length.symm
  · rfl

@[simp] theorem pattern_advance (c : Cursor) : c.advance.pattern = c.pattern := by
  unfold advance
  split <;> rfl

theorem pattern_iterate_advance (c : Cursor) (n : Nat) : (advance^[n] c).pattern = c.pattern := by
  induction n with
  | zero => rfl
  | succ n ih => rw [Function.iterate_succ_apply', pattern_advance, ih]

/-- Looking ahead finds what steps would lead to. -/
theorem peek_eq (c : Cursor) (n : Nat) : c.peek n = (advance^[n] c).current := by
  induction n with
  | zero => rfl
  | succ n ih =>
    rw [peek, ih, Function.iterate_succ_apply', current_advance, after, after,
      pattern_iterate_advance]

/-- The cursor has come to a boundary of the pattern. -/
structure Walked (p : Pattern) (c : Cursor) : Prop where
  pattern : c.pattern = p
  boundary : p.Boundary c.consumed

theorem Walked.advance {p : Pattern} {c : Cursor} (walked : c.Walked p) : c.advance.Walked p := by
  refine ⟨c.pattern_advance.trans walked.pattern, ?_⟩
  unfold Cursor.advance
  split
  · exact walked.boundary
  · obtain ⟨rfl, boundary⟩ := walked
    exact boundary.stop

/-- A token that is only consumed if it is wanted. -/
theorem Walked.eaten {p : Pattern} {c : Cursor} (walked : c.Walked p) (wanted : Prop)
    [Decidable wanted] : ((if wanted then some c.advance else none).getD c).Walked p := by
  split
  · exact walked.advance
  · exact walked

end Cursor

namespace TokenStream

-- ═══════════════════════════════════════════════════════════════
-- Streams of cursors
-- ═══════════════════════════════════════════════════════════════

theorem eatIf_refused (s : TokenStream) {wanted : Bool} (refused : (s.eatIf wanted).1 = none) :
    (s.eatIf wanted).2 = s := by
  cases wanted with
  | true => cases refused
  | false => rfl

theorem advance_of_atEnd {s : TokenStream} (ended : s.atEnd) : s.advance = (s.current, s) :=
  congrArg (Prod.mk s.current) (if_pos ended)

theorem advance_of (c : Cursor) : (of c).advance = (c.current, of c.advance) := by
  have place : (if c.atEnd then of c
      else ⟨{ c with consumed := c.current.span.stop }, c.after c.current.span⟩) =
      of c.advance := by
    rw [Cursor.advance]
    split <;> rfl
  exact congrArg (Prod.mk c.current) place

theorem eatIf_of (c : Cursor) (wanted : Bool) :
    ((of c).eatIf wanted).2 = of (if wanted then c.advance else c) := by
  rw [eatIf, advance_of]
  cases wanted <;> rfl

theorem eat?_of (c : Cursor) (kind : Token.Kind) :
    ((of c).eat? kind).2 = of ((c.eat? kind).getD c) := by
  rw [eat?, eatIf_of, Cursor.eat?]
  by_cases found : c.current.kind = kind <;> simp [found, of]

theorem eatChar?_of (c : Cursor) (value : Char) :
    ((of c).eatChar? value).2 = of ((c.eatChar? value).getD c) := by
  rw [eatChar?, eatIf_of, Cursor.eatChar?]
  by_cases found : c.current.kind.isBare value <;> simp [found, of]

theorem restore_of {c d : Cursor} (same : d.pattern = c.pattern) :
    (of c).restore (of d).snapshot = of (c.restore d.snapshot) := by
  have token : d.current = (c.restore d.snapshot).current := by
    rw [Cursor.current, same]
    rfl
  exact congrArg (TokenStream.mk _) token

theorem peek_of (c : Cursor) (n : Nat) : (of c).peek n = c.peek n := by
  induction n with
  | zero => rfl
  | succ n ih =>
    rw [peek, ih]
    rfl

/-- Looking ahead finds what steps would lead to. -/
theorem peek_of_eq (c : Cursor) (n : Nat) :
    (of c).peek n = ((fun s => s.advance.2)^[n] (of c)).current := by
  have steps : Function.Semiconj of Cursor.advance fun s => s.advance.2 :=
    fun c => (congrArg Prod.snd (advance_of c)).symm
  rw [peek_of, c.peek_eq, ← (steps.iterate_right n).eq]
  rfl

-- ═══════════════════════════════════════════════════════════════
-- Streams in use
-- ═══════════════════════════════════════════════════════════════

namespace InUse

variable {p : Pattern} {c : Cursor} {x y : InUse}

theorem step_restore_iff {place : Snapshot} : x.step (.restore place) = some y ↔
    place ∈ x.taken ∧ ⟨x.stream.restore place, x.taken⟩ = y := by
  rw [InUse.step, Option.ite_none_right_eq_some, Option.some_inj]

/-- The stream is that of a cursor at a boundary, and so were the streams that snapshots were taken
of. -/
structure Walked (p : Pattern) (c : Cursor) (x : InUse) : Prop where
  stream : x.stream = of c
  place : c.Walked p
  taken : ∀ back ∈ x.taken, ∃ d : Cursor, d.Walked p ∧ back = (of d).snapshot

theorem walked_start (p : Pattern) : (start p).Walked p (.start p) :=
  ⟨rfl, ⟨rfl, p.boundary_zero⟩, by simp [start]⟩

theorem Walked.step (walked : x.Walked p c) {m : Move} (moved : x.step m = some y) :
    y.Walked p (m.apply c) := by
  obtain ⟨stream, place, taken⟩ := walked
  cases m with
  | advance =>
    cases moved
    exact ⟨by rw [stream, advance_of]; rfl, place.advance, taken⟩
  | eat kind =>
    cases moved
    exact ⟨by rw [stream, eat?_of]; rfl, place.eaten _, taken⟩
  | eatChar value =>
    cases moved
    exact ⟨by rw [stream, eatChar?_of]; rfl, place.eaten _, taken⟩
  | snapshot =>
    cases moved
    exact ⟨stream, place, List.forall_mem_cons.mpr ⟨⟨c, place, by rw [stream]⟩, taken⟩⟩
  | restore back =>
    obtain ⟨known, rfl⟩ := step_restore_iff.mp moved
    obtain ⟨d, there, rfl⟩ := taken back known
    have same : d.pattern = c.pattern := there.pattern.trans place.pattern.symm
    exact ⟨by rw [stream, restore_of same]; rfl, ⟨place.pattern, there.boundary⟩, taken⟩

theorem Walked.run (walked : x.Walked p c) {ms : List Move} (moved : x.run ms = some y) :
    y.Walked p (ms.foldl (fun c m => m.apply c) c) := by
  induction ms generalizing x c with
  | nil =>
    cases moved
    exact walked
  | cons m ms ih =>
    obtain ⟨z, first, rest⟩ := Option.bind_eq_some_iff.mp moved
    exact ih (walked.step first) rest

/-- The same stream, of which more snapshots were taken. -/
structure Extends (x y : InUse) : Prop where
  stream : y.stream = x.stream
  taken : x.taken ⊆ y.taken

theorem Extends.step (more : x.Extends y) {m : Move} {x' : InUse} (moved : x.step m = some x') :
    ∃ y', y.step m = some y' ∧ x'.Extends y' := by
  obtain ⟨stream, taken⟩ := more
  cases m with
  | snapshot =>
    cases moved
    refine ⟨_, rfl, stream, ?_⟩
    rw [stream]
    exact List.cons_subset_cons _ taken
  | restore back =>
    obtain ⟨known, rfl⟩ := step_restore_iff.mp moved
    exact ⟨_, step_restore_iff.mpr ⟨taken known, rfl⟩, by rw [stream], taken⟩
  | _ =>
    cases moved
    exact ⟨_, rfl, by rw [stream], taken⟩

/-- Moves that can be made with a stream can be made where more snapshots of it were taken, and come
to the same. -/
theorem Extends.run (more : x.Extends y) {ms : List Move} {x' : InUse}
    (moved : x.run ms = some x') : ∃ y', y.run ms = some y' ∧ x'.Extends y' := by
  induction ms generalizing x y with
  | nil =>
    cases moved
    exact ⟨y, rfl, more⟩
  | cons m ms ih =>
    obtain ⟨z, first, rest⟩ := Option.bind_eq_some_iff.mp moved
    obtain ⟨w, first', more⟩ := more.step first
    obtain ⟨y', rest', more⟩ := ih more rest
    exact ⟨y', Option.bind_eq_some_iff.mpr ⟨w, first', rest'⟩, more⟩

/-- A snapshot that was taken can be restored later on. -/
theorem taken_subset_step {m : Move} (moved : x.step m = some y) : x.taken ⊆ y.taken := by
  cases m with
  | snapshot =>
    cases moved
    exact List.subset_cons_self _ _
  | restore back =>
    obtain ⟨-, rfl⟩ := step_restore_iff.mp moved
    exact List.Subset.refl _
  | _ =>
    cases moved
    exact List.Subset.refl _

theorem taken_subset_run {ms : List Move} (moved : x.run ms = some y) : x.taken ⊆ y.taken := by
  induction ms generalizing x with
  | nil =>
    cases moved
    exact List.Subset.refl _
  | cons m ms ih =>
    obtain ⟨z, first, rest⟩ := Option.bind_eq_some_iff.mp moved
    exact List.Subset.trans (taken_subset_step first) (ih rest)

theorem Walked.restored (walked : x.Walked p c) {later : List Move}
    (moved : x.run (.snapshot :: later) = some y) :
    ∃ z, y.step (.restore x.stream.snapshot) = some z ∧ z.stream = x.stream ∧
      ∀ again x', x.run (.snapshot :: again) = some x' →
        ∃ z', z.run again = some z' ∧ z'.stream = x'.stream := by
  have taken : x.stream.snapshot :: x.taken ⊆ y.taken :=
    taken_subset_run (x := ⟨x.stream, _⟩) moved
  have back : y.stream.restore x.stream.snapshot = x.stream := by
    have there := walked.run moved
    rw [there.stream, walked.stream,
      restore_of (walked.place.pattern.trans there.place.pattern.symm)]
    exact congrArg of (congrArg (Cursor.mk · c.consumed)
      (there.place.pattern.trans walked.place.pattern.symm))
  refine ⟨_, step_restore_iff.mpr ⟨taken List.mem_cons_self, rfl⟩, back, fun again x' moved' => ?_⟩
  have more : Extends ⟨x.stream, x.stream.snapshot :: x.taken⟩
      ⟨y.stream.restore x.stream.snapshot, y.taken⟩ := ⟨back, taken⟩
  obtain ⟨z', repeated, same⟩ := more.run moved'
  exact ⟨z', repeated, same.stream⟩

/-- What holds of a stream at any time. -/
structure Lawful (p : Pattern) (x : InUse) : Prop where
  boundary : p.Boundary x.stream.consumed
  current : x.stream.current = p.tokenAt x.stream.consumed
  position : x.stream.position = x.stream.consumed
  ended : x.stream.atEnd → x.stream.advance = (x.stream.current, x.stream)
  refused : ∀ kind, (x.stream.eat? kind).1 = none → (x.stream.eat? kind).2 = x.stream
  refusedChar : ∀ value, (x.stream.eatChar? value).1 = none → (x.stream.eatChar? value).2 = x.stream
  ahead : ∀ n, x.stream.peek n = ((fun s => s.advance.2)^[n] x.stream).current
  /-- A snapshot that is taken now can be restored after any moves. The stream is then the one that
  it is now, and whatever could be done from now on can be done again with the same outcome. -/
  restored : ∀ later y, x.run (.snapshot :: later) = some y →
    ∃ z, y.step (.restore x.stream.snapshot) = some z ∧ z.stream = x.stream ∧
      ∀ again x', x.run (.snapshot :: again) = some x' →
        ∃ z', z.run again = some z' ∧ z'.stream = x'.stream

theorem Walked.lawful (walked : x.Walked p c) : x.Lawful p where
  boundary := by
    rw [walked.stream]
    exact walked.place.boundary
  current := by
    obtain ⟨stream, ⟨rfl, -⟩, -⟩ := walked
    rw [stream]
    rfl
  position := by
    obtain ⟨stream, ⟨rfl, boundary⟩, -⟩ := walked
    rw [stream]
    exact Pattern.start_tokenAt boundary.le
  ended := advance_of_atEnd
  refused _ := eatIf_refused _
  refusedChar _ := eatIf_refused _
  ahead n := by
    rw [walked.stream]
    exact peek_of_eq c n
  restored _ _ := walked.restored

/-- **Streams in use.** After any moves the stream is that of the cursor that makes the same moves.
It is at a boundary of the walk over the pattern, which is also where its current token starts, and
that token is the one there. What is refused and what is advanced at the end changes nothing,
looking ahead finds what advancing leads to, and a restored snapshot undoes all that came after. -/
theorem lawful_of_run {p : Pattern} {ms : List Move} {x : InUse}
    (moved : (start p).run ms = some x) :
    x.stream = .of (ms.foldl (fun c m => m.apply c) (.start p)) ∧ x.Lawful p := by
  have walked := (walked_start p).run moved
  exact ⟨walked.stream, walked.lawful⟩

/-- The law for a stream that went back twice to the same place, was refused an escaped bar and was
advanced at the end. -/
theorem lawful_of_run_backtracking :
    let p := Pattern.ofText "a\\|b" false
    let place := (of ⟨p, 1⟩).snapshot
    let ms : List Move := [.advance, .snapshot, .eatChar '|', .advance, .restore place,
      .advance, .advance, .advance, .snapshot, .restore place]
    ∃ x, (start p).run ms = some x ∧ x.stream.consumed = 1 ∧ x.Lawful p := by
  intro p place ms
  have made : ((start p).run ms).isSome := by decide +kernel
  have there : (ms.foldl (fun c m => m.apply c) (Cursor.start p)).consumed = 1 := by decide +kernel
  obtain ⟨x, moved⟩ := Option.isSome_iff_exists.mp made
  obtain ⟨stream, lawful⟩ := lawful_of_run moved
  exact ⟨x, moved, stream ▸ there, lawful⟩

end InUse

end TokenStream

end PatternTree
