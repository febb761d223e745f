import PatternTree.Descent.Groups
import PatternTree.Proofs.Descent.Steps

/-!
The descent through groups, with a given descent through their bodies. Main statements: it finds
the modifier that is read from the lexemes, and a group that it passes over ends where reading has
it end.
-/

namespace PatternTree.Descent

variable {s : State} {ls rest : List Lexeme}

-- ═══════════════════════════════════════════════════════════════
-- Names
-- ═══════════════════════════════════════════════════════════════

theorem isNamePart_of_continuesName {done : List Char} {c : Char} (next : continuesName done c) :
    Text.isNamePart c := by
  unfold continuesName at next
  split at next
  · exact Text.isNamePart_of_isNameStart next
  · exact next

section

variable {place : Nat} {done : List Char} {c : Char}

theorem nameRound_next (here : ReadAt s.cursor.pattern.chars.toList place (.plain c :: ls))
    (next : continuesName done c) :
    (nameRound (done, Lexeme.first place (.plain c :: ls))).run s =
      .ok (.inl (done ++ [c], Lexeme.first (place + 1) ls), s) := by
  have other : ¬(c = '>' ∧ done ≠ []) := by
    rintro ⟨rfl, -⟩
    exact absurd (isNamePart_of_continuesName next) (by decide)
  refine (congrArg (fun x : Descent _ => x.run s) (if_neg other)).trans ?_
  refine (congrArg (fun x : Descent _ => x.run s) (if_pos next)).trans ?_
  rw [run_bind_ok (after_run here)]
  rfl

theorem nameRound_end (some : done ≠ []) :
    (nameRound (done, Lexeme.first place (.plain '>' :: ls))).run s = .ok (.inr (.some done), s) :=
  congrArg (fun x : Descent _ => x.run s) (if_pos ⟨rfl, some⟩)

/-- A control character that is written as an escape has the token of a bare one, but no place in a
name either. -/
theorem nameRound_stop (unfinished : done ≠ [] → ls.head? ≠ some (.plain '>'))
    (stop : ∀ c, ls.head? = some (.plain c) → ¬continuesName done c) :
    (nameRound (done, Lexeme.first place ls)).run s = .ok (.inr none, s) := by
  unfold nameRound
  split
  next c kind =>
    have goesOn : ¬(c = '>' ∧ done ≠ []) := by
      rintro ⟨rfl, some⟩
      exact unfinished some ((Lexeme.kind_first_eq_bare rfl).mp kind)
    have refused : ¬continuesName done c := fun next =>
      have plain := Control.letter?_namePart (isNamePart_of_continuesName next)
      stop c ((Lexeme.kind_first_eq_bare plain).mp kind) next
    rw [if_neg goesOn, if_neg refused]
    rfl
  · rfl

/-- The name that is read from after its first part `done` on. -/
def nameAfter (done : List Char) (ls : List Lexeme) : Option (List Char) :=
  match (Lexeme.run Text.isNamePart ls).2 with
  | .plain '>' :: _ => some (done ++ (Lexeme.run Text.isNamePart ls).1)
  | _ => none

theorem loop_nameRound_next {l : Lexeme} {x : List Char}
    (here : ReadAt s.cursor.pattern.chars.toList place (l :: ls))
    (round : (nameRound (done, Lexeme.first place (l :: ls))).run s =
      .ok (.inl (x, Lexeme.first (place + l.width) ls), s)) :
    (loop nameLeft nameRound (done, Lexeme.first place (l :: ls))).run s =
      (loop nameLeft nameRound (x, Lexeme.first (place + l.width) ls)).run s := by
  refine loop_next round ?_
  have inside : place + l.width ≤ s.cursor.pattern.length := here.tail.inside
  have := l.width_pos
  simp only [nameLeft, Lexeme.first]
  omega

theorem loop_nameRound (here : ReadAt s.cursor.pattern.chars.toList place ls) (some : done ≠ []) :
    (loop nameLeft nameRound (done, Lexeme.first place ls)).run s =
      .ok (nameAfter done ls, s) := by
  induction ls generalizing place done with
  | nil => exact loop_answer (nameRound_stop (by simp) (by simp))
  | cons l ls ih =>
    have wanted (c : Char) : continuesName done c = Text.isNamePart c := by
      rw [continuesName, if_neg some]
    by_cases part : ∃ c, l = .plain c ∧ Text.isNamePart c
    · obtain ⟨c, rfl, part⟩ := part
      have next : continuesName done c := by rwa [wanted]
      rw [loop_nameRound_next here (nameRound_next here next), ih here.tail (by simp)]
      simp [nameAfter, Lexeme.run, part]
    · have alone : Lexeme.run Text.isNamePart (l :: ls) = ([], l :: ls) :=
        Lexeme.run_eq_iff.mpr
          ⟨rfl, by simp, fun c head part' => part ⟨c, by simpa using head, part'⟩⟩
      by_cases closed : l = .plain '>'
      · subst closed
        rw [loop_answer (nameRound_end some), nameAfter, alone]
        simp
      · have stop : ∀ c, (l :: ls).head? = .some (.plain c) → ¬continuesName done c := by
          intro c head
          rw [wanted]
          exact fun part' => part ⟨c, by simpa using head, part'⟩
        rw [loop_answer (nameRound_stop (by simp [closed]) stop), nameAfter, alone]
        simp [closed]

/-- The name after an angle bracket, if it is closed. -/
theorem groupName_run (here : s.At (.plain '<' :: ls)) :
    groupName.run s = .ok ((Header.readName? ls).map Prod.fst, s) := by
  have within := ReadAt.tail here
  rw [groupName, run_bind_ok (current_run here), run_bind_ok (after_run here)]
  by_cases starts : ∃ c, ls.head? = some (.plain c) ∧ Text.isNameStart c
  · obtain ⟨c, head, start⟩ := starts
    obtain ⟨more, rfl⟩ := List.head?_eq_some_iff.mp head
    have next : continuesName [] c := start
    have part := isNamePart_of_continuesName next
    have all := (Lexeme.run_eq_iff.mp (rfl : Lexeme.run Text.isNamePart more = _)).2.1
    have valid : Text.isName (c :: (Lexeme.run Text.isNamePart more).1) := by
      simpa [Text.isName, start] using all
    rw [loop_nameRound_next within (nameRound_next within next),
      loop_nameRound within.tail (by simp)]
    simp only [nameAfter, Header.readName?, Lexeme.run, part, if_true, valid]
    generalize (Lexeme.run Text.isNamePart more).2 = left
    split <;> simp
  · have stop : ∀ c, ls.head? = some (.plain c) → ¬continuesName [] c :=
      fun c head start => starts ⟨c, head, start⟩
    -- A name that is read would begin where the lexemes do.
    have unnamed : Header.readName? ls = none := by
      refine Option.eq_none_iff_forall_ne_some.mpr ?_
      rintro ⟨name, rest⟩ read
      obtain ⟨rfl, valid⟩ := Header.readName?_eq_some_iff.mp read
      cases name with
      | nil => cases valid
      | cons c cs => exact starts ⟨c, rfl, (Bool.and_eq_true_iff.mp valid).1⟩
    rw [loop_answer (nameRound_stop (by simp) stop), unnamed]
    rfl

end

-- ═══════════════════════════════════════════════════════════════
-- Modifiers
-- ═══════════════════════════════════════════════════════════════

/-- What comes of a modifier that is read as `h`, where its question mark stands at `s`. -/
def State.afterModifier (s : State) : Header → Option GroupKind × State
  | .kind k => (some k, s.past (k.opening.length - 1) [])
  | .unknown =>
    (none, s.past 1 [⟨.unknownGroupHeader, ⟨s.cursor.consumed, s.cursor.consumed + 1⟩⟩])

section

variable {question : Token}

/-- A modifier that is written with the lexemes `sign` after the question mark. -/
theorem advanceBy_sign {k : GroupKind} (sign : List Lexeme) (here : (s.past 1 []).At (sign ++ rest))
    (written : (Header.kind k).lexemes = .mark .openParen :: .mark .question :: sign) :
    (do advanceBy sign.length; return some k : Descent (Option GroupKind)).run (s.past 1 []) =
      .ok (s.afterModifier (.kind k)) := by
  have width : k.opening.length - 1 = 1 + textWidth sign := by
    have whole : 1 + (1 + textWidth sign) = k.opening.length := by
      have total := (Header.kind k).textWidth_lexemes
      rwa [written] at total
    omega
  rw [run_bind_ok (advanceBy_run here), State.past_past_nil, ← width]
  rfl

theorem unknownModifier_run (span : question.span = ⟨s.cursor.consumed, s.cursor.consumed + 1⟩) :
    (unknownModifier question).run (s.past 1 []) = .ok (s.afterModifier .unknown) := by
  rw [unknownModifier, run_bind_ok (report_run _ _ _), State.past_past, span]
  rfl

theorem angled_run (span : question.span = ⟨s.cursor.consumed, s.cursor.consumed + 1⟩)
    (here : (s.past 1 []).At (.plain '<' :: ls)) :
    (angled question).run (s.past 1 []) =
      .ok (s.afterModifier (Header.readModifier (.plain '<' :: ls)).1) := by
  rw [angled, run_bind_ok (current_run here), run_bind_ok (after_run here)]
  by_cases behind : ls.head? = some (.plain '=')
  · obtain ⟨more, rfl⟩ := List.head?_eq_some_iff.mp behind
    exact advanceBy_sign [.plain '<', .plain '='] here rfl
  by_cases notBehind : ls.head? = some (.plain '!')
  · obtain ⟨more, rfl⟩ := List.head?_eq_some_iff.mp notBehind
    exact advanceBy_sign [.plain '<', .plain '!'] here rfl
  rw [if_neg (Lexeme.not_isBare_kind_first rfl behind),
    if_neg (Lexeme.not_isBare_kind_first rfl notBehind), run_bind_ok (groupName_run here)]
  have modifier : (Header.readModifier (.plain '<' :: ls)).1 = ((Header.readName? ls).map
      fun read => Header.kind (.named (String.ofList read.1))).getD .unknown := by
    rw [Header.readModifier]
    · cases Header.readName? ls <;> rfl
    all_goals grind
  rw [modifier]
  cases named : Header.readName? ls with
  | none => exact unknownModifier_run span
  | some read =>
    obtain ⟨name, after⟩ := read
    obtain rfl := Header.plainRow_readName? named
    let sign := .plain '<' :: (plainRow name ++ [.plain '>'])
    have written : (Header.kind (.named (String.ofList name))).lexemes =
        .mark .openParen :: .mark .question :: sign := by
      simp [Header.lexemes, GroupKind.lexemes, sign]
    have length : name.length + 2 = sign.length := by simp [sign, plainRow]
    have named := @advanceBy_sign s after _ sign (by simpa [sign] using here) written
    rwa [← length] at named

/-- The descent through a modifier answers as reading does. -/
theorem modifier_run (here : s.At (.mark .question :: ls)) :
    modifier.run s = .ok (s.afterModifier (Header.readModifier ls).1) := by
  have later : (s.past 1 []).At ls := here.tail []
  rw [modifier, run_bind_ok (advance_cons here)]
  refine (run_bind_ok (current_run later) _).trans ?_
  by_cases grouping : ls.head? = some (.plain ':')
  · obtain ⟨more, rfl⟩ := List.head?_eq_some_iff.mp grouping
    exact advanceBy_sign [.plain ':'] later rfl
  by_cases ahead : ls.head? = some (.plain '=')
  · obtain ⟨more, rfl⟩ := List.head?_eq_some_iff.mp ahead
    exact advanceBy_sign [.plain '='] later rfl
  by_cases notAhead : ls.head? = some (.plain '!')
  · obtain ⟨more, rfl⟩ := List.head?_eq_some_iff.mp notAhead
    exact advanceBy_sign [.plain '!'] later rfl
  by_cases angle : ls.head? = some (.plain '<')
  · obtain ⟨more, rfl⟩ := List.head?_eq_some_iff.mp angle
    exact angled_run rfl later
  have unknown : Header.readModifier ls = (.unknown, ls) := by
    unfold Header.readModifier
    split
    case h_7 => rfl
    all_goals simp at grouping ahead notAhead angle
  simp only [if_neg (Lexeme.not_isBare_kind_first rfl grouping),
    if_neg (Lexeme.not_isBare_kind_first rfl ahead),
    if_neg (Lexeme.not_isBare_kind_first rfl notAhead),
    if_neg (Lexeme.not_isBare_kind_first rfl angle), unknown]
  exact unknownModifier_run rfl

/-- What follows the parenthesis at `s`, where a modifier after it is read as `h`. -/
theorem afterModifier_past (s : State) (h : Header) :
    ((s.past 1 []).afterModifier h).1.getD .capture = h.groupKind ∧
      ((s.past 1 []).afterModifier h).2 = s.past h.width (h.diagnostics s.cursor.consumed) := by
  cases h with
  | unknown => exact ⟨rfl, State.past_past s 1 1 [] _⟩
  | kind k =>
    have positive : 1 ≤ k.opening.length := (Header.kind k).width_pos
    refine ⟨rfl, (State.past_past_nil s 1 _).trans ?_⟩
    rw [Nat.add_sub_cancel' positive]
    rfl

/-- The descent through what follows the parenthesis at `s` answers as reading does. -/
theorem header_run (here : s.At (.mark .openParen :: ls)) :
    let h := (Header.read ls).1
    ∃ kind, header.run (s.past 1 []) =
        .ok (kind, s.past h.width (h.diagnostics s.cursor.consumed)) ∧
      kind.getD .capture = h.groupKind := by
  have inside : (s.past 1 []).At ls := here.tail []
  rw [header, run_bind_ok (current_run inside)]
  by_cases question : ls.head? = some (.mark .question)
  · obtain ⟨more, rfl⟩ := List.head?_eq_some_iff.mp question
    obtain ⟨standsFor, state⟩ := afterModifier_past s (Header.readModifier more).1
    exact ⟨_, (modifier_run inside).trans (congrArg Except.ok (Prod.ext rfl state)), standsFor⟩
  · have capture : Header.read ls = (.kind .capture, ls) := by
      unfold Header.read
      split
      · exact absurd rfl question
      · rfl
    rw [if_neg (mt Lexeme.kind_first_eq_mark.mp question), capture]
    exact ⟨none, rfl, rfl⟩

end

-- ═══════════════════════════════════════════════════════════════
-- Groups that are passed over
-- ═══════════════════════════════════════════════════════════════

/-- The lexemes after the closing bracket of a set. -/
def afterSet : List Lexeme → List Lexeme
  | [] => []
  | l :: ls => if l = .mark .closeBracket then ls else afterSet ls

theorem length_afterSet (ls : List Lexeme) : (afterSet ls).length ≤ ls.length := by
  fun_induction afterSet ls with
  | case1 => exact Nat.le_refl _
  | case2 ls => exact Nat.le_succ _
  | case3 l ls _ ih => exact Nat.le_succ_of_le ih

theorem afterGroup_inSet (inner : Nat) (ls : List Lexeme) :
    afterGroup inner true ls = afterGroup inner false (afterSet ls) := by
  induction ls with
  | nil => rfl
  | cons l ls ih =>
    by_cases closes : l = .mark .closeBracket
    · simp [afterGroup, afterSet, closes]
    · simp [afterGroup, afterSet, closes, ih]

/-- The step reports nothing and stops in front of `rest`. -/
def Skips (s : State) (x : Descent Unit) (rest : List Lexeme) : Prop :=
  ∃ width, x.run s = .ok ((), s.past width []) ∧ (s.past width []).At rest

section

variable {l : Lexeme} {opened inner : Nat}

theorem Skips.of_eq {x y : Descent Unit} {width : Nat} (skips : Skips (s.past width []) y rest)
    (same : x.run s = y.run (s.past width [])) : Skips s x rest := by
  obtain ⟨more, run, there⟩ := skips
  rw [State.past_past_nil] at run there
  exact ⟨width + more, same.trans run, there⟩

theorem skips_here {x : Descent Unit} (here : s.At ls) (run : x.run s = .ok ((), s)) :
    Skips s x ls := ⟨0, by rwa [State.past_zero], by rwa [State.past_zero]⟩

theorem skipSetRound_next (here : s.At (l :: ls)) (other : l ≠ .mark .closeBracket) :
    (skipSetRound ()).run s = .ok (.inl (), s.past l.width []) := by
  rw [skipSetRound, run_bind_ok (advance_cons here)]
  split
  next kind => exact absurd (Lexeme.kind_eq_mark.mp kind) other
  next kind => exact absurd kind l.kind_ne_finish
  · rfl

theorem skips_consuming_skipSetRound (here : s.At ls) :
    Skips s (consuming skipSetRound ()) (afterSet ls) := by
  induction ls generalizing s with
  | nil =>
    refine skips_here here (consuming_answer ?_)
    rw [skipSetRound, run_bind_ok (advance_nil here)]
    rfl
  | cons l ls ih =>
    have next : (s.past l.width []).At ls := here.tail []
    by_cases closes : l = .mark .closeBracket
    · subst closes
      rw [afterSet, if_pos rfl]
      refine ⟨1, consuming_answer ?_, next⟩
      rw [skipSetRound, run_bind_ok (advance_cons here)]
      rfl
    · rw [afterSet, if_neg closes]
      exact (ih next).of_eq (consuming_next next (skipSetRound_next here closes) l.width_pos)

/-- Whether the set is inverted makes no difference to where it ends. -/
theorem skips_skipSet (here : s.At ls) : Skips s skipSet (afterSet ls) := by
  by_cases caret : ls.head? = some (.mark .caret)
  · obtain ⟨more, rfl⟩ := List.head?_eq_some_iff.mp caret
    exact (skips_consuming_skipSetRound (here.tail [])).of_eq (run_bind_ok (eat_mark here) _)
  · obtain ⟨width, run, there⟩ := skips_consuming_skipSetRound here
    exact ⟨width, (run_bind_ok (eat_other here caret) _).trans run, there⟩

theorem skipRound_other (here : s.At (l :: ls)) (opens : l ≠ .mark .openParen)
    (closes : l ≠ .mark .closeParen) (set : l ≠ .mark .openBracket) :
    (skipRound opened).run s = .ok (.inl opened, s.past l.width []) := by
  unfold skipRound
  rw [run_bind_ok (advance_cons here)]
  split
  next kind => exact absurd (Lexeme.kind_eq_mark.mp kind) opens
  next kind => exact absurd (Lexeme.kind_eq_mark.mp kind) closes
  next kind => exact absurd (Lexeme.kind_eq_mark.mp kind) set
  next kind => exact absurd kind l.kind_ne_finish
  · rfl

theorem skipRound_nil (here : s.At []) : (skipRound opened).run s = .ok (.inr (), s) := by
  unfold skipRound
  rw [run_bind_ok (advance_nil here)]
  rfl

theorem skipRound_open (here : s.At (.mark .openParen :: ls)) :
    (skipRound opened).run s = .ok (.inl (opened + 1), s.past 1 []) := by
  unfold skipRound
  rw [run_bind_ok (advance_cons here)]
  rfl

theorem skipRound_last (here : s.At (.mark .closeParen :: ls)) :
    (skipRound 1).run s = .ok (.inr (), s.past 1 []) := by
  unfold skipRound
  rw [run_bind_ok (advance_cons here)]
  rfl

theorem skipRound_close (here : s.At (.mark .closeParen :: ls)) :
    (skipRound (opened + 2)).run s = .ok (.inl (opened + 1), s.past 1 []) := by
  unfold skipRound
  rw [run_bind_ok (advance_cons here)]
  rfl

/-- A set is passed over in one round. -/
theorem skipRound_set (here : s.At (.mark .openBracket :: ls)) :
    ∃ width, 0 < width ∧ (skipRound opened).run s = .ok (.inl opened, s.past width []) ∧
      (s.past width []).At (afterSet ls) := by
  obtain ⟨width, run, there⟩ := skips_skipSet (here.tail [])
  rw [State.past_past_nil] at run there
  refine ⟨1 + width, Nat.add_pos_left Nat.one_pos width, ?_, there⟩
  unfold skipRound
  rw [run_bind_ok (advance_cons here)]
  exact run_bind_ok run _

/-- Passing over a group counts the parentheses that are open, its own among them. -/
theorem skips_consuming_skipRound (inner : Nat) {ls : List Lexeme} {s : State} (here : s.At ls) :
    Skips s (consuming skipRound (inner + 1)) (afterGroup inner false ls) := by
  match ls with
  | [] => exact skips_here here (consuming_answer (skipRound_nil here))
  | l :: ls =>
    have next : (s.past l.width []).At ls := here.tail []
    by_cases opens : l = .mark .openParen
    · subst opens
      exact (skips_consuming_skipRound (inner + 1) next).of_eq
        (consuming_next next (skipRound_open here) Nat.one_pos)
    by_cases closes : l = .mark .closeParen
    · subst closes
      cases inner with
      | zero => exact ⟨1, consuming_answer (skipRound_last here), next⟩
      | succ inner =>
        exact (skips_consuming_skipRound inner next).of_eq
          (consuming_next next (skipRound_close here) Nat.one_pos)
    by_cases set : l = .mark .openBracket
    · subst set
      obtain ⟨width, positive, round, there⟩ := skipRound_set here
      have := length_afterSet ls
      have skips := (skips_consuming_skipRound inner there).of_eq
        (consuming_next there round positive)
      rwa [← afterGroup_inSet] at skips
    · have step : afterGroup inner false (l :: ls) = afterGroup inner false ls := by
        rw [afterGroup, if_neg Bool.false_ne_true]
        all_goals assumption
      rw [step]
      exact (skips_consuming_skipRound inner next).of_eq
        (consuming_next next (skipRound_other here opens closes set) l.width_pos)
termination_by ls.length

/-- The loop that passes over a group consumes the group, and does nothing else. -/
theorem skips_group {ls : List Lexeme} (here : s.At (.mark .openParen :: ls)) :
    Skips s (consuming skipRound 0) (afterGroup 0 false ls) := by
  have within : (s.past 1 []).At ls := here.tail []
  exact (skips_consuming_skipRound 0 within).of_eq
    (consuming_next within (skipRound_open here) Nat.one_pos)

/-- A group that is passed over ends where reading has it end. -/
theorem skipGroup_run {inside : List Lexeme} (here : s.At (.mark .openParen :: inside ++ rest))
    (after : afterGroup 0 false (inside ++ rest) = rest) :
    let width := textWidth (.mark .openParen :: inside)
    skipGroup.run s = .ok (none, s.past width
      [⟨.groupTooDeep, ⟨s.cursor.consumed, s.cursor.consumed + width⟩⟩]) := by
  intro width
  have skips : Skips s (consuming skipRound 0) (afterGroup 0 false (inside ++ rest)) :=
    skips_group here
  rw [after] at skips
  obtain ⟨width', run, there⟩ := skips
  -- Both lead to the lexemes after the group, so they lead to one place.
  obtain rfl : width' = width := there.width_eq (here.past rfl [])
  have span := spanFrom_run (s := s.past width []) (Nat.le_add_right s.cursor.consumed width)
  rw [skipGroup, run_bind_ok (position_run here), run_bind_ok run, run_bind_ok span,
    run_bind_ok (report_run _ _ _), State.past_past]
  rfl

end

-- ═══════════════════════════════════════════════════════════════
-- Groups
-- ═══════════════════════════════════════════════════════════════

/-- The state one group further inside. -/
def State.deeper (s : State) : State := { s with depth := s.depth + 1 }

section

variable {α : Type} {s' : State}

theorem enter_run {greatest : Nat} (room : s.depth < greatest) :
    (enter greatest).run s = .ok ((), s.deeper) := by
  rw [enter, run_bind_ok rfl, if_pos room]
  rfl

theorem leave_run (s : State) : leave.run s.deeper = .ok ((), s) := rfl

theorem keepingDepth_run {x : Descent α} {a : α} (run : x.run s = .ok (a, s'))
    (same : s'.depth = s.depth) : (keepingDepth x).run s = .ok (a, s') := by
  rw [keepingDepth, run_bind_ok rfl, run_bind_ok run, run_bind_ok rfl]
  exact congrArg (fun x : Descent α => x.run s') (if_pos same)

theorem closeGroup_run {opening : Token} {closed : Bool}
    (here : s.At (closing .closeParen closed ++ rest)) (ended : closed ∨ rest = []) :
    (closeGroup opening).run s =
      .ok ((), s.past closed.toNat (if closed then [] else [⟨.unclosedGroup, opening.span⟩])) := by
  cases closed with
  | true =>
    rw [closeGroup, run_bind_ok (eat_mark here)]
    rfl
  | false =>
    obtain rfl : rest = [] := by simpa using ended
    rw [closeGroup, run_bind_ok (eat_other here (by simp [closing]))]
    rfl

/-- The descent through a group, where the one through its body is known. -/
theorem openGroup_run {body : Descent Expression} {e : Expression} {h : Header} {width : Nat}
    {ds : List Diagnostic} {closed : Bool} (here : s.At (.mark .openParen :: ls))
    (header : (Header.read ls).1 = h) (room : s.depth < maxDepth)
    (run : let inside := s.past h.width (h.diagnostics s.cursor.consumed)
      body.run inside.deeper = .ok (e, (inside.past width ds).deeper))
    (next : (s.past (h.width + width) (h.diagnostics s.cursor.consumed ++ ds)).At
      (closing .closeParen closed ++ rest))
    (ended : closed ∨ rest = []) :
    let start := s.cursor.consumed
    let whole := h.width + width + closed.toNat
    let unclosed : List Diagnostic := if closed then [] else [⟨.unclosedGroup, ⟨start, start + 1⟩⟩]
    (openGroup body).run s =
      .ok (some (.group h.groupKind e ⟨start, start + whole⟩),
        s.past whole (h.diagnostics start ++ ds ++ unclosed)) := by
  intro start whole unclosed
  obtain ⟨kind, found, standsFor⟩ := header ▸ header_run here
  have entered := enter_run (s := s.past h.width (h.diagnostics start)) room
  have span := spanFrom_run (s := s.past whole (h.diagnostics start ++ ds ++ unclosed))
    (Nat.le_add_right start whole)
  rw [openGroup, run_bind_ok (advance_cons here)]
  refine (run_bind_ok found _).trans ?_
  rw [run_bind_ok entered, run_bind_ok run, run_bind_ok (leave_run _), State.past_past,
    run_bind_ok (closeGroup_run next ended), State.past_past]
  refine (run_bind_ok span _).trans ?_
  rw [standsFor]
  rfl

section

variable {body : Descent Expression} {item : Option Item}

theorem groupWith_skip (deep : s.depth = maxDepth) (run : skipGroup.run s = .ok (item, s'))
    (same : s'.depth = s.depth) : (groupWith body).run s = .ok (item, s') := by
  refine keepingDepth_run ?_ same
  rw [run_bind_ok rfl, if_pos deep, run]

theorem groupWith_open (room : s.depth ≠ maxDepth) (run : (openGroup body).run s = .ok (item, s'))
    (same : s'.depth = s.depth) : (groupWith body).run s = .ok (item, s') := by
  refine keepingDepth_run ?_ same
  rw [run_bind_ok rfl, if_neg room, run]

end

end

end PatternTree.Descent
