import Mathlib.Data.List.DropRight
import PatternTree.Proofs.Legality.Places
import PatternTree.Proofs.RoundTrip.Spelling

/-!
What phrases depend on around them. Scanning a text in two parts and reading a row of phrases look
past the end of what they take, but never past a bar or a closing mark. Main statements: legal
phrases stay legal when what follows them begins with nothing new, and at every depth that leaves
their groups enough levels.
-/

namespace PatternTree

-- ═══════════════════════════════════════════════════════════════
-- Scanning in two parts
-- ═══════════════════════════════════════════════════════════════

/-- The number of backslashes that a text ends with. -/
def trailingBackslashes (cs : List Char) : Nat := (cs.rtakeWhile (· = '\\')).length

theorem trailingBackslashes_le (cs : List Char) : trailingBackslashes cs ≤ cs.length :=
  List.IsSuffix.length_le (List.rtakeWhile_suffix _ _)

theorem trailingBackslashes_cons (c : Char) (cs : List Char) :
    trailingBackslashes (c :: cs) =
      if trailingBackslashes cs = cs.length ∧ c = '\\' then cs.length + 1
      else trailingBackslashes cs := by
  simp only [trailingBackslashes, List.rtakeWhile, List.length_reverse, List.reverse_cons,
    List.takeWhile_append]
  by_cases all : (cs.reverse.takeWhile (· = '\\')).length = cs.length
  · by_cases backslash : c = '\\' <;> simp [all, backslash]
  · simp [all]

namespace Lexeme

/-- What is scanned on its own is no backslash. -/
theorem bare_of_scan {c : Char} {cs : List Char} (alone : c = '\\' → cs = [] → False)
    (escapes : ∀ d ds, c = '\\' → cs = d :: ds → False) : c ≠ '\\' := by
  rintro rfl
  cases cs with
  | nil => exact alone rfl rfl
  | cons d ds => exact escapes d ds rfl rfl

/-- A lone backslash is left over where the backslashes at the end are odd in number. -/
theorem dangling_mem_scan_iff (cs : List Char) :
    dangling ∈ scan cs ↔ trailingBackslashes cs % 2 = 1 := by
  fun_induction scan cs with
  | case1 => simp [trailingBackslashes]
  | case2 => simp [trailingBackslashes, List.rtakeWhile]
  | case3 c cs ih =>
    -- An escape has an even number of backslashes, and one that is not all backslashes ends a run.
    have bound := trailingBackslashes_le cs
    simp only [List.mem_cons, reduceCtorEq, false_or, ih, trailingBackslashes_cons,
      List.length_cons, and_true]
    by_cases all : trailingBackslashes cs = cs.length ∧ c = '\\'
    · rw [if_pos all, if_pos rfl, all.1]
      omega
    · rw [if_neg all, if_neg (by omega)]
  | case4 c cs alone escapes ih =>
    have bare := bare_of_scan alone escapes
    have other : dangling ≠ ofChar c := by
      unfold ofChar
      split <;> simp
    simp [ih, trailingBackslashes_cons, bare, other]

theorem dangling_not_mem_scan_iff (cs : List Char) :
    dangling ∉ scan cs ↔ trailingBackslashes cs % 2 = 0 := by
  rw [dangling_mem_scan_iff]
  omega

/-- Two texts are scanned one after the other, unless a backslash at the end of the first takes the
beginning of the second. -/
theorem scan_append {cs : List Char} (whole : dangling ∉ scan cs) (more : List Char) :
    scan (cs ++ more) = scan cs ++ scan more := by
  fun_induction scan cs with
  | case1 => rfl
  | case2 => simp at whole
  | case3 c cs ih =>
    have rest := ih fun lone => whole (List.mem_cons_of_mem _ lone)
    rw [List.cons_append, List.cons_append, scan, rest]
    rfl
  | case4 c cs alone escapes ih =>
    have bare := bare_of_scan alone escapes
    have rest := ih fun lone => whole (List.mem_cons_of_mem _ lone)
    rw [List.cons_append, scan_cons_bare bare, rest]
    rfl

/-- A scanned lexeme scans back from its text, or is a backslash at the end of the text. -/
theorem spelled_or_last_of_scan {cs : List Char} {l : Lexeme} {ls : List Lexeme}
    (scanned : scan cs = l :: ls) : l.Spelled ∨ l = dangling ∧ ls = [] := by
  unfold scan at scanned
  split at scanned
  · cases scanned
  · cases scanned
    exact Or.inr ⟨rfl, rfl⟩
  · cases scanned
    exact Or.inl trivial
  next c cs alone escapes =>
    cases scanned
    left
    unfold ofChar
    split
    · trivial
    next none =>
      exact ⟨bare_of_scan alone escapes, none⟩

/-- What is scanned first is scanned on its own, too. -/
theorem scan_flatMap_text_of_append {cs : List Char} {ls more : List Lexeme}
    (scanned : scan cs = ls ++ more) : scan (ls.flatMap text) = ls := by
  induction ls generalizing cs with
  | nil => rfl
  | cons l ls ih =>
    rw [List.flatMap_cons]
    rcases spelled_or_last_of_scan scanned with spelled | ⟨rfl, last⟩
    · obtain ⟨rest, -, after⟩ := scan_eq_cons scanned
      rw [scan_text_append spelled, ih after]
    · obtain rfl := (List.append_eq_nil_iff.mp last).1
      rfl

end Lexeme

theorem Pattern.length_ofText (text : String) (unicode : Bool) :
    (ofText text unicode).length = text.length := by
  simp [length, ofText, String.length_toList]

/-- A backslash at the end of a text would take the beginning of what comes after. Without one, a
text after another is scanned on its own. -/
theorem Pattern.lexemes_append {a : String} (complete : trailingBackslashes a.toList % 2 = 0)
    (b : String) (unicode : Bool) : (ofText (a ++ b) unicode).lexemes =
      (ofText a unicode).lexemes ++ (ofText b unicode).lexemes := by
  have whole := (Lexeme.dangling_not_mem_scan_iff a.toList).mpr complete
  simp only [lexemes, ofText, String.toList_append]
  exact Lexeme.scan_append whole b.toList

-- ═══════════════════════════════════════════════════════════════
-- What may follow instead
-- ═══════════════════════════════════════════════════════════════

/-- Whether a lexeme ends what stands before it. No quantifier and no modifier of a group is written
with such a lexeme. -/
def Lexeme.ends : Lexeme → Bool
  | mark .bar | mark .closeParen | mark .closeBracket => true
  | _ => false

/-- Up to a mark that ends it, what follows now begins with nothing that it did not begin with
before. -/
def BeginsNoMore (before now : List Lexeme) : Prop :=
  ∀ part, (∀ l ∈ part, ¬l.ends) → part <+: now → part <+: before

namespace BeginsNoMore

theorem of_prefix {before now : List Lexeme} (begins : now <+: before) : BeginsNoMore before now :=
  fun _ _ found => found.trans begins

theorem nil (before : List Lexeme) : BeginsNoMore before [] := of_prefix List.nil_prefix

theorem ended {l : Lexeme} (ends : l.ends) (before more : List Lexeme) :
    BeginsNoMore before (before ++ l :: more) := by
  rintro part endless ⟨after, whole⟩
  -- A part that went past what was there before would hold the mark that ends it.
  rcases List.append_eq_append_iff.mp whole with ⟨rest, rfl, -⟩ | ⟨past, rfl, split⟩
  · exact List.prefix_append _ _
  · cases past with
    | nil => simp
    | cons l' past =>
      obtain rfl := (List.cons.inj split).1
      exact absurd ends (endless l (by simp))

variable {before now : List Lexeme}

theorem append (less : BeginsNoMore before now) (ls : List Lexeme) :
    BeginsNoMore (ls ++ before) (ls ++ now) := by
  rintro part endless ⟨after, whole⟩
  rcases List.append_eq_append_iff.mp whole with ⟨rest, rfl, -⟩ | ⟨past, rfl, split⟩
  · rw [List.append_assoc]
    exact List.prefix_append _ _
  · have rest :=
      less past (fun l member => endless l (List.mem_append_right _ member)) ⟨after, split.symm⟩
    exact (List.prefix_append_right_inj ls).mpr rest

theorem head?_ne (less : BeginsNoMore before now) {m : Mark} (other : ¬(Lexeme.mark m).ends)
    (none : before.head? ≠ some (.mark m)) : now.head? ≠ some (.mark m) := by
  intro head
  obtain ⟨more, rfl⟩ := List.head?_eq_some_iff.mp head
  have first : [.mark m] <+: before :=
    less [.mark m] (by simpa using other) (List.prefix_append [.mark m] more)
  obtain ⟨rest, rfl⟩ := first
  exact none rfl

end BeginsNoMore

section Parts

variable {before now : List Lexeme}

namespace Amount

theorem read?_eq_none_iff {ls : List Lexeme} :
    read? ls = none ↔ ∀ a : Amount, a.Legal → ¬a.lexemes <+: ls := by
  constructor
  · rintro none a legal ⟨rest, written⟩
    rw [read?_eq_some_iff.mpr ⟨written, legal⟩] at none
    cases none
  · intro absent
    cases found : read? ls with
    | none => rfl
    | some read =>
      obtain ⟨written, legal⟩ :=
        read?_eq_some_iff.mp (show read? ls = some (read.1, read.2) from found)
      exact absurd ⟨read.2, written⟩ (absent read.1 legal)

theorem ends_lexemes (a : Amount) : ∀ l ∈ a.lexemes, ¬l.ends := by
  cases a <;> simp [lexemes, plainRow, Lexeme.ends, or_imp, forall_and]

end Amount

namespace Repetition

theorem read?_eq_none_of_beginsNoMore (less : BeginsNoMore before now)
    (absent : read? before = none) : read? now = none := by
  have by_amount {ls : List Lexeme} : read? ls = none ↔ Amount.read? ls = none := by
    unfold read?
    cases Amount.read? ls <;> simp
  rw [by_amount, Amount.read?_eq_none_iff] at absent ⊢
  intro a legal begins
  exact absent a legal (less _ a.ends_lexemes begins)

theorem RowLegal.follow {rs : List Repetition} (row : RowLegal before rs)
    (less : BeginsNoMore before now) : RowLegal now rs := by
  induction rs with
  | nil => exact read?_eq_none_of_beginsNoMore less row
  | cons r rs ih =>
    obtain ⟨legal, greedy, row⟩ := row
    exact ⟨legal, fun bare => (less.append _).head?_ne (by decide) (greedy bare), ih row⟩

end Repetition

theorem Piece.rangeFollows_cons_cons (l m : Lexeme) (ls : List Lexeme) :
    rangeFollows (l :: m :: ls) = (l = .plain '-' && m.endsRange) := by
  unfold rangeFollows
  split
  next equal =>
    obtain ⟨rfl, rest⟩ := List.cons.inj equal
    obtain ⟨rfl, -⟩ := List.cons.inj rest
    simp
  next other =>
    have : l ≠ .plain '-' := by
      rintro rfl
      exact other m ls rfl
    simp [this]

/-- A closing bracket is not part of a range, so it begins none and ends none. -/
theorem Piece.rangeFollows_closed (ls after : List Lexeme) :
    rangeFollows (ls ++ .mark .closeBracket :: after) = rangeFollows ls := by
  match ls with
  | [] => rfl
  | [l] =>
    have short : rangeFollows [l] = false := by
      unfold rangeFollows
      split
      next equal => cases equal
      · rfl
    have apart := rangeFollows_cons_cons l (.mark .closeBracket) after
    rw [short]
    simpa [Lexeme.endsRange] using apart
  | l :: m :: ls => exact (rangeFollows_cons_cons l m _).trans (rangeFollows_cons_cons l m _).symm

theorem Piece.rowLegal_closed_iff {ps : List Piece} {after : List Lexeme} :
    RowLegal (.mark .closeBracket :: after) ps ↔ RowLegal [] ps := by
  induction ps with
  | nil => exact Iff.rfl
  | cons p ps ih => cases p <;> simp [RowLegal, rangeFollows_closed, ih]

/-- A closed set looks no further than its closing bracket, and the end of the text serves as
well. -/
theorem Bracket.legal_closed_iff {inverted : Bool} {pieces : List Piece} {rest : List Lexeme} :
    Legal rest ⟨inverted, pieces, true⟩ ↔ Legal [] ⟨inverted, pieces, false⟩ := by
  rw [Legal, Legal]
  refine and_congr (imp_congr_right fun _ => not_congr ?_) ?_
  · cases pieces.flatMap Piece.lexemes <;> simp [closing]
  · exact and_congr Piece.rowLegal_closed_iff (by simp)

theorem Bracket.Legal.follow {b : Bracket} (legal : b.Legal before)
    (ended : before = [] → now = [] ∨ b.closed) : b.Legal now := by
  obtain ⟨inverted, pieces, closed⟩ := b
  cases closed with
  | true => exact legal_closed_iff.mpr (legal_closed_iff.mp legal)
  | false =>
    obtain rfl : before = [] := by simpa using legal.2.2
    obtain rfl : now = [] := by simpa using ended rfl
    exact legal

/-- A modifier is written without a mark that ends anything. -/
theorem GroupKind.lexemes_of_ne_capture {k : GroupKind} (other : k ≠ .capture) :
    ∃ part, k.lexemes = .mark .openParen :: .mark .question :: part ∧ ∀ l ∈ part, ¬l.ends := by
  cases k with
  | capture => exact absurd rfl other
  | named name =>
    refine ⟨.plain '<' :: (plainRow name.toList ++ [.plain '>']), rfl, ?_⟩
    simp [plainRow, Lexeme.ends, or_imp, forall_and]
  | grouping => exact ⟨_, rfl, by simp [Lexeme.ends]⟩
  | look l => cases l <;> exact ⟨_, rfl, by simp [Lexeme.ends]⟩

theorem Header.Legal.follow {h : Header} (legal : h.Legal before) (less : BeginsNoMore before now) :
    h.Legal now := by
  -- Only a header that is not known, or that has no modifier, looks at what follows.
  have apart {k : GroupKind} (other : k ≠ .capture) {ls : List Lexeme} (legal : (kind k).Legal ls)
      (ls' : List Lexeme) : (kind k).Legal ls' := by
    cases k with
    | capture => exact absurd rfl other
    | named name => exact legal
    | grouping | look _ => trivial
  cases h with
  | kind k =>
    by_cases capture : k = .capture
    · subst capture
      exact less.head?_ne (by decide) legal
    · exact apart capture legal now
  | unknown =>
    have written := lexemes_readModifier now
    have readLegal := legal_readModifier now
    cases found : (readModifier now).1 with
    | unknown =>
      rw [found] at written readLegal
      have kept : (readModifier now).2 = now := by simpa [lexemes] using written
      rwa [kept] at readLegal
    | kind k =>
      rw [found] at written readLegal
      have modified : k ≠ .capture := by
        rintro rfl
        obtain rest : (readModifier now).2 = .mark .question :: now := by
          simpa [lexemes, GroupKind.lexemes] using written
        exact readLegal (by rw [rest]; rfl)
      -- The modifier would have been there before, too, and so the header would be known.
      obtain ⟨part, spelled, endless⟩ := GroupKind.lexemes_of_ne_capture modified
      have begins : part <+: now :=
        ⟨(readModifier now).2, by simpa [lexemes, spelled] using written⟩
      obtain ⟨rest, rfl⟩ := less part endless begins
      have known : read (.mark .question :: (part ++ rest)) = (kind k, rest) :=
        read_lexemes (apart modified readLegal rest) (by simp [lexemes, spelled])
      cases (show readModifier (part ++ rest) = (unknown, _) from legal).symm.trans known

/-- A skipped group that ends before the text does looks no further than its closing parenthesis. -/
theorem afterGroup_follow {ls rest : List Lexeme} (some' : rest ≠ []) {inner : Nat} {inSet : Bool}
    (after : afterGroup inner inSet (ls ++ rest) = rest) (now : List Lexeme) :
    afterGroup inner inSet (ls ++ now) = now := by
  fun_induction afterGroup inner inSet ls with
  | case1 inner inSet =>
    have shorter := length_afterGroup_lt inner inSet some'
    rw [show afterGroup inner inSet rest = rest from after] at shorter
    exact absurd shorter (Nat.lt_irrefl _)
  | case5 inSet ls outside =>
    obtain rfl : ls = [] := by simpa [afterGroup, outside] using after
    simp [afterGroup, outside]
  | _ => simp_all [afterGroup]

end Parts

-- ═══════════════════════════════════════════════════════════════
-- Phrases
-- ═══════════════════════════════════════════════════════════════

namespace Phrase

mutual

/-- What follows a phrase may change. If the text went no further before, the phrase must not have
been left open by it. -/
theorem Legal.follow {p : Phrase} {levels : Nat} (start : Nat) {before now : List Lexeme}
    (legal : p.Legal levels before) (less : BeginsNoMore before now)
    (ended : before = [] → now = [] ∨ ∀ d ∈ p.diagnostics start, d.kind ≠ .unclosedGroup ∧
      d.kind ≠ .unclosedSet ∧ (levels = 0 → d.kind ≠ .groupTooDeep)) :
    p.Legal levels now := by
  match p with
  | .bar => trivial
  | .stray l => exact legal
  | .tooDeep ls =>
    obtain ⟨rfl, inner, rfl, after⟩ := legal
    refine ⟨rfl, inner, rfl, ?_⟩
    by_cases last : before = []
    · rcases ended last with rfl | complete
      · rwa [last] at after
      · exact absurd rfl ((complete _ List.mem_cons_self).2.2 rfl)
    · exact afterGroup_follow last after now
  | .single l rs => exact ⟨legal.1, legal.2.follow less⟩
  | .set b rs =>
    refine ⟨legal.1.follow fun none => ?_, legal.2.follow less⟩
    obtain ⟨bare, last⟩ := List.append_eq_nil_iff.mp none
    rcases ended last with rfl | complete
    · exact Or.inl (by rw [bare]; rfl)
    · right
      cases closed : b.closed with
      | true => rfl
      | false =>
        have reported :
            ⟨.unclosedSet, ⟨start, start + 1⟩⟩ ∈ (Phrase.set b rs).diagnostics start := by
          simp [diagnostics, Bracket.diagnostics, closed]
        exact absurd rfl (complete _ reported).2.1
  | .group h body closed rs =>
    obtain ⟨⟨inner, deeper, row⟩, header, ends, repeated⟩ := legal
    have ends' : closed ∨ rs.flatMap Repetition.lexemes ++ now = [] := by
      refine Decidable.or_iff_not_imp_left.mpr fun unclosed => ?_
      obtain ⟨bare, last⟩ := List.append_eq_nil_iff.mp (ends.resolve_left unclosed)
      rcases ended last with rfl | complete
      · rw [bare, List.append_nil]
      · have reported : ⟨.unclosedGroup, ⟨start, start + 1⟩⟩ ∈
            (Phrase.group h body closed rs).diagnostics start := by
          simp [diagnostics, unclosed]
        exact absurd rfl (complete _ reported).1
    have lessClose := (less.append (rs.flatMap Repetition.lexemes)).append
      (closing .closeParen closed)
    -- An open body ended with the text before, and so it does now.
    have row' : RowLegal inner true _ body := row.follow start lessClose fun none =>
      have unclosed := (closing_append_eq_nil_iff.mp none).1
      Or.inl (closing_append_eq_nil_iff.mpr ⟨unclosed, ends'.resolve_left unclosed⟩)
    exact ⟨⟨inner, deeper, row'⟩, header.follow (lessClose.append _), ends', repeated.follow less⟩

theorem RowLegal.follow {ps : List Phrase} {levels : Nat} {inGroup : Bool} (start : Nat)
    {before now : List Lexeme} (row : RowLegal levels inGroup before ps)
    (less : BeginsNoMore before now)
    (ended : before = [] → now = [] ∨ ∀ d ∈ rowDiagnostics start ps, d.kind ≠ .unclosedGroup ∧
      d.kind ≠ .unclosedSet ∧ (levels = 0 → d.kind ≠ .groupTooDeep)) :
    RowLegal levels inGroup now ps := by
  match ps with
  | [] => trivial
  | p :: ps =>
    obtain ⟨legal, other, row⟩ := row
    have rest : RowLegal levels inGroup now ps := row.follow (start + p.width) less fun last =>
      (ended last).imp_right fun complete d member => complete d (List.mem_append_right _ member)
    have first : p.Legal levels (rowLexemes ps ++ now) := by
      refine legal.follow start (less.append _) fun none => ?_
      obtain ⟨bare, last⟩ := List.append_eq_nil_iff.mp none
      exact (ended last).imp (fun gone => by rw [bare, gone]; rfl) fun complete d member =>
        complete d (List.mem_append_left _ member)
    exact ⟨first, other, rest⟩

end

mutual

/-- How many levels the groups of a phrase nest that are not skipped. -/
def depth : Phrase → Nat
  | .bar | .stray _ | .tooDeep _ | .single _ _ | .set _ _ => 0
  | .group _ body _ _ => rowDepth body + 1

def rowDepth : List Phrase → Nat
  | [] => 0
  | p :: ps => max p.depth (rowDepth ps)

end

mutual

theorem Legal.depth_le {p : Phrase} {levels : Nat} {rest : List Lexeme}
    (legal : p.Legal levels rest) : p.depth ≤ levels := by
  match p with
  | .bar | .stray _ | .tooDeep _ | .single _ _ | .set _ _ => exact Nat.zero_le _
  | .group h body closed rs =>
    obtain ⟨⟨inner, rfl, row⟩, -⟩ := legal
    exact Nat.succ_le_succ row.rowDepth_le

theorem RowLegal.rowDepth_le {ps : List Phrase} {levels : Nat} {inGroup : Bool}
    {rest : List Lexeme} (row : RowLegal levels inGroup rest ps) : rowDepth ps ≤ levels := by
  match ps with
  | [] => exact Nat.zero_le _
  | p :: ps =>
    obtain ⟨legal, -, row⟩ := row
    exact Nat.max_le.mpr ⟨legal.depth_le, row.rowDepth_le⟩

end

/-- Inside a group every closing parenthesis ends the row. -/
theorem RowLegal.closeParen_not_mem {ps : List Phrase} {levels : Nat} {rest : List Lexeme}
    (row : RowLegal levels true rest ps) : .stray (.mark .closeParen) ∉ ps := by
  induction ps with
  | nil => exact List.not_mem_nil
  | cons p ps ih =>
    obtain ⟨-, other, row⟩ := row
    exact List.not_mem_cons_of_ne_of_not_mem (other rfl).symm (ih row)

mutual

/-- Where no group is skipped, a phrase is legal at every depth that leaves its groups enough
levels. -/
theorem Legal.relevel {p : Phrase} {levels levels' : Nat} (start : Nat) {rest : List Lexeme}
    (legal : p.Legal levels rest) (nested : p.depth ≤ levels')
    (shallow : ∀ d ∈ p.diagnostics start, d.kind ≠ .groupTooDeep) : p.Legal levels' rest := by
  match p with
  | .bar => trivial
  | .stray l => exact legal
  | .tooDeep ls => exact absurd rfl (shallow _ List.mem_cons_self)
  | .single l rs => exact legal
  | .set b rs => exact legal
  | .group h body closed rs =>
    obtain ⟨⟨inner, rfl, row⟩, others⟩ := legal
    obtain ⟨inner', rfl⟩ := Nat.exists_eq_succ_of_ne_zero (Nat.ne_zero_of_lt nested)
    have inside : RowLegal inner' true _ body :=
      row.relevel (start + h.width) (Nat.le_of_succ_le_succ nested)
        (fun _ => row.closeParen_not_mem) fun d member => shallow d (by simp [diagnostics, member])
    exact ⟨⟨inner', rfl, inside⟩, others⟩

theorem RowLegal.relevel {ps : List Phrase} {levels levels' : Nat} {inGroup inGroup' : Bool}
    (start : Nat) {rest : List Lexeme} (row : RowLegal levels inGroup rest ps)
    (nested : rowDepth ps ≤ levels') (outermost : inGroup' → .stray (.mark .closeParen) ∉ ps)
    (shallow : ∀ d ∈ rowDiagnostics start ps, d.kind ≠ .groupTooDeep) :
    RowLegal levels' inGroup' rest ps := by
  match ps with
  | [] => trivial
  | p :: ps =>
    obtain ⟨legal, -, row⟩ := row
    obtain ⟨first, others⟩ := Nat.max_le.mp nested
    have rest : RowLegal levels' inGroup' rest ps :=
      row.relevel (start + p.width) others
        (fun inside member => outermost inside (List.mem_cons_of_mem _ member)) fun d member =>
        shallow d (List.mem_append_right _ member)
    exact ⟨legal.relevel start first fun d member => shallow d (List.mem_append_left _ member),
      fun inside stray => outermost inside (stray ▸ List.mem_cons_self), rest⟩

end

end Phrase

end PatternTree
