import PatternTree.Proofs.Descent.Ahead
import PatternTree.Proofs.Descent.Entries
import PatternTree.Proofs.Descent.Sets

/-!
The tokens of a set, from its opening bracket to where it ends. Main statement: the descent through
a set consumes them and no others, and each token between the brackets has its place in what is
read.
-/

namespace PatternTree

/-- The tokens of a set. -/
structure SetTokens where
  opening : Token
  caret : Option Token
  inside : List Token
  closing : Token

/-- Whether a set ends at a token. -/
def Token.endsSet (t : Token) : Bool := t.kind = .mark .closeBracket ∨ t.kind = .finish

namespace SetTokens

/-- The tokens ahead begin with those of a set: a caret is part of the opening, and the set goes on
up to the first closing bracket or the end of the text. -/
structure Ahead (x : SetTokens) (input : List Token) : Prop where
  begins : ∃ rest, input = x.opening :: (x.caret.toList ++ (x.inside ++ x.closing :: rest))
  caret : x.caret = input[1]?.filter (·.kind = .mark .caret)
  inside : ∀ t ∈ x.inside, ¬t.endsSet
  closing : x.closing.endsSet

/-- What is inside comes before the first token that ends the set. -/
theorem Ahead.takeWhile_eq {x : SetTokens} {input : List Token} (here : x.Ahead input)
    (rest : List Token) : (x.inside ++ x.closing :: rest).takeWhile (!·.endsSet) = x.inside := by
  rw [List.takeWhile_append_of_pos (by simpa using here.inside),
    List.takeWhile_cons_of_neg (by simpa using here.closing), List.append_nil]

theorem Ahead.unique {x y : SetTokens} {input : List Token} (here : x.Ahead input)
    (there : y.Ahead input) : x = y := by
  have caret : x.caret = y.caret := here.caret.trans there.caret.symm
  obtain ⟨rest, begins⟩ := here.begins
  obtain ⟨rest', begins'⟩ := there.begins
  obtain ⟨opening, tail⟩ := List.cons.inj (begins.symm.trans begins')
  rw [caret] at tail
  have split := List.append_cancel_left tail
  have inside : x.inside = y.inside := by
    rw [← here.takeWhile_eq rest, split, there.takeWhile_eq rest']
  rw [inside] at split
  obtain ⟨closing, -⟩ := List.cons.inj (List.append_cancel_left split)
  cases x
  cases y
  rw [SetTokens.mk.injEq]
  exact ⟨opening, caret, inside, closing⟩

/-- What is wrong with a set, apart from its entries. -/
def unclosed (x : SetTokens) : List Diagnostic :=
  if x.closing.kind = .finish then [⟨.unclosedSet, x.opening.span⟩] else []

end SetTokens

-- ═══════════════════════════════════════════════════════════════
-- Tokens inside
-- ═══════════════════════════════════════════════════════════════

/-- Inside a set, all tokens but a lone backslash stand for characters. -/
theorem Token.setCharacter?_eq_none_iff {t : Token} (inside : ¬t.endsSet) :
    t.setCharacter? = none ↔ t.kind = .invalid := by
  obtain ⟨kind, span⟩ := t
  cases kind with
  | mark m =>
    cases m with
    | closeBracket => exact absurd rfl inside
    | _ => exact iff_of_false (Option.some_ne_none _) (by rintro ⟨⟩)
  | shorthand d => cases d <;> exact iff_of_false (Option.some_ne_none _) (by rintro ⟨⟩)
  | character => exact iff_of_false (Option.some_ne_none _) (by rintro ⟨⟩)
  | invalid => exact iff_of_true rfl rfl
  | finish => exact absurd rfl inside

/-- The tokens of a set that is written from `start` on. One that is not closed ends where the text
does. -/
def Bracket.tokens (start : Nat) (b : Bracket) : SetTokens :=
  let pieces := start + b.openingWidth
  let stop := pieces + Piece.rowWidth b.pieces
  { opening := ⟨.mark .openBracket, ⟨start, start + 1⟩⟩
    caret := if b.inverted then some ⟨.mark .caret, ⟨start + 1, start + 2⟩⟩ else none
    inside := Lexeme.tokens pieces (b.pieces.flatMap Piece.lexemes)
    closing :=
      ⟨if b.closed then .mark .closeBracket else .finish, ⟨stop, stop + b.closed.toNat⟩⟩ }

/-- No token of a set's inside ends the set. -/
theorem Lexeme.not_endsSet_of_mem_tokens {start : Nat} {ls : List Lexeme}
    (bare : .mark .closeBracket ∉ ls) : ∀ t ∈ tokens start ls, ¬t.endsSet := by
  intro t member ends
  have kinds := List.mem_map_of_mem (f := Token.kind) member
  rw [kind_tokens] at kinds
  obtain ⟨l, inside, kind⟩ := List.mem_map.mp kinds
  rw [Token.endsSet, decide_eq_true_iff, ← kind] at ends
  rcases ends with bracket | finish
  · exact bare (kind_eq_mark.mp bracket ▸ inside)
  · exact l.kind_ne_finish finish

theorem Lexeme.head?_tokens_ne_mark {start : Nat} {ls : List Lexeme} {m : Mark}
    (bare : ls.head? ≠ some (.mark m)) {ended : Token} (finish : ended.kind = .finish) :
    (tokens start ls ++ [ended]).head?.filter (·.kind = .mark m) = none := by
  cases ls with
  | nil => simp [tokens, finish]
  | cons l ls =>
    have other : l ≠ .mark m := fun equal => bare (by rw [equal]; rfl)
    simp [tokens, kind_eq_mark, other]

-- ═══════════════════════════════════════════════════════════════
-- Sets as they are written
-- ═══════════════════════════════════════════════════════════════

namespace Bracket

variable {b : Bracket} {rest : List Lexeme} (start : Nat)

/-- The tokens from a set on are its own and those after its inside. -/
theorem tokens_lexemes_append :
    let x := b.tokens start
    Lexeme.tokens start (b.lexemes ++ rest) =
      x.opening :: (x.caret.toList ++ (x.inside ++
        Lexeme.tokens x.closing.span.start (closing .closeBracket b.closed ++ rest))) := by
  obtain ⟨inverted, pieces, closed⟩ := b
  cases inverted <;>
    simp [lexemes, tokens, Lexeme.tokens, Lexeme.tokens_append, openingWidth, Lexeme.width,
      Piece.textWidth_row, Nat.add_assoc]

theorem stop_tokens (b : Bracket) : (b.tokens start).closing.span.stop = start + b.width := by
  simp only [tokens, width, Nat.add_assoc]

theorem isSome_caret_tokens (b : Bracket) : (b.tokens start).caret.isSome = b.inverted := by
  cases inverted : b.inverted <;> simp [tokens, inverted]

theorem unclosed_tokens (b : Bracket) : (b.tokens start).unclosed =
    if b.closed then [] else [⟨.unclosedSet, ⟨start, start + 1⟩⟩] := by
  cases closed : b.closed <;> simp [tokens, SetTokens.unclosed, closed]

theorem caret_tokens (legal : b.Legal rest) {ended : Token} (finish : ended.kind = .finish) :
    (b.tokens start).caret =
      (Lexeme.tokens start (b.lexemes ++ rest) ++ [ended])[1]?.filter (·.kind = .mark .caret) := by
  obtain ⟨bare, -⟩ := legal
  obtain ⟨inverted, pieces, closed⟩ := b
  simp only [lexemes, List.append_assoc, List.cons_append]
  rw [Lexeme.tokens, List.cons_append, List.getElem?_cons_succ, ← List.head?_eq_getElem?]
  cases inverted with
  | true => rfl
  | false => exact (Lexeme.head?_tokens_ne_mark (bare Bool.false_ne_true) finish).symm

theorem exists_closing (ended : b.closed ∨ rest = []) :
    let x := b.tokens start
    ∃ more, Lexeme.tokens x.closing.span.start (closing .closeBracket b.closed ++ rest) ++
      [⟨.finish, .empty (start + textWidth (b.lexemes ++ rest))⟩] = x.closing :: more := by
  have width := b.textWidth_lexemes
  obtain ⟨inverted, pieces, closed⟩ := b
  cases closed with
  | true => exact ⟨_, rfl⟩
  | false =>
    obtain rfl := ended.resolve_left Bool.false_ne_true
    refine ⟨[], ?_⟩
    simp [width, Bracket.width, tokens, Span.empty, closing, Lexeme.tokens, Nat.add_assoc]

theorem danglingLast_inside (b : Bracket) (last : Lexeme.DanglingLast (b.lexemes ++ rest)) :
    Lexeme.DanglingLast
      (b.pieces.flatMap Piece.lexemes ++ (closing .closeBracket b.closed ++ rest)) := by
  rw [lexemes, List.append_assoc, List.append_assoc] at last
  exact last.of_append

end Bracket

namespace Descent

variable {s : State} {rest : List Lexeme} {b : Bracket}

theorem ahead_tokens (legal : b.Legal rest) (here : s.At (b.lexemes ++ rest)) :
    (b.tokens s.cursor.consumed).Ahead s.cursor.ahead := by
  have length : s.cursor.pattern.length = _ := Pattern.length_eq_of_readAt here
  rw [here.ahead_eq]
  refine ⟨?_, Bracket.caret_tokens _ legal rfl, ?_, ?_⟩
  · obtain ⟨more, closes⟩ := Bracket.exists_closing s.cursor.consumed legal.2.2
    refine ⟨more, ?_⟩
    rw [← closes, length, Bracket.tokens_lexemes_append]
    simp only [List.cons_append, List.append_assoc]
  · exact Lexeme.not_endsSet_of_mem_tokens (Piece.closeBracket_not_mem_lexemes legal.2.1)
  · cases closed : b.closed <;> simp [Bracket.tokens, closed, Token.endsSet]

/-- A set is exactly what its tokens say, and they can always be told. Its members are the entries;
their characters in the order of the text are those of the tokens inside, all of them but for a lone
backslash at the end. Nothing is reported but what is wrong with an entry and that the set is not
closed. -/
theorem set_tokens (s : State) (here : s.cursor.current.kind = .mark .openBracket) :
    (∃ x es, SetTokens.Ahead x s.cursor.ahead ∧ Entry.Cut x.inside es) ∧
    ∀ x es, SetTokens.Ahead x s.cursor.ahead → Entry.Cut x.inside es →
      let members := es.filterMap Entry.member?
      set.run s =
        .ok (⟨x.caret.isSome, members, ⟨x.opening.span.start, x.closing.span.stop⟩⟩,
          ⟨⟨s.cursor.pattern, x.closing.span.stop⟩,
            s.diagnostics ++ (es.flatMap Entry.diagnostics ++ x.unclosed), s.depth⟩) ∧
      members.flatMap Member.written = x.inside.filterMap Token.setCharacter? ∧
      (∀ t ∈ x.inside, t.setCharacter? = none ↔ t.kind = .invalid) ∧
      ∀ t ∈ x.inside.dropLast, t.kind ≠ .invalid := by
  obtain ⟨ls, here⟩ := State.exists_at_mark here
  have legal := Bracket.legal_read ls
  rw [← Bracket.lexemes_read ls] at here
  generalize Bracket.read ls = read at here legal
  obtain ⟨b, rest⟩ := read
  have ahead := ahead_tokens legal here
  have cut : Entry.Cut (b.tokens s.cursor.consumed).inside _ := Piece.cut_entries _ legal.2.1
  refine ⟨⟨_, _, ahead, cut⟩, fun x es ahead' cut' => ?_⟩
  -- The tokens and their cut are unique, so they are those of the set that is read.
  obtain rfl := ahead'.unique ahead
  obtain rfl := cut'.unique cut
  have last := b.danglingLast_inside here.danglingLast
  have members : (Piece.entries _ b.pieces).filterMap Entry.member? = _ :=
    Piece.filterMap_member?_entries (s.cursor.consumed + b.openingWidth) legal.2.1
  refine ⟨?_, ?_, fun t member => ?_, last.of_append_left.kind_ne_invalid _⟩
  · rw [set_run legal here, members, Piece.flatMap_diagnostics_entries _ legal.2.1,
      b.stop_tokens, b.isSome_caret_tokens, b.unclosed_tokens]
    rfl
  · rw [members]
    exact Piece.written_members _ legal.2.1 last
  · exact Token.setCharacter?_eq_none_iff (ahead.inside t member)

/-- The law for a set that is not closed, with a reversed range, a dash that begins none, an opening
bracket and a lone backslash. -/
theorem set_tokens_unclosed :
    let s : State := ⟨⟨.ofText "([z-a-[\\" true, 1⟩, [], 1⟩
    s.cursor.current.kind = .mark .openBracket ∧
      set.run s = .ok
        (⟨false,
          [.range ⟨.literal 'a', ⟨4, 5⟩⟩ ⟨.literal 'z', ⟨2, 3⟩⟩ ⟨2, 5⟩,
            .single ⟨.literal '-', ⟨5, 6⟩⟩, .single ⟨.literal '[', ⟨6, 7⟩⟩],
          ⟨1, 8⟩⟩,
        ⟨⟨s.cursor.pattern, 8⟩,
          [⟨.reversedRange, ⟨2, 5⟩⟩, ⟨.unknownPart, ⟨7, 8⟩⟩, ⟨.unclosedSet, ⟨1, 2⟩⟩], 1⟩) := by
  intro s
  have here : s.cursor.current.kind = .mark .openBracket := by decide +kernel
  let b : Bracket := ⟨false, [.range (.plain 'z') (.plain 'a'), .single (.plain '-'),
    .single (.mark .openBracket), .single .dangling], false⟩
  have ahead : (b.tokens 1).Ahead s.cursor.ahead :=
    ⟨⟨[], by decide +kernel⟩, by decide +kernel, by decide, by decide⟩
  have cut : Entry.Cut (b.tokens 1).inside (Piece.entries 2 b.pieces) :=
    .range (by decide) (.single (by decide) (.single (by decide) (.single (by decide) .nil)))
  exact ⟨here, ((set_tokens s here).2 _ _ ahead cut).1⟩

end Descent

end PatternTree
