import PatternTree.Pattern
import PatternTree.Proofs.Tree.Shape
import PatternTree.Proofs.Tree.WellFormed

/-!
The grammar of patterns, over tokens and apart from any way to read them:

    expression   ::= alternative ("|" alternative)*
    alternative  ::= item*
    item         ::= prefix quantifier*
    prefix       ::= "^" | "$" | "." | set | group | character
    quantifier   ::= ("?" | "*" | "+" | range) "?"?
    range        ::= "{" digit+ ("," digit*)? "}"
    group        ::= "(" modifier? expression ")"
    modifier     ::= "?:" | "?=" | "?!" | "?<=" | "?<!" | "?<" name ">"
    set          ::= "[" "^"? (character | character "-" character)* "]"

Each rule relates the tokens before it, the tokens after it, and what it stands for, a tree without
spans. Where the rules leave a choice, a condition on what comes next makes it.
-/

namespace PatternTree

/-- The tokens of characters that are written bare. -/
def Token.Kind.bareRow (cs : List Char) : List Token.Kind := cs.map (.character · false)

/-- What the token of a character stands for outside sets. A brace or a closing bracket that has no
role stands for itself. -/
def Token.Kind.bodyGlyph? : Token.Kind → Option Glyph
  | .character c _ => some (.literal c)
  | .shorthand s => some (.shorthand s)
  | .mark .closeBracket => some (.literal ']')
  | .mark .openBrace => some (.literal '\x7b')
  | .mark .closeBrace => some (.literal '\x7d')
  | _ => none

/-- What a token stands for inside a set. All but the closing bracket stand for characters. -/
def Token.Kind.setGlyph? : Token.Kind → Option Glyph
  | .mark .closeBracket | .invalid | .finish => none
  | .mark m => some (.literal m.char)
  | .character c _ => some (.literal c)
  | .shorthand .wordBoundary => some (.literal Control.backspace)
  | .shorthand s => some (.shorthand s)

/-- An item in quantifiers, the first of them innermost, without spans. -/
def Item.inQuantifiers (i : Item) (qs : List Quantifier) : Item :=
  qs.foldl (fun i q => .quantified i q .blank) i

-- ═══════════════════════════════════════════════════════════════
-- Quantifiers
-- ═══════════════════════════════════════════════════════════════

namespace Grammar

/-- Digits that write a count which a quantifier can hold. -/
def Count (digits : List Char) (n : UInt32) : Prop :=
  digits ≠ [] ∧ (∀ d ∈ digits, d.isDigit) ∧ countValue digits = n.toNat

inductive Range : List Token.Kind → List Token.Kind → UInt32 → Option UInt32 → Prop
  | exactly {digits : List Char} {n : UInt32} {rest : List Token.Kind} (count : Count digits n) :
    Range (.mark .openBrace :: (Token.Kind.bareRow digits ++ .mark .closeBrace :: rest)) rest
      n (some n)
  | atLeast {digits : List Char} {n : UInt32} {rest : List Token.Kind} (count : Count digits n) :
    Range (.mark .openBrace :: (Token.Kind.bareRow digits ++
      .character ',' false :: .mark .closeBrace :: rest)) rest n none
  | between {first second : List Char} {m n : UInt32} {rest : List Token.Kind}
    (least : Count first m) (most : Count second n) :
    Range (.mark .openBrace :: (Token.Kind.bareRow first ++ .character ',' false ::
      (Token.Kind.bareRow second ++ .mark .closeBrace :: rest))) rest m (some n)

inductive Bounds : List Token.Kind → List Token.Kind → UInt32 → Option UInt32 → Prop
  | question {rest : List Token.Kind} : Bounds (.mark .question :: rest) rest 0 (some 1)
  | star {rest : List Token.Kind} : Bounds (.mark .star :: rest) rest 0 none
  | plus {rest : List Token.Kind} : Bounds (.mark .plus :: rest) rest 1 none
  | range {input rest : List Token.Kind} {m : UInt32} {n : Option UInt32}
    (range : Range input rest m n) : Bounds input rest m n

/-- A question mark right after the bounds is the lazy mark of the quantifier. Bounds are in
order. -/
inductive Quantified : List Token.Kind → List Token.Kind → Quantifier → Prop
  | lazy {input rest : List Token.Kind} {m : UInt32} {n : Option UInt32}
    (bounds : Bounds input (.mark .question :: rest) m n)
    (ordered : (Quantifier.mk m n true).Ordered) : Quantified input rest ⟨m, n, true⟩
  | greedy {input rest : List Token.Kind} {m : UInt32} {n : Option UInt32}
    (bounds : Bounds input rest m n) (bare : rest.head? ≠ some (.mark .question))
    (ordered : (Quantifier.mk m n false).Ordered) : Quantified input rest ⟨m, n, false⟩

/-- The quantifiers after an item. A brace that opens a range there is a quantifier. -/
inductive Quantifiers : List Token.Kind → List Token.Kind → List Quantifier → Prop
  | nil {input : List Token.Kind} (none : ¬∃ rest m n, Range input rest m n) :
    Quantifiers input input []
  | cons {input middle rest : List Token.Kind} {q : Quantifier} {qs : List Quantifier}
    (first : Quantified input middle q) (more : Quantifiers middle rest qs) :
    Quantifiers input rest (q :: qs)

-- ═══════════════════════════════════════════════════════════════
-- Sets
-- ═══════════════════════════════════════════════════════════════

/-- Whether a bare dash and a character that can end a range come next. -/
def RangeFollows (input : List Token.Kind) : Prop :=
  ∃ last rest, input = .character '-' false :: last :: rest ∧ last.setGlyph?.isSome ∧
    last ≠ .mark .openBracket

/-- The members of a set. The ends of a range are in order. -/
inductive Members : List Token.Kind → List Token.Kind → List Member → Prop
  | nil {rest : List Token.Kind} : Members rest rest []
  | single {k : Token.Kind} {input rest : List Token.Kind} {g : Glyph} {ms : List Member}
    (character : k.setGlyph? = some g) (alone : ¬RangeFollows input)
    (more : Members input rest ms) : Members (k :: input) rest (.single ⟨g, .blank⟩ :: ms)
  | range {first last : Token.Kind} {input rest : List Token.Kind} {g h : Glyph}
    {ms : List Member} (low : first.setGlyph? = some g) (high : last.setGlyph? = some h)
    (closes : last ≠ .mark .openBracket) (inOrder : g.InOrder h)
    (more : Members input rest ms) :
    Members (first :: .character '-' false :: last :: input) rest
      (.range ⟨g, .blank⟩ ⟨h, .blank⟩ .blank :: ms)

/-- A caret right after the bracket inverts the set. -/
inductive Set : List Token.Kind → List Token.Kind → CharSet → Prop
  | inverted {input rest : List Token.Kind} {ms : List Member}
    (members : Members input (.mark .closeBracket :: rest) ms) :
    Set (.mark .openBracket :: .mark .caret :: input) rest ⟨true, ms, .blank⟩
  | plain {input rest : List Token.Kind} {ms : List Member}
    (bare : input.head? ≠ some (.mark .caret))
    (members : Members input (.mark .closeBracket :: rest) ms) :
    Set (.mark .openBracket :: input) rest ⟨false, ms, .blank⟩

-- ═══════════════════════════════════════════════════════════════
-- Groups
-- ═══════════════════════════════════════════════════════════════

/-- What follows the parenthesis of a group. A question mark there begins a modifier. -/
inductive Modifier : List Token.Kind → List Token.Kind → GroupKind → Prop
  | capture {rest : List Token.Kind} (bare : rest.head? ≠ some (.mark .question)) :
    Modifier rest rest .capture
  | grouping {rest : List Token.Kind} :
    Modifier (.mark .question :: .character ':' false :: rest) rest .grouping
  | ahead {rest : List Token.Kind} :
    Modifier (.mark .question :: .character '=' false :: rest) rest (.look .ahead)
  | notAhead {rest : List Token.Kind} :
    Modifier (.mark .question :: .character '!' false :: rest) rest (.look .notAhead)
  | behind {rest : List Token.Kind} :
    Modifier (.mark .question :: .character '<' false :: .character '=' false :: rest) rest
      (.look .behind)
  | notBehind {rest : List Token.Kind} :
    Modifier (.mark .question :: .character '<' false :: .character '!' false :: rest) rest
      (.look .notBehind)
  | named {name : String} {rest : List Token.Kind} (valid : Text.isName name.toList) :
    Modifier (.mark .question :: .character '<' false ::
      (Token.Kind.bareRow name.toList ++ .character '>' false :: rest)) rest (.named name)

-- ═══════════════════════════════════════════════════════════════
-- Expressions
-- ═══════════════════════════════════════════════════════════════

mutual

/-- The alternatives of an expression in which groups nest no deeper than so many levels. -/
inductive Alternatives :
    Nat → List Token.Kind → List Token.Kind → Branch → List Branch → Prop
  | last {levels : Nat} {input rest : List Token.Kind} {items : List Item}
    (row : Row levels input rest items) : Alternatives levels input rest ⟨items, .blank⟩ []
  | more {levels : Nat} {input middle rest : List Token.Kind} {items : List Item}
    {next : Branch} {others : List Branch} (row : Row levels input (.mark .bar :: middle) items)
    (more : Alternatives levels middle rest next others) :
    Alternatives levels input rest ⟨items, .blank⟩ (next :: others)

inductive Row : Nat → List Token.Kind → List Token.Kind → List Item → Prop
  | nil {levels : Nat} {rest : List Token.Kind} : Row levels rest rest []
  | cons {levels : Nat} {input inside middle rest : List Token.Kind} {i : Item}
    {qs : List Quantifier} {items : List Item} (first : Prefix levels input inside i)
    (quantifiers : Quantifiers inside middle qs) (few : qs.length ≤ maxStacked)
    (more : Row levels middle rest items) : Row levels input rest (i.inQuantifiers qs :: items)

inductive Prefix : Nat → List Token.Kind → List Token.Kind → Item → Prop
  | lineStart {levels : Nat} {rest : List Token.Kind} :
    Prefix levels (.mark .caret :: rest) rest (.lineStart .blank)
  | lineEnd {levels : Nat} {rest : List Token.Kind} :
    Prefix levels (.mark .dollar :: rest) rest (.lineEnd .blank)
  | anyCharacter {levels : Nat} {rest : List Token.Kind} :
    Prefix levels (.mark .dot :: rest) rest (.anyCharacter .blank)
  | character {levels : Nat} {k : Token.Kind} {rest : List Token.Kind} {g : Glyph}
    (character : k.bodyGlyph? = some g) : Prefix levels (k :: rest) rest (.character ⟨g, .blank⟩)
  | set {levels : Nat} {input rest : List Token.Kind} {s : CharSet} (set : Set input rest s) :
    Prefix levels input rest (.set s)
  | group {levels : Nat} {input inside rest : List Token.Kind} {kind : GroupKind}
    {first : Branch} {others : List Branch} (modifier : Modifier input inside kind)
    (body : Alternatives levels inside (.mark .closeParen :: rest) first others) :
    Prefix (levels + 1) (.mark .openParen :: input) rest
      (.group kind (Expression.ofBranches first others) .blank)

end

/-- The tokens derive from the rule of expressions, and the derivation is the tree, with its
alternatives folded to the left. -/
def Derives (input : List Token.Kind) (e : Expression) : Prop :=
  ∃ first others, Alternatives maxDepth input [] first others ∧
    e = Expression.ofBranches first others

end Grammar

end PatternTree
