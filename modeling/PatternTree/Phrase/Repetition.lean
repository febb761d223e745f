import PatternTree.Diagnostic
import PatternTree.Expression

/-!
Repetitions: the quantifiers after an item as they are written. Reading them needs no position,
and each is the text it was read from; what it means is said by `quantifier`.
-/

namespace PatternTree

/-- The written form of how often something repeats. Counts keep their digits. -/
inductive Amount
  | zeroOrOne
  | zeroOrMore
  | oneOrMore
  | exactly (count : List Char)
  | atLeast (count : List Char)
  | between (first second : List Char)
deriving DecidableEq

structure Repetition where
  amount : Amount
  lazy : Bool
deriving DecidableEq

/-- The largest count that a quantifier can hold. -/
def maxCount : Nat := 4294967295

/-- The most quantifiers that one item keeps. -/
def maxStacked : Nat := 16

/-- The number that decimal digits write. -/
def countValue (digits : List Char) : Nat := Nat.ofDigitChars 10 digits 0

/-- Whether digits write a count that a quantifier can hold. -/
def isCount (digits : List Char) : Bool := digits ≠ [] && countValue digits ≤ maxCount

namespace Amount

/-- Reads what follows an opening brace. -/
def readBraces? (ls : List Lexeme) : Option (Amount × List Lexeme) :=
  let first := Lexeme.run Char.isDigit ls
  if isCount first.1 then
    match first.2 with
    | .mark .closeBrace :: rest => some (exactly first.1, rest)
    | .plain ',' :: more =>
      let second := Lexeme.run Char.isDigit more
      match second.2 with
      | .mark .closeBrace :: rest =>
        if second.1 = [] then some (atLeast first.1, rest)
        else if isCount second.1 then some (between first.1 second.1, rest)
        else none
      | _ => none
    | _ => none
  else none

def read? : List Lexeme → Option (Amount × List Lexeme)
  | .mark .question :: rest => some (zeroOrOne, rest)
  | .mark .star :: rest => some (zeroOrMore, rest)
  | .mark .plus :: rest => some (oneOrMore, rest)
  | .mark .openBrace :: rest => readBraces? rest
  | _ => none

theorem length_readBraces? {ls rest : List Lexeme} {a : Amount}
    (read : readBraces? ls = some (a, rest)) : rest.length < ls.length := by
  have bound := Lexeme.length_run_le Char.isDigit ls
  unfold readBraces? at read
  grind [Lexeme.length_run_le]

theorem length_read? {ls rest : List Lexeme} {a : Amount}
    (read : read? ls = some (a, rest)) : rest.length < ls.length := by
  unfold read? at read
  split at read
  case h_4 after =>
    have := length_readBraces? read
    simp only [List.length_cons]
    omega
  all_goals grind

def width : Amount → Nat
  | zeroOrOne | zeroOrMore | oneOrMore => 1
  | exactly n => n.length + 2
  | atLeast n => n.length + 3
  | between m n => m.length + n.length + 3

/-- Whether the second count of two is below the first. -/
def reversed : Amount → Bool
  | between m n => countValue n < countValue m
  | _ => false

/-- The least and the greatest number of repetitions. Reversed counts change places. -/
def bounds : Amount → UInt32 × Option UInt32
  | zeroOrOne => (0, some 1)
  | zeroOrMore => (0, none)
  | oneOrMore => (1, none)
  | exactly n => (.ofNat (countValue n), some (.ofNat (countValue n)))
  | atLeast n => (.ofNat (countValue n), none)
  | between m n =>
    if countValue n < countValue m then (.ofNat (countValue n), some (.ofNat (countValue m)))
    else (.ofNat (countValue m), some (.ofNat (countValue n)))

end Amount

namespace Repetition

/-- Takes a lazy mark if one stands first. -/
def readLazy : List Lexeme → Bool × List Lexeme
  | .mark .question :: rest => (true, rest)
  | ls => (false, ls)

theorem length_readLazy (ls : List Lexeme) : (readLazy ls).2.length ≤ ls.length := by
  unfold readLazy
  split <;> simp

/-- Reads one quantifier. An opening brace without complete bounds after it starts none. -/
def read? (ls : List Lexeme) : Option (Repetition × List Lexeme) :=
  match Amount.read? ls with
  | some (amount, rest) => some (⟨amount, (readLazy rest).1⟩, (readLazy rest).2)
  | none => none

theorem length_read? {ls rest : List Lexeme} {r : Repetition}
    (read : read? ls = some (r, rest)) : rest.length < ls.length := by
  unfold read? at read
  split at read
  next amount after found =>
    cases read
    have := Amount.length_read? found
    have := length_readLazy after
    omega
  next => cases read

/-- Reads quantifiers until something else follows. -/
def readAll (ls : List Lexeme) : List Repetition × List Lexeme :=
  match found : read? ls with
  | some (r, rest) =>
    have : rest.length < ls.length := length_read? found
    let more := readAll rest
    (r :: more.1, more.2)
  | none => ([], ls)
termination_by ls.length

theorem length_readAll (ls : List Lexeme) : (readAll ls).2.length ≤ ls.length := by
  fun_induction readAll ls with
  | case1 ls r rest found shorter more ih => exact Nat.le_trans ih (Nat.le_of_lt shorter)
  | case2 => exact Nat.le_refl _

def width (r : Repetition) : Nat := r.amount.width + r.lazy.toNat

def quantifier (r : Repetition) : Quantifier := ⟨r.amount.bounds.1, r.amount.bounds.2, r.lazy⟩

/-- The number of characters that quantifiers take up together. -/
def rowWidth : List Repetition → Nat
  | [] => 0
  | r :: rs => r.width + rowWidth rs

/-- Wraps an item, read from `start` on and ending at `stop`, in each quantifier in turn. -/
def wrapAll (start : Nat) (item : Item) (stop : Nat) : List Repetition → Item
  | [] => item
  | r :: rs =>
    wrapAll start (.quantified item r.quantifier ⟨start, stop + r.width⟩) (stop + r.width) rs

/-- Wraps an item in the quantifiers it keeps. -/
def wrap (start : Nat) (item : Item) (stop : Nat) (rs : List Repetition) : Item :=
  wrapAll start item stop (rs.take maxStacked)

/-- The reversed bounds among quantifiers that start at `start`. -/
def reversals (start : Nat) : List Repetition → List Diagnostic
  | [] => []
  | r :: rs =>
    (if r.amount.reversed then [⟨.reversedBounds, ⟨start, start + r.amount.width⟩⟩] else [])
      ++ reversals (start + r.width) rs

/-- The diagnostics of quantifiers that start at `start`. Those past the most that one item keeps
get one together. -/
def diagnostics (start : Nat) (rs : List Repetition) : List Diagnostic :=
  reversals start rs ++
    if maxStacked < rs.length then
      [⟨.tooManyQuantifiers, ⟨start + rowWidth (rs.take maxStacked), start + rowWidth rs⟩⟩]
    else []

end Repetition

end PatternTree
