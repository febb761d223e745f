import Mathlib.Data.List.Basic
import PatternTree.CommandLine.Lines

/-!
The lines of an input, told by how it is cut. Main statements: every input is cut into lines in one
way, which is the one it is read in, and a line is read as the text that it is the bytes of.
-/

namespace PatternTree.CommandLine

-- ═══════════════════════════════════════════════════════════════
-- Cutting
-- ═══════════════════════════════════════════════════════════════

/-- An input is cut into lines behind its line feeds. A carriage return before a line feed belongs
to the end of the line; the last line may lack an end. -/
inductive CutInto : List UInt8 → List (List UInt8) → Prop
  | nil : CutInto [] []
  | last {line : List UInt8} (inhabited : line ≠ []) (whole : 10 ∉ line) : CutInto line [line]
  | feed {line input : List UInt8} {lines : List (List UInt8)} (whole : 10 ∉ line)
      (bare : line.getLast? ≠ some 13) (rest : CutInto input lines) :
      CutInto (line ++ 10 :: input) (line :: lines)
  | returnFeed {line input : List UInt8} {lines : List (List UInt8)} (whole : 10 ∉ line)
      (rest : CutInto input lines) : CutInto (line ++ 13 :: 10 :: input) (line :: lines)

theorem dropReturn_of_ne {line : List UInt8} (bare : line.head? ≠ some 13) :
    dropReturn line = line := by
  unfold dropReturn
  split
  · exact absurd rfl bare
  · rfl

theorem linesFrom_cons {b : UInt8} (other : b ≠ 10) (begun input : List UInt8) :
    linesFrom begun (b :: input) = linesFrom (b :: begun) input := by
  rw [linesFrom]
  exact other

/-- What is read of a line before its end is put to what has begun. -/
theorem linesFrom_append {line : List UInt8} (whole : 10 ∉ line) (begun input : List UInt8) :
    linesFrom begun (line ++ input) = linesFrom (line.reverse ++ begun) input := by
  induction line generalizing begun with
  | nil => rfl
  | cons b line ih =>
    obtain ⟨first, whole⟩ := List.ne_and_not_mem_of_not_mem_cons whole
    rw [List.cons_append, linesFrom_cons first.symm, ih whole, List.reverse_cons, List.append_assoc]
    rfl

/-- Lines are read as they are cut. -/
theorem CutInto.linesFrom_eq {input : List UInt8} {lines : List (List UInt8)}
    (cut : CutInto input lines) : linesFrom [] input = lines := by
  induction cut with
  | nil => rfl
  | last inhabited whole =>
    have read := linesFrom_append whole [] []
    rw [List.append_nil, List.append_nil] at read
    rw [read, linesFrom, if_neg (by simpa using inhabited), List.reverse_reverse]
  | feed whole bare rest ih =>
    rw [linesFrom_append whole, List.append_nil, linesFrom, ih,
      dropReturn_of_ne (by simpa using bare), List.reverse_reverse]
  | @returnFeed line input lines whole rest ih =>
    have split : line ++ 13 :: 10 :: input = (line ++ [13]) ++ 10 :: input := by simp
    rw [split, linesFrom_append (by simpa using whole), List.append_nil, linesFrom, ih,
      List.reverse_concat, dropReturn, List.reverse_reverse]

/-- An input is cut into what is read from it, whatever of its first line has begun. -/
theorem cutInto_linesFrom {begun : List UInt8} (whole : 10 ∉ begun) (input : List UInt8) :
    CutInto (begun.reverse ++ input) (linesFrom begun input) := by
  -- What has begun is kept backwards: the carriage return to be dropped is its head.
  fun_induction linesFrom begun input with
  | case1 => exact .nil
  | case2 begun inhabited =>
    rw [List.append_nil]
    exact .last (by simpa using inhabited) (by simpa using whole)
  | case3 begun input ih =>
    have rest : CutInto input (linesFrom [] input) := ih List.not_mem_nil
    by_cases ended : begun.head? = some 13
    · obtain ⟨line, rfl⟩ := List.head?_eq_some_iff.mp ended
      have whole : 10 ∉ line := fun inside => whole (List.mem_cons_of_mem _ inside)
      rw [List.reverse_cons, List.append_assoc]
      exact .returnFeed (by simpa using whole) rest
    · rw [dropReturn_of_ne ended]
      exact .feed (by simpa using whole) (by simpa using ended) rest
  | case4 begun b input other ih =>
    have whole : 10 ∉ b :: begun := List.not_mem_cons_of_ne_of_not_mem (Ne.symm other) whole
    have cut := ih whole
    rwa [List.reverse_cons, List.append_assoc] at cut

/-- Every input is cut into lines in one way. -/
theorem cutInto_iff {input : List UInt8} {lines : List (List UInt8)} :
    CutInto input lines ↔ linesFrom [] input = lines :=
  ⟨CutInto.linesFrom_eq, fun read => read ▸ cutInto_linesFrom List.not_mem_nil input⟩

-- ═══════════════════════════════════════════════════════════════
-- Texts
-- ═══════════════════════════════════════════════════════════════

/-- The bytes of a text. -/
def textBytes (text : String) : List UInt8 := text.toUTF8.data.toList

theorem fromUTF8?_textBytes (text : String) :
    String.fromUTF8? (textBytes text).toByteArray = some text := by
  have bytes : (textBytes text).toByteArray = text.toByteArray :=
    ByteArray.ext (by simp [textBytes])
  rw [bytes]
  exact dif_pos text.isValidUTF8

theorem textBytes_of_fromUTF8? {line : List UInt8} {text : String}
    (read : String.fromUTF8? line.toByteArray = some text) : textBytes text = line := by
  unfold String.fromUTF8? at read
  split at read
  · obtain rfl := Option.some.inj read
    exact List.toList_data_toByteArray
  · cases read

/-- A line that is not the bytes of any text is not read. -/
theorem fromUTF8?_eq_none {line : List UInt8} (noText : ∀ text, textBytes text ≠ line) :
    String.fromUTF8? line.toByteArray = none :=
  Option.eq_none_iff_forall_ne_some.mpr fun text read => noText text (textBytes_of_fromUTF8? read)

/-- Lines up to the first that is no text. -/
theorem exists_texts (lines : List (List UInt8)) :
    (∃ texts : List String, lines = texts.map textBytes) ∨
      ∃ (texts : List String) (line : List UInt8) (after : List (List UInt8)),
        lines = texts.map textBytes ++ line :: after ∧ ∀ text, textBytes text ≠ line := by
  induction lines with
  | nil => exact .inl ⟨[], rfl⟩
  | cons line lines ih =>
    by_cases read : ∃ text, textBytes text = line
    · obtain ⟨text, rfl⟩ := read
      rcases ih with ⟨texts, rfl⟩ | ⟨texts, line, after, rfl, noText⟩
      · exact .inl ⟨text :: texts, rfl⟩
      · exact .inr ⟨text :: texts, line, after, rfl, noText⟩
    · exact .inr ⟨[], line, lines, rfl, not_exists.mp read⟩

end PatternTree.CommandLine
