import PatternTree.CommandLine.Session
import PatternTree.Proofs.CommandLine.Lines

/-!
Sessions over the standard input. Main statement: what a session leaves behind is put together from
the inspections of its lines, each on its own, up to the first line that is no text.
-/

namespace PatternTree

theorem Diagnostic.report_append (ds es : List Diagnostic) :
    report (ds ++ es) = report ds ++ report es := by
  rw [report, List.map_append, String.join_append]
  rfl

namespace CommandLine.Settings

variable (s : Settings)

-- ═══════════════════════════════════════════════════════════════
-- Inspections put together
-- ═══════════════════════════════════════════════════════════════

/-- What the inspection of a pattern prints on its own. -/
def alone (text : String) : Transcript := s.inspect .empty text

def outputs (texts : List String) : String :=
  String.join (texts.map fun text => (s.alone text).output)

def diagnostics (texts : List String) : List Diagnostic :=
  texts.flatMap fun text => (Pattern.ofText text s.unicode).parse.diagnostics

/-- A run on a pattern that is given as such prints what its inspection does. -/
theorem run_single {text : String} (given : text ≠ "-") (input : List UInt8) :
    { s with pattern := text, denyDiagnostics := false }.run input =
      ⟨0, s.outputs [text], Diagnostic.report (s.diagnostics [text])⟩ := by
  rw [run, if_neg given, outputs, diagnostics, List.map_singleton, List.flatMap_singleton,
    String.join_cons, String.join_nil, String.append_empty]
  exact congrArg (Outcome.mk 0 _) String.empty_append

theorem inspect_eq (t : Transcript) (text : String) :
    s.inspect t text = ⟨t.output ++ (s.alone text).output,
      t.errors ++ Diagnostic.report (Pattern.ofText text s.unicode).parse.diagnostics,
      t.reported + (Pattern.ofText text s.unicode).parse.diagnostics.length⟩ := by
  simp only [alone, inspect, Transcript.empty, String.empty_append, String.append_assoc]

/-- Inspecting texts one after the other adds up what each prints on its own. -/
theorem inspectLines_texts (t : Transcript) (texts : List String) (lines : List (Option String)) :
    s.inspectLines t (texts.map some ++ lines) =
      s.inspectLines ⟨t.output ++ s.outputs texts,
        t.errors ++ Diagnostic.report (s.diagnostics texts),
        t.reported + (s.diagnostics texts).length⟩ lines := by
  induction texts generalizing t with
  | nil =>
    change _ = s.inspectLines ⟨t.output ++ "", t.errors ++ "", t.reported⟩ lines
    rw [String.append_empty, String.append_empty]
    rfl
  | cons text texts ih =>
    rw [List.map_cons, List.cons_append, inspectLines, ih, inspect_eq]
    simp only [outputs, diagnostics, List.map_cons, List.flatMap_cons, String.join_cons,
      Diagnostic.report_append, List.length_append, String.append_assoc, Nat.add_assoc]

-- ═══════════════════════════════════════════════════════════════
-- Sessions
-- ═══════════════════════════════════════════════════════════════

/-- What is left behind by a session over lines, told from what the texts in it are on their own.
A line that is no text ends it, whatever follows. -/
inductive Leaves : List (List UInt8) → Outcome → Prop
  | accepted (texts : List String)
      (tolerated : ¬(s.denyDiagnostics ∧ 0 < (s.diagnostics texts).length)) :
      Leaves (texts.map textBytes)
        ⟨0, s.outputs texts, Diagnostic.report (s.diagnostics texts)⟩
  | denied (texts : List String) (deny : s.denyDiagnostics)
      (reported : 0 < (s.diagnostics texts).length) :
      Leaves (texts.map textBytes)
        ⟨1, s.outputs texts, Diagnostic.report (s.diagnostics texts) ++
          s!"Error: \"{(s.diagnostics texts).length} diagnostic(s) reported\"\n"⟩
  | unreadable (texts : List String) {line : List UInt8} (after : List (List UInt8))
      (noText : ∀ text, textBytes text ≠ line) :
      Leaves (texts.map textBytes ++ line :: after)
        ⟨1, s.outputs texts, Diagnostic.report (s.diagnostics texts) ++
          "Error: Error \x7b kind: InvalidData, message: \"stream did not contain valid UTF-8\" \x7d\n"⟩

theorem exists_leaves (lines : List (List UInt8)) : ∃ o, s.Leaves lines o := by
  rcases exists_texts lines with ⟨texts, rfl⟩ | ⟨texts, line, after, rfl, noText⟩
  · by_cases deny : s.denyDiagnostics ∧ 0 < (s.diagnostics texts).length
    · exact ⟨_, .denied texts deny.1 deny.2⟩
    · exact ⟨_, .accepted texts deny⟩
  · exact ⟨_, .unreadable texts after noText⟩

theorem textLines_eq {input : List UInt8} {texts : List String} {lines : List (List UInt8)}
    (cut : CutInto input (texts.map textBytes ++ lines)) :
    textLines input =
      texts.map some ++ lines.map fun line => String.fromUTF8? line.toByteArray := by
  have read : (fun line => String.fromUTF8? line.toByteArray) ∘ textBytes = some :=
    funext fromUTF8?_textBytes
  rw [textLines, cut.linesFrom_eq, List.map_append, List.map_map, read]

variable {s}

theorem Leaves.run_eq {input : List UInt8} {lines : List (List UInt8)} {o : Outcome}
    (piped : s.pattern = "-") (cut : CutInto input lines) (leaves : s.Leaves lines o) :
    s.run input = o := by
  have session (texts : List String) (rest : List (List UInt8))
      (cut : CutInto input (texts.map textBytes ++ rest)) :
      s.inspectLines .empty (textLines input) =
        s.inspectLines ⟨s.outputs texts, Diagnostic.report (s.diagnostics texts),
          (s.diagnostics texts).length⟩
          (rest.map fun line => String.fromUTF8? line.toByteArray) := by
    rw [textLines_eq cut, inspectLines_texts]
    simp only [Transcript.empty, String.empty_append, Nat.zero_add]
  rw [run, if_pos piped]
  cases leaves with
  | accepted texts tolerated =>
    rw [session texts [] (by simpa using cut), List.map_nil, inspectLines]
    simp [conclude, tolerated]
  | denied texts deny reported =>
    rw [session texts [] (by simpa using cut), List.map_nil, inspectLines]
    simp [conclude, deny, reported]
  | unreadable texts after noText =>
    rw [session texts _ cut, List.map_cons, fromUTF8?_eq_none noText, inspectLines]
    rfl

/-- **Sessions over the standard input.** Every input is cut into lines in one way, and what a
session over it leaves behind is exactly what its lines leave behind, put together from their
inspections on their own. -/
theorem run_piped (s : Settings) (piped : s.pattern = "-") (input : List UInt8) :
    (∃! lines, CutInto input lines) ∧
      ∀ lines, CutInto input lines → ∀ o, s.Leaves lines o ↔ (Request.inspect s).run input = o := by
  refine ⟨⟨_, cutInto_iff.mpr rfl, fun lines cut => (cutInto_iff.mp cut).symm⟩,
    fun lines cut o => ⟨Leaves.run_eq piped cut, ?_⟩⟩
  rintro rfl
  obtain ⟨o, leaves⟩ := s.exists_leaves lines
  have same : (Request.inspect s).run input = o := leaves.run_eq piped cut
  rwa [same]

/-- The law where a diagnostic is denied, where an unreadable line comes before that, and where one
is tolerated, with the tree shown in full. -/
theorem run_piped_denied :
    let denied : Outcome := ⟨1, "a\n\nb\\r\n",
      "[ERROR] (1, 2): Unopened group\nError: \"1 diagnostic(s) reported\"\n"⟩
    let unreadable : Outcome := ⟨1, "a\n",
      "[ERROR] (1, 2): Unopened group\nError: Error \x7b kind: InvalidData, " ++
        "message: \"stream did not contain valid UTF-8\" \x7d\n"⟩
    let tolerated : Outcome := ⟨0, "\n".intercalate
      ["SubExpression(", "    SubExpression \x7b", "        body: [],", "        span: Span \x7b",
        "            start: 0,", "            end: 2,", "        \x7d,", "    \x7d,", ")", ""],
      "[ERROR] (0, 1): Unopened group\n[ERROR] (1, 2): Invalid target for quantifier\n"⟩
    (Request.inspect ⟨"-", false, .regex, true⟩).run [97, 41, 13, 10, 10, 98, 13] = denied ∧
      (Request.inspect ⟨"-", false, .regex, true⟩).run [97, 41, 10, 255, 10, 40] = unreadable ∧
      (Request.inspect ⟨"-", true, .debug, false⟩).run [41, 42, 10] = tolerated := by
  intro denied unreadable tolerated
  let strict : Settings := ⟨"-", false, .regex, true⟩
  let lenient : Settings := ⟨"-", true, .debug, false⟩
  have leavesDenied : strict.Leaves (["a)", "", "b\r"].map textBytes) denied := by
    have shown : strict.outputs ["a)", "", "b\r"] = denied.output := by decide +kernel
    have total : (strict.diagnostics ["a)", "", "b\r"]).length = 1 := by decide +kernel
    have errors : Diagnostic.report (strict.diagnostics ["a)", "", "b\r"]) ++
        s!"Error: \"{1} diagnostic(s) reported\"\n" = denied.errors := by decide +kernel
    have leaves : strict.Leaves _ _ := .denied ["a)", "", "b\r"] rfl (by decide +kernel)
    rwa [shown, total, errors] at leaves
  have leavesUnreadable : strict.Leaves (["a)"].map textBytes ++ [[255], [40]]) unreadable := by
    have noText (text : String) : textBytes text ≠ [255] := by
      intro bytes
      have read := bytes ▸ fromUTF8?_textBytes text
      have unread : String.fromUTF8? [255].toByteArray = none := by decide +kernel
      cases unread.symm.trans read
    have shown : strict.outputs ["a)"] = unreadable.output := by decide +kernel
    have errors : Diagnostic.report (strict.diagnostics ["a)"]) ++
        "Error: Error \x7b kind: InvalidData, message: \"stream did not contain valid UTF-8\" \x7d\n" =
          unreadable.errors := by decide +kernel
    have leaves : strict.Leaves _ _ := .unreadable ["a)"] [[40]] noText
    rwa [shown, errors] at leaves
  have leavesTolerated : lenient.Leaves ([")*"].map textBytes) tolerated := by
    have shown : lenient.outputs [")*"] = tolerated.output := by decide +kernel
    have errors : Diagnostic.report (lenient.diagnostics [")*"]) = tolerated.errors := by
      decide +kernel
    have leaves : lenient.Leaves _ _ := .accepted [")*"] (by simp [lenient])
    rwa [shown, errors] at leaves
  exact ⟨((run_piped strict rfl _).2 _ (cutInto_iff.mpr (by decide +kernel)) _).mp leavesDenied,
    ((run_piped strict rfl _).2 _ (cutInto_iff.mpr (by decide +kernel)) _).mp leavesUnreadable,
    ((run_piped lenient rfl _).2 _ (cutInto_iff.mpr (by decide +kernel)) _).mp leavesTolerated⟩

end CommandLine.Settings

end PatternTree
