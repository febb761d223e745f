import PatternTree.CommandLine.Lines
import PatternTree.CommandLine.Settings
import PatternTree.Document.Debug
import PatternTree.Document.Json
import PatternTree.Expression.Document
import PatternTree.Expression.Source
import PatternTree.Parse

/-!
A session: patterns are inspected one after the other, and what is printed adds up. An input line
that is no text ends the session; what was printed before it stays.
-/

namespace PatternTree.CommandLine

/-- What has been printed, and how many diagnostics were reported. -/
structure Transcript where
  output : String
  errors : String
  reported : Nat

/-- What a session leaves behind. -/
structure Outcome where
  exit : Nat
  output : String
  errors : String

def Transcript.empty : Transcript := ⟨"", "", 0⟩

/-- What is shown of a pattern. -/
def Format.write (format : Format) (text : String) (parsed : Parsed) : String :=
  match format with
  | .debug => Debug.pretty parsed.expression.document
  | .json => Json.pretty (.record "Report" [("pattern", .text text),
      ("expression", parsed.expression.document),
      ("diagnostics", Diagnostic.listDocument parsed.diagnostics)])
  | .regex => parsed.expression.text

namespace Settings

/-- Inspects one pattern and adds what that prints. -/
def inspect (s : Settings) (t : Transcript) (text : String) : Transcript :=
  let parsed := (Pattern.ofText text s.unicode).parse
  ⟨t.output ++ s.format.write text parsed ++ "\n",
    t.errors ++ Diagnostic.report parsed.diagnostics,
    t.reported + parsed.diagnostics.length⟩

/-- Inspects one line after the other, up to the first that is no text. The answer says whether
there was none. -/
def inspectLines (s : Settings) (t : Transcript) : List (Option String) → Transcript × Bool
  | [] => (t, true)
  | none :: _ => (t, false)
  | some line :: lines => s.inspectLines (s.inspect t line) lines

/-- The end of a session. An unreadable line outweighs the diagnostics. -/
def conclude (s : Settings) (t : Transcript) (readable : Bool) : Outcome :=
  if !readable then
    ⟨1, t.output, t.errors ++
      "Error: Error \x7b kind: InvalidData, message: \"stream did not contain valid UTF-8\" \x7d\n"⟩
  else if s.denyDiagnostics && 0 < t.reported then
    ⟨1, t.output, t.errors ++ s!"Error: \"{t.reported} diagnostic(s) reported\"\n"⟩
  else ⟨0, t.output, t.errors⟩

def run (s : Settings) (input : List UInt8) : Outcome :=
  if s.pattern = "-" then
    let session := s.inspectLines .empty (textLines input)
    s.conclude session.1 session.2
  else s.conclude (s.inspect .empty s.pattern) true

end Settings

def usage : String :=
  "Parses regular expression patterns and prints their syntax tree.\n\n" ++
  "Usage: [OPTIONS] <PATTERN>\n\n" ++
  "  <PATTERN>              pattern to parse; - reads one pattern per line from stdin\n\n" ++
  "  -u, --unicode          parse in unicode mode\n" ++
  "  -f, --format <FORMAT>  debug (default), json or regex\n" ++
  "      --deny-diagnostics exit with an error when any pattern reports diagnostics\n" ++
  "  -h, --help             print help\n" ++
  "  -V, --version          print version\n"

def Request.run (request : Request) (input : List UInt8) : Outcome :=
  match request with
  | version => ⟨0, "regast 0.1.0\n", ""⟩
  | help => ⟨0, usage, ""⟩
  | inspect s => s.run input

/-- Whether the outcome depends on the standard input. -/
def Request.readsInput : Request → Bool
  | inspect s => s.pattern = "-"
  | _ => false

end PatternTree.CommandLine
