/-!
The lines of an input. A line ends with a line feed, or with a carriage return and a line feed;
the last one may lack its end.
-/

namespace PatternTree.CommandLine

/-- A line, given backwards, without the carriage return before its line feed. -/
def dropReturn : List UInt8 → List UInt8
  | 13 :: line => line
  | line => line

/-- The lines of an input of which the first has begun with `begun`, given backwards. -/
def linesFrom (begun : List UInt8) : List UInt8 → List (List UInt8)
  | [] => if begun = [] then [] else [begun.reverse]
  | 10 :: bytes => (dropReturn begun).reverse :: linesFrom [] bytes
  | b :: bytes => linesFrom (b :: begun) bytes

/-- The lines as texts; a line that is not UTF-8 is no text. -/
def textLines (input : List UInt8) : List (Option String) :=
  (linesFrom [] input).map fun line => String.fromUTF8? line.toByteArray

end PatternTree.CommandLine
