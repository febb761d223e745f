/-!
What a command line asks for. Arguments are read from left to right, and the first that is wrong,
or that asks for the version or for help, decides.
-/

namespace PatternTree.CommandLine

/-- How a tree is shown. -/
inductive Format
  | debug | json | regex
deriving DecidableEq

structure Settings where
  /-- The pattern itself, or a dash for one pattern a line of the standard input. -/
  pattern : String
  unicode : Bool
  format : Format
  denyDiagnostics : Bool

inductive Request
  | version
  | help
  | inspect (s : Settings)

inductive UsageError
  | unknownOption (option : String)
  | repeated (option : String)
  | unexpectedValue (option : String)
  | missingValue (option : String)
  | invalidValue (value : String)
  | extraArgument (argument : String)
  | missingPattern

def UsageError.message : UsageError → String
  | unknownOption option => s!"unknown option: {option}"
  | repeated option => s!"option given more than once: {option}"
  | unexpectedValue option => s!"option takes no value: {option}"
  | missingValue option => s!"option needs a value: {option}"
  | invalidValue value => s!"not a format: {value}"
  | extraArgument argument => s!"unexpected argument: {argument}"
  | missingPattern => "no pattern given"

def Format.ofName? : String → Option Format
  | "debug" => some .debug
  | "json" => some .json
  | "regex" => some .regex
  | _ => none

/-- The settings found so far. -/
structure Draft where
  pattern : Option String
  unicode : Bool
  format : Option Format
  denyDiagnostics : Bool

namespace Draft

def empty : Draft := ⟨none, false, none, false⟩

def setUnicode (d : Draft) : Except UsageError Draft :=
  if d.unicode then .error (.repeated "--unicode") else .ok { d with unicode := true }

def setDeny (d : Draft) : Except UsageError Draft :=
  if d.denyDiagnostics then .error (.repeated "--deny-diagnostics")
  else .ok { d with denyDiagnostics := true }

def setFormat (d : Draft) (value : String) : Except UsageError Draft :=
  match d.format, Format.ofName? value with
  | some _, _ => .error (.repeated "--format")
  | none, some format => .ok { d with format := some format }
  | none, none => .error (.invalidValue value)

def setPattern (d : Draft) (argument : String) : Except UsageError Draft :=
  match d.pattern with
  | some _ => .error (.extraArgument argument)
  | none => .ok { d with pattern := some argument }

def finish (d : Draft) : Except UsageError Request :=
  match d.pattern with
  | some pattern =>
    .ok (.inspect ⟨pattern, d.unicode, d.format.getD .debug, d.denyDiagnostics⟩)
  | none => .error .missingPattern

end Draft

/-- What reading one argument leads to. -/
inductive Step
  | next (d : Draft)
  /-- The argument after this one is the format. -/
  | awaitFormat (d : Draft)
  | answer (r : Request)

/-- Reads a long option, given without its dashes as a name and perhaps a value. -/
def readLong (d : Draft) (name : String) (value : Option String) : Except UsageError Step :=
  match name, value with
  | "format", some value => .next <$> d.setFormat value
  | "format", none => .ok (.awaitFormat d)
  | "unicode", none => .next <$> d.setUnicode
  | "deny-diagnostics", none => .next <$> d.setDeny
  | "version", none => .ok (.answer .version)
  | "help", none => .ok (.answer .help)
  | name, none => .error (.unknownOption name)
  | name, some _ =>
    if name ∈ ["unicode", "deny-diagnostics", "version", "help"] then
      .error (.unexpectedValue name)
    else .error (.unknownOption name)

/-- Reads the letters of short options in one argument. A format takes all letters after its own,
without an equals sign that stands first. -/
def readShort (d : Draft) : List Char → Except UsageError Step
  | [] => .ok (.next d)
  | 'u' :: more =>
    match d.setUnicode with
    | .ok d => readShort d more
    | .error e => .error e
  | ['f'] => .ok (.awaitFormat d)
  | 'f' :: '=' :: value => .next <$> d.setFormat (String.ofList value)
  | 'f' :: value => .next <$> d.setFormat (String.ofList value)
  | 'V' :: _ => .ok (.answer .version)
  | 'h' :: _ => .ok (.answer .help)
  | c :: _ => .error (.unknownOption c.toString)

/-- The name of a long option, and its value if it has one. -/
def splitValue (option : List Char) : String × Option String :=
  (String.ofList (option.takeWhile (· ≠ '=')),
    match option.dropWhile (· ≠ '=') with
    | [] => none
    | _ :: value => some (String.ofList value))

/-- Reads an argument that is not the end of the options. A dash alone is an operand. -/
def readArgument (d : Draft) (argument : String) : Except UsageError Step :=
  match argument.toList with
  | '-' :: '-' :: option => readLong d (splitValue option).1 (splitValue option).2
  | '-' :: c :: more => readShort d (c :: more)
  | _ => .next <$> d.setPattern argument

/-- Whether an argument cannot be the value of the option before it. -/
def isOption (argument : String) : Bool :=
  match argument.toList with
  | '-' :: _ :: _ => true
  | _ => false

def readOperands (d : Draft) : List String → Except UsageError Request
  | [] => d.finish
  | operand :: operands =>
    match d.setPattern operand with
    | .ok d => readOperands d operands
    | .error e => .error e

def readArguments (d : Draft) : List String → Except UsageError Request
  | [] => d.finish
  | "--" :: operands => readOperands d operands
  | argument :: arguments =>
    match readArgument d argument with
    | .ok (.next d) => readArguments d arguments
    | .ok (.answer request) => .ok request
    | .ok (.awaitFormat d) =>
      match arguments with
      | [] => .error (.missingValue "--format")
      | value :: arguments =>
        if isOption value then .error (.missingValue "--format")
        else match d.setFormat value with
          | .ok d => readArguments d arguments
          | .error e => .error e
    | .error e => .error e

def Request.ofArguments (arguments : List String) : Except UsageError Request :=
  readArguments .empty arguments

end PatternTree.CommandLine
