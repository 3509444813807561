import KernelFront.Statement.Report

/-!
# The command line

`Invocation.parse` reads the arguments of the program, and `Diagnostic.render` writes a diagnostic
with the line and column of its place.
-/

namespace KernelFront

/-- What the program is asked to do; a missing path stands for a standard stream. -/
structure Invocation where
  input : Option String := none
  output : Option String := none
  options : Options := {}
  deriving DecidableEq, Repr

namespace Invocation

/-- A path, or nothing for a dash. -/
def path (s : String) : Option String := if s = "-" then none else some s

/-- The format of an option value, whose words are joined by dashes. -/
def format? (s : String) : Option ReportFormat :=
  ReportFormat.ofName? (s.map fun c => if c = '-' then ' ' else c)

def setFormat (i : Invocation) (s : String) : Except String Invocation :=
  match format? s with
  | some f => .ok { i with options := { i.options with format := f } }
  | none => .error ("unknown format " ++ s)

/-- Reads the arguments from left to right; at most one of them names the input. -/
def parseFrom (i : Invocation) (named : Bool) : List String → Except String Invocation
  | [] => .ok i
  | "--strict" :: rest => parseFrom { i with options := i.options.strict } named rest
  | "--no-sign" :: rest =>
    parseFrom { i with options := { i.options with signs := false } } named rest
  | "-e" :: value :: rest | "--emit" :: value :: rest => do
    parseFrom (← i.setFormat value) named rest
  | "-o" :: value :: rest | "--output" :: value :: rest =>
    parseFrom { i with output := path value } named rest
  | arg :: rest =>
    if named || (arg.startsWith "-" && arg != "-") then .error ("unexpected argument " ++ arg)
    else parseFrom { i with input := path arg } true rest

def parse (args : List String) : Except String Invocation := parseFrom {} false args

end Invocation

/-- The line and the column of a byte offset, both counted from one. -/
def Text.position (line column : Nat) : Nat → Text → Nat × Nat
  | offset, c :: r =>
    if offset < c.utf8Size then (line, column)
    else if c = '\n' then position (line + 1) 1 (offset - c.utf8Size) r
    else position line (column + 1) (offset - c.utf8Size) r
  | _, [] => (line, column)

/-- A diagnostic as it is shown to the user. -/
def Diagnostic.render (name : String) (source : Text) (severity : Severity) (d : Diagnostic) :
    String :=
  let place := fun (s : Span) =>
    let (line, column) := source.position 1 1 s.start
    "  " ++ name ++ ":" ++ toString line ++ ":" ++ toString column
  let word := match severity with
    | .recoverable => "warning"
    | .error => "error"
  let note := fun (n : Note) => "\n" ++ place n.span ++ ": " ++ n.message.getD ""
  word ++ "[" ++ d.code.text ++ "]: " ++ d.message ++ "\n" ++ place d.span ++
    String.join (d.notes.map note)

end KernelFront
