import KernelFront.Statement.Fold
import KernelFront.Text.Quoted
import KernelFront.Value.Text

/-!
# Reports of folded sources

`Report.ofSource` folds a source under some options and writes the values in a format. Options can
ask for diagnostics to count as errors, which makes them part of the outcome: an upgraded diagnostic
leaves no output.
-/

namespace KernelFront

/-- What is written for the folded lines. -/
inductive ReportFormat where
  /-- Value and kind, a line each. -/
  | values
  /-- The kind alone. -/
  | kinds
  /-- The whole list of folded lines with their spans and texts, indented. -/
  | debug
  deriving DecidableEq, Repr

namespace ReportFormat

def all : List ReportFormat := [values, kinds, debug]

def name : ReportFormat → String
  | values => "values"
  | kinds => "kinds"
  | debug => "rust dbg"

def ofName? (s : String) : Option ReportFormat := all.find? fun f => f.name == s

end ReportFormat

/-- How a source is compiled. -/
structure Options where
  format : ReportFormat := .values
  /-- Whether a sign before a number belongs to the literal. -/
  signs : Bool := true
  /-- The codes whose diagnostics count as errors. -/
  upgraded : List Code := []
  deriving DecidableEq, Repr

/-- Why options are refused. -/
inductive OptionsError where
  | internalCode (code : Code)
  deriving DecidableEq, Repr

def OptionsError.message : OptionsError → String
  | internalCode code => "Can't upgrade the internal code " ++ code.text ++ " to an error."

namespace Options

/-- Ignored text counts as an error. -/
def strict (o : Options) : Options := { o with upgraded := .trailingCharacters :: o.upgraded }

def upgrade (o : Options) (code : Code) : Options := { o with upgraded := code :: o.upgraded }

/-- Refuses to upgrade the code that is never reported. -/
def validate (o : Options) : Except OptionsError Options :=
  if .unspecified ∈ o.upgraded then .error (.internalCode .unspecified) else .ok o

end Options

namespace Report

/-! ## The indented form -/

/-- A value on three lines. -/
def debugValue (indent : String) (v : Value) : String :=
  v.debugName ++ "(\n" ++ indent ++ "    " ++ v.debugPayload ++ ",\n" ++ indent ++ ")"

/-- A folded line with its fields, indented by one level. -/
def debugLine (line : FoldedStatement) : String :=
  "    FoldedLine \x7b\n" ++
    "        span: " ++ line.span.text ++ ",\n" ++
    "        source: " ++ String.ofList (Quoted.encode line.source.toList) ++ ",\n" ++
    "        value: " ++ debugValue "        " line.value ++ ",\n" ++
    "    \x7d,\n"

/-- The list of folded lines. -/
def debugLines (lines : List FoldedStatement) : String :=
  if lines.isEmpty then "[]" else "[\n" ++ String.join (lines.map debugLine) ++ "]"

/-! ## Formats -/

/-- What a report says of one line, in the formats that say it line by line. -/
def valuesLine (line : FoldedStatement) : String :=
  line.value.text ++ " " ++ line.value.kind.name ++ "\n"

def kindsLine (line : FoldedStatement) : String := line.value.kind.name ++ "\n"

/-- Writes the folded lines in a format. -/
def render (format : ReportFormat) (lines : List FoldedStatement) : String :=
  match format with
  | .values => String.join (lines.map valuesLine)
  | .kinds => String.join (lines.map kindsLine)
  | .debug => debugLines lines ++ "\n"

/-- Folds a source and writes its values. -/
def ofSource (o : Options) (source : Text) : Outcome String :=
  ((foldSource o.signs source).upgrade fun d => d.code ∈ o.upgraded).map (render o.format)

end Report

end KernelFront
