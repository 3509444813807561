import KernelFront.CommandLine

/-!
# The program

Folds the statements of a file or of the standard input and writes the report. Diagnostics go to
the standard error stream; without a value the program fails.
-/

open KernelFront

/-- Reads a stream to its end. -/
partial def readAll (stream : IO.FS.Stream) (acc : String) : IO String := do
  let line ← stream.getLine
  if line.isEmpty then pure acc else readAll stream (acc ++ line)

def main (args : List String) : IO UInt32 := do
  match Invocation.parse args with
  | .error message =>
    IO.eprintln message
    pure 2
  | .ok invocation =>
    let source ← match invocation.input with
      | none => readAll (← IO.getStdin) ""
      | some path => IO.FS.readFile path
    match invocation.options.validate with
    | .error e =>
      IO.eprintln e.message
      pure 1
    | .ok options =>
      let outcome := Report.ofSource options source.toList
      let name := invocation.input.getD "stdin stream"
      for (severity, d) in outcome.diagnostics do
        IO.eprintln (d.render name source.toList severity)
      match outcome.value with
      | none =>
        IO.eprintln "couldn't fold due to the previous errors"
        pure 1
      | some text =>
        match invocation.output with
        | none => IO.print text
        | some path => IO.FS.writeFile path text
        pure 0
