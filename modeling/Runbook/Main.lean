import Runbook.Report

/-!
# The command line

`run --plan FILE [--input FILE] [--compact] [--verbose]` and
`explain --plan FILE [--input FILE] [--verbose]`; without an input file the standard input is read.
-/

namespace Runbook.CommandLine

structure Arguments where
  action : Option Action
  plan : Option String
  input : Option String
  compact : Bool

def Arguments.initial : Arguments := ⟨none, none, none, false⟩

def parse? (arguments : Arguments) : List String → Option Arguments
  | [] => some arguments
  | "--plan" :: path :: rest => parse? { arguments with plan := some path } rest
  | "--input" :: path :: rest => parse? { arguments with input := some path } rest
  | "--compact" :: rest => parse? { arguments with compact := true } rest
  | "--verbose" :: rest => parse? arguments rest
  | "-v" :: rest => parse? arguments rest
  | word :: rest =>
    match arguments.action, word with
    | none, "run" => parse? { arguments with action := some (.run false) } rest
    | none, "explain" => parse? { arguments with action := some .explain } rest
    | _, _ => none

def Arguments.command? (arguments : Arguments) : Option (Action × String × Option String) := do
  let plan ← arguments.plan
  match ← arguments.action with
  | .run _ => return (.run arguments.compact, plan, arguments.input)
  | .explain => if arguments.compact then none else return (.explain, plan, arguments.input)

def usage : String :=
  "Usage: run --plan FILE [--input FILE] [--compact] [--verbose]\n" ++
    "       explain --plan FILE [--input FILE] [--verbose]"

def readFile (path : String) : IO Source := do
  let text ←
    try
      let text ← IO.FS.readFile path
      pure (some text)
    catch _ => pure none
  return ⟨some path, text⟩

partial def readAll (stream : IO.FS.Stream) (before : String) : IO String := do
  let line ← stream.getLine
  if line.isEmpty then return before else readAll stream (before ++ line)

def readStandardInput : IO Source := do
  let text ←
    try
      let text ← readAll (← IO.getStdin) ""
      pure (some text)
    catch _ => pure none
  return ⟨none, text⟩

end Runbook.CommandLine

open Runbook in
def main (arguments : List String) : IO UInt32 := do
  match (CommandLine.parse? .initial arguments).bind (·.command?) with
  | none =>
    IO.eprintln CommandLine.usage
    return 2
  | some (action, plan, input) =>
    let plan ← CommandLine.readFile plan
    let input ←
      match input with
      | some path => CommandLine.readFile path
      | none => CommandLine.readStandardInput
    let output := Report.output action plan input
    IO.print output.stdout
    IO.eprint output.stderr
    return output.code.toUInt32
