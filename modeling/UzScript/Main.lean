import UzScript.Command.Loop
import UzScript.Loading.Utf8
import UzScript.Rendering

/-! # The command line

Reads arguments, files and lines, and writes what the commands answer. -/

set_option autoImplicit false

namespace UzScript.CommandLine

def terminalColor : IO Bool := do
  let noColor ← IO.getEnv "NO_COLOR"
  let term ← IO.getEnv "TERM"
  return (← (← IO.getStderr).isTty) && noColor.isNone && term.isSome && term != some "dumb"

/-- A setting of the environment forces colour unless it is empty. -/
def useColor : IO Bool := do
  match ← IO.getEnv "FORCE_COLOR" with
  | some value => if value.isEmpty then terminalColor else return true
  | none => terminalColor

def writeErr (color : Bool) (marks : Text.Styled) : IO Unit :=
  IO.eprint (marks.render color)

/-- A directory opens like a file and fails when it is read; a path below a file fails when it is
opened. -/
def readContents (path : String) : IO FileContents := do
  try
    return .ok (← IO.FS.readBinFile path).toList
  catch
    | .noFileOrDirectory _ _ _ => return .error .notFound
    | .inappropriateType none _ _ => return .error .isADirectory
    | .inappropriateType (some _) _ _ => return .error .notADirectory
    | .invalidArgument _ _ _ => return .error .invalidName
    | .permissionDenied _ _ _ => return .error .permissionDenied
    | other => throw other

def runFile (color : Bool) (options : RunOptions) : IO UInt32 := do
  writeErr color options.opening
  let started ← IO.monoMsNow
  let execution := options.execute Utf8.reader (← readContents options.path)
  IO.print execution.out
  (← IO.getStdout).flush
  let elapsed := (← IO.monoMsNow) - started
  writeErr color (options.closing Rendering.renderer execution (Elapsed.seconds elapsed))
  return execution.exitCode.toUInt32

partial def readLine (input : IO.FS.Stream) (line : List UInt8) : IO Input := do
  match (← input.read 1).toList with
  | [] => return if line.isEmpty then .endOfInput else .line line.reverse
  | b :: _ => if b = 10 then return .line line.reverse else readLine input (b :: line)

partial def serve (color : Bool) (kind : LoopKind) (machine : Machine) : IO Unit := do
  IO.print LoopKind.prompt
  (← IO.getStdout).flush
  let (response, after) := kind.step Rendering.renderer machine (← readLine (← IO.getStdin) [])
  IO.print response.out
  (← IO.getStdout).flush
  writeErr color response.err
  match after with
  | none => return ()
  | some machine => serve color kind machine

def usage : String :=
  "usage: run [-q] [--print-tokens] [--print-ast] [--debug-ast] [PATH] | rlpl | rppl | repl"

def start (arguments : List String) : IO UInt32 := do
  let color ← useColor
  match Command.ofArguments? arguments with
  | none =>
    IO.eprintln usage
    return 2
  | some (.run options) => runFile color options
  | some (.loop kind) =>
    serve color kind .initial
    return 0

end UzScript.CommandLine

def main (arguments : List String) : IO UInt32 :=
  UzScript.CommandLine.start arguments
