import UzScript.Command.Basic
import UzScript.Command.Status
import UzScript.Session
import UzScript.Syntax.Outline
import UzScript.Syntax.Printer

/-! # Running a script from the command line

The flags only add to what is printed: the tokens and the program before the script's own lines,
and status lines around the run. -/

set_option autoImplicit false

namespace UzScript

def lines (texts : List String) : String := String.join (texts.map (· ++ "\n"))

structure Execution where
  out : String
  failure : Option Failure

def failureOf {α : Type} : Except Failure α → Option Failure
  | .ok _ => none
  | .error failure => some failure

namespace RunOptions

def tokenDump (options : RunOptions) (script : Script) : Except Failure String :=
  if options.has .printTokens then
    match script.lexemes with
    | .error failure => .error failure
    | .ok lexemes => .ok (lines (lexemes.map (·.token.outline.inline)))
  else .ok ""

/-- The program as an outline or as text, if it is asked for; the outline wins. -/
def programDump (options : RunOptions) (program : Program) : String :=
  if options.has .printOutline then lines [program.outline.indented 0]
  else if options.has .printProgram then lines [program.render]
  else ""

def execute (reader : CharReader) (options : RunOptions) (contents : FileContents) : Execution :=
  match Script.load reader options.path contents with
  | .error failure => ⟨"", some failure⟩
  | .ok script =>
    match options.tokenDump script with
    | .error failure => ⟨"", some failure⟩
    | .ok tokens =>
      match script.program with
      | .error failure => ⟨tokens, some failure⟩
      | .ok program =>
        let (result, machine) := Machine.initial.runProgram script program
        ⟨tokens ++ options.programDump program ++ lines machine.output.toList, failureOf result⟩

def opening (options : RunOptions) : Text.Styled :=
  if options.has .quiet then [] else Status.running.line options.path

def closing (renderer : Renderer) (options : RunOptions) (execution : Execution)
    (elapsed : String) : Text.Styled :=
  let report := (execution.failure.map (Failure.report renderer)).getD []
  let status := if execution.failure.isNone then Status.finished else Status.failed
  report ++ if options.has .quiet then [] else status.timed elapsed

end RunOptions

def Execution.exitCode (execution : Execution) : Nat :=
  if execution.failure.isNone then 0 else 1

end UzScript
