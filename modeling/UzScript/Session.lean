import UzScript.Failure

/-! # Loading and running scripts

A script is read from bytes, parsed, and run on a machine. Running several scripts in turn on one
machine is a session: variables and functions of earlier scripts stay. -/

set_option autoImplicit false

namespace UzScript

namespace Script

def load (reader : CharReader) (path : String) (contents : FileContents) :
    Except Failure Script :=
  match contents with
  | .error cause => .error (.loading cause)
  | .ok bytes =>
    match reader.readAll "" bytes with
    | .error cause => .error (.loading cause)
    | .ok source => .ok ⟨path, source⟩

def lexemes (script : Script) : Except Failure (List Lexeme) :=
  (tokenize script.source).mapError (.lexical script)

def program (script : Script) : Except Failure Program :=
  match script.lexemes with
  | .error failure => .error failure
  | .ok lexemes => (parse lexemes).mapError (.syntactic script)

end Script

namespace Machine

def runProgram (machine : Machine) (script : Script) (program : Program) :
    Except Failure Unit × Machine :=
  let (result, after) := machine.run program
  (result.mapError (.runtime script), after)

/-- Parses and runs a script. If it does not parse, the machine stays as it is. -/
def runScript (machine : Machine) (script : Script) : Except Failure Unit × Machine :=
  match script.program with
  | .error failure => (.error failure, machine)
  | .ok program => machine.runProgram script program

def withoutOutput (machine : Machine) : Machine := { machine with output := #[] }

end Machine

def Script.run (script : Script) : Except Failure Unit × Array String :=
  let (result, machine) := Machine.initial.runScript script
  (result, machine.output)

end UzScript
