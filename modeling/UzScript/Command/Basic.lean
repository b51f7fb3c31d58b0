/-! # Commands

What the arguments of a command line ask for: to run a script, or to answer lines one by one. -/

set_option autoImplicit false

namespace UzScript

inductive LoopKind where
  | tokens
  | programs
  | evaluation
deriving DecidableEq

inductive Flag where
  | printTokens
  | printProgram
  | printOutline
  | quiet
deriving DecidableEq

structure RunOptions where
  path : String
  flags : List Flag
deriving DecidableEq

namespace RunOptions

def defaultPath : String := "main.uzlang"

def has (options : RunOptions) (flag : Flag) : Bool := options.flags.contains flag

end RunOptions

inductive Command where
  | run (options : RunOptions)
  | loop (kind : LoopKind)
deriving DecidableEq

def Flag.ofArgument? : String → Option Flag
  | "--print-tokens" => some .printTokens
  | "--print-ast" => some .printProgram
  | "--debug-ast" => some .printOutline
  | "--quiet" => some .quiet
  | "-q" => some .quiet
  | _ => none

namespace Command

def addPath (path : Option String) (argument : String) : Option String :=
  if path.isNone && !argument.isEmpty then some argument else none

/-- The arguments after two dashes are paths, however they look. -/
def plainArguments : Option String → List String → Option (Option String)
  | path, [] => some path
  | path, argument :: rest =>
    match addPath path argument with
    | none => none
    | some path => plainArguments (some path) rest

/-- Flags and paths in any order; a flag may not be repeated. -/
def runArguments (flags : List Flag) (path : Option String) :
    List String → Option (List Flag × Option String)
  | [] => some (flags, path)
  | argument :: rest =>
    if argument = "--" then (plainArguments path rest).map fun path => (flags, path)
    else if argument.startsWith "-" && argument != "-" then
      match Flag.ofArgument? argument with
      | none => none
      | some flag => if flags.contains flag then none else runArguments (flag :: flags) path rest
    else
      match addPath path argument with
      | none => none
      | some path => runArguments flags (some path) rest

def loopArguments (kind : LoopKind) (arguments : List String) : Option Command :=
  if arguments = [] || arguments = ["--"] then some (.loop kind) else none

def ofArguments? : List String → Option Command
  | "run" :: rest =>
    (runArguments [] none rest).map fun (flags, path) =>
      .run ⟨path.getD RunOptions.defaultPath, flags⟩
  | "rlpl" :: rest => loopArguments .tokens rest
  | "rppl" :: rest => loopArguments .programs rest
  | "repl" :: rest => loopArguments .evaluation rest
  | _ => none

end Command

end UzScript
