import UzScript.Command.Run
import UzScript.Proofs.Positions
import UzScript.Proofs.Utf8Encoding
import UzScript.Rendering

/-! # Flags only observe

A run with flags fails as the same run without them, or does not fail as that does not. It prints
what the dump flags show of the source, and then what the plain run prints. A quiet run reports the
same failure, and leaves out the two status lines. -/

set_option autoImplicit false

namespace UzScript

/-! ## The phases of a run -/

namespace Script

variable {script : Script}

theorem run_of_failure {failure : Failure} (h : script.program = .error failure) :
    script.run = (.error failure, #[]) := by
  rw [Script.run, Machine.runScript, h]
  rfl

theorem lexemes_ok {ls : List Lexeme} (h : tokenize script.source = .ok ls) :
    script.lexemes = .ok ls := by
  rw [Script.lexemes, h]
  rfl

theorem lexemes_error {fault : LexFault} (h : tokenize script.source = .error fault) :
    script.lexemes = .error (.lexical script fault) := by
  rw [Script.lexemes, h]
  rfl

theorem program_unread {fault : LexFault} (h : tokenize script.source = .error fault) :
    script.program = .error (.lexical script fault) := by
  rw [Script.program, lexemes_error h]

theorem program_unparsed {ls : List Lexeme} {fault : ParseFault}
    (htokens : tokenize script.source = .ok ls) (hparse : parse ls = .error fault) :
    script.program = .error (.syntactic script fault) := by
  rw [Script.program, lexemes_ok htokens]
  dsimp only
  rw [hparse]
  rfl

end Script

/-! ## What the flags show -/

/-- What the dump flags show of a source: its tokens, and then its program, as an outline or as
text. Where there are no tokens, nothing is shown, and where there is no program, only the tokens. -/
def dump (tokens program outline : Bool) (source : String) : String :=
  match tokenize source with
  | .error _ => ""
  | .ok lexemes =>
    (if tokens then lines (lexemes.map (·.token.outline.inline)) else "") ++
      match parse lexemes with
      | .error _ => ""
      | .ok parsed =>
        if outline then lines [parsed.outline.indented 0]
        else if program then lines [parsed.render]
        else ""

namespace RunOptions

/-- The same path without flags. -/
def plain (options : RunOptions) : RunOptions := ⟨options.path, []⟩

def dumped (options : RunOptions) (source : String) : String :=
  dump (options.has .printTokens) (options.has .printProgram) (options.has .printOutline) source

/-- All that a run writes besides its output: a status line, the failure, and a status line. -/
def stderr (reader : CharReader) (renderer : Renderer) (options : RunOptions) (color : Bool)
    (contents : FileContents) (elapsed : String) : String :=
  options.opening.render color ++
    (options.closing renderer (options.execute reader contents) elapsed).render color

variable {reader : CharReader} {renderer : Renderer}

theorem execute_unloaded (options : RunOptions) {contents : FileContents} {failure : Failure}
    (h : Script.load reader options.path contents = .error failure) :
    options.execute reader contents = ⟨"", some failure⟩ := by
  rw [execute, h]

theorem dumped_unread (options : RunOptions) {source : String} {fault : LexFault}
    (h : tokenize source = .error fault) : options.dumped source = "" := by
  rw [dumped, dump, h]

theorem dumped_unparsed (options : RunOptions) {source : String} {lexemes : List Lexeme}
    {fault : ParseFault} (htokens : tokenize source = .ok lexemes)
    (hparse : parse lexemes = .error fault) :
    options.dumped source =
      if options.has .printTokens then lines (lexemes.map (·.token.outline.inline)) else "" := by
  rw [dumped, dump, htokens]
  dsimp only
  rw [hparse, String.append_empty]

section Loaded

variable (options : RunOptions) {contents : FileContents} {script : Script}
  (h : Script.load reader options.path contents = .ok script)

include h

theorem execute_unread {fault : LexFault} (htokens : tokenize script.source = .error fault) :
    options.execute reader contents = ⟨"", some (.lexical script fault)⟩ := by
  rw [execute, h]
  dsimp only
  rw [tokenDump, Script.lexemes_error htokens, Script.program_unread htokens]
  cases options.has .printTokens with
  | true => rfl
  | false => rfl

theorem execute_unparsed {lexemes : List Lexeme} {fault : ParseFault}
    (htokens : tokenize script.source = .ok lexemes) (hparse : parse lexemes = .error fault) :
    options.execute reader contents =
      ⟨options.dumped script.source, some (.syntactic script fault)⟩ := by
  rw [execute, h, dumped_unparsed options htokens hparse]
  dsimp only
  rw [tokenDump, Script.lexemes_ok htokens, Script.program_unparsed htokens hparse]
  cases options.has .printTokens with
  | true => rfl
  | false => rfl

theorem execute_parsed {lexemes : List Lexeme} {program : Program}
    (htokens : tokenize script.source = .ok lexemes) (hparse : parse lexemes = .ok program) :
    options.execute reader contents =
      ⟨options.dumped script.source ++ lines script.run.2.toList, failureOf script.run.1⟩ := by
  have hprogram := Script.program_ok.2 ⟨lexemes, htokens, hparse⟩
  rw [execute, h, Script.run_of_program hprogram, dumped, dump, htokens]
  dsimp only
  rw [tokenDump, Script.lexemes_ok htokens, hprogram, hparse]
  cases options.has .printTokens with
  | true => rfl
  | false => rfl

theorem execute_loaded :
    options.execute reader contents =
      ⟨options.dumped script.source ++ lines script.run.2.toList, failureOf script.run.1⟩ := by
  cases htokens : tokenize script.source with
  | error fault =>
    rw [execute_unread options h htokens, dumped_unread options htokens,
      Script.run_of_failure (Script.program_unread htokens)]
    rfl
  | ok lexemes =>
    cases hparse : parse lexemes with
    | error fault =>
      rw [execute_unparsed options h htokens hparse,
        Script.run_of_failure (Script.program_unparsed htokens hparse)]
      exact congrArg (Execution.mk · _) (String.append_empty).symm
    | ok program => exact execute_parsed options h htokens hparse

end Loaded

theorem dumped_plain (options : RunOptions) (source : String) :
    options.plain.dumped source = "" := by
  have hnone : ∀ flag, options.plain.has flag = false := fun _ => rfl
  simp only [dumped, dump, hnone]
  cases tokenize source with
  | error fault => rfl
  | ok lexemes =>
    cases hparse : parse lexemes with
    | error fault => simp [hparse]
    | ok program => simp [hparse]

theorem plain_execute_loaded (options : RunOptions) {contents : FileContents} {script : Script}
    (h : Script.load reader options.path contents = .ok script) :
    options.plain.execute reader contents = ⟨lines script.run.2.toList, failureOf script.run.1⟩ := by
  rw [execute_loaded options.plain h, dumped_plain, String.empty_append]

theorem execute_failure (options : RunOptions) (contents : FileContents) :
    (options.execute reader contents).failure = (options.plain.execute reader contents).failure := by
  cases hload : Script.load reader options.path contents with
  | error failure => rw [execute_unloaded options hload, execute_unloaded options.plain hload]
  | ok script => rw [execute_loaded options hload, plain_execute_loaded options hload]

theorem failure_eq_none_iff (options : RunOptions) (contents : FileContents) :
    (options.plain.execute reader contents).failure = none ↔
      ∃ script, Script.load reader options.path contents = .ok script ∧ script.run.1 = .ok () := by
  cases hload : Script.load reader options.path contents with
  | error failure =>
    rw [execute_unloaded options.plain hload]
    simp
  | ok script =>
    rw [plain_execute_loaded options hload]
    cases hrun : script.run.1 with
    | error failure => simp [failureOf, hrun]
    | ok done => simp [failureOf, hrun]

end RunOptions

theorem Execution.exitCode_eq_zero_iff (execution : Execution) :
    execution.exitCode = 0 ↔ execution.failure = none := by
  unfold exitCode
  cases execution.failure <;> simp

theorem Execution.exitCode_eq_one_iff (execution : Execution) :
    execution.exitCode = 1 ↔ ¬ execution.failure = none := by
  unfold exitCode
  cases execution.failure <;> simp

theorem Text.Styled.render_append (color : Bool) (marks more : Text.Styled) :
    (marks ++ more).render color = marks.render color ++ more.render color := by
  cases color <;> simp [render, plain, ansi, String.join_append]

namespace RunOptions

variable {reader : CharReader} {renderer : Renderer}

def report (renderer : Renderer) (execution : Execution) : Text.Styled :=
  (execution.failure.map (Failure.report renderer)).getD []

theorem stderr_quiet {options : RunOptions} (h : options.has .quiet = true) (color : Bool)
    (contents : FileContents) (elapsed : String) :
    options.stderr reader renderer color contents elapsed =
      (report renderer (options.plain.execute reader contents)).render color := by
  have hnothing : Text.Styled.render color [] = "" := by cases color <;> rfl
  rw [stderr, opening, closing, if_pos h, hnothing, String.empty_append, execute_failure,
    if_pos h, List.append_nil, report]

theorem stderr_loud {options : RunOptions} (h : options.has .quiet = false) (color : Bool)
    (contents : FileContents) (elapsed : String) :
    options.stderr reader renderer color contents elapsed =
      (Status.running.line options.path).render color ++
        (report renderer (options.plain.execute reader contents)).render color ++
        (Status.timed (if (options.plain.execute reader contents).exitCode = 0
          then .finished else .failed) elapsed).render color := by
  have hloud : ¬ options.has .quiet = true := by simp [h]
  rw [stderr, opening, closing, if_neg hloud, execute_failure, if_neg hloud,
    Text.Styled.render_append, ← String.append_assoc, report, Execution.exitCode]
  cases (options.plain.execute reader contents).failure with
  | none => rfl
  | some failure => rfl

/-- A run with flags ends with the exit code of the plain run, which tells whether the script is
loaded and runs to its end. It prints what the dump flags show of the source, and then what the plain
run prints: nothing of a source that cannot be read, and no program of one that cannot be parsed.
Besides, it writes what the plain run writes, and less the two status lines if it is quiet. -/
theorem flags_only_observe (reader : CharReader) (renderer : Renderer) (options : RunOptions)
    (contents : FileContents) (color : Bool) (elapsed : String) :
    let flagged := options.execute reader contents
    let plain := options.plain.execute reader contents
    let succeeds := ∃ script,
      Script.load reader options.path contents = .ok script ∧ script.run.1 = .ok ()
    let running := (Status.running.line options.path).render color
    let reported := (report renderer plain).render color
    let ended :=
      (Status.timed (if plain.exitCode = 0 then .finished else .failed) elapsed).render color
    flagged.exitCode = plain.exitCode ∧
    (plain.exitCode = 0 ↔ succeeds) ∧ (plain.exitCode = 1 ↔ ¬ succeeds) ∧
    (∀ failure, Script.load reader options.path contents = .error failure →
      flagged.out = "" ∧ plain.out = "") ∧
    (∀ script, Script.load reader options.path contents = .ok script →
      let shown := dump (options.has .printTokens) (options.has .printProgram)
        (options.has .printOutline) script.source
      flagged.out = shown ++ plain.out ∧ plain.out = lines script.run.2.toList ∧
      (∀ fault, tokenize script.source = .error fault → shown = "") ∧
      ∀ lexemes fault, tokenize script.source = .ok lexemes → parse lexemes = .error fault →
        shown = if options.has .printTokens then lines (lexemes.map (·.token.outline.inline))
          else "") ∧
    options.plain.stderr reader renderer color contents elapsed = running ++ reported ++ ended ∧
    options.stderr reader renderer color contents elapsed =
      if options.has .quiet then reported
      else options.plain.stderr reader renderer color contents elapsed := by
  intro flagged plain succeeds running reported ended
  have hplain : options.plain.stderr reader renderer color contents elapsed =
      running ++ reported ++ ended :=
    stderr_loud rfl color contents elapsed
  refine ⟨?_, ?_, ?_, fun failure hload => ?_, fun script hload => ?_, hplain, ?_⟩
  · rw [Execution.exitCode, Execution.exitCode, execute_failure]
  · rw [Execution.exitCode_eq_zero_iff, failure_eq_none_iff]
  · rw [Execution.exitCode_eq_one_iff, failure_eq_none_iff]
  · exact ⟨congrArg Execution.out (execute_unloaded options hload),
      congrArg Execution.out (execute_unloaded options.plain hload)⟩
  · have hout : plain.out = lines script.run.2.toList :=
      congrArg Execution.out (plain_execute_loaded options hload)
    refine ⟨?_, hout, fun _ => dumped_unread options, fun _ _ => dumped_unparsed options⟩
    rw [hout]
    exact congrArg Execution.out (execute_loaded options hload)
  · cases hquiet : options.has .quiet with
    | true => exact stderr_quiet hquiet color contents elapsed
    | false =>
      rw [hplain]
      exact stderr_loud hquiet color contents elapsed

theorem flags_only_observe_unparsed :
    let bytes : List UInt8 := [0x63, 0x68, 0x6F, 0x70, 0x20, 0x31]
    let options : RunOptions := ⟨"a.uz", [.quiet, .printProgram, .printTokens]⟩
    let flagged := options.execute Utf8.reader (.ok bytes)
    let plain := options.plain.execute Utf8.reader (.ok bytes)
    Script.load Utf8.reader "a.uz" (.ok bytes) = .ok ⟨"a.uz", "chop 1"⟩ ∧
      flagged.exitCode = 1 ∧ flagged.out = "Print\nInt(1)\nEof\n" ∧
      options.stderr Utf8.reader Rendering.renderer false (.ok bytes) "0.00s" =
        (report Rendering.renderer plain).render false := by
  intro bytes options flagged plain
  have hload : Script.load Utf8.reader "a.uz" (.ok bytes) = .ok ⟨"a.uz", "chop 1"⟩ :=
    (Script.load_eq_ok_iff Utf8.reader_decodesUtf8).2 ⟨rfl, by decide +kernel⟩
  have hrun : (Script.run ⟨"a.uz", "chop 1"⟩).1 ≠ .ok () ∧
      (Script.run ⟨"a.uz", "chop 1"⟩).2 = #[] := by decide +kernel
  have htokens : tokenize "chop 1" = .ok [⟨.keyword .print, ⟨0, 4⟩⟩,
      ⟨.integer .one, ⟨5, 6⟩⟩, ⟨.endOfFile, ⟨6, 6⟩⟩] := by decide +kernel
  obtain ⟨hcode, -, hone, -, hloaded, -, herr⟩ :=
    flags_only_observe Utf8.reader Rendering.renderer options (.ok bytes) false "0.00s"
  obtain ⟨hout, hplain, -, hshown⟩ := hloaded _ hload
  refine ⟨hload, ?_, ?_, herr⟩
  · rw [hcode, hone]
    rintro ⟨script, hother, hok⟩
    cases hload.symm.trans hother
    exact hrun.1 hok
  · rw [hout, hplain, hrun.2, hshown _ _ htokens rfl]
    decide +kernel

end RunOptions

end UzScript
