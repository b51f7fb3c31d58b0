import UzScript.Proofs.PrintedText
import UzScript.Proofs.ProgramRecognition
import UzScript.Session

/-! # Reading printed programs back

A program that was parsed from a script can be printed, and the printed text is a script again: it
parses to the same program but for the places in the text. -/

set_option autoImplicit false

namespace UzScript

/-- The printed tokens can all be written, and are a phrase for the program within the limit on
nesting. -/
structure Program.Printable (program : Program) : Prop where
  writable : ∀ t ∈ program.tokens, t.Writable
  derivable : ∃ h, h ≤ nestingLimit ∧ Grammar.Program program.tokens h program

theorem Script.program_ok {script : Script} {program : Program} :
    script.program = .ok program ↔
      ∃ lexemes, tokenize script.source = .ok lexemes ∧ parse lexemes = .ok program := by
  unfold Script.program Script.lexemes
  cases htokens : tokenize script.source with
  | error fault => simp [Except.mapError]
  | ok lexemes =>
    cases hparse : parse lexemes with
    | error fault => simp [Except.mapError, hparse]
    | ok program => simp [Except.mapError, hparse]

/-- Printing takes tokens from the script only, and nests no deeper than the script. -/
theorem Script.printable {script : Script} {program : Program}
    (h : script.program = .ok program) : program.erase.Printable := by
  obtain ⟨lexemes, htokens, hparse⟩ := Script.program_ok.1 h
  obtain ⟨front, stop, rfl, hwritable⟩ := writable_of_tokenize htokens
  have hfree : ∀ l ∈ front, l.token ≠ .endOfFile := by
    intro l hl hend
    have hnone := hwritable l hl
    rw [hend] at hnone
    exact hnone
  obtain ⟨height, hheight, hphrase⟩ := parse_derivation hfree hparse
  obtain ⟨k, hk, hprinted, hsublist⟩ := hphrase.reprinted
  refine ⟨fun t ht => ?_, k, Nat.le_trans hk hheight, hprinted⟩
  obtain ⟨l, hl, rfl⟩ := List.mem_map.1 (hsublist.subset ht)
  exact hwritable l hl

theorem Program.Printable.reparsed {program : Program} (h : program.Printable) (path : String) :
    ∃ again, Script.program ⟨path, program.render⟩ = .ok again ∧ again.erase = program := by
  obtain ⟨lexemes, stop, htokens, hprinted⟩ := tokenize_written (written_render h.writable)
  obtain ⟨height, hheight, hphrase⟩ := h.derivable
  rw [← hprinted] at hphrase
  obtain ⟨again, hparse, herase⟩ : ∃ again, parse (lexemes ++ [⟨.endOfFile, stop⟩]) = .ok again ∧
      again.erase = program := parse_of_derivation hheight hphrase
  exact ⟨again, Script.program_ok.2 ⟨_, htokens, hparse⟩, herase⟩

/-- Printing a parsed program and parsing the text again gives the same program but for places, and
printing that gives the same text. -/
theorem Script.program_render {script : Script} {program : Program}
    (h : script.program = .ok program) (path : String) :
    ∃ again, Script.program ⟨path, program.render⟩ = .ok again ∧
      again.erase = program.erase ∧ again.render = program.render := by
  obtain ⟨again, hagain, herase⟩ := (Script.printable h).reparsed path
  rw [Program.render_erase] at hagain
  exact ⟨again, hagain, herase, Program.render_congr herase⟩

theorem Script.program_of_text (script : Script) (text : String)
    (h : script.program.toOption.map Program.render = some text) :
    ∃ program, script.program = .ok program ∧ program.render = text := by
  cases hprogram : script.program with
  | error failure => simp [hprogram, Except.toOption] at h
  | ok program => exact ⟨program, rfl, by simpa [hprogram, Except.toOption] using h⟩

theorem Script.program_render_grouped :
    ∃ program, Script.program ⟨"sums.uz", "soni x=(1-(2-3))*((4));chop(x<5)==[\"a\",f(x)];"⟩ =
        .ok program ∧
      program.render = "soni x = (1 - (2 - 3)) * 4;\nchop (x < 5) == [\"a\", f(x)];" ∧
      ∃ again, Script.program ⟨"printed.uz", program.render⟩ = .ok again ∧
        again.erase = program.erase ∧ again.render = program.render := by
  obtain ⟨program, hprogram, htext⟩ :=
    Script.program_of_text ⟨"sums.uz", "soni x=(1-(2-3))*((4));chop(x<5)==[\"a\",f(x)];"⟩
      "soni x = (1 - (2 - 3)) * 4;\nchop (x < 5) == [\"a\", f(x)];" (by decide +kernel)
  exact ⟨program, hprogram, htext, Script.program_render hprogram "printed.uz"⟩

end UzScript
