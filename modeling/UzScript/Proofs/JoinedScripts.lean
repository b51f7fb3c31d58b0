import UzScript.Proofs.Positions
import UzScript.Proofs.Tiling

/-! # A session does what the joined script does

Scripts that parse can be put one after the other, with a line feed between them: the joined text
parses to their statements in order. As long as each of them runs to its end, a session that runs
them in turn prints the lines of the joined script, ends as it does, and leaves the same variables
and functions. -/

set_option autoImplicit false

namespace UzScript

open String (utf8Len)

/-! ## Joined texts -/

theorem closes_newline : Closes (some '\n') := by
  rintro _ ⟨⟩
  decide +kernel

theorem Tiled.shift {next : Option Char} {n : Nat} {cs : List Char} {ls : List Lexeme}
    (h : Tiled next n cs ls) (k : Nat) : Tiled next (n + k) cs (ls.map (Lexeme.shift k)) := by
  induction h with
  | none offset => exact .none _
  | space blank _ ih =>
    rw [Nat.add_right_comm] at ih
    exact .space blank ih
  | @word offset t word cs ls spelled ends _ ih =>
    rw [Nat.add_right_comm] at ih
    have hword := Tiled.word spelled ends ih
    rw [Nat.add_right_comm] at hword
    exact hword

/-- A line feed ends every token, so that what follows it is read as if it stood alone. -/
theorem tiled_join {cs cs' : List Char} {ls ls' : List Lexeme} (h : Tiled none 0 cs ls)
    (h' : Tiled none 0 cs' ls') :
    Tiled none 0 (cs ++ '\n' :: cs') (ls ++ ls'.map (Lexeme.shift (utf8Len cs + 1))) := by
  have hsecond := h'.shift (utf8Len cs + 1)
  rw [← Nat.add_assoc] at hsecond
  exact .append (h.ending closes_newline) (.space rfl hsecond)

theorem free_of_tiled {next : Option Char} {n : Nat} {cs : List Char} {ls : List Lexeme}
    (h : Tiled next n cs ls) : ∀ l ∈ ls, l.token ≠ .endOfFile := by
  intro l hl
  obtain ⟨_, _, _, -, -, hspelled⟩ := h.spelled l hl
  exact hspelled.ne_endOfFile

theorem Grammar.Repeated.append {α : Type} {item : Phrase α} {ts us : List Token} {h k : Nat}
    {as bs : List α} (has : Repeated item ts h as) (hbs : Repeated item us k bs) :
    Repeated item (ts ++ us) (max h k) (as ++ bs) := by
  induction has with
  | none => rwa [Nat.zero_max]
  | more first _ ih =>
    rw [List.append_assoc, Nat.max_assoc]
    exact .more first ih

theorem Grammar.Program.append {ts us : List Token} {h k : Nat} {P Q : UzScript.Program}
    (hP : Program ts h P) (hQ : Program us k Q) :
    Program (ts ++ us) (max h k) ⟨P.statements ++ Q.statements, .zero⟩ := by
  obtain ⟨hstatements⟩ := hP
  obtain ⟨hstatements'⟩ := hQ
  exact .intro (hstatements.append hstatements')

theorem Script.program_join {first second : Script} {P Q : Program}
    (hP : first.program = .ok P) (hQ : second.program = .ok Q) (path : String) :
    ∃ R, Script.program ⟨path, first.source ++ "\n" ++ second.source⟩ = .ok R ∧
      Stmt.eraseAll R.statements = Stmt.eraseAll P.statements ++ Stmt.eraseAll Q.statements := by
  obtain ⟨_, htokens, hparse⟩ := Script.program_ok.1 hP
  obtain ⟨_, htokens', hparse'⟩ := Script.program_ok.1 hQ
  obtain ⟨ls, htiled, rfl⟩ := tiled_of_tokenize htokens
  obtain ⟨ls', htiled', rfl⟩ := tiled_of_tokenize htokens'
  obtain ⟨h, hh, hphrase⟩ := parse_derivation (free_of_tiled htiled) hparse
  obtain ⟨h', hh', hphrase'⟩ := parse_derivation (free_of_tiled htiled') hparse'
  have hjoined : Tiled none 0 (first.source ++ "\n" ++ second.source).toList
      (ls ++ ls'.map (Lexeme.shift (utf8Len first.source.toList + 1))) := by
    have hchars : (first.source ++ "\n" ++ second.source).toList =
        first.source.toList ++ '\n' :: second.source.toList := by simp
    rw [hchars]
    exact tiled_join htiled htiled'
  have htokens'' : (ls ++ ls'.map (Lexeme.shift (utf8Len first.source.toList + 1))).map Lexeme.token =
      ls.map Lexeme.token ++ ls'.map Lexeme.token := by
    rw [List.map_append, List.map_map]
    rfl
  have hboth := hphrase.append hphrase'
  rw [← htokens''] at hboth
  obtain ⟨R, hR, herase⟩ := parse_of_derivation (Nat.max_le.2 ⟨hh, hh'⟩) hboth
  exact ⟨R, Script.program_ok.2 ⟨_, tokenize_of_tiled hjoined, hR⟩, congrArg Program.statements herase⟩

/-! ## Sessions -/

/-- A script with the program that it parses to. -/
structure ParsedScript where
  script : Script
  program : Program
  parses : script.program = .ok program

def ParsedScript.joined (path : String) (scripts : List ParsedScript) : Script :=
  ⟨path, "\n".intercalate (scripts.map (·.script.source))⟩

theorem ParsedScript.program_joined (path : String) (scripts : List ParsedScript)
    (hne : scripts ≠ []) :
    ∃ R, (joined path scripts).program = .ok R ∧
      Stmt.eraseAll R.statements = Stmt.eraseAll (scripts.flatMap (·.program.statements)) := by
  induction scripts with
  | nil => exact absurd rfl hne
  | cons s scripts ih =>
    cases scripts with
    | nil =>
      obtain ⟨lexemes, htokens, hparse⟩ := Script.program_ok.1 s.parses
      refine ⟨s.program, Script.program_ok.2 ⟨lexemes, ?_, hparse⟩, by simp⟩
      rw [joined, List.map_singleton, String.intercalate_singleton]
      exact htokens
    | cons t scripts =>
      obtain ⟨Q, hQ, hstatements⟩ := ih (List.cons_ne_nil t scripts)
      obtain ⟨R, hR, hboth⟩ := Script.program_join s.parses hQ path
      refine ⟨R, ?_, ?_⟩
      · rw [joined, List.map_cons, List.map_cons, String.intercalate_cons_cons]
        exact hR
      · rw [hboth, hstatements, List.flatMap_cons (x := s), Stmt.eraseAll_eq_map,
          Stmt.eraseAll_eq_map, Stmt.eraseAll_eq_map, List.map_append]

namespace Machine

/-- The program gives back a value at the top level. -/
def givesBack (machine : Machine) (program : Program) : Bool :=
  match execute program.statements machine with
  | .ok (.returned _) _ => true
  | _ => false

/-- Scripts run in turn, each on what the one before it left. All end well and none gives back a
value at the top level. The lines are those that they print. -/
inductive Session : Machine → List ParsedScript → Array String → Machine → Prop
  | start (m : Machine) : Session m [] #[] m
  | step {m mid n : Machine} {s : ParsedScript} {scripts : List ParsedScript} {lines : Array String}
      (runs : m.withoutOutput.runProgram s.script s.program = (.ok (), mid))
      (passes : m.withoutOutput.givesBack s.program = false)
      (more : Session mid scripts lines n) : Session m (s :: scripts) (mid.output ++ lines) n

theorem execute_of_runProgram {m n : Machine} {script : Script} {P : Program}
    (hruns : m.runProgram script P = (.ok (), n)) (hpasses : m.givesBack P = false) :
    execute P.statements m = .ok .done n := by
  unfold runProgram run at hruns
  unfold givesBack at hpasses
  cases hrun : execute P.statements m with
  | ok flow after =>
    rw [hrun] at hruns hpasses
    cases flow with
    | done =>
      cases hruns
      rfl
    | returned value => cases hpasses
  | error fault after =>
    rw [hrun] at hruns
    cases hruns

end Machine

theorem Stmt.eraseAll_eq_append {ss front back : List Stmt}
    (h : Stmt.eraseAll ss = Stmt.eraseAll (front ++ back)) :
    ∃ ss₁ ss₂, ss = ss₁ ++ ss₂ ∧ Stmt.eraseAll ss₁ = Stmt.eraseAll front ∧
      Stmt.eraseAll ss₂ = Stmt.eraseAll back := by
  simp only [Stmt.eraseAll_eq_map, List.map_append] at h ⊢
  exact List.map_eq_append_iff.1 h

theorem Eval.stmts_append {invoke : Invoke} {ss ss' : List Stmt} {m mid : Machine}
    (h : stmts invoke ss m = .ok .done mid) :
    stmts invoke (ss ++ ss') m = stmts invoke ss' mid := by
  induction ss generalizing m with
  | nil =>
    rw [stmts] at h
    cases h
    rfl
  | cons s ss ih =>
    rw [stmts] at h
    rw [List.cons_append, stmts]
    cases hrun : stmt invoke s m with
    | ok flow n =>
      rw [bind_of_ok hrun] at h ⊢
      cases flow with
      | done => exact ih h
      | returned value => cases h
    | error fault n =>
      rw [bind_of_error hrun] at h
      cases h

namespace Machine

/-- No call is active between the two lists, so that both have the same room for calls. -/
theorem execute_append {ss ss' : List Stmt} {m mid : Machine}
    (h : execute ss m = .ok .done mid) : execute (ss ++ ss') m = execute ss' mid := by
  have hkept := framesKept_allowance.execute ss m
  rw [Eval.after_ok h] at hkept
  have hboth : execute (ss ++ ss') m =
      Eval.stmts (Eval.invoke (callLimit - m.env.depth)) (ss ++ ss') m := rfl
  have hsecond : execute ss' mid =
      Eval.stmts (Eval.invoke (callLimit - mid.env.depth)) ss' mid := rfl
  rw [hboth, hsecond, hkept.depth]
  exact Eval.stmts_append h

theorem Session.execute_all {m n : Machine} {scripts : List ParsedScript} {lines : Array String}
    (h : Session m scripts lines n) {ss : List Stmt} {m' : Machine}
    (hss : Stmt.eraseAll ss = Stmt.eraseAll (scripts.flatMap (·.program.statements)))
    (hview : m.env.view = m'.env.view) :
    ∃ n', execute ss m' = .ok .done n' ∧ n.env.view = n'.env.view ∧
      n'.output = m'.output ++ lines := by
  induction h generalizing ss m' with
  | start m =>
    rw [Stmt.eraseAll_eq_map, Stmt.eraseAll_eq_map] at hss
    rw [List.map_eq_nil_iff.1 hss]
    exact ⟨m', rfl, hview, by simp⟩
  | @step m mid n s scripts lines runs passes _ ih =>
    have hfirst := execute_of_runProgram runs passes
    rw [List.flatMap_cons] at hss
    obtain ⟨front, back, rfl, hfront, hback⟩ := Stmt.eraseAll_eq_append hss
    have hsame := execute_sameEnd hfront.symm (m := m.withoutOutput) hview
    rw [hfirst] at hsame
    generalize hrun : execute front m' = r at hsame
    cases hsame with
    | @ok _ _ mid' alike =>
      obtain ⟨first, hfirst, hfirst'⟩ := alike.lines
      obtain ⟨n', hrest, hviews, houtput⟩ := ih hback alike.view
      refine ⟨n', (execute_append hrun).trans hrest, hviews, ?_⟩
      have hnone : m.withoutOutput.output = #[] := rfl
      rw [houtput, hfirst', hfirst, hnone, Array.empty_append, Array.append_assoc]

theorem run_of_execute {m n : Machine} {P Q : Program}
    (h : execute P.statements m = execute Q.statements n) : m.run P = n.run Q := by
  rw [run, h, run]

theorem Session.rest {earlier : List ParsedScript} {lines : Array String} {m : Machine}
    (h : Session .initial earlier lines m) (last : ParsedScript) (path : String) :
    ∃ (R P : Program) (n : Machine),
      (ParsedScript.joined path (earlier ++ [last])).program = .ok R ∧ initial.run R = n.run P ∧
        last.program.erase = P.erase ∧ m.env.view = n.env.view ∧ n.output = lines := by
  obtain ⟨R, hR, hstatements⟩ := ParsedScript.program_joined path (earlier ++ [last]) (by simp)
  rw [List.flatMap_append, List.flatMap_singleton] at hstatements
  obtain ⟨front, back, hsplit, hfront, hback⟩ := Stmt.eraseAll_eq_append hstatements
  obtain ⟨n, hrun, hview, houtput⟩ := h.execute_all hfront (Eq.refl initial.env.view)
  refine ⟨R, ⟨back, R.location⟩, n, hR, run_of_execute ?_, ?_, hview, ?_⟩
  · rw [hsplit]
    exact execute_append hrun
  · rw [Program.erase, Program.erase, hback]
  · rw [houtput]
    exact Array.empty_append

end Machine

theorem Environment.globals_of_view {env other : Environment} (h : env.view = other.view)
    (name : String) : env.globals.get? name = other.globals.get? name := by
  have hframes := congrArg (fun view => view.frames.getLast?) h
  simp only [Environment.view, Environment.frames, List.map_append, List.map_singleton,
    List.getLast?_concat, Option.some.injEq] at hframes
  exact congrFun hframes name

/-- When scripts run in turn, up to the last all to their ends, then the joined script prints the
lines of all of them, ends as the last one does, and leaves the same variables and functions. -/
theorem session_joined {earlier : List ParsedScript} {lines : Array String} {m : Machine}
    (h : Machine.Session .initial earlier lines m) (last : ParsedScript) (path : String) :
    let script := ParsedScript.joined path (earlier ++ [last])
    let whole := Machine.initial.runScript script
    let step := m.withoutOutput.runProgram last.script last.program
    script.run = (whole.1, lines ++ step.2.output) ∧
      (step.1 = .ok () ∧ whole.1 = .ok () ∨
        ∃ fault fault', step.1 = .error (.runtime last.script fault) ∧
          whole.1 = .error (.runtime script fault') ∧ fault.cause = fault'.cause) ∧
      (∀ name, whole.2.env.globals.get? name = step.2.env.globals.get? name) ∧
      ∀ name, (whole.2.env.function? name).map Callable.erase =
        (step.2.env.function? name).map Callable.erase := by
  intro script whole step
  obtain ⟨R, P, n, hR, hrest, herase, hview, houtput⟩ := h.rest last path
  obtain ⟨hcause, halike⟩ := Machine.run_lockstep herase (m := m.withoutOutput) hview
  rw [← hrest] at hcause halike
  have hwhole : whole = ((Machine.initial.run R).1.mapError (.runtime script),
      (Machine.initial.run R).2) := Machine.runScript_of_program hR .initial
  have hstep : step = ((m.withoutOutput.run last.program).1.mapError (.runtime last.script),
      (m.withoutOutput.run last.program).2) := rfl
  have hlines : whole.2.output = lines ++ step.2.output := by
    obtain ⟨printed, hprinted, hprinted'⟩ := halike.lines
    have hnone : m.withoutOutput.output = #[] := rfl
    rw [hwhole, hstep, hprinted, hprinted', houtput, hnone, Array.empty_append]
  refine ⟨?_, ?_, fun name => ?_, fun name => ?_⟩
  · rw [← hlines]
    rfl
  · rw [hwhole, hstep]
    rcases Machine.outcomes_of_causes hcause with ⟨hok, hok'⟩ | ⟨fault, fault', herror, herror', hsame⟩
    · exact .inl ⟨by rw [hok]; rfl, by rw [hok']; rfl⟩
    · exact .inr ⟨fault, fault', by rw [herror]; rfl, by rw [herror']; rfl, hsame⟩
  · rw [hwhole, hstep]
    exact Environment.globals_of_view halike.view.symm name
  · rw [hwhole, hstep]
    exact Environment.function?_of_view halike.view.symm name

def doubling : Script :=
  ⟨"a.uz", "soni x = 2; funksiya f(n) \x7b qaytar n * x; \x7d chop f(3);"⟩

def usingDoubling : Script := ⟨"b.uz", "chop f(4); chop y;"⟩

theorem session_joined_fault :
    ∃ first last : ParsedScript, first.script = doubling ∧ last.script = usingDoubling ∧
      Machine.Session .initial [first] #["6"] (Machine.initial.runScript doubling).2 ∧
      (ParsedScript.joined "c.uz" [first, last]).run.2 = #["6", "8"] := by
  let mid := (Machine.initial.runScript doubling).2
  obtain ⟨P, hP, -⟩ := Script.program_of_text doubling
    "soni x = 2;\nfunksiya f(n) \x7b qaytar n * x; \x7d\nchop f(3);" (by decide +kernel)
  obtain ⟨Q, hQ, -⟩ := Script.program_of_text usingDoubling "chop f(4);\nchop y;" (by decide +kernel)
  have hruns : Machine.initial.runProgram doubling P = (.ok (), mid) := by
    have hok : (Machine.initial.runScript doubling).1 = .ok () := by decide +kernel
    rw [← Machine.runScript_of_program hP, ← hok]
  have hpasses : Machine.initial.givesBack P = false := by
    have hmap : doubling.program.toOption.map Machine.initial.givesBack = some false := by
      decide +kernel
    rw [hP] at hmap
    exact Option.some.inj hmap
  have hline : mid.output = #["6"] := by decide +kernel
  have hsession : Machine.Session .initial [⟨doubling, P, hP⟩] #["6"] mid := by
    have hstep : Machine.Session .initial [⟨doubling, P, hP⟩] (mid.output ++ #[]) mid :=
      .step hruns hpasses (.start mid)
    rwa [hline] at hstep
  have hlast : (mid.withoutOutput.runProgram usingDoubling Q).2.output = #["8"] := by
    rw [← Machine.runScript_of_program hQ]
    decide +kernel
  refine ⟨⟨doubling, P, hP⟩, ⟨usingDoubling, Q, hQ⟩, rfl, rfl, hsession, ?_⟩
  have hjoined := (session_joined hsession ⟨usingDoubling, Q, hQ⟩ "c.uz").1
  rw [List.singleton_append] at hjoined
  rw [hjoined]
  exact congrArg (#["6"] ++ ·) hlast

end UzScript
