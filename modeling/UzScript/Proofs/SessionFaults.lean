import UzScript.Proofs.FaultPlaces

/-! # Where the faults of a session point

A function keeps the locations it had in the script that defined it, while a fault is reported with
the script that runs. So a fault of a session points into one of the scripts that ran, and into the
last one if that calls no function from before; but a call of an earlier function may fail at a
place that the last script does not even have. -/

set_option autoImplicit false

namespace UzScript

/-! ## Called names -/

namespace Expr

mutual

def callees : Expr → List String
  | .integer _ _ | .text _ _ | .variable _ => []
  | .binary _ left right _ => left.callees ++ right.callees
  | .call function arguments _ => function.name :: calleesAll arguments
  | .list elements _ => calleesAll elements

def calleesAll : List Expr → List String
  | [] => []
  | e :: es => e.callees ++ calleesAll es

end

theorem calleesAll_eq_flatMap (es : List Expr) : calleesAll es = es.flatMap callees := by
  induction es with
  | nil => rfl
  | cons e es ih => rw [calleesAll, ih, List.flatMap_cons]

end Expr

mutual

def Stmt.callees : Stmt → List String
  | .declare _ value _ | .print value _ | .giveBack value _ => value.callees
  | .branch condition thenBlock elseBlock _ =>
    condition.callees ++ thenBlock.callees ++ Block.calleesElse elseBlock
  | .define function => function.callees

def Stmt.calleesAll : List Stmt → List String
  | [] => []
  | s :: ss => s.callees ++ Stmt.calleesAll ss

def Block.callees : Block → List String
  | ⟨statements, _⟩ => Stmt.calleesAll statements

def Block.calleesElse : Option Block → List String
  | none => []
  | some block => block.callees

def FunctionDef.callees : FunctionDef → List String
  | ⟨_, _, body, _⟩ => body.callees

end

theorem Stmt.calleesAll_eq_flatMap (ss : List Stmt) :
    Stmt.calleesAll ss = ss.flatMap Stmt.callees := by
  induction ss with
  | nil => rfl
  | cons s ss ih => rw [Stmt.calleesAll, ih, List.flatMap_cons]

/-- The names of the functions that are called anywhere in the program, in bodies of functions
too. -/
def Program.callees (program : Program) : List String := Stmt.calleesAll program.statements

/-- The same layout, where only the given names may be called. -/
def Layout.calling (layout : Layout) (called : String → Prop) : Layout :=
  { layout with calls := called }

section Calling

variable {layout : Layout} {called : String → Prop}

theorem Expr.LiesOn.calling {e : Expr} (h : e.LiesOn layout)
    (hcalled : ∀ name ∈ e.callees, called name) : e.LiesOn (layout.calling called) := by
  induction h with
  | integer value span => exact .integer value span
  | text value span => exact .text value span
  | ident name => exact .ident name
  | binary op _ _ span first second =>
    rw [Expr.callees, List.forall_mem_append] at hcalled
    exact .binary op (first hcalled.1) (second hcalled.2) span
  | call name _ _ span all =>
    rw [Expr.callees, List.forall_mem_cons, Expr.calleesAll_eq_flatMap] at hcalled
    refine .call name hcalled.1 (fun e he => all e he fun n hn => hcalled.2 n ?_) span
    exact List.mem_flatMap_of_mem he hn
  | list _ span all =>
    rw [Expr.callees, Expr.calleesAll_eq_flatMap] at hcalled
    exact .list (fun e he => all e he fun n hn => hcalled n (List.mem_flatMap_of_mem he hn)) span

mutual

theorem Stmt.LiesOn.calling {s : Stmt} (hcalled : ∀ name ∈ s.callees, called name) :
    s.LiesOn layout → s.LiesOn (layout.calling called)
  | .declare name inner span => .declare name (inner.calling hcalled) span
  | .print inner span => .print (inner.calling hcalled) span
  | @Stmt.LiesOn.branch _ _ _ elseBlock _ test first second span => by
    rw [Stmt.callees, List.forall_mem_append, List.forall_mem_append] at hcalled
    refine .branch (test.calling hcalled.1.1) (first.calling hcalled.1.2) (fun b hb => ?_) span
    obtain rfl : elseBlock = some b := hb
    exact (second b rfl).calling hcalled.2
  | .define inner => .define (inner.calling hcalled)
  | .giveBack inner span => .giveBack (inner.calling hcalled) span

theorem Block.LiesOn.calling {b : Block} (hcalled : ∀ name ∈ b.callees, called name) :
    b.LiesOn layout → b.LiesOn (layout.calling called)
  | .intro all span => by
    rw [Block.callees, Stmt.calleesAll_eq_flatMap] at hcalled
    refine .intro (fun s hs => (all s hs).calling fun n hn => hcalled n ?_) span
    exact List.mem_flatMap_of_mem hs hn

theorem FunctionDef.LiesOn.calling {f : FunctionDef} (hcalled : ∀ name ∈ f.callees, called name) :
    f.LiesOn layout → f.LiesOn (layout.calling called)
  | .intro name all inner span => .intro name all (inner.calling hcalled) span

end

end Calling

/-! ## The scripts of a session -/

def Layout.ofScripts (scripts : List Script) : Layout where
  spans span := ∃ script ∈ scripts, ∃ lexemes, tokenize script.source = .ok lexemes ∧
    (Layout.ofLexemes lexemes).spans span
  names ident := ∃ script ∈ scripts, ∃ lexemes, tokenize script.source = .ok lexemes ∧
    (Layout.ofLexemes lexemes).names ident
  calls _ := True
  span_of_name h := by
    obtain ⟨script, hscript, lexemes, htokens, hname⟩ := h
    exact ⟨script, hscript, lexemes, htokens, Layout.span_of_name _ hname⟩

namespace Layout

theorem extends_ofScripts {script : Script} {scripts : List Script} {lexemes : List Lexeme}
    (hscript : script ∈ scripts) (htokens : tokenize script.source = .ok lexemes) :
    (ofLexemes lexemes).Extends (ofScripts scripts) where
  spans h := ⟨script, hscript, lexemes, htokens, h⟩
  names h := ⟨script, hscript, lexemes, htokens, h⟩
  calls _ := trivial

theorem ofScripts_extends {scripts more : List Script} (h : scripts ⊆ more) :
    (ofScripts scripts).Extends (ofScripts more) where
  spans hspan := by
    obtain ⟨script, hscript, hlies⟩ := hspan
    exact ⟨script, h hscript, hlies⟩
  names hname := by
    obtain ⟨script, hscript, hlies⟩ := hname
    exact ⟨script, h hscript, hlies⟩
  calls _ := trivial

end Layout

/-- The fault is at a place of the source between characters, and a name that is not found stands
there. -/
structure RuntimeFault.PointsInto (fault : RuntimeFault) (source : String) : Prop where
  inside : fault.span.Inside source
  name : ∀ name, fault.cause = .unboundVariable name ∨ fault.cause = .unknownFunction name →
    fault.span.slice source = name

namespace RuntimeFault

variable {fault : RuntimeFault}

theorem mem_absent? {name : String}
    (h : fault.cause = .unboundVariable name ∨ fault.cause = .unknownFunction name) :
    name ∈ fault.cause.absent? := by
  rcases h with h | h <;> rw [h] <;> rfl

theorem LiesOn.pointsInto {source : String} {lexemes : List Lexeme} {called : String → Prop}
    (htokens : tokenize source = .ok lexemes)
    (h : LiesOn ((Layout.ofLexemes lexemes).calling called) fault) : fault.PointsInto source where
  inside := inside_of_layout htokens h.span
  name name hcause := (mem_of_tokenize htokens (h.name name (mem_absent? hcause)).2 (by simp)).2

theorem LiesOn.origin {scripts : List Script} (h : LiesOn (Layout.ofScripts scripts) fault) :
    ∃ origin ∈ scripts, fault.PointsInto origin.source := by
  cases habsent : fault.cause.absent? with
  | none =>
    obtain ⟨origin, horigin, lexemes, htokens, hspan⟩ := h.span
    refine ⟨origin, horigin, inside_of_layout htokens hspan, fun name hcause => ?_⟩
    have hname := mem_absent? hcause
    rw [habsent] at hname
    cases hname
  | some absent =>
    obtain ⟨origin, horigin, lexemes, htokens, hname⟩ := h.name absent habsent
    refine ⟨origin, horigin, inside_of_layout htokens (Layout.span_of_name _ hname), ?_⟩
    intro name hcause
    obtain rfl : absent = name := Option.some.inj (habsent.symm.trans (mem_absent? hcause))
    exact (mem_of_tokenize htokens hname.2 (by simp)).2

end RuntimeFault

namespace Machine

/-- The machine after the scripts ran in turn, however each of them ended. -/
def afterAll (machine : Machine) (scripts : List Script) : Machine :=
  scripts.foldl (fun machine script => (machine.withoutOutput.runScript script).2) machine

/-- The program calls no function that was defined before it runs. -/
def CallsNoneOf (machine : Machine) (program : Program) : Prop :=
  ∀ name ∈ program.callees, ∀ function, machine.env.function? name ≠ some (.defined function)

theorem runScript_runtime {m : Machine} {script source : Script} {fault : RuntimeFault}
    (h : (m.runScript script).1 = .error (.runtime source fault)) :
    source = script ∧ ∃ program, script.program = .ok program ∧ (m.run program).1 = .error fault := by
  cases hprogram : script.program with
  | error failure =>
    rw [runScript, hprogram] at h
    obtain rfl := Except.error.inj h
    rcases Script.program_error hprogram with ⟨_, -, hfailure⟩ | ⟨_, _, -, -, hfailure⟩ <;>
      cases hfailure
  | ok program =>
    rw [runScript_of_program hprogram] at h
    change (m.run program).1.mapError (Failure.runtime script) = _ at h
    cases hrun : (m.run program).1 with
    | ok _ =>
      rw [hrun] at h
      cases h
    | error fault' =>
      rw [hrun] at h
      cases h
      exact ⟨rfl, program, rfl, hrun⟩

section Scripts

variable {m : Machine} {earlier : List Script}

theorem LiesOn.scripts_mono {more : List Script} (hm : m.LiesOn (.ofScripts earlier))
    (h : earlier ⊆ more) : m.LiesOn (.ofScripts more) :=
  fun name function hcalled hfunction =>
    (hm name function hcalled hfunction).mono (Layout.ofScripts_extends h)

/-- The script adds its own text to those that functions and faults may point into. -/
theorem LiesOn.runProgram (hm : m.LiesOn (.ofScripts earlier)) {script : Script} {program : Program}
    (hprogram : script.program = .ok program) :
    (m.run program).2.LiesOn (.ofScripts (earlier ++ [script])) ∧
      ∀ fault, (m.run program).1 = .error fault →
        RuntimeFault.LiesOn (.ofScripts (earlier ++ [script])) fault := by
  obtain ⟨lexemes, htokens, hparse⟩ := Script.program_ok.1 hprogram
  have hlies := laysOut_of_parse (ordered_of_tokenize htokens) hparse
  have hscript : script ∈ earlier ++ [script] := List.mem_append_right _ (List.mem_singleton_self _)
  refine run_staysOn (hm.scripts_mono (List.subset_append_left _ _)) fun s hs => ?_
  exact (hlies s hs).mono (Layout.extends_ofScripts hscript htokens)

theorem LiesOn.runScript (hm : m.LiesOn (.ofScripts earlier)) (script : Script) :
    (m.runScript script).2.LiesOn (.ofScripts (earlier ++ [script])) := by
  unfold Machine.runScript
  split
  · exact hm.scripts_mono (List.subset_append_left _ _)
  · next hprogram => exact (hm.runProgram hprogram).1

theorem LiesOn.afterAll (hm : m.LiesOn (.ofScripts earlier)) (scripts : List Script) :
    (m.afterAll scripts).LiesOn (.ofScripts (earlier ++ scripts)) := by
  induction scripts generalizing m earlier with
  | nil => rwa [List.append_nil]
  | cons script scripts ih =>
    have hstep := ih (LiesOn.runScript (m := m.withoutOutput) hm script)
    rwa [List.append_assoc] at hstep

theorem CallsNoneOf.pointsInto {script : Script} {program : Program} {fault : RuntimeFault}
    (hcalls : m.CallsNoneOf program) (hprogram : script.program = .ok program)
    (h : (m.run program).1 = .error fault) : fault.PointsInto script.source := by
  obtain ⟨lexemes, htokens, hparse⟩ := Script.program_ok.1 hprogram
  have hlies := laysOut_of_parse (ordered_of_tokenize htokens) hparse
  let layout := (Layout.ofLexemes lexemes).calling (· ∈ program.callees)
  have hm : m.LiesOn layout :=
    fun name function hcalled hfunction => absurd hfunction (hcalls name hcalled function)
  have hstatements : ∀ s ∈ program.statements, s.LiesOn layout := by
    refine fun s hs => (hlies s hs).calling fun name hname => ?_
    rw [Program.callees, Stmt.calleesAll_eq_flatMap]
    exact List.mem_flatMap_of_mem hs hname
  exact RuntimeFault.LiesOn.pointsInto htokens ((run_staysOn hm hstatements).2 fault h)

end Scripts

end Machine

/-- A fault of a session is reported with the script that runs, and points into one of the scripts
that ran up to then. It points into the script that runs if that calls no function from before. -/
theorem session_fault_origin (earlier : List Script) {script source : Script} {fault : RuntimeFault}
    (h : ((Machine.initial.afterAll earlier).withoutOutput.runScript script).1 =
      .error (.runtime source fault)) :
    source = script ∧ (∃ origin ∈ earlier ++ [script], fault.PointsInto origin.source) ∧
      ∀ program, script.program = .ok program →
        (Machine.initial.afterAll earlier).CallsNoneOf program → fault.PointsInto source.source := by
  obtain ⟨rfl, program, hprogram, hrun⟩ := Machine.runScript_runtime h
  have hinitial : Machine.initial.LiesOn (.ofScripts []) := Machine.initial_liesOn _
  have hm : (Machine.initial.afterAll earlier).withoutOutput.LiesOn (.ofScripts earlier) :=
    hinitial.afterAll earlier
  refine ⟨rfl, ((hm.runProgram hprogram).2 fault hrun).origin, ?_⟩
  intro program' hprogram' hcalls
  obtain rfl : program = program' := Except.ok.inj (hprogram.symm.trans hprogram')
  exact Machine.CallsNoneOf.pointsInto (m := (Machine.initial.afterAll earlier).withoutOutput)
    hcalls hprogram hrun

def definingUnbound : Script := ⟨"<repl>", "funksiya f() \x7b qaytar yoq; \x7d"⟩

def callingUnbound : Script := ⟨"<repl>", "chop f();"⟩

theorem session_fault_origin_earlier :
    ∃ origin ∈ [definingUnbound, callingUnbound],
      Span.slice ⟨22, 25⟩ origin.source = "yoq" := by
  have hrun : ((Machine.initial.afterAll [definingUnbound]).withoutOutput.runScript
      callingUnbound).1 = .error (.runtime callingUnbound ⟨.unboundVariable "yoq", ⟨22, 25⟩⟩) := by
    decide +kernel
  obtain ⟨-, ⟨origin, horigin, hpoints⟩, -⟩ := session_fault_origin [definingUnbound] hrun
  exact ⟨origin, horigin, hpoints.name "yoq" (.inl rfl)⟩

/-- The fault of the shorter script is reported at a place that is not inside it. -/
theorem session_fault_outside_source :
    ((Machine.initial.afterAll [definingUnbound]).withoutOutput.runScript callingUnbound).1 =
        .error (.runtime callingUnbound ⟨.unboundVariable "yoq", ⟨22, 25⟩⟩) ∧
      callingUnbound.source.utf8ByteSize = 9 ∧
      ¬ RuntimeFault.PointsInto ⟨.unboundVariable "yoq", ⟨22, 25⟩⟩ callingUnbound.source := by
  have hsize : callingUnbound.source.utf8ByteSize = 9 := by decide +kernel
  refine ⟨by decide +kernel, hsize, fun hpoints => ?_⟩
  have hstop := hpoints.inside.stop_le
  rw [hsize] at hstop
  exact absurd hstop (by decide)

end UzScript
