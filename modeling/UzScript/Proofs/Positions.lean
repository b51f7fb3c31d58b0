import UzScript.Proofs.Lockstep
import UzScript.Proofs.RoundTrip

/-! # Runs do not depend on places in the source

A program runs in lockstep with its erasure, and so with every program that has the same erasure.
In particular a script does the same as its printed text: locations only show in where a fault is
reported. -/

set_option autoImplicit false

namespace UzScript

namespace Eval

variable {a b : Array String}

theorem integer_lockstep (value : Value) (use : IntegerUse) (location location' : Span) :
    Lockstep a b (integer value use location) (integer value use location') := by
  unfold integer
  split
  · exact .pure _
  · exact .fail _ _ _

theorem operation_lockstep (op : Operator) (i j : Integer) (location location' : Span) :
    Lockstep a b (operation op i j location) (operation op i j location') := by
  unfold operation
  split
  · exact .pure _
  · exact .fail _ _ _

def InvokeLockstep (a b : Array String) (invoke invoke' : Invoke) : Prop :=
  ∀ function function' : FunctionDef, function.erase = function'.erase →
    ∀ arguments location location',
      Lockstep a b (invoke function arguments location) (invoke' function' arguments location')

theorem apply_lockstep {invoke invoke' : Invoke} (hinvoke : InvokeLockstep a b invoke invoke')
    (name : String) {callable callable' : Callable} (h : callable.erase = callable'.erase)
    (arguments : List Integer) (location location' : Span) :
    Lockstep a b (apply invoke name callable arguments location)
      (apply invoke' name callable' arguments location') := by
  have harity : callable.arity = callable'.arity := by
    rw [← Callable.arity_erase, h, Callable.arity_erase]
  unfold apply
  rw [harity]
  split
  · cases callable with
    | builtin builtin =>
      cases callable' with
      | builtin builtin' =>
        obtain rfl : builtin = builtin' := Callable.builtin.inj h
        dsimp only
        cases builtin.call arguments with
        | some i => exact .pure i
        | none => exact .fail _ _ _
      | defined function' => cases h
    | defined function =>
      cases callable' with
      | builtin builtin' => cases h
      | defined function' => exact hinvoke function function' (Callable.defined.inj h) _ _ _
  · exact .fail _ _ _

mutual

theorem expr_lockstep {invoke invoke' : Invoke} (hinvoke : InvokeLockstep a b invoke invoke') :
    (e : Expr) → Lockstep a b (expr invoke e) (expr invoke' e.erase)
  | .integer value _ => by
    rw [Expr.erase, expr, expr]
    exact .pure _
  | .text value _ => by
    rw [Expr.erase, expr, expr]
    exact .pure _
  | .variable ident => by
    rw [Expr.erase, expr, expr]
    refine .get_bind fun m n hmn => ?_
    rw [Ident.erase_name, Environment.get?_of_view hmn.view]
    split
    · exact .pure _
    · exact .fail _ _ _
  | .binary op left right location => by
    rw [Expr.erase, expr, expr]
    refine .bind (expr_lockstep hinvoke left) fun u => ?_
    refine .bind (expr_lockstep hinvoke right) fun v => ?_
    refine .bind (integer_lockstep _ _ _ _) fun i => ?_
    refine .bind (integer_lockstep _ _ _ _) fun j => ?_
    exact .bind (operation_lockstep _ _ _ _ _) fun k => .pure _
  | .call function arguments location => by
    rw [Expr.erase, expr, expr]
    refine .get_bind fun m n hmn => ?_
    have hfunction := Environment.function?_of_view hmn.view function.name
    rw [Ident.erase_name]
    cases hm : m.env.function? function.name with
    | none =>
      rw [hm, Option.map_none, eq_comm, Option.map_eq_none_iff] at hfunction
      rw [hfunction]
      exact .fail _ _ _
    | some callable =>
      rw [hm, Option.map_some, eq_comm, Option.map_eq_some_iff] at hfunction
      obtain ⟨callable', hn, hcallable⟩ := hfunction
      rw [hn]
      refine .bind (exprs_lockstep hinvoke arguments) fun values => ?_
      exact .bind (apply_lockstep hinvoke _ hcallable.symm _ _ _) fun i => .pure _
  | .list elements location => by
    rw [Expr.erase, expr, expr, Expr.eraseAll_eq_map, List.length_map]
    split
    · exact .pure _
    · exact .fail _ _ _

theorem exprs_lockstep {invoke invoke' : Invoke} (hinvoke : InvokeLockstep a b invoke invoke') :
    (es : List Expr) → Lockstep a b (exprs invoke es) (exprs invoke' (Expr.eraseAll es))
  | [] => by
    rw [Expr.eraseAll, exprs, exprs]
    exact .pure _
  | e :: es => by
    rw [Expr.eraseAll, exprs, exprs]
    refine .bind (expr_lockstep hinvoke e) fun value => ?_
    refine .bind (integer_lockstep _ _ _ _) fun first => ?_
    exact .bind (exprs_lockstep hinvoke es) fun rest => .pure _

end

mutual

theorem stmt_lockstep {invoke invoke' : Invoke} (hinvoke : InvokeLockstep a b invoke invoke') :
    (s : Stmt) → Lockstep a b (stmt invoke s) (stmt invoke' s.erase)
  | .declare ident value _ => by
    rw [Stmt.erase, stmt, stmt]
    refine .bind (expr_lockstep hinvoke value) fun v => ?_
    refine .bind (.modifyEnv fun env other h => ?_) fun _ => .pure _
    exact Environment.view_declare h ident.name v
  | .print value _ => by
    rw [Stmt.erase, stmt, stmt]
    refine .bind (expr_lockstep hinvoke value) fun v => ?_
    exact .bind (.printLine _) fun _ => .pure _
  | .branch condition thenBlock elseBlock _ => by
    rw [Stmt.erase, stmt, stmt]
    refine .bind (expr_lockstep hinvoke condition) fun v => ?_
    refine .bind (integer_lockstep _ _ _ _) fun test => ?_
    split
    · exact block_lockstep hinvoke thenBlock
    · exact optionalBlock_lockstep hinvoke elseBlock
  | .define function => by
    rw [Stmt.erase, stmt, stmt]
    refine .bind (.modifyEnv fun env other h => ?_) fun _ => .pure _
    rw [FunctionDef.ident_erase, Ident.erase_name]
    exact Environment.view_define h _ (congrArg Callable.defined function.erase_erase.symm)
  | .giveBack value _ => by
    rw [Stmt.erase, stmt, stmt]
    refine .bind (expr_lockstep hinvoke value) fun v => ?_
    exact .bind (integer_lockstep _ _ _ _) fun i => .pure _

theorem stmts_lockstep {invoke invoke' : Invoke} (hinvoke : InvokeLockstep a b invoke invoke') :
    (ss : List Stmt) → Lockstep a b (stmts invoke ss) (stmts invoke' (Stmt.eraseAll ss))
  | [] => by
    rw [Stmt.eraseAll, stmts, stmts]
    exact .pure _
  | s :: ss => by
    rw [Stmt.eraseAll, stmts, stmts]
    refine .bind (stmt_lockstep hinvoke s) fun flow => ?_
    split
    · exact stmts_lockstep hinvoke ss
    · exact .pure _

theorem block_lockstep {invoke invoke' : Invoke} (hinvoke : InvokeLockstep a b invoke invoke') :
    (body : Block) → Lockstep a b (block invoke body) (block invoke' body.erase)
  | ⟨statements, _⟩ => by
    rw [Block.erase, block, block]
    exact stmts_lockstep hinvoke statements

theorem optionalBlock_lockstep {invoke invoke' : Invoke}
    (hinvoke : InvokeLockstep a b invoke invoke') : (body : Option Block) →
      Lockstep a b (optionalBlock invoke body) (optionalBlock invoke' (Block.eraseElse body))
  | none => by
    rw [Block.eraseElse, optionalBlock, optionalBlock]
    exact .pure _
  | some body => by
    rw [Block.eraseElse, optionalBlock, optionalBlock]
    exact block_lockstep hinvoke body

end

theorem Lockstep.of_common {α : Type} {x y z : Eval α} (hx : Lockstep a a x z)
    (hy : Lockstep b a y z) : Lockstep a b x y :=
  hx.trans hy.symm

theorem frameOf_erase (function : FunctionDef) (arguments : List Integer) :
    frameOf function.erase arguments = frameOf function arguments := by
  rw [frameOf, frameOf, FunctionDef.parameters_erase]

theorem frameOf_congr {function function' : FunctionDef} (h : function.erase = function'.erase)
    (arguments : List Integer) : frameOf function arguments = frameOf function' arguments := by
  rw [← frameOf_erase, h, frameOf_erase]

theorem body_erase_congr {function function' : FunctionDef}
    (h : function.erase = function'.erase) : function.body.erase = function'.body.erase := by
  rw [← FunctionDef.body_erase, h, FunctionDef.body_erase]

theorem invoke_lockstep (room : Nat) (a b : Array String) :
    InvokeLockstep a b (invoke room) (invoke room) := by
  induction room generalizing a b with
  | zero => exact fun _ _ _ _ location location' => .fail .callDepthExceeded location location'
  | succ room ih =>
    intro function function' h arguments location location'
    have hbody : Lockstep a b (block (invoke room) function.body)
        (block (invoke room) function'.body) := by
      have herased := block_lockstep (ih b a) function'.body
      rw [← body_erase_congr h] at herased
      exact (block_lockstep (ih a a) function.body).of_common herased
    simp only [invoke, frameOf_congr h]
    exact .bind (.withFrame hbody _) fun flow => .pure _

/-- The room for calls is the same on both sides, since as many calls are active. -/
theorem execute_lockstep (a b : Array String) (ss : List Stmt) :
    Lockstep a b (Machine.execute ss) (Machine.execute (Stmt.eraseAll ss)) := by
  refine .get_bind fun m n hmn => ?_
  rw [Environment.depth_of_view hmn.view]
  exact stmts_lockstep (invoke_lockstep _ a b) ss

end Eval

theorem Machine.execute_sameEnd {ss ss' : List Stmt} (h : Stmt.eraseAll ss = Stmt.eraseAll ss')
    {m n : Machine} (hview : m.env.view = n.env.view) :
    Eval.SameEnd m.output n.output (Machine.execute ss m) (Machine.execute ss' n) := by
  have herased := Eval.execute_lockstep n.output m.output ss'
  rw [← h] at herased
  exact (Eval.execute_lockstep m.output m.output ss).of_common herased m n
    ⟨hview, #[], by simp, by simp⟩

theorem Machine.run_lockstep {P Q : Program} (hprogram : P.erase = Q.erase) {m n : Machine}
    (hview : m.env.view = n.env.view) :
    (m.run P).1.mapError Fault.cause = (n.run Q).1.mapError Fault.cause ∧
      Machine.Alike m.output n.output (m.run P).2 (n.run Q).2 := by
  have hstatements : Stmt.eraseAll P.statements = Stmt.eraseAll Q.statements :=
    congrArg Program.statements hprogram
  have hsame := Machine.execute_sameEnd hstatements hview
  unfold Machine.run
  generalize Machine.execute P.statements m = r at hsame ⊢
  generalize Machine.execute Q.statements n = r' at hsame ⊢
  cases hsame with
  | ok flow alike => exact ⟨rfl, alike⟩
  | error cause alike => exact ⟨congrArg Except.error cause, alike⟩

theorem Machine.runScript_of_program {script : Script} {program : Program}
    (h : script.program = .ok program) (m : Machine) :
    m.runScript script = m.runProgram script program := by
  rw [Machine.runScript, h]

theorem Script.run_of_program {script : Script} {program : Program}
    (h : script.program = .ok program) :
    script.run = ((Machine.initial.run program).1.mapError (.runtime script),
      (Machine.initial.run program).2.output) := by
  rw [Script.run, Machine.runScript_of_program h]
  rfl

theorem Machine.outcomes_of_causes {r r' : Except RuntimeFault Unit}
    (h : r.mapError Fault.cause = r'.mapError Fault.cause) :
    (r = .ok () ∧ r' = .ok ()) ∨
      ∃ fault fault', r = .error fault ∧ r' = .error fault' ∧ fault.cause = fault'.cause := by
  cases r with
  | ok u =>
    cases r' with
    | ok u' => exact .inl ⟨rfl, rfl⟩
    | error fault' => cases h
  | error fault =>
    cases r' with
    | ok u' => cases h
    | error fault' => exact .inr ⟨fault, fault', rfl, rfl, Except.error.inj h⟩

/-- Programs that differ in locations only, run on machines whose environments look the same, end
well or fail for the same cause, print the same lines, and leave environments that look the same.
So a script and its printed text print the same lines and end alike. -/
theorem run_independent_of_locations :
    (∀ (P Q : Program) (m n : Machine), P.erase = Q.erase → m.env.view = n.env.view →
      (m.run P).1.mapError Fault.cause = (n.run Q).1.mapError Fault.cause ∧
      (m.run P).2.env.view = (n.run Q).2.env.view ∧
      ∃ lines, (m.run P).2.output = m.output ++ lines ∧ (n.run Q).2.output = n.output ++ lines) ∧
    ∀ (script printed : Script) (program : Program), script.program = .ok program →
      printed.source = program.render →
      printed.run.2 = script.run.2 ∧
      (script.run.1 = .ok () ∧ printed.run.1 = .ok () ∨
        ∃ fault fault' : RuntimeFault, script.run.1 = .error (.runtime script fault) ∧
          printed.run.1 = .error (.runtime printed fault') ∧ fault.cause = fault'.cause) := by
  constructor
  · intro P Q m n hprogram hview
    obtain ⟨hcause, halike⟩ := Machine.run_lockstep hprogram hview
    exact ⟨hcause, halike.view, halike.lines⟩
  · intro script printed program hparsed hsource
    obtain ⟨again, hagain, herase⟩ := (Script.printable hparsed).reparsed printed.path
    rw [Program.render_erase, ← hsource] at hagain
    obtain ⟨hcause, halike⟩ := Machine.run_lockstep (m := .initial) (n := .initial) herase rfl
    obtain ⟨lines, houtput, houtput'⟩ := halike.lines
    rw [Script.run_of_program hparsed, Script.run_of_program hagain]
    refine ⟨houtput.trans houtput'.symm, ?_⟩
    obtain ⟨hok, hok'⟩ | ⟨fault', fault, herror', herror, hsame⟩ := Machine.outcomes_of_causes hcause
    · exact .inl ⟨by rw [hok']; rfl, by rw [hok]; rfl⟩
    · exact .inr ⟨fault, fault', by rw [herror]; rfl, by rw [herror']; rfl, hsame.symm⟩

theorem run_independent_of_locations_fault :
    ∃ program, Script.program ⟨"a.uz", "soni x=(4);chop x*(2);chop x/(0);"⟩ = .ok program ∧
      program.render = "soni x = 4;\nchop x * 2;\nchop x / 0;" ∧
      (Script.run ⟨"b.uz", program.render⟩).2 = #["8"] := by
  obtain ⟨program, hprogram, htext⟩ :=
    Script.program_of_text ⟨"a.uz", "soni x=(4);chop x*(2);chop x/(0);"⟩
      "soni x = 4;\nchop x * 2;\nchop x / 0;" (by decide +kernel)
  have hlines := (run_independent_of_locations.2 _ ⟨"b.uz", program.render⟩ program hprogram rfl).1
  exact ⟨program, hprogram, htext, hlines.trans (by decide +kernel)⟩

end UzScript
