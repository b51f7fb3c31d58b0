import UzScript.Proofs.StatefulRuns
import UzScript.Session

/-! # What a run may do to a machine

An allowance says which changes an expression may make to the machine and which ones a statement
may make. When single changes keep to it and calls hand it on, so do whole runs, whether they end
well or with a fault. -/

set_option autoImplicit false

namespace UzScript

namespace Eval

variable {α β : Type}

def after (x : Eval α) (machine : Machine) : Machine :=
  match x machine with
  | .ok _ machine => machine
  | .error _ machine => machine

theorem after_ok {x : Eval α} {m n : Machine} {a : α} (h : x m = .ok a n) : x.after m = n := by
  rw [after, h]

theorem after_error {x : Eval α} {m n : Machine} {fault : RuntimeFault} (h : x m = .error fault n) :
    x.after m = n := by
  rw [after, h]

/-- Every run leads from a machine to a related one. -/
def Along (R : Machine → Machine → Prop) (x : Eval α) : Prop := ∀ m, R m (x.after m)

theorem Along.mono {R S : Machine → Machine → Prop} {x : Eval α} (hx : Along R x)
    (h : ∀ {m n}, R m n → S m n) : Along S x :=
  fun m => h (hx m)

theorem Along.bind {R : Machine → Machine → Prop} {x : Eval α} {f : α → Eval β} (hx : Along R x)
    (hf : ∀ a, Along R (f a)) (htrans : ∀ {l m n}, R l m → R m n → R l n) :
    Along R (x >>= f) := by
  intro m
  have hfirst := hx m
  cases hrun : x m with
  | ok a n =>
    rw [after_ok hrun] at hfirst
    have hafter : (x >>= f).after m = (f a).after n := by rw [after, bind_of_ok hrun, after]
    rw [hafter]
    exact htrans hfirst (hf a n)
  | error fault n =>
    rw [after_error hrun] at hfirst
    rw [after_error (bind_of_error hrun)]
    exact hfirst

end Eval

/-- Changes that expressions and statements may make. -/
structure Allowance (quiet step : Machine → Machine → Prop) : Prop where
  quiet_refl (m : Machine) : quiet m m
  quiet_trans {l m n : Machine} : quiet l m → quiet m n → quiet l n
  step_of_quiet {m n : Machine} : quiet m n → step m n
  step_trans {l m n : Machine} : step l m → step m n → step l n
  declare (m : Machine) (name : String) (value : Value) :
    step m { m with env := m.env.declare name value }
  define (m : Machine) (name : String) (callable : Callable) :
    step m { m with env := m.env.define name callable }
  print (m : Machine) (line : String) : step m { m with output := m.output.push line }
  call {m n : Machine} {frame : Frame} :
    step { m with env := m.env.push frame } n → quiet m { n with env := n.env.pop.2 }

namespace Allowance

open Eval

variable {quiet step : Machine → Machine → Prop} {α β : Type}

theorem pure (allowed : Allowance quiet step) (a : α) : Along quiet (Pure.pure a : Eval α) :=
  allowed.quiet_refl

theorem fail (allowed : Allowance quiet step) (cause : RuntimeCause) (location : Span) :
    Along quiet (Eval.fail cause location : Eval α) :=
  allowed.quiet_refl

theorem get (allowed : Allowance quiet step) : Along quiet (MonadState.get : Eval Machine) :=
  allowed.quiet_refl

theorem bind (allowed : Allowance quiet step) {x : Eval α} {f : α → Eval β} (hx : Along quiet x)
    (hf : ∀ a, Along quiet (f a)) : Along quiet (x >>= f) :=
  hx.bind hf allowed.quiet_trans

theorem step_bind (allowed : Allowance quiet step) {x : Eval α} {f : α → Eval β}
    (hx : Along step x) (hf : ∀ a, Along step (f a)) : Along step (x >>= f) :=
  hx.bind hf allowed.step_trans

theorem quiet_bind (allowed : Allowance quiet step) {x : Eval α} {f : α → Eval β}
    (hx : Along quiet x) (hf : ∀ a, Along step (f a)) : Along step (x >>= f) :=
  allowed.step_bind (hx.mono allowed.step_of_quiet) hf

theorem done (allowed : Allowance quiet step) (a : α) : Along step (Pure.pure a : Eval α) :=
  (allowed.pure a).mono allowed.step_of_quiet

theorem integer (allowed : Allowance quiet step) (value : Value) (use : IntegerUse)
    (location : Span) : Along quiet (Eval.integer value use location) := by
  unfold Eval.integer
  split
  · exact allowed.pure _
  · exact allowed.fail _ _

theorem operation (allowed : Allowance quiet step) (op : Operator) (a b : Integer)
    (location : Span) : Along quiet (Eval.operation op a b location) := by
  unfold Eval.operation
  split
  · exact allowed.pure _
  · exact allowed.fail _ _

theorem modifyEnv (allowed : Allowance quiet step) {f : Environment → Environment}
    (hf : ∀ m : Machine, step m { m with env := f m.env }) :
    Along step (Eval.modifyEnv f >>= fun _ => (Pure.pure Flow.done : Eval Flow)) :=
  allowed.step_bind hf fun _ => allowed.done _

theorem withFrame (allowed : Allowance quiet step) {body : Eval α} (hbody : Along step body)
    (frame : Frame) : Along quiet (Eval.withFrame frame body) := by
  intro m
  have hinner := hbody { m with env := m.env.push frame }
  cases hrun : body { m with env := m.env.push frame } with
  | ok a n =>
    rw [after_ok hrun] at hinner
    have hframe : Eval.withFrame frame body m = .ok a { n with env := n.env.pop.2 } := by
      rw [Eval.withFrame, hrun]
    rw [after_ok hframe]
    exact allowed.call hinner
  | error fault n =>
    rw [after_error hrun] at hinner
    have hframe : Eval.withFrame frame body m = .error fault { n with env := n.env.pop.2 } := by
      rw [Eval.withFrame, hrun]
    rw [after_error hframe]
    exact allowed.call hinner

/-! ## Runs keep to the allowance -/

def Calls (quiet : Machine → Machine → Prop) (invoke : Invoke) : Prop :=
  ∀ function arguments location, Along quiet (invoke function arguments location)

theorem apply (allowed : Allowance quiet step) {invoke : Invoke} (hinvoke : Calls quiet invoke)
    (name : String) (callable : Callable) (arguments : List Integer) (location : Span) :
    Along quiet (Eval.apply invoke name callable arguments location) := by
  unfold Eval.apply
  split
  · split
    · split
      · exact allowed.pure _
      · exact allowed.fail _ _
    · exact hinvoke _ _ _
  · exact allowed.fail _ _

mutual

theorem expr (allowed : Allowance quiet step) {invoke : Invoke} (hinvoke : Calls quiet invoke) :
    (e : Expr) → Along quiet (Eval.expr invoke e)
  | .integer value _ => by
    rw [Eval.expr]
    exact allowed.pure _
  | .text value _ => by
    rw [Eval.expr]
    exact allowed.pure _
  | .variable ident => by
    rw [Eval.expr]
    refine allowed.bind allowed.get fun m => ?_
    split
    · exact allowed.pure _
    · exact allowed.fail _ _
  | .binary op left right location => by
    rw [Eval.expr]
    refine allowed.bind (allowed.expr hinvoke left) fun a => ?_
    refine allowed.bind (allowed.expr hinvoke right) fun b => ?_
    refine allowed.bind (allowed.integer _ _ _) fun i => ?_
    refine allowed.bind (allowed.integer _ _ _) fun j => ?_
    exact allowed.bind (allowed.operation _ _ _ _) fun k => allowed.pure _
  | .call function arguments location => by
    rw [Eval.expr]
    refine allowed.bind allowed.get fun m => ?_
    split
    · exact allowed.fail _ _
    · refine allowed.bind (allowed.exprs hinvoke arguments) fun values => ?_
      exact allowed.bind (allowed.apply hinvoke _ _ _ _) fun i => allowed.pure _
  | .list elements location => by
    rw [Eval.expr]
    split
    · exact allowed.pure _
    · exact allowed.fail _ _

theorem exprs (allowed : Allowance quiet step) {invoke : Invoke} (hinvoke : Calls quiet invoke) :
    (es : List Expr) → Along quiet (Eval.exprs invoke es)
  | [] => by
    rw [Eval.exprs]
    exact allowed.pure _
  | e :: es => by
    rw [Eval.exprs]
    refine allowed.bind (allowed.expr hinvoke e) fun value => ?_
    refine allowed.bind (allowed.integer _ _ _) fun first => ?_
    exact allowed.bind (allowed.exprs hinvoke es) fun rest => allowed.pure _

end

mutual

theorem stmt (allowed : Allowance quiet step) {invoke : Invoke} (hinvoke : Calls quiet invoke) :
    (s : Stmt) → Along step (Eval.stmt invoke s)
  | .declare ident value _ => by
    rw [Eval.stmt]
    refine allowed.quiet_bind (allowed.expr hinvoke value) fun v => ?_
    exact allowed.modifyEnv fun m => allowed.declare m ident.name v
  | .print value _ => by
    rw [Eval.stmt]
    refine allowed.quiet_bind (allowed.expr hinvoke value) fun v => ?_
    exact allowed.step_bind (fun m => allowed.print m v.print) fun _ => allowed.done _
  | .branch condition thenBlock elseBlock _ => by
    rw [Eval.stmt]
    refine allowed.quiet_bind (allowed.expr hinvoke condition) fun v => ?_
    refine allowed.quiet_bind (allowed.integer _ _ _) fun test => ?_
    split
    · exact allowed.block hinvoke thenBlock
    · exact allowed.optionalBlock hinvoke elseBlock
  | .define function => by
    rw [Eval.stmt]
    exact allowed.modifyEnv fun m => allowed.define m function.ident.name (.defined function)
  | .giveBack value _ => by
    rw [Eval.stmt]
    refine allowed.quiet_bind (allowed.expr hinvoke value) fun v => ?_
    exact allowed.quiet_bind (allowed.integer _ _ _) fun i => allowed.done _

theorem stmts (allowed : Allowance quiet step) {invoke : Invoke} (hinvoke : Calls quiet invoke) :
    (ss : List Stmt) → Along step (Eval.stmts invoke ss)
  | [] => by
    rw [Eval.stmts]
    exact allowed.done _
  | s :: ss => by
    rw [Eval.stmts]
    refine allowed.step_bind (allowed.stmt hinvoke s) fun flow => ?_
    split
    · exact allowed.stmts hinvoke ss
    · exact allowed.done _

theorem block (allowed : Allowance quiet step) {invoke : Invoke} (hinvoke : Calls quiet invoke) :
    (b : Block) → Along step (Eval.block invoke b)
  | ⟨statements, _⟩ => by
    rw [Eval.block]
    exact allowed.stmts hinvoke statements

theorem optionalBlock (allowed : Allowance quiet step) {invoke : Invoke}
    (hinvoke : Calls quiet invoke) :
    (b : Option Block) → Along step (Eval.optionalBlock invoke b)
  | none => by
    rw [Eval.optionalBlock]
    exact allowed.done _
  | some b => by
    rw [Eval.optionalBlock]
    exact allowed.block hinvoke b

end

theorem calls (allowed : Allowance quiet step) (room : Nat) : Calls quiet (Eval.invoke room) := by
  induction room with
  | zero => exact fun _ _ location => allowed.fail .callDepthExceeded location
  | succ room ih =>
    intro function arguments location
    exact allowed.bind (allowed.withFrame (allowed.block ih function.body) _) fun _ => allowed.pure _

theorem execute (allowed : Allowance quiet step) (statements : List Stmt) :
    Along step (Machine.execute statements) :=
  allowed.quiet_bind allowed.get fun _ => allowed.stmts (allowed.calls _) statements

theorem run (allowed : Allowance quiet step) (machine : Machine) (program : Program) :
    step machine (machine.run program).2 := by
  have hexecute := allowed.execute program.statements machine
  unfold Machine.run
  split
  · next hrun => exact after_ok hrun ▸ hexecute
  · next hrun => exact after_error hrun ▸ hexecute

theorem runScript (allowed : Allowance quiet step) (machine : Machine) (script : Script) :
    step machine (machine.runScript script).2 := by
  unfold Machine.runScript
  split
  · exact allowed.step_of_quiet (allowed.quiet_refl machine)
  · exact allowed.run machine _

end Allowance

end UzScript
