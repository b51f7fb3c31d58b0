import Mathlib.Logic.Relation
import UzScript.Proofs.Frames

/-! # Runs, step by step

A state holds what is being worked on, what is still to be done with its result, and the machine. A
step does one thing: it looks at one expression or statement, hands one result on, or makes one call.
Whether there is room for a call is found out when the call is made, from the calls that are active
then, so nothing in the states themselves bounds a run. Yet every run ends, and it ends with the
result of the program. -/

set_option autoImplicit false

namespace UzScript

/-! ## States and steps -/

inductive Awaited where
  | value
  | flow

/-- What is still to be done. Values go into an operation, a call or a statement, and the end of
statements goes to the statements after them, to a call, or ends the run. -/
inductive Pending : Awaited → Type
  | right (op : Operator) (left right : Expr) (location : Span) (k : Pending .value) : Pending .value
  | operation (op : Operator) (a : Value) (left right : Expr) (location : Span)
      (k : Pending .value) : Pending .value
  | argument (name : String) (callable : Callable) (before : List Integer) (e : Expr)
      (es : List Expr) (location : Span) (k : Pending .value) : Pending .value
  | declare (name : String) (k : Pending .flow) : Pending .value
  | print (k : Pending .flow) : Pending .value
  | branch (condition : Expr) (thenBlock : Block) (elseBlock : Option Block) (k : Pending .flow) :
      Pending .value
  | giveBack (value : Expr) (k : Pending .flow) : Pending .value
  | statements (ss : List Stmt) (k : Pending .flow) : Pending .flow
  | leave (k : Pending .value) : Pending .flow
  | finish : Pending .flow

inductive State where
  | expr (e : Expr) (k : Pending .value) (m : Machine)
  | call (name : String) (callable : Callable) (arguments : List Integer) (location : Span)
      (k : Pending .value) (m : Machine)
  | value (v : Value) (k : Pending .value) (m : Machine)
  | stmt (s : Stmt) (k : Pending .flow) (m : Machine)
  | stmts (ss : List Stmt) (k : Pending .flow) (m : Machine)
  | flow (f : Flow) (k : Pending .flow) (m : Machine)
  | fault {awaited : Awaited} (reason : RuntimeFault) (k : Pending awaited) (m : Machine)

namespace State

/-- The state after a computation, when its result is to be handed on as given. -/
def ofResult {α : Type} {awaited : Awaited} (k : Pending awaited) (next : α → Machine → State) :
    EStateM.Result RuntimeFault Machine α → State
  | .ok a m => next a m
  | .error reason m => .fault reason k m

def ofValue (k : Pending .value) : EStateM.Result RuntimeFault Machine Value → State :=
  ofResult k fun v m => .value v k m

def ofFlow (k : Pending .flow) : EStateM.Result RuntimeFault Machine Flow → State :=
  ofResult k fun f m => .flow f k m

def arguments (name : String) (callable : Callable) (before : List Integer) (location : Span)
    (k : Pending .value) (m : Machine) : List Expr → State
  | [] => .call name callable before location k m
  | e :: es => .expr e (.argument name callable before e es location k) m

def begin (k : Pending .value) (m : Machine) : Expr → State
  | .integer i _ => .value (.integer i) k m
  | .text content _ => .value (.text content) k m
  | .variable ident =>
    match m.env.get? ident.name with
    | some v => .value v k m
    | none => .fault ⟨.unboundVariable ident.name, ident.location⟩ k m
  | .binary op left right location => .expr left (.right op left right location k) m
  | .call function args location =>
    match m.env.function? function.name with
    | none => .fault ⟨.unknownFunction function.name, function.location⟩ k m
    | some callable => arguments function.name callable [] location k m args
  | .list elements location =>
    match Integer.ofInt? elements.length with
    | some count => .value (.integer count) k m
    | none => .fault ⟨.integerOverflow, location⟩ k m

/-- Makes a call. A function of the program is entered if there is room for one more call. -/
def enter (name : String) (args : List Integer) (location : Span) (k : Pending .value)
    (m : Machine) (callable : Callable) : State :=
  if args.length = callable.arity then
    match callable with
    | .builtin builtin =>
      match builtin.call args with
      | some i => .value (.integer i) k m
      | none => .fault ⟨.integerOverflow, location⟩ k m
    | .defined function =>
      if callLimit ≤ m.env.depth then .fault ⟨.callDepthExceeded, location⟩ k m
      else
        .stmts function.body.statements (.leave k)
          { m with env := m.env.push (Eval.frameOf function args) }
  else .fault ⟨.arityMismatch name callable.arity args.length, location⟩ k m

def run (k : Pending .flow) (m : Machine) : Stmt → State
  | .declare ident e _ => .expr e (.declare ident.name k) m
  | .print e _ => .expr e (.print k) m
  | .branch condition thenBlock elseBlock _ =>
    .expr condition (.branch condition thenBlock elseBlock k) m
  | .define function =>
    .flow .done k { m with env := m.env.define function.ident.name (.defined function) }
  | .giveBack e _ => .expr e (.giveBack e k) m

def branch (k : Pending .flow) (m : Machine) : Option Block → State
  | none => .flow .done k m
  | some block => .stmts block.statements k m

def supply (v : Value) (m : Machine) : Pending .value → State
  | .right op left right location k => .expr right (.operation op v left right location k) m
  | .operation op a left right location k =>
    ofValue k <| (do
      let a ← Eval.integer a (.operand op) left.location
      let b ← Eval.integer v (.operand op) right.location
      return .integer (← Eval.operation op a b location) : Eval Value) m
  | .argument name callable before e es location k =>
    ofResult k (fun i m => arguments name callable (before ++ [i]) location k m es)
      (Eval.integer v .argument e.location m)
  | .declare name k => .flow .done k { m with env := m.env.declare name v }
  | .print k => .flow .done k { m with output := m.output.push v.print }
  | .branch condition thenBlock elseBlock k =>
    ofResult k (fun test m => branch k m (if test.val ≠ 0 then some thenBlock else elseBlock))
      (Eval.integer v .condition condition.location m)
  | .giveBack e k =>
    ofFlow k <| (do return .returned (← Eval.integer v .result e.location) : Eval Flow) m

def finish (f : Flow) (m : Machine) : Pending .flow → Option State
  | .statements ss k =>
    match f with
    | .done => some (.stmts ss k m)
    | .returned i => some (.flow (.returned i) k m)
  | .leave k => some (.value (.integer f.value) k { m with env := m.env.pop.2 })
  | .finish => none

/-- Takes a fault out of what it happened in. A call that it leaves is over. -/
def unwind (reason : RuntimeFault) (m : Machine) : {awaited : Awaited} → Pending awaited → Option State
  | _, .right _ _ _ _ k => some (.fault reason k m)
  | _, .operation _ _ _ _ _ k => some (.fault reason k m)
  | _, .argument _ _ _ _ _ _ k => some (.fault reason k m)
  | _, .declare _ k => some (.fault reason k m)
  | _, .print k => some (.fault reason k m)
  | _, .branch _ _ _ k => some (.fault reason k m)
  | _, .giveBack _ k => some (.fault reason k m)
  | _, .statements _ k => some (.fault reason k m)
  | _, .leave k => some (.fault reason k { m with env := m.env.pop.2 })
  | _, .finish => none

def step : State → Option State
  | .expr e k m => some (begin k m e)
  | .call name callable args location k m => some (enter name args location k m callable)
  | .value v k m => some (supply v m k)
  | .stmt s k m => some (run k m s)
  | .stmts [] k m => some (.flow .done k m)
  | .stmts (s :: ss) k m => some (.stmt s (.statements ss k) m)
  | .flow f k m => finish f m k
  | .fault reason k m => unwind reason m k

/-- The result of a run that is over. -/
def result? : State → Option (Except RuntimeFault Unit × Machine)
  | .flow _ .finish m => some (.ok (), m)
  | .fault reason .finish m => some (.error reason, m)
  | _ => none

def start (program : Program) (m : Machine) : State := .stmts program.statements .finish m

def Next (s t : State) : Prop := s.step = some t

abbrev Reaches : State → State → Prop := Relation.ReflTransGen Next

/-! ## Steps lead to the results of evaluation -/

def ofArguments (name : String) (callable : Callable) (before : List Integer) (location : Span)
    (k : Pending .value) : EStateM.Result RuntimeFault Machine (List Integer) → State :=
  ofResult k fun args m => .call name callable (before ++ args) location k m

end State

namespace Eval

variable {room : Nat} {m n : Machine}

theorem depth_expr {e : Expr} {v : Value} (h : expr (invoke room) e m = .ok v n) :
    n.env.depth = m.env.depth := by
  have hkept := Machine.framesKept_allowance.expr (Machine.framesKept_allowance.calls room) e m
  rw [after_ok h] at hkept
  exact (Machine.framesKept_allowance.step_of_quiet hkept).depth

theorem depth_stmt {s : Stmt} {f : Flow} (h : stmt (invoke room) s m = .ok f n) :
    n.env.depth = m.env.depth := by
  have hkept := Machine.framesKept_allowance.stmt (Machine.framesKept_allowance.calls room) s m
  rw [after_ok h] at hkept
  exact hkept.depth

theorem depth_exprs {es : List Expr} {is : List Integer}
    (h : exprs (invoke room) es m = .ok is n) : n.env.depth = m.env.depth := by
  have hkept := Machine.framesKept_allowance.exprs (Machine.framesKept_allowance.calls room) es m
  rw [after_ok h] at hkept
  exact (Machine.framesKept_allowance.step_of_quiet hkept).depth

theorem integer_ok {v : Value} {use : IntegerUse} {location : Span} {i : Integer}
    (h : integer v use location m = .ok i n) : m = n := by
  cases hv : v.integer? with
  | error got =>
    rw [integer, hv] at h
    cases h
  | ok i =>
    rw [integer, hv] at h
    cases h
    rfl

variable {function : FunctionDef} {args : List Integer} {location : Span}

theorem invoke_of_ok {f : Flow} (h : block (invoke room) function.body
      { m with env := m.env.push (frameOf function args) } = .ok f n) :
    invoke (room + 1) function args location m = .ok f.value { n with env := n.env.pop.2 } := by
  have hframe : withFrame (frameOf function args) (block (invoke room) function.body) m =
      .ok f { n with env := n.env.pop.2 } := by
    rw [withFrame, h]
  exact bind_of_ok hframe

theorem invoke_of_error {reason : RuntimeFault} (h : block (invoke room) function.body
      { m with env := m.env.push (frameOf function args) } = .error reason n) :
    invoke (room + 1) function args location m = .error reason { n with env := n.env.pop.2 } := by
  have hframe : withFrame (frameOf function args) (block (invoke room) function.body) m =
      .error reason { n with env := n.env.pop.2 } := by
    rw [withFrame, h]
  exact bind_of_error hframe

end Eval

open Relation (ReflTransGen)
open State (Reaches ofValue ofFlow ofArguments arguments)

/-- Steps that lead to the result of a computation, and from there on to that of the one after it,
lead to the result of both. -/
theorem reaches_bind {α β : Type} {x : Eval α} {f : α → Eval β} {s : State} {m : Machine}
    (first : EStateM.Result RuntimeFault Machine α → State)
    (second : EStateM.Result RuntimeFault Machine β → State) (hx : Reaches s (first (x m)))
    (herror : ∀ reason n, Reaches (first (.error reason n)) (second (.error reason n)))
    (hok : ∀ a n, x m = .ok a n → Reaches (first (.ok a n)) (second (f a n))) :
    Reaches s (second ((x >>= f) m)) := by
  cases hrun : x m with
  | ok a n =>
    rw [hrun] at hx
    rw [bind_of_ok hrun]
    exact hx.trans (hok a n hrun)
  | error reason n =>
    rw [hrun] at hx
    rw [bind_of_error hrun]
    exact hx.trans (herror reason n)

/-- With room for so many calls, steps carry out a call of a defined function. -/
def Carried (room : Nat) : Prop :=
  ∀ (name : String) (function : FunctionDef) (args : List Integer) (location : Span)
    (k : Pending .value) (m : Machine), callLimit - m.env.depth = room →
    args.length = (Callable.defined function).arity →
    Reaches (.call name (.defined function) args location k m)
      (ofValue k ((do return .integer (← Eval.invoke room function args location) : Eval Value) m))

namespace Carried

variable {room : Nat}

theorem call (h : Carried room) (name : String) (callable : Callable) (args : List Integer)
    (location : Span) (k : Pending .value) (m : Machine) (hm : callLimit - m.env.depth = room) :
    Reaches (.call name callable args location k m)
      (ofValue k ((do
        return .integer (← Eval.apply (Eval.invoke room) name callable args location) :
          Eval Value) m)) := by
  cases callable with
  | defined function =>
    by_cases harity : args.length = (Callable.defined function).arity
    · rw [Eval.apply, if_pos harity]
      exact h name function args location k m hm harity
    · apply ReflTransGen.single
      change some (State.enter name args location k m (.defined function)) = _
      rw [State.enter, if_neg harity, Eval.apply, if_neg harity]
      rfl
  | builtin builtin =>
    apply ReflTransGen.single
    change some (State.enter name args location k m (.builtin builtin)) = _
    rw [State.enter, Eval.apply]
    split
    · cases builtin.call args <;> rfl
    · rfl

mutual

theorem expr (h : Carried room) : (e : Expr) → (k : Pending .value) → (m : Machine) →
    callLimit - m.env.depth = room →
    Reaches (.expr e k m) (ofValue k (Eval.expr (Eval.invoke room) e m))
  | .integer value _, k, m, _ => by
    rw [Eval.expr]
    exact .single rfl
  | .text value _, k, m, _ => by
    rw [Eval.expr]
    exact .single rfl
  | .variable ident, k, m, _ => by
    apply ReflTransGen.single
    change some (State.begin k m (.variable ident)) = _
    rw [State.begin, Eval.expr, get_bind]
    cases m.env.get? ident.name <;> rfl
  | .list elements location, k, m, _ => by
    apply ReflTransGen.single
    change some (State.begin k m (.list elements location)) = _
    rw [State.begin, Eval.expr]
    cases Integer.ofInt? elements.length <;> rfl
  | .binary op left right location, k, m, hm => by
    rw [Eval.expr]
    refine ReflTransGen.head rfl (reaches_bind (ofValue (.right op left right location k)) _
      (h.expr left _ m hm) (fun _ _ => .single rfl) fun a n hleft => ?_)
    have hn : callLimit - n.env.depth = room := by rw [Eval.depth_expr hleft, hm]
    exact ReflTransGen.head rfl (reaches_bind (ofValue (.operation op a left right location k)) _
      (h.expr right _ n hn) (fun _ _ => .single rfl) fun b n' _ => .single rfl)
  | .call function args location, k, m, hm => by
    refine ReflTransGen.head rfl ?_
    rw [State.begin, Eval.expr, get_bind]
    cases m.env.function? function.name with
    | none => exact .refl
    | some callable =>
      refine reaches_bind (ofArguments function.name callable [] location k) _
        (h.exprs args function.name callable [] location k m hm) (fun _ _ => .refl)
        fun values n hargs => ?_
      have hn : callLimit - n.env.depth = room := by rw [Eval.depth_exprs hargs, hm]
      exact h.call function.name callable values location k n hn

theorem exprs (h : Carried room) : (es : List Expr) → (name : String) → (callable : Callable) →
    (before : List Integer) → (location : Span) → (k : Pending .value) → (m : Machine) →
    callLimit - m.env.depth = room →
    Reaches (arguments name callable before location k m es)
      (ofArguments name callable before location k (Eval.exprs (Eval.invoke room) es m))
  | [], name, callable, before, location, k, m, _ => by
    rw [Eval.exprs]
    change Reaches (.call name callable before location k m)
      (.call name callable (before ++ []) location k m)
    rw [List.append_nil]
  | e :: es, name, callable, before, location, k, m, hm => by
    rw [Eval.exprs]
    refine reaches_bind (ofValue (.argument name callable before e es location k)) _
      (h.expr e _ m hm) (fun _ _ => .single rfl) fun v n hvalue => ?_
    have hn : callLimit - n.env.depth = room := by rw [Eval.depth_expr hvalue, hm]
    refine reaches_bind (State.ofResult k fun i m => arguments name callable (before ++ [i])
      location k m es) _ (.single rfl) (fun _ _ => .refl) fun i n' hinteger => ?_
    obtain rfl := Eval.integer_ok hinteger
    refine reaches_bind (ofArguments name callable (before ++ [i]) location k) _
      (h.exprs es name callable (before ++ [i]) location k n hn) (fun _ _ => .refl)
      fun is n' _ => ?_
    change Reaches (.call name callable (before ++ [i] ++ is) location k n')
      (.call name callable (before ++ i :: is) location k n')
    rw [List.append_assoc, List.singleton_append]

end

mutual

theorem stmt (h : Carried room) : (s : Stmt) → (k : Pending .flow) → (m : Machine) →
    callLimit - m.env.depth = room →
    Reaches (.stmt s k m) (ofFlow k (Eval.stmt (Eval.invoke room) s m))
  | .declare ident value _, k, m, hm => by
    rw [Eval.stmt]
    exact ReflTransGen.head rfl (reaches_bind (ofValue (.declare ident.name k)) _
      (h.expr value _ m hm) (fun _ _ => .single rfl) fun v n _ => .single rfl)
  | .print value _, k, m, hm => by
    rw [Eval.stmt]
    exact ReflTransGen.head rfl (reaches_bind (ofValue (.print k)) _
      (h.expr value _ m hm) (fun _ _ => .single rfl) fun v n _ => .single rfl)
  | .branch condition thenBlock elseBlock _, k, m, hm => by
    rw [Eval.stmt]
    refine ReflTransGen.head rfl (reaches_bind
      (ofValue (.branch condition thenBlock elseBlock k)) _ (h.expr condition _ m hm)
      (fun _ _ => .single rfl) fun v n hvalue => ?_)
    have hn : callLimit - n.env.depth = room := by rw [Eval.depth_expr hvalue, hm]
    refine reaches_bind (State.ofResult k fun (test : Integer) m => State.branch k m
      (if test.val ≠ 0 then some thenBlock else elseBlock)) _ (.single rfl) (fun _ _ => .refl)
      fun test n' hinteger => ?_
    obtain rfl := Eval.integer_ok hinteger
    change Reaches (State.branch k n (if test.val ≠ 0 then some thenBlock else elseBlock)) _
    by_cases htest : test.val ≠ 0
    · rw [if_pos htest, if_pos htest]
      exact h.block thenBlock k n hn
    · rw [if_neg htest, if_neg htest]
      exact h.optionalBlock elseBlock k n hn
  | .define function, k, m, _ => by
    rw [Eval.stmt]
    exact .single rfl
  | .giveBack value _, k, m, hm => by
    rw [Eval.stmt]
    exact ReflTransGen.head rfl (reaches_bind (ofValue (.giveBack value k)) _
      (h.expr value _ m hm) (fun _ _ => .single rfl) fun v n _ => .single rfl)

theorem stmts (h : Carried room) : (ss : List Stmt) → (k : Pending .flow) → (m : Machine) →
    callLimit - m.env.depth = room →
    Reaches (.stmts ss k m) (ofFlow k (Eval.stmts (Eval.invoke room) ss m))
  | [], k, m, _ => by
    rw [Eval.stmts]
    exact .single rfl
  | s :: ss, k, m, hm => by
    rw [Eval.stmts]
    refine ReflTransGen.head rfl (reaches_bind (ofFlow (.statements ss k)) _
      (h.stmt s _ m hm) (fun _ _ => .single rfl) fun f n hfirst => ?_)
    cases f with
    | returned i => exact .single rfl
    | done =>
      have hn : callLimit - n.env.depth = room := by rw [Eval.depth_stmt hfirst, hm]
      exact ReflTransGen.head rfl (h.stmts ss k n hn)

theorem block (h : Carried room) : (b : Block) → (k : Pending .flow) → (m : Machine) →
    callLimit - m.env.depth = room →
    Reaches (.stmts b.statements k m) (ofFlow k (Eval.block (Eval.invoke room) b m))
  | ⟨statements, _⟩, k, m, hm => by
    rw [Eval.block]
    exact h.stmts statements k m hm

theorem optionalBlock (h : Carried room) : (b : Option Block) → (k : Pending .flow) →
    (m : Machine) → callLimit - m.env.depth = room →
    Reaches (State.branch k m b) (ofFlow k (Eval.optionalBlock (Eval.invoke room) b m))
  | none, k, m, _ => by
    rw [Eval.optionalBlock]
    exact .refl
  | some b, k, m, hm => by
    rw [Eval.optionalBlock]
    exact h.block b k m hm

end

end Carried

theorem carried (room : Nat) : Carried room := by
  induction room with
  | zero =>
    intro name function args location k m hm harity
    have hfull : callLimit ≤ m.env.depth := by omega
    apply ReflTransGen.single
    change some (State.enter name args location k m (.defined function)) = _
    rw [State.enter, if_pos harity, if_pos hfull]
    rfl
  | succ room ih =>
    intro name function args location k m hm harity
    have hroom : ¬ callLimit ≤ m.env.depth := by omega
    let inside : Machine := { m with env := m.env.push (Eval.frameOf function args) }
    have hinside : callLimit - inside.env.depth = room := by
      change callLimit - (m.env.depth + 1) = room
      omega
    have henter : State.Next (.call name (.defined function) args location k m)
        (.stmts function.body.statements (.leave k) inside) := by
      change some (State.enter name args location k m (.defined function)) = _
      rw [State.enter, if_pos harity, if_neg hroom]
    have hbody := ih.block function.body (.leave k) inside hinside
    refine ReflTransGen.head henter ?_
    cases hrun : Eval.block (Eval.invoke room) function.body inside with
    | error reason n =>
      rw [hrun] at hbody
      rw [bind_of_error (Eval.invoke_of_error hrun)]
      exact hbody.tail rfl
    | ok f n =>
      rw [hrun] at hbody
      rw [bind_of_ok (Eval.invoke_of_ok hrun)]
      exact hbody.tail rfl

theorem start_reaches (program : Program) (m : Machine) :
    ∃ last, Reaches (State.start program m) last ∧ last.result? = some (m.run program) := by
  have hrun := (carried (callLimit - m.env.depth)).stmts program.statements .finish m rfl
  refine ⟨_, hrun, ?_⟩
  unfold Machine.run Machine.execute
  rw [get_bind]
  cases Eval.stmts (Eval.invoke (callLimit - m.env.depth)) program.statements m <;> rfl

end UzScript
