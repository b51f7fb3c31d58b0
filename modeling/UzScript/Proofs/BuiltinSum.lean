import UzScript.Proofs.Resemblance
import UzScript.Proofs.Stepping

/-! # Sums and the built-in function

The operator `+` and the built-in function for sums agree wherever they stand. A sum checks its
operands after both are evaluated, a call checks each argument before the next one is evaluated, so
a run that fails may fail elsewhere. But as long as no function takes the place of the built-in one,
some sums may be written as calls, and a run succeeds just as before, with the same lines printed and
the same globals. -/

set_option autoImplicit false

namespace UzScript

/-! ## Sums written as calls -/

/-- The same expression, but for sums that are calls of the built-in function instead. Elements of
lists do not matter, as they are not evaluated. -/
inductive Expr.SumsCalled : Expr → Expr → Prop
  | kept {e e' : Expr} (layer : e.Match Expr.SumsCalled e') : SumsCalled e e'
  | called {left left' right right' : Expr} (first : SumsCalled left left')
      (second : SumsCalled right right') (location name location' : Span) :
      SumsCalled (.binary .add left right location)
        (.call ⟨Builtin.sum.name, name⟩ [left', right'] location')

/-- The same statements, with sums as calls in them, up to one that gives back a value. -/
inductive Stmt.SumsCalled : List Stmt → List Stmt → Prop
  | intro {ss ss' : List Stmt} (layer : Stmt.MatchAll Expr.SumsCalled Stmt.SumsCalled ss ss') :
      SumsCalled ss ss'

/-- The second program is the first one with some sums, anywhere in it, written as calls. -/
def Program.SumsCalled (P Q : Program) : Prop := Stmt.SumsCalled P.statements Q.statements

mutual

def Stmt.definitions : Stmt → List String
  | .declare _ _ _ | .print _ _ | .giveBack _ _ => []
  | .branch _ thenBlock elseBlock _ => thenBlock.definitions ++ Block.definitionsElse elseBlock
  | .define function => function.definitions

def Stmt.definitionsAll : List Stmt → List String
  | [] => []
  | s :: ss => s.definitions ++ Stmt.definitionsAll ss

def Block.definitions : Block → List String
  | ⟨statements, _⟩ => Stmt.definitionsAll statements

def Block.definitionsElse : Option Block → List String
  | none => []
  | some block => block.definitions

def FunctionDef.definitions : FunctionDef → List String
  | ⟨ident, _, body, _⟩ => ident.name :: body.definitions

end

def Program.definitions (program : Program) : List String :=
  Stmt.definitionsAll program.statements

def Stmt.SumsKept (ss ss' : List Stmt) : Prop :=
  Stmt.SumsCalled ss ss' ∧ Builtin.sum.name ∉ Stmt.definitionsAll ss

theorem FunctionDef.Match.sumsKept {f f' : FunctionDef} (h : f.Match Stmt.SumsCalled f')
    (hdefinitions : Builtin.sum.name ∉ f.definitions) :
    Builtin.sum.name ≠ f.ident.name ∧ f.Match Stmt.SumsKept f' := by
  cases h with
  | intro ident parameters inner location =>
    cases inner with
    | intro inner place =>
      rw [FunctionDef.definitions, List.mem_cons, not_or] at hdefinitions
      exact ⟨hdefinitions.1, .intro ident parameters (.intro ⟨inner, hdefinitions.2⟩ place) location⟩

/-! ## Machines and runs that agree -/

/-- The same frames and lines, functions with sums as calls, and the built-in function in place. -/
structure Machine.Agreeing (m n : Machine) : Prop where
  frames : m.env.frames = n.env.frames
  functions : ∀ name,
    Option.Rel (Callable.Match Stmt.SumsKept) (m.env.function? name) (n.env.function? name)
  sum : m.env.function? Builtin.sum.name = some (.builtin .sum)
  output : m.output = n.output

namespace Machine.Agreeing

variable {m n : Machine}

theorem get?_eq (h : Agreeing m n) (name : String) : m.env.get? name = n.env.get? name :=
  Environment.get?_congr h.frames name

theorem sum_right (h : Agreeing m n) :
    n.env.function? Builtin.sum.name = some (.builtin .sum) := by
  have hsum := h.functions Builtin.sum.name
  rw [h.sum] at hsum
  generalize n.env.function? Builtin.sum.name = found at hsum ⊢
  cases hsum with
  | some inner =>
    cases inner
    rfl

theorem depth_eq (h : Agreeing m n) : m.env.depth = n.env.depth := by
  have hlength := congrArg List.length h.frames
  rw [Environment.length_frames, Environment.length_frames] at hlength
  omega

theorem globals_eq (h : Agreeing m n) : m.env.globals = n.env.globals := by
  have hlast := congrArg List.getLast? h.frames
  simpa [Environment.frames] using hlast

theorem print (h : Agreeing m n) (line : String) :
    Agreeing { m with output := m.output.push line } { n with output := n.output.push line } :=
  ⟨h.frames, h.functions, h.sum, congrArg (·.push line) h.output⟩

theorem push (h : Agreeing m n) (frame : Frame) :
    Agreeing { m with env := m.env.push frame } { n with env := n.env.push frame } :=
  ⟨congrArg (frame :: ·) h.frames, h.functions, h.sum, h.output⟩

theorem pop (h : Agreeing m n) :
    Agreeing { m with env := m.env.pop.2 } { n with env := n.env.pop.2 } := by
  refine ⟨?_, fun name => ?_, ?_, h.output⟩
  · rw [Environment.frames_pop, Environment.frames_pop, h.depth_eq, h.frames]
  · rw [Environment.function?, Environment.function?, Environment.functions_pop,
      Environment.functions_pop]
    exact h.functions name
  · rw [Environment.function?, Environment.functions_pop]
    exact h.sum

theorem declare (h : Agreeing m n) (name : String) (value : Value) :
    Agreeing { m with env := m.env.declare name value }
      { n with env := n.env.declare name value } := by
  obtain ⟨f, fs, hm, hm'⟩ := m.env.frames_declare name value
  obtain ⟨g, gs, hn, hn'⟩ := n.env.frames_declare name value
  have hframes := h.frames
  rw [hm, hn, List.cons.injEq] at hframes
  refine ⟨?_, fun other => ?_, ?_, h.output⟩
  · rw [hm', hn', hframes.1, hframes.2]
  · rw [Environment.function?, Environment.function?, Environment.functions_declare,
      Environment.functions_declare]
    exact h.functions other
  · rw [Environment.function?, Environment.functions_declare]
    exact h.sum

theorem define (h : Agreeing m n) {name : String} (hname : Builtin.sum.name ≠ name)
    {c c' : Callable} (hcallable : c.Match Stmt.SumsKept c') :
    Agreeing { m with env := m.env.define name c } { n with env := n.env.define name c' } := by
  refine ⟨h.frames, fun other => ?_, ?_, h.output⟩
  · change Option.Rel _ ((m.env.functions.insert name c).get? other)
      ((n.env.functions.insert name c').get? other)
    rw [Bindings.get?_insert, Bindings.get?_insert]
    split
    · exact .some hcallable
    · exact h.functions other
  · change (m.env.functions.insert name c).get? _ = _
    rw [Bindings.get?_insert, if_neg hname]
    exact h.sum

end Machine.Agreeing

namespace Eval

variable {α β : Type}

/-- Both runs give the same value, or both fail. -/
inductive BothEnd :
    EStateM.Result RuntimeFault Machine α → EStateM.Result RuntimeFault Machine α → Prop
  | ok (value : α) {m n : Machine} (agreeing : m.Agreeing n) : BothEnd (.ok value m) (.ok value n)
  | error (fault fault' : RuntimeFault) (m n : Machine) :
      BothEnd (.error fault m) (.error fault' n)

def Agree (x y : Eval α) : Prop := ∀ m n, m.Agreeing n → BothEnd (x m) (y n)

namespace Agree

theorem pure (value : α) : Agree (Pure.pure value) (Pure.pure value) :=
  fun _ _ h => .ok value h

theorem fail (cause cause' : RuntimeCause) (location location' : Span) :
    Agree (Eval.fail cause location : Eval α) (Eval.fail cause' location') :=
  fun m n _ => .error _ _ m n

theorem bind {x y : Eval α} {f g : α → Eval β} (hxy : Agree x y)
    (hfg : ∀ value, Agree (f value) (g value)) : Agree (x >>= f) (y >>= g) := by
  intro m n hmn
  have hends := hxy m n hmn
  generalize hx : x m = r at hends
  generalize hy : y n = r' at hends
  cases hends with
  | ok value agreeing =>
    rw [bind_of_ok hx, bind_of_ok hy]
    exact hfg value _ _ agreeing
  | error fault fault' m' n' =>
    rw [bind_of_error hx, bind_of_error hy]
    exact .error fault fault' m' n'

theorem get_bind {f g : Machine → Eval α} (h : ∀ m n, m.Agreeing n → Agree (f m) (g n)) :
    Agree (get >>= f) (get >>= g) :=
  fun m n hmn => h m n hmn m n hmn

theorem modifyEnv {f g : Environment → Environment}
    (h : ∀ m n : Machine, m.Agreeing n →
      Machine.Agreeing { m with env := f m.env } { n with env := g n.env }) :
    Agree (Eval.modifyEnv f) (Eval.modifyEnv g) :=
  fun m n hmn => .ok () (h m n hmn)

theorem printLine (line : String) : Agree (Eval.printLine line) (Eval.printLine line) :=
  fun _ _ hmn => .ok () (hmn.print line)

theorem withFrame {x y : Eval α} (hxy : Agree x y) (frame : Frame) :
    Agree (Eval.withFrame frame x) (Eval.withFrame frame y) := by
  intro m n hmn
  have hends := hxy _ _ (hmn.push frame)
  unfold Eval.withFrame
  generalize x { m with env := m.env.push frame } = r at hends ⊢
  generalize y { n with env := n.env.push frame } = r' at hends ⊢
  cases hends with
  | ok value agreeing => exact .ok value agreeing.pop
  | error fault fault' m' n' => exact .error fault fault' _ _

theorem integer (value : Value) (use use' : IntegerUse) (location location' : Span) :
    Agree (Eval.integer value use location) (Eval.integer value use' location') := by
  cases value with
  | integer i => exact pure i
  | text _ => exact fail _ _ location location'

theorem operation (op : Operator) (i j : Integer) (location location' : Span) :
    Agree (Eval.operation op i j location) (Eval.operation op i j location') := by
  unfold Eval.operation
  split
  · exact pure _
  · exact fail _ _ location location'

theorem sum (invoke : Invoke) (i j : Integer) (name : String) (location location' : Span) :
    Agree (Eval.operation .add i j location)
      (apply invoke name (.builtin .sum) [i, j] location') := by
  have harity : [i, j].length = (Callable.builtin .sum).arity := rfl
  have hcall : Builtin.sum.call [i, j] = Integer.ofInt? (i.val + j.val) := rfl
  have hadd : Operator.add.result? i.val j.val = some (i.val + j.val) := rfl
  simp only [apply, if_pos harity, hcall, Eval.operation, Operator.apply, hadd]
  cases Integer.ofInt? (i.val + j.val) with
  | none => exact fail _ _ location location'
  | some k => exact pure k

/-- Operands that are checked after both are evaluated, and arguments that are checked one by one:
if one of them is a text, neither run gets past it. -/
theorem operands {x x' y y' : Eval Value} (hx : Agree x x') (hy : Agree y y')
    {f g : Integer → Integer → Eval β} (hfg : ∀ i j, Agree (f i j) (g i j))
    (use use' : IntegerUse) (place place' other other' : Span) :
    Agree
      (do
        let u ← x
        let v ← y
        let i ← Eval.integer u use place
        let j ← Eval.integer v use other
        f i j)
      (do
        let u ← x'
        let i ← Eval.integer u use' place'
        let v ← y'
        let j ← Eval.integer v use' other'
        g i j) := by
  refine hx.bind fun u => ?_
  cases u with
  | integer i =>
    have hread (use : IntegerUse) (place : Span) :
        Eval.integer (.integer i) use place = Pure.pure i := rfl
    simp only [hread, pure_bind]
    refine hy.bind fun v => ?_
    exact .bind (.integer v use use' other other') (hfg i)
  | text s =>
    intro m n _
    have hright : ∀ k : Integer → Eval β, ∃ fault, (Eval.integer (.text s) use' place' >>= k) n =
        .error fault n := fun k => ⟨_, rfl⟩
    obtain ⟨fault', hfails'⟩ := hright fun i => do g i (← Eval.integer (← y') use' other')
    rw [hfails']
    cases hrun : y m with
    | ok v m' =>
      rw [bind_of_ok hrun]
      exact .error _ _ _ _
    | error fault m' =>
      rw [bind_of_error hrun]
      exact .error _ _ _ _

end Agree

/-! ## Whole runs -/

def CallsAgree (invoke invoke' : Invoke) : Prop :=
  ∀ f f' : FunctionDef, f.Match Stmt.SumsKept f' → ∀ arguments location location',
    Agree (invoke f arguments location) (invoke' f' arguments location')

variable {invoke invoke' : Invoke}

theorem apply_agree (hinvoke : CallsAgree invoke invoke') (name : String) {c c' : Callable}
    (h : c.Match Stmt.SumsKept c') (arguments : List Integer) (location location' : Span) :
    Agree (apply invoke name c arguments location) (apply invoke' name c' arguments location') := by
  unfold apply
  rw [h.arity_eq]
  split
  · cases h with
    | builtin builtin =>
      dsimp only
      cases builtin.call arguments with
      | some i => exact .pure i
      | none => exact .fail _ _ location location'
    | defined inner => exact hinvoke _ _ inner arguments location location'
  · exact .fail _ _ location location'

theorem expr_sum_call (invoke : Invoke) {n : Machine}
    (hsum : n.env.function? Builtin.sum.name = some (.builtin .sum)) (left right : Expr)
    (name location : Span) :
    expr invoke (.call ⟨Builtin.sum.name, name⟩ [left, right] location) n =
      (do
        let u ← expr invoke left
        let i ← integer u .argument left.location
        let v ← expr invoke right
        let j ← integer v .argument right.location
        let k ← apply invoke Builtin.sum.name (.builtin .sum) [i, j] location
        return Value.integer k) n := by
  rw [expr, get_bind, hsum]
  simp only [exprs, bind_assoc, pure_bind]

mutual

theorem expr_agree (hinvoke : CallsAgree invoke invoke') :
    (e : Expr) → {e' : Expr} → e.SumsCalled e' → Agree (expr invoke e) (expr invoke' e')
  | .integer value _, _, h => by
    rcases h with ⟨layer⟩
    cases layer
    rw [expr, expr]
    exact .pure _
  | .text value _, _, h => by
    rcases h with ⟨layer⟩
    cases layer
    rw [expr, expr]
    exact .pure _
  | .variable ident, _, h => by
    rcases h with ⟨layer⟩
    cases layer
    rw [expr, expr]
    refine .get_bind fun m n hmn => ?_
    rw [hmn.get?_eq]
    split
    · exact .pure _
    · exact .fail _ _ _ _
  | .binary op left right location, _, h => by
    cases h with
    | kept layer =>
      cases layer with
      | binary _ first second _ =>
        rw [expr, expr]
        refine .bind (expr_agree hinvoke left first) fun u => ?_
        refine .bind (expr_agree hinvoke right second) fun v => ?_
        refine .bind (.integer _ _ _ _ _) fun i => ?_
        refine .bind (.integer _ _ _ _ _) fun j => ?_
        exact .bind (.operation _ _ _ _ _) fun k => .pure _
    | called first second _ name location' =>
      intro m n hmn
      rw [expr_sum_call invoke' hmn.sum_right, expr]
      exact Agree.operands (expr_agree hinvoke left first) (expr_agree hinvoke right second)
        (fun i j => .bind (.sum invoke' i j _ location location') fun k => .pure _) _ _ _ _ _ _
        m n hmn
  | .call function arguments location, _, h => by
    rcases h with ⟨layer⟩
    cases layer with
    | call _ all _ =>
      rw [expr, expr]
      refine .get_bind fun m n hmn => ?_
      have hfunction := hmn.functions function.name
      generalize m.env.function? function.name = found at hfunction ⊢
      generalize n.env.function? function.name = found' at hfunction ⊢
      cases hfunction with
      | none => exact .fail _ _ _ _
      | some callable =>
        refine .bind (exprs_agree hinvoke arguments all) fun values => ?_
        exact .bind (apply_agree hinvoke _ callable _ _ _) fun i => .pure _
  | .list elements location, _, h => by
    rcases h with ⟨layer⟩
    cases layer with
    | list count _ =>
      rw [expr, expr, count]
      split
      · exact .pure _
      · exact .fail _ _ _ _

theorem exprs_agree (hinvoke : CallsAgree invoke invoke') :
    (es : List Expr) → {es' : List Expr} → List.Forall₂ Expr.SumsCalled es es' →
      Agree (exprs invoke es) (exprs invoke' es')
  | [], _, .nil => by
    rw [exprs, exprs]
    exact .pure _
  | e :: es, _, .cons first rest => by
    rw [exprs, exprs]
    refine .bind (expr_agree hinvoke e first) fun value => ?_
    refine .bind (.integer _ _ _ _ _) fun i => ?_
    exact .bind (exprs_agree hinvoke es rest) fun is => .pure _

end

theorem giveBack_agree (hinvoke : CallsAgree invoke invoke') {value value' : Expr}
    (inner : value.SumsCalled value') (location : Span) :
    Agree (stmt invoke (.giveBack value location)) (stmt invoke' (.giveBack value' location)) := by
  rw [stmt, stmt]
  refine .bind (expr_agree hinvoke value inner) fun v => ?_
  exact .bind (.integer _ _ _ _ _) fun i => .pure _

mutual

theorem stmt_agree (hinvoke : CallsAgree invoke invoke') :
    (s : Stmt) → {s' : Stmt} → Stmt.Match Expr.SumsCalled Stmt.SumsCalled s s' →
      Builtin.sum.name ∉ s.definitions → Agree (stmt invoke s) (stmt invoke' s')
  | .declare ident value _, _, .declare _ inner _, _ => by
    rw [stmt, stmt]
    refine .bind (expr_agree hinvoke value inner) fun v => ?_
    exact .bind (.modifyEnv fun m n hmn => hmn.declare ident.name v) fun _ => .pure _
  | .print value _, _, .print inner _, _ => by
    rw [stmt, stmt]
    refine .bind (expr_agree hinvoke value inner) fun v => ?_
    exact .bind (.printLine _) fun _ => .pure _
  | .branch condition thenBlock none _, _, .branch test first _, hnone => by
    rw [Stmt.definitions, List.mem_append, not_or] at hnone
    rw [stmt, stmt]
    refine .bind (expr_agree hinvoke condition test) fun v => ?_
    refine .bind (.integer _ _ _ _ _) fun i => ?_
    split
    · exact block_agree hinvoke thenBlock first hnone.1
    · rw [optionalBlock, optionalBlock]
      exact .pure _
  | .branch condition thenBlock (some elseBlock) _, _, .branchElse test first second _, hnone => by
    rw [Stmt.definitions, List.mem_append, not_or] at hnone
    rw [stmt, stmt]
    refine .bind (expr_agree hinvoke condition test) fun v => ?_
    refine .bind (.integer _ _ _ _ _) fun i => ?_
    split
    · exact block_agree hinvoke thenBlock first hnone.1
    · rw [optionalBlock, optionalBlock]
      exact block_agree hinvoke elseBlock second hnone.2
  | .define function, _, .define inner, hnone => by
    obtain ⟨hname, hkept⟩ := inner.sumsKept hnone
    rw [stmt, stmt, ← inner.ident_eq]
    exact .bind (.modifyEnv fun m n hmn => hmn.define hname (.defined hkept)) fun _ => .pure _
  | .giveBack value location, _, .giveBack inner _, _ => giveBack_agree hinvoke inner location

theorem stmts_agree (hinvoke : CallsAgree invoke invoke') :
    (ss : List Stmt) → {ss' : List Stmt} → Stmt.SumsCalled ss ss' →
      Builtin.sum.name ∉ Stmt.definitionsAll ss → Agree (stmts invoke ss) (stmts invoke' ss')
  | [], _, .intro .nil, _ => by
    rw [stmts, stmts]
    exact .pure _
  | s :: ss, _, .intro (.cons first rest), hnone => by
    rw [Stmt.definitionsAll, List.mem_append, not_or] at hnone
    rw [stmts, stmts]
    refine .bind (stmt_agree hinvoke s first hnone.1) fun flow => ?_
    split
    · exact stmts_agree hinvoke ss rest hnone.2
    · exact .pure _
  | .giveBack value location :: ss, _, .intro (.ended inner _ _ _), _ => by
    rw [Resemblance.stmts_giveBack, Resemblance.stmts_giveBack]
    exact giveBack_agree hinvoke inner location

theorem block_agree (hinvoke : CallsAgree invoke invoke') :
    (b : Block) → {b' : Block} → Block.Match Stmt.SumsCalled b b' →
      Builtin.sum.name ∉ b.definitions → Agree (block invoke b) (block invoke' b')
  | ⟨statements, _⟩, _, .intro inner _, hnone => by
    rw [block, block]
    exact stmts_agree hinvoke statements inner hnone

end

theorem calls_agree (room : Nat) : CallsAgree (Eval.invoke room) (Eval.invoke room) := by
  induction room with
  | zero => exact fun _ _ _ _ location location' => .fail _ _ location location'
  | succ room ih =>
    intro f f' hf arguments location location'
    simp only [Eval.invoke, hf.frameOf_eq]
    cases hf with
    | intro ident parameters inner place =>
      cases inner with
      | intro inner place' =>
        refine .bind (.withFrame ?_ _) fun flow => .pure _
        rw [block, block]
        exact stmts_agree ih _ inner.1 inner.2

end Eval

theorem Machine.agreeing_initial : Machine.initial.Agreeing Machine.initial := by
  refine ⟨rfl, fun name => ?_, rfl, rfl⟩
  let functions : Bindings Callable := Bindings.empty.insert Builtin.sum.name (.builtin .sum)
  change Option.Rel _ (functions.get? name) (functions.get? name)
  rw [Bindings.get?_insert]
  split
  · exact .some (.builtin .sum)
  · exact .none

theorem Machine.execute_agree {ss ss' : List Stmt} (h : Stmt.SumsCalled ss ss')
    (hnone : Builtin.sum.name ∉ Stmt.definitionsAll ss) :
    Eval.Agree (Machine.execute ss) (Machine.execute ss') := by
  refine .get_bind fun m n hmn => ?_
  rw [hmn.depth_eq]
  exact Eval.stmts_agree (Eval.calls_agree _) ss h hnone

/-- Writing sums as calls of the built-in function keeps whether a program succeeds, and if it does,
the lines that it prints and the globals that it leaves, provided that the program defines no
function of that name. -/
theorem sums_as_calls {P Q : Program} (hsums : P.SumsCalled Q)
    (hnone : Builtin.sum.name ∉ P.definitions) :
    ((Machine.initial.run P).1 = .ok () ↔ (Machine.initial.run Q).1 = .ok ()) ∧
      ((Machine.initial.run P).1 = .ok () →
        (Machine.initial.run P).2.output = (Machine.initial.run Q).2.output ∧
          (Machine.initial.run P).2.env.globals = (Machine.initial.run Q).2.env.globals) := by
  have hends := Machine.execute_agree hsums hnone _ _ Machine.agreeing_initial
  unfold Machine.run
  generalize Machine.execute P.statements Machine.initial = r at hends ⊢
  generalize Machine.execute Q.statements Machine.initial = r' at hends ⊢
  cases hends with
  | ok flow agreeing => exact ⟨Iff.rfl, fun _ => ⟨agreeing.output, agreeing.globals_eq⟩⟩
  | error fault fault' m n => exact ⟨⟨nofun, nofun⟩, nofun⟩

def sumInBody (sum : Expr → Expr → Expr) (argument : Expr) : Program where
  statements :=
    [.define ⟨⟨"f", .zero⟩, [⟨"a", .zero⟩],
        ⟨[.print (.variable ⟨"a", .zero⟩) .zero,
          .giveBack (sum (.variable ⟨"a", .zero⟩) (.variable ⟨"a", .zero⟩)) .zero], .zero⟩, .zero⟩,
      .print (sum argument (.call ⟨"f", .zero⟩ [.integer .one .zero] .zero)) .zero]
  location := .zero

def asOperation (left right : Expr) : Expr := .binary .add left right .zero

def asCall (left right : Expr) : Expr :=
  .call ⟨Builtin.sum.name, .zero⟩ [left, right] .zero

theorem sumInBody_sumsCalled {argument : Expr} (hargument : argument.SumsCalled argument) :
    (sumInBody asOperation argument).SumsCalled (sumInBody asCall argument) := by
  have hvariable (ident : Ident) : Expr.SumsCalled (.variable ident) (.variable ident) :=
    .kept (.ident ident)
  have hone : Expr.SumsCalled (.integer .one .zero) (.integer .one .zero) := .kept (.integer _ _)
  have hcall : Expr.SumsCalled (.call ⟨"f", .zero⟩ [.integer .one .zero] .zero)
      (.call ⟨"f", .zero⟩ [.integer .one .zero] .zero) :=
    .kept (.call _ (.cons hone .nil) _)
  have hbody := Expr.SumsCalled.called (hvariable ⟨"a", .zero⟩) (hvariable ⟨"a", .zero⟩) .zero .zero
    .zero
  refine .intro (.cons (.define (.intro _ _ (.intro ?_ _) _)) ?_)
  · exact .intro (.cons (.print (hvariable _) _) (.intro (.cons (.giveBack hbody _) (.intro .nil))))
  · exact .intro (.cons (.print (.called hargument hcall _ _ _) _) (.intro .nil))

theorem sums_as_calls_doubling :
    let P := sumInBody asOperation (.list [] .zero)
    let Q := sumInBody asCall (.list [] .zero)
    P.SumsCalled Q ∧ Builtin.sum.name ∉ P.definitions ∧ (Machine.initial.run Q).1 = .ok () ∧
      (Machine.initial.run Q).2.output = #["1", "2"] := by
  intro P Q
  have hsums : P.SumsCalled Q := sumInBody_sumsCalled (.kept (.list rfl _))
  have hnone : Builtin.sum.name ∉ P.definitions := by decide
  obtain ⟨hsucceeds, hsame⟩ := sums_as_calls hsums hnone
  have hplain : (Machine.initial.run P).1 = .ok () ∧
      (Machine.initial.run P).2.output = #["1", "2"] := by decide +kernel
  exact ⟨hsums, hnone, hsucceeds.1 hplain.1, (hsame hplain.1).1 ▸ hplain.2⟩

-- A run that fails may print more when its sums are operations: both operands are evaluated first.
example : (Machine.initial.run (sumInBody asOperation (.text "" .zero))).2.output = #["1"] ∧
    (Machine.initial.run (sumInBody asCall (.text "" .zero))).2.output = #[] := by
  decide +kernel

end UzScript
