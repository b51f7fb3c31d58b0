import Mathlib.Data.List.Forall2
import UzScript.Proofs.Frames

/-! # Runs that resemble each other

A resemblance relates frames that show the same variables, and programs that do the same in every
step. Elements of lists and statements after a value is given back are never looked at, so that a
resemblance says nothing about them. Runs of programs that resemble each other, on machines that do,
print the same lines, end in the same value or fault, and leave such machines again. If the second
run has less room for calls, that holds unless it runs out of room. -/

set_option autoImplicit false

namespace UzScript

/-! ## One layer of syntax -/

/-- The same expression, with related parts, and with as many elements in a list. -/
inductive Expr.Match (part : Expr → Expr → Prop) : Expr → Expr → Prop
  | integer (value : Integer) (location : Span) :
      Match part (.integer value location) (.integer value location)
  | text (value : String) (location : Span) :
      Match part (.text value location) (.text value location)
  | ident (ident : Ident) : Match part (.variable ident) (.variable ident)
  | binary (op : Operator) {left left' right right' : Expr} (first : part left left')
      (second : part right right') (location : Span) :
      Match part (.binary op left right location) (.binary op left' right' location)
  | call (function : Ident) {arguments arguments' : List Expr}
      (all : List.Forall₂ part arguments arguments') (location : Span) :
      Match part (.call function arguments location) (.call function arguments' location)
  | list {elements elements' : List Expr} (count : elements.length = elements'.length)
      (location : Span) : Match part (.list elements location) (.list elements' location)

inductive Block.Match (body : List Stmt → List Stmt → Prop) : Block → Block → Prop
  | intro {statements statements' : List Stmt} (inner : body statements statements')
      (location : Span) : Match body ⟨statements, location⟩ ⟨statements', location⟩

inductive FunctionDef.Match (body : List Stmt → List Stmt → Prop) : FunctionDef → FunctionDef → Prop
  | intro (ident : Ident) (parameters : List Ident) {block block' : Block}
      (inner : Block.Match body block block') (location : Span) :
      Match body ⟨ident, parameters, block, location⟩ ⟨ident, parameters, block', location⟩

inductive Callable.Match (body : List Stmt → List Stmt → Prop) : Callable → Callable → Prop
  | builtin (builtin : Builtin) : Match body (.builtin builtin) (.builtin builtin)
  | defined {function function' : FunctionDef} (inner : FunctionDef.Match body function function') :
      Match body (.defined function) (.defined function')

inductive Stmt.Match (part : Expr → Expr → Prop) (body : List Stmt → List Stmt → Prop) :
    Stmt → Stmt → Prop
  | declare (ident : Ident) {value value' : Expr} (inner : part value value') (location : Span) :
      Match part body (.declare ident value location) (.declare ident value' location)
  | print {value value' : Expr} (inner : part value value') (location : Span) :
      Match part body (.print value location) (.print value' location)
  | branch {condition condition' : Expr} {thenBlock thenBlock' : Block}
      (test : part condition condition') (first : Block.Match body thenBlock thenBlock')
      (location : Span) :
      Match part body (.branch condition thenBlock none location)
        (.branch condition' thenBlock' none location)
  | branchElse {condition condition' : Expr} {thenBlock thenBlock' elseBlock elseBlock' : Block}
      (test : part condition condition') (first : Block.Match body thenBlock thenBlock')
      (second : Block.Match body elseBlock elseBlock') (location : Span) :
      Match part body (.branch condition thenBlock (some elseBlock) location)
        (.branch condition' thenBlock' (some elseBlock') location)
  | define {function function' : FunctionDef} (inner : FunctionDef.Match body function function') :
      Match part body (.define function) (.define function')
  | giveBack {value value' : Expr} (inner : part value value') (location : Span) :
      Match part body (.giveBack value location) (.giveBack value' location)

/-- The same statements in order, up to one that gives back a value. -/
inductive Stmt.MatchAll (part : Expr → Expr → Prop) (body : List Stmt → List Stmt → Prop) :
    List Stmt → List Stmt → Prop
  | nil : MatchAll part body [] []
  | cons {s s' : Stmt} {ss ss' : List Stmt} (first : Stmt.Match part body s s')
      (rest : body ss ss') : MatchAll part body (s :: ss) (s' :: ss')
  | ended {value value' : Expr} (inner : part value value') (location : Span)
      (ss ss' : List Stmt) :
      MatchAll part body (.giveBack value location :: ss) (.giveBack value' location :: ss')

theorem Expr.Match.location_eq {part : Expr → Expr → Prop} {e e' : Expr} (h : e.Match part e') :
    e.location = e'.location := by
  cases h <;> rfl

theorem FunctionDef.Match.ident_eq {body : List Stmt → List Stmt → Prop} {f f' : FunctionDef}
    (h : f.Match body f') : f.ident = f'.ident := by
  cases h
  rfl

theorem FunctionDef.Match.frameOf_eq {body : List Stmt → List Stmt → Prop} {f f' : FunctionDef}
    (h : f.Match body f') (arguments : List Integer) :
    Eval.frameOf f arguments = Eval.frameOf f' arguments := by
  cases h
  rfl

theorem Callable.Match.arity_eq {body : List Stmt → List Stmt → Prop} {c c' : Callable}
    (h : c.Match body c') : c.arity = c'.arity := by
  cases h with
  | builtin _ => rfl
  | defined inner =>
    cases inner
    rfl

section Reflexive

variable {part : Expr → Expr → Prop} {body : List Stmt → List Stmt → Prop}

theorem Expr.Match.refl (hpart : ∀ e, part e e) (e : Expr) : e.Match part e := by
  cases e with
  | integer value location => exact .integer value location
  | text value location => exact .text value location
  | «variable» name => exact .ident name
  | binary op left right location => exact .binary op (hpart left) (hpart right) location
  | call function arguments location =>
    exact .call function (List.forall₂_same.2 fun e _ => hpart e) location
  | list elements location => exact .list rfl location

theorem Block.Match.refl (hbody : ∀ ss, body ss ss) (block : Block) : block.Match body block := by
  cases block with
  | mk statements location => exact .intro (hbody statements) location

theorem FunctionDef.Match.refl (hbody : ∀ ss, body ss ss) (f : FunctionDef) : f.Match body f := by
  cases f with
  | mk ident parameters block location =>
    exact .intro ident parameters (.refl hbody block) location

theorem Callable.Match.refl (hbody : ∀ ss, body ss ss) (c : Callable) : c.Match body c := by
  cases c with
  | builtin b => exact .builtin b
  | defined function => exact .defined (.refl hbody function)

theorem Stmt.Match.refl (hpart : ∀ e, part e e) (hbody : ∀ ss, body ss ss) (s : Stmt) :
    s.Match part body s := by
  cases s with
  | declare ident value location => exact .declare ident (hpart value) location
  | print value location => exact .print (hpart value) location
  | branch condition thenBlock elseBlock location =>
    cases elseBlock with
    | none => exact .branch (hpart condition) (.refl hbody thenBlock) location
    | some elseBlock =>
      exact .branchElse (hpart condition) (.refl hbody thenBlock) (.refl hbody elseBlock) location
  | define function => exact .define (.refl hbody function)
  | giveBack value location => exact .giveBack (hpart value) location

theorem Stmt.MatchAll.refl (hpart : ∀ e, part e e) (hbody : ∀ ss, body ss ss) (ss : List Stmt) :
    MatchAll part body ss ss := by
  cases ss with
  | nil => exact .nil
  | cons s ss => exact .cons (.refl hpart hbody s) (hbody ss)

end Reflexive

/-! ## Resemblances -/

structure Resemblance where
  frames : List Frame → List Frame → Prop
  part : Expr → Expr → Prop
  body : List Stmt → List Stmt → Prop
  /-- The second run may have less room for calls. -/
  tighter : Prop
  get?_eq {fs gs : List Frame} (h : frames fs gs) (name : String) :
    fs.findSome? (·.get? name) = gs.findSome? (·.get? name)
  insert {f g : Frame} {fs gs : List Frame} (h : frames (f :: fs) (g :: gs)) (name : String)
    (value : Value) : frames (f.insert name value :: fs) (g.insert name value :: gs)
  push {fs gs : List Frame} (h : frames fs gs) (frame : Frame) :
    frames (frame :: fs) (frame :: gs)
  part_match {e e' : Expr} (h : part e e') : e.Match part e'
  body_match {ss ss' : List Stmt} (h : body ss ss') : Stmt.MatchAll part body ss ss'

namespace Resemblance

open Eval

variable {like : Resemblance} {α β : Type} {a b : Array String}

/-- Machines that resemble each other, and on which the same lines were printed after the lines `a`
and `b`. -/
structure Machines (like : Resemblance) (a b : Array String) (m n : Machine) : Prop where
  frames : like.frames m.env.frames n.env.frames
  functions : ∀ name,
    Option.Rel (Callable.Match like.body) (m.env.function? name) (n.env.function? name)
  lines : ∃ lines, m.output = a ++ lines ∧ n.output = b ++ lines

/-- Both runs give the same value, or the same fault at the same place, unless the second one may run
out of room and does. -/
inductive Ends (like : Resemblance) (a b : Array String) :
    EStateM.Result RuntimeFault Machine α → EStateM.Result RuntimeFault Machine α → Prop
  | ok (value : α) {m n : Machine} (alike : like.Machines a b m n) :
      Ends like a b (.ok value m) (.ok value n)
  | error (fault : RuntimeFault) {m n : Machine} (alike : like.Machines a b m n) :
      Ends like a b (.error fault m) (.error fault n)
  | exceeded (tight : like.tighter) {fault : RuntimeFault} (cause : fault.cause = .callDepthExceeded)
      (r : EStateM.Result RuntimeFault Machine α) (n : Machine) : Ends like a b r (.error fault n)

/-- The two computations, run on machines that resemble each other, end alike. -/
def Together (like : Resemblance) (a b : Array String) (x y : Eval α) : Prop :=
  ∀ m n, like.Machines a b m n → like.Ends a b (x m) (y n)

namespace Machines

variable {m n : Machine}

theorem get?_eq (h : like.Machines a b m n) (name : String) : m.env.get? name = n.env.get? name :=
  like.get?_eq h.frames name

theorem push (h : like.Machines a b m n) (frame : Frame) :
    like.Machines a b { m with env := m.env.push frame } { n with env := n.env.push frame } :=
  ⟨like.push h.frames frame, h.functions, h.lines⟩

theorem print (h : like.Machines a b m n) (line : String) :
    like.Machines a b { m with output := m.output.push line }
      { n with output := n.output.push line } := by
  obtain ⟨lines, hm, hn⟩ := h.lines
  refine ⟨h.frames, h.functions, lines.push line, ?_, ?_⟩
  · simp [hm]
  · simp [hn]

theorem declare (h : like.Machines a b m n) (name : String) (value : Value) :
    like.Machines a b { m with env := m.env.declare name value }
      { n with env := n.env.declare name value } := by
  obtain ⟨f, fs, hm, hm'⟩ := m.env.frames_declare name value
  obtain ⟨g, gs, hn, hn'⟩ := n.env.frames_declare name value
  have hframes := h.frames
  rw [hm, hn] at hframes
  refine ⟨?_, fun other => ?_, h.lines⟩
  · rw [hm', hn']
    exact like.insert hframes name value
  · rw [Environment.function?, Environment.function?, Environment.functions_declare,
      Environment.functions_declare]
    exact h.functions other

theorem define (h : like.Machines a b m n) (name : String) {c c' : Callable}
    (hcallable : c.Match like.body c') :
    like.Machines a b { m with env := m.env.define name c }
      { n with env := n.env.define name c' } := by
  refine ⟨h.frames, fun other => ?_, h.lines⟩
  change Option.Rel _ ((m.env.functions.insert name c).get? other)
    ((n.env.functions.insert name c').get? other)
  rw [Bindings.get?_insert, Bindings.get?_insert]
  split
  · exact .some hcallable
  · exact h.functions other

/-- After a call the frames are those from before it, so that they resemble each other again. -/
theorem pop {m' n' : Machine} (h : like.Machines a b m n) (frame : Frame)
    (hm : Machine.OuterKept { m with env := m.env.push frame } m')
    (hn : Machine.OuterKept { n with env := n.env.push frame } n')
    (h' : like.Machines a b m' n') :
    like.Machines a b { m' with env := m'.env.pop.2 } { n' with env := n'.env.pop.2 } := by
  have hframes : like.frames m'.env.pop.2.frames n'.env.pop.2.frames := by
    have hkept : m'.env.pop.2.frames = m.env.frames := hm.framesKept_pop
    have hkept' : n'.env.pop.2.frames = n.env.frames := hn.framesKept_pop
    rw [hkept, hkept']
    exact h.frames
  refine ⟨hframes, fun name => ?_, h'.lines⟩
  rw [Environment.function?, Environment.function?, Environment.functions_pop,
    Environment.functions_pop]
  exact h'.functions name

end Machines

namespace Together

theorem pure (value : α) : like.Together a b (Pure.pure value) (Pure.pure value) :=
  fun _ _ h => .ok value h

theorem fail (cause : RuntimeCause) (location : Span) :
    like.Together a b (Eval.fail cause location : Eval α) (Eval.fail cause location) :=
  fun _ _ h => .error _ h

theorem bind {x y : Eval α} {f g : α → Eval β} (hxy : like.Together a b x y)
    (hfg : ∀ value, like.Together a b (f value) (g value)) :
    like.Together a b (x >>= f) (y >>= g) := by
  intro m n hmn
  have hends := hxy m n hmn
  cases hy : y n with
  | ok value n' =>
    rw [hy] at hends
    generalize hx : x m = r at hends
    cases hends with
    | ok _ alike =>
      rw [bind_of_ok hx, bind_of_ok hy]
      exact hfg value _ _ alike
  | error fault n' =>
    rw [hy] at hends
    rw [bind_of_error hy]
    generalize hx : x m = r at hends
    cases hends with
    | error _ alike =>
      rw [bind_of_error hx]
      exact .error fault alike
    | exceeded tight cause => exact .exceeded tight cause _ _

theorem get_bind {f g : Machine → Eval α}
    (h : ∀ m n, like.Machines a b m n → like.Together a b (f m) (g n)) :
    like.Together a b (get >>= f) (get >>= g) :=
  fun m n hmn => h m n hmn m n hmn

theorem modifyEnv {f g : Environment → Environment}
    (h : ∀ m n, like.Machines a b m n →
      like.Machines a b { m with env := f m.env } { n with env := g n.env }) :
    like.Together a b (Eval.modifyEnv f) (Eval.modifyEnv g) :=
  fun m n hmn => .ok () (h m n hmn)

theorem printLine (line : String) :
    like.Together a b (Eval.printLine line) (Eval.printLine line) :=
  fun _ _ hmn => .ok () (hmn.print line)

theorem withFrame {x y : Eval α} (hxy : like.Together a b x y) (hx : Along Machine.OuterKept x)
    (hy : Along Machine.OuterKept y) (frame : Frame) :
    like.Together a b (Eval.withFrame frame x) (Eval.withFrame frame y) := by
  intro m n hmn
  have hends := hxy _ _ (hmn.push frame)
  have hkept := hx { m with env := m.env.push frame }
  have hkept' := hy { n with env := n.env.push frame }
  unfold Eval.withFrame
  unfold after at hkept hkept'
  generalize x { m with env := m.env.push frame } = r at hends hkept ⊢
  generalize y { n with env := n.env.push frame } = r' at hends hkept' ⊢
  cases hends with
  | ok value alike => exact .ok value (hmn.pop frame hkept hkept' alike)
  | error fault alike => exact .error fault (hmn.pop frame hkept hkept' alike)
  | exceeded tight cause => exact .exceeded tight cause _ _

theorem integer (value : Value) (use : IntegerUse) (location : Span) :
    like.Together a b (Eval.integer value use location) (Eval.integer value use location) := by
  unfold Eval.integer
  split
  · exact pure _
  · exact fail _ _

theorem operation (op : Operator) (i j : Integer) (location : Span) :
    like.Together a b (Eval.operation op i j location) (Eval.operation op i j location) := by
  unfold Eval.operation
  split
  · exact pure _
  · exact fail _ _

end Together

/-! ## Runs -/

def Calls (like : Resemblance) (a b : Array String) (invoke invoke' : Invoke) : Prop :=
  ∀ f f' : FunctionDef, f.Match like.body f' → ∀ arguments location,
    like.Together a b (invoke f arguments location) (invoke' f' arguments location)

theorem stmts_giveBack (invoke : Invoke) (value : Expr) (location : Span) (ss : List Stmt) :
    stmts invoke (.giveBack value location :: ss) = stmt invoke (.giveBack value location) := by
  rw [stmts, stmt]
  simp only [bind_assoc, pure_bind]

theorem apply_together {invoke invoke' : Invoke} (hinvoke : like.Calls a b invoke invoke')
    (name : String) {c c' : Callable} (h : c.Match like.body c') (arguments : List Integer)
    (location : Span) :
    like.Together a b (apply invoke name c arguments location)
      (apply invoke' name c' arguments location) := by
  unfold apply
  rw [h.arity_eq]
  split
  · cases h with
    | builtin builtin =>
      dsimp only
      cases builtin.call arguments with
      | some i => exact .pure i
      | none => exact .fail _ _
    | defined inner => exact hinvoke _ _ inner arguments location
  · exact .fail _ _

mutual

theorem expr_together {invoke invoke' : Invoke} (hinvoke : like.Calls a b invoke invoke') :
    (e : Expr) → {e' : Expr} → like.part e e' →
      like.Together a b (expr invoke e) (expr invoke' e')
  | .integer value _, _, h => by
    cases like.part_match h
    rw [expr, expr]
    exact .pure _
  | .text value _, _, h => by
    cases like.part_match h
    rw [expr, expr]
    exact .pure _
  | .variable ident, _, h => by
    cases like.part_match h
    rw [expr, expr]
    refine .get_bind fun m n hmn => ?_
    rw [hmn.get?_eq]
    split
    · exact .pure _
    · exact .fail _ _
  | .binary op left right location, _, h => by
    cases like.part_match h with
    | binary _ first second _ =>
      rw [expr, expr, ← (like.part_match first).location_eq, ← (like.part_match second).location_eq]
      refine .bind (expr_together hinvoke left first) fun u => ?_
      refine .bind (expr_together hinvoke right second) fun v => ?_
      refine .bind (.integer _ _ _) fun i => ?_
      refine .bind (.integer _ _ _) fun j => ?_
      exact .bind (.operation _ _ _ _) fun k => .pure _
  | .call function arguments location, _, h => by
    cases like.part_match h with
    | call _ all _ =>
      rw [expr, expr]
      refine .get_bind fun m n hmn => ?_
      have hfunction := hmn.functions function.name
      generalize m.env.function? function.name = found at hfunction ⊢
      generalize n.env.function? function.name = found' at hfunction ⊢
      cases hfunction with
      | none => exact .fail _ _
      | some callable =>
        refine .bind (exprs_together hinvoke arguments all) fun values => ?_
        exact .bind (apply_together hinvoke _ callable _ _) fun i => .pure _
  | .list elements location, _, h => by
    cases like.part_match h with
    | list count _ =>
      rw [expr, expr, count]
      split
      · exact .pure _
      · exact .fail _ _

theorem exprs_together {invoke invoke' : Invoke} (hinvoke : like.Calls a b invoke invoke') :
    (es : List Expr) → {es' : List Expr} → List.Forall₂ like.part es es' →
      like.Together a b (exprs invoke es) (exprs invoke' es')
  | [], _, .nil => by
    rw [exprs, exprs]
    exact .pure _
  | e :: es, _, .cons first rest => by
    rw [exprs, exprs, ← (like.part_match first).location_eq]
    refine .bind (expr_together hinvoke e first) fun value => ?_
    refine .bind (.integer _ _ _) fun i => ?_
    exact .bind (exprs_together hinvoke es rest) fun is => .pure _

end

theorem giveBack_together {invoke invoke' : Invoke} (hinvoke : like.Calls a b invoke invoke')
    {value value' : Expr} (inner : like.part value value') (location : Span) :
    like.Together a b (stmt invoke (.giveBack value location))
      (stmt invoke' (.giveBack value' location)) := by
  rw [stmt, stmt, ← (like.part_match inner).location_eq]
  refine .bind (expr_together hinvoke value inner) fun v => ?_
  exact .bind (.integer _ _ _) fun i => .pure _

mutual

theorem stmt_together {invoke invoke' : Invoke} (hinvoke : like.Calls a b invoke invoke') :
    (s : Stmt) → {s' : Stmt} → Stmt.Match like.part like.body s s' →
      like.Together a b (stmt invoke s) (stmt invoke' s')
  | .declare ident value _, _, .declare _ inner _ => by
    rw [stmt, stmt]
    refine .bind (expr_together hinvoke value inner) fun v => ?_
    exact .bind (.modifyEnv fun m n hmn => hmn.declare ident.name v) fun _ => .pure _
  | .print value _, _, .print inner _ => by
    rw [stmt, stmt]
    refine .bind (expr_together hinvoke value inner) fun v => ?_
    exact .bind (.printLine _) fun _ => .pure _
  | .branch condition thenBlock none _, _, .branch test first _ => by
    rw [stmt, stmt, ← (like.part_match test).location_eq]
    refine .bind (expr_together hinvoke condition test) fun v => ?_
    refine .bind (.integer _ _ _) fun i => ?_
    split
    · exact block_together hinvoke thenBlock first
    · rw [optionalBlock, optionalBlock]
      exact .pure _
  | .branch condition thenBlock (some elseBlock) _, _, .branchElse test first second _ => by
    rw [stmt, stmt, ← (like.part_match test).location_eq]
    refine .bind (expr_together hinvoke condition test) fun v => ?_
    refine .bind (.integer _ _ _) fun i => ?_
    split
    · exact block_together hinvoke thenBlock first
    · rw [optionalBlock, optionalBlock]
      exact block_together hinvoke elseBlock second
  | .define function, _, .define inner => by
    rw [stmt, stmt, ← inner.ident_eq]
    exact .bind (.modifyEnv fun m n hmn => hmn.define _ (.defined inner)) fun _ => .pure _
  | .giveBack value location, _, .giveBack inner _ => giveBack_together hinvoke inner location

theorem stmts_together {invoke invoke' : Invoke} (hinvoke : like.Calls a b invoke invoke') :
    (ss : List Stmt) → {ss' : List Stmt} → like.body ss ss' →
      like.Together a b (stmts invoke ss) (stmts invoke' ss')
  | [], _, h => by
    cases like.body_match h
    rw [stmts, stmts]
    exact .pure _
  | s :: ss, _, h => by
    cases like.body_match h with
    | cons first rest =>
      rw [stmts, stmts]
      refine .bind (stmt_together hinvoke s first) fun flow => ?_
      split
      · exact stmts_together hinvoke ss rest
      · exact .pure _
    | ended inner location _ _ =>
      rw [stmts_giveBack, stmts_giveBack]
      exact giveBack_together hinvoke inner location

theorem block_together {invoke invoke' : Invoke} (hinvoke : like.Calls a b invoke invoke') :
    (c : Block) → {c' : Block} → Block.Match like.body c c' →
      like.Together a b (block invoke c) (block invoke' c')
  | ⟨statements, _⟩, _, .intro inner _ => by
    rw [block, block]
    exact stmts_together hinvoke statements inner

end

/-- Calls are carried out together with the same room, or with less room for those of the second run
if that is allowed. -/
theorem calls_together {room room' : Nat} (h : room = room' ∨ like.tighter ∧ room' ≤ room) :
    like.Calls a b (invoke room) (invoke room') := by
  induction room' generalizing room with
  | zero =>
    intro f f' _ arguments location
    rcases h with rfl | ⟨tight, -⟩
    · exact .fail .callDepthExceeded location
    · exact fun m n _ => .exceeded tight rfl _ _
  | succ room' ih =>
    obtain ⟨room, rfl⟩ : ∃ r, room = r + 1 := ⟨room - 1, by omega⟩
    have hroom : room = room' ∨ like.tighter ∧ room' ≤ room := by
      rcases h with h | ⟨tight, h⟩
      · exact .inl (by omega)
      · exact .inr ⟨tight, by omega⟩
    intro f f' hf arguments location
    have hkept (r : Nat) (c : Block) : Along Machine.OuterKept (block (invoke r) c) :=
      Machine.framesKept_allowance.block (Machine.framesKept_allowance.calls r) c
    simp only [invoke, hf.frameOf_eq]
    cases hf with
    | intro _ _ inner _ =>
      refine .bind (.withFrame ?_ (hkept _ _) (hkept _ _) _) fun flow => .pure _
      exact block_together (ih hroom) _ inner

end Resemblance

def Eval.inRoom {α : Type} (x : Invoke → Eval α) : Eval α := do
  x (invoke (callLimit - (← get).env.depth))

namespace Resemblance

variable {like : Resemblance} {α : Type} {a b : Array String} {m n : Machine}

theorem inRoom_ends {x y : Eval.Invoke → Eval α}
    (hxy : ∀ {invoke invoke'}, like.Calls a b invoke invoke' →
      like.Together a b (x invoke) (y invoke'))
    (hmn : like.Machines a b m n)
    (hdepth : m.env.depth = n.env.depth ∨ like.tighter ∧ m.env.depth ≤ n.env.depth) :
    like.Ends a b (Eval.inRoom x m) (Eval.inRoom y n) := by
  refine hxy (calls_together ?_) m n hmn
  rcases hdepth with hdepth | ⟨tight, hdepth⟩
  · exact .inl (by rw [hdepth])
  · exact .inr ⟨tight, by omega⟩

theorem run_ends {P Q : Program} (hprogram : like.body P.statements Q.statements)
    (hmn : like.Machines a b m n)
    (hdepth : m.env.depth = n.env.depth ∨ like.tighter ∧ m.env.depth ≤ n.env.depth) :
    ((m.run P).1 = (n.run Q).1 ∧ like.Machines a b (m.run P).2 (n.run Q).2) ∨
      like.tighter ∧ ∃ fault, (n.run Q).1 = .error fault ∧ fault.cause = .callDepthExceeded := by
  have hends : like.Ends a b (Machine.execute P.statements m) (Machine.execute Q.statements n) :=
    inRoom_ends (x := (Eval.stmts · P.statements)) (y := (Eval.stmts · Q.statements))
      (fun hinvoke => stmts_together hinvoke _ hprogram) hmn hdepth
  unfold Machine.run
  generalize Machine.execute P.statements m = r at hends ⊢
  generalize Machine.execute Q.statements n = r' at hends ⊢
  cases hends with
  | ok flow alike => exact .inl ⟨rfl, alike⟩
  | error fault alike => exact .inl ⟨rfl, alike⟩
  | exceeded tight cause => exact .inr ⟨tight, _, rfl, cause⟩

end Resemblance

end UzScript
