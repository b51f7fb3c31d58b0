import UzScript.Environment
import UzScript.Syntax.Printer

/-! # Programs without locations

Erasing the locations of a program leaves its statements, operators, grouping, names and literals.
Two programs are the same apart from where they stand exactly when their erasures are equal. What
is printed of a program, and how many arguments its functions take, do not depend on locations. -/

set_option autoImplicit false

namespace UzScript

def Ident.erase (ident : Ident) : Ident := ⟨ident.name, .zero⟩

namespace Expr

mutual

def erase : Expr → Expr
  | .integer value _ => .integer value .zero
  | .text value _ => .text value .zero
  | .variable ident => .variable ident.erase
  | .binary op left right _ => .binary op left.erase right.erase .zero
  | .call function arguments _ => .call function.erase (eraseAll arguments) .zero
  | .list elements _ => .list (eraseAll elements) .zero

def eraseAll : List Expr → List Expr
  | [] => []
  | e :: es => e.erase :: eraseAll es

end

end Expr

mutual

def Stmt.erase : Stmt → Stmt
  | .declare ident value _ => .declare ident.erase value.erase .zero
  | .print value _ => .print value.erase .zero
  | .branch condition thenBlock elseBlock _ =>
    .branch condition.erase thenBlock.erase (Block.eraseElse elseBlock) .zero
  | .define function => .define function.erase
  | .giveBack value _ => .giveBack value.erase .zero

def Stmt.eraseAll : List Stmt → List Stmt
  | [] => []
  | s :: ss => s.erase :: Stmt.eraseAll ss

def Block.erase : Block → Block
  | ⟨statements, _⟩ => ⟨Stmt.eraseAll statements, .zero⟩

def Block.eraseElse : Option Block → Option Block
  | none => none
  | some block => some block.erase

def FunctionDef.erase : FunctionDef → FunctionDef
  | ⟨ident, parameters, body, _⟩ => ⟨ident.erase, parameters.map Ident.erase, body.erase, .zero⟩

end

def Program.erase (program : Program) : Program := ⟨Stmt.eraseAll program.statements, .zero⟩

def Callable.erase : Callable → Callable
  | .builtin b => .builtin b
  | .defined function => .defined function.erase

@[simp] theorem Ident.erase_name (ident : Ident) : ident.erase.name = ident.name := rfl

theorem Ident.map_name_erase (idents : List Ident) :
    (idents.map Ident.erase).map Ident.name = idents.map Ident.name := by
  rw [List.map_map]
  rfl

@[simp] theorem Expr.eraseAll_eq_map (es : List Expr) : Expr.eraseAll es = es.map Expr.erase := by
  induction es with
  | nil => rfl
  | cons e es ih => rw [Expr.eraseAll, ih, List.map_cons]

@[simp] theorem Stmt.eraseAll_eq_map (ss : List Stmt) : Stmt.eraseAll ss = ss.map Stmt.erase := by
  induction ss with
  | nil => rfl
  | cons s ss ih => rw [Stmt.eraseAll, ih, List.map_cons]

@[simp] theorem Block.eraseElse_eq_map (block : Option Block) :
    Block.eraseElse block = block.map Block.erase := by
  cases block <;> rfl

@[simp] theorem Expr.operator?_erase (e : Expr) : e.erase.operator? = e.operator? := by
  cases e <;> rfl

theorem FunctionDef.arity_erase (function : FunctionDef) :
    function.erase.arity = function.arity := by
  obtain ⟨ident, parameters, body, location⟩ := function
  simp [FunctionDef.erase, FunctionDef.arity]

theorem Callable.arity_erase (callable : Callable) : callable.erase.arity = callable.arity := by
  cases callable with
  | builtin b => rfl
  | defined function => exact function.arity_erase

theorem FunctionDef.ident_erase (function : FunctionDef) :
    function.erase.ident = function.ident.erase := by
  obtain ⟨ident, parameters, body, location⟩ := function
  rfl

theorem FunctionDef.body_erase (function : FunctionDef) :
    function.erase.body = function.body.erase := by
  obtain ⟨ident, parameters, body, location⟩ := function
  rfl

theorem FunctionDef.parameters_erase (function : FunctionDef) :
    function.erase.parameters.map Ident.name = function.parameters.map Ident.name := by
  obtain ⟨ident, parameters, body, location⟩ := function
  exact Ident.map_name_erase parameters

/-! Nothing is left to erase of what is erased. -/

mutual

theorem Expr.erase_erase : (e : Expr) → e.erase.erase = e.erase
  | .integer _ _ => rfl
  | .text _ _ => rfl
  | .variable _ => rfl
  | .binary op left right _ => by simp only [Expr.erase, left.erase_erase, right.erase_erase]
  | .call function arguments _ => by
    simp only [Expr.erase, Expr.eraseAll_eraseAll arguments, Ident.erase]
  | .list elements _ => by simp only [Expr.erase, Expr.eraseAll_eraseAll elements]

theorem Expr.eraseAll_eraseAll : (es : List Expr) →
    Expr.eraseAll (Expr.eraseAll es) = Expr.eraseAll es
  | [] => rfl
  | e :: es => by rw [Expr.eraseAll, Expr.eraseAll, e.erase_erase, Expr.eraseAll_eraseAll es]

end

mutual

theorem Stmt.erase_erase : (s : Stmt) → s.erase.erase = s.erase
  | .declare _ value _ => by simp only [Stmt.erase, value.erase_erase, Ident.erase]
  | .print value _ => by simp only [Stmt.erase, value.erase_erase]
  | .branch condition thenBlock elseBlock _ => by
    simp only [Stmt.erase, condition.erase_erase, thenBlock.erase_erase,
      Block.eraseElse_eraseElse elseBlock]
  | .define function => by simp only [Stmt.erase, function.erase_erase]
  | .giveBack value _ => by simp only [Stmt.erase, value.erase_erase]

theorem Stmt.eraseAll_eraseAll : (ss : List Stmt) →
    Stmt.eraseAll (Stmt.eraseAll ss) = Stmt.eraseAll ss
  | [] => rfl
  | s :: ss => by rw [Stmt.eraseAll, Stmt.eraseAll, s.erase_erase, Stmt.eraseAll_eraseAll ss]

theorem Block.erase_erase : (b : Block) → b.erase.erase = b.erase
  | ⟨statements, _⟩ => by simp only [Block.erase, Stmt.eraseAll_eraseAll statements]

theorem Block.eraseElse_eraseElse : (b : Option Block) →
    Block.eraseElse (Block.eraseElse b) = Block.eraseElse b
  | none => rfl
  | some b => by simp only [Block.eraseElse, b.erase_erase]

theorem FunctionDef.erase_erase : (f : FunctionDef) → f.erase.erase = f.erase
  | ⟨ident, parameters, body, _⟩ => by
    rw [FunctionDef.erase, FunctionDef.erase, body.erase_erase, List.map_map]
    rfl

end

/-! What is printed of a program is the same without its locations. -/

mutual

theorem Expr.render_erase : (e : Expr) → e.erase.render = e.render
  | .integer _ _ => rfl
  | .text _ _ => rfl
  | .variable _ => rfl
  | .binary op left right _ => by
    simp only [Expr.erase, Expr.render, Expr.operator?_erase, left.render_erase,
      right.render_erase]
  | .call function arguments _ => by
    simp only [Expr.erase, Expr.render, Expr.renderAll_erase arguments, Ident.erase_name]
  | .list elements _ => by
    simp only [Expr.erase, Expr.render, Expr.renderAll_erase elements]

theorem Expr.renderAll_erase : (es : List Expr) →
    Expr.renderAll (Expr.eraseAll es) = Expr.renderAll es
  | [] => rfl
  | e :: es => by
    rw [Expr.eraseAll, Expr.renderAll, Expr.renderAll, e.render_erase, Expr.renderAll_erase es]

end

mutual

theorem Stmt.render_erase : (s : Stmt) → s.erase.render = s.render
  | .declare _ value _ => by simp only [Stmt.erase, Stmt.render, value.render_erase, Ident.erase_name]
  | .print value _ => by simp only [Stmt.erase, Stmt.render, value.render_erase]
  | .branch condition thenBlock elseBlock _ => by
    simp only [Stmt.erase, Stmt.render, condition.render_erase, thenBlock.render_erase,
      Block.renderElse_erase elseBlock]
  | .define function => by simp only [Stmt.erase, Stmt.render, function.render_erase]
  | .giveBack value _ => by simp only [Stmt.erase, Stmt.render, value.render_erase]

theorem Stmt.renderAll_erase : (ss : List Stmt) →
    Stmt.renderAll (Stmt.eraseAll ss) = Stmt.renderAll ss
  | [] => rfl
  | s :: ss => by
    rw [Stmt.eraseAll, Stmt.renderAll, Stmt.renderAll, s.render_erase, Stmt.renderAll_erase ss]

theorem Block.render_erase : (b : Block) → b.erase.render = b.render
  | ⟨[], _⟩ => rfl
  | ⟨s :: ss, _⟩ => by
    simp only [Block.erase, Stmt.eraseAll, Block.render, s.render_erase, Stmt.renderAll_erase ss]

theorem Block.renderElse_erase : (b : Option Block) →
    Block.renderElse (Block.eraseElse b) = Block.renderElse b
  | none => rfl
  | some b => by simp only [Block.eraseElse, Block.renderElse, b.render_erase]

theorem FunctionDef.render_erase : (f : FunctionDef) → f.erase.render = f.render
  | ⟨_, parameters, body, _⟩ => by
    simp only [FunctionDef.erase, FunctionDef.render, body.render_erase, Ident.map_name_erase,
      Ident.erase_name]

end

theorem Program.render_erase (program : Program) : program.erase.render = program.render := by
  rw [Program.render, Program.erase, Stmt.renderAll_erase, Program.render]

/-- Programs that differ in locations only are printed alike. -/
theorem Program.render_congr {p q : Program} (h : p.erase = q.erase) : p.render = q.render := by
  rw [← p.render_erase, h, q.render_erase]

end UzScript
