import UzScript.Proofs.RoundTrip

/-! # The height of accepted programs

The limit on nesting counts expressions and blocks, but a chain of operators at one level makes a tree
that is as high as the chain is long. So the height of a program that parses is bounded by the limit
and the longest run of operators together, and by the limit alone it is not. -/

set_option autoImplicit false

namespace UzScript

/-! ## Measures of trees -/

namespace Expr

/-- How many operators follow each other down the left of an expression. -/
def operators : Expr → Nat
  | .binary _ left _ _ => left.operators + 1
  | _ => 0

mutual

/-- The greatest number of operators, calls and lists on a path down an expression. -/
def height : Expr → Nat
  | .integer _ _ | .text _ _ | .variable _ => 0
  | .binary _ left right _ => max left.height right.height + 1
  | .call _ arguments _ => heightAll arguments + 1
  | .list elements _ => heightAll elements + 1

def heightAll : List Expr → Nat
  | [] => 0
  | e :: es => max e.height (heightAll es)

end

mutual

def longestRun : Expr → Nat
  | .integer _ _ | .text _ _ | .variable _ => 0
  | .binary _ left right _ => max (left.operators + 1) (max left.longestRun right.longestRun)
  | .call _ arguments _ => longestRunAll arguments
  | .list elements _ => longestRunAll elements

def longestRunAll : List Expr → Nat
  | [] => 0
  | e :: es => max e.longestRun (longestRunAll es)

end

theorem heightAll_le_iff {es : List Expr} {n : Nat} :
    heightAll es ≤ n ↔ ∀ e ∈ es, e.height ≤ n := by
  induction es with
  | nil => simp [heightAll]
  | cons e es ih => rw [heightAll, Nat.max_le, ih, List.forall_mem_cons]

theorem longestRunAll_le_iff {es : List Expr} {n : Nat} :
    longestRunAll es ≤ n ↔ ∀ e ∈ es, e.longestRun ≤ n := by
  induction es with
  | nil => simp [longestRunAll]
  | cons e es ih => rw [longestRunAll, Nat.max_le, ih, List.forall_mem_cons]

theorem operators_le_longestRun : (e : Expr) → e.operators ≤ e.longestRun
  | .binary _ left right _ => by
    rw [operators, longestRun]
    omega
  | .integer _ _ | .text _ _ | .variable _ | .call _ _ _ | .list _ _ => by simp [operators]

theorem operators_le_height : (e : Expr) → e.operators ≤ e.height
  | .binary _ left right _ => by
    have hleft := left.operators_le_height
    rw [operators, height]
    omega
  | .integer _ _ | .text _ _ | .variable _ | .call _ _ _ | .list _ _ => by simp [operators]

mutual

theorem longestRun_le_height : (e : Expr) → e.longestRun ≤ e.height
  | .integer _ _ | .text _ _ | .variable _ => Nat.le_refl 0
  | .binary _ left right _ => by
    have hfront := left.operators_le_height
    have hleft := left.longestRun_le_height
    have hright := right.longestRun_le_height
    rw [longestRun, height]
    omega
  | .call _ arguments _ => by
    rw [longestRun, height]
    exact Nat.le_succ_of_le (longestRunAll_le_heightAll arguments)
  | .list elements _ => by
    rw [longestRun, height]
    exact Nat.le_succ_of_le (longestRunAll_le_heightAll elements)

theorem longestRunAll_le_heightAll : (es : List Expr) → longestRunAll es ≤ heightAll es
  | [] => Nat.le_refl 0
  | e :: es => by
    have hfirst := e.longestRun_le_height
    have hothers := longestRunAll_le_heightAll es
    rw [longestRunAll, heightAll]
    omega

end

theorem operators_erase : (e : Expr) → e.erase.operators = e.operators
  | .binary _ left right _ => by rw [erase, operators, operators, left.operators_erase]
  | .integer _ _ | .text _ _ | .variable _ | .call _ _ _ | .list _ _ => rfl

mutual

theorem height_erase : (e : Expr) → e.erase.height = e.height
  | .integer _ _ | .text _ _ | .variable _ => rfl
  | .binary _ left right _ => by
    rw [erase, height, height, left.height_erase, right.height_erase]
  | .call _ arguments _ => by rw [erase, height, height, heightAll_erase arguments]
  | .list elements _ => by rw [erase, height, height, heightAll_erase elements]

theorem heightAll_erase : (es : List Expr) → heightAll (eraseAll es) = heightAll es
  | [] => rfl
  | e :: es => by rw [eraseAll, heightAll, heightAll, e.height_erase, heightAll_erase es]

end

mutual

theorem longestRun_erase : (e : Expr) → e.erase.longestRun = e.longestRun
  | .integer _ _ | .text _ _ | .variable _ => rfl
  | .binary _ left right _ => by
    rw [erase, longestRun, longestRun, left.operators_erase, left.longestRun_erase,
      right.longestRun_erase]
  | .call _ arguments _ => by
    rw [erase, longestRun, longestRun, longestRunAll_erase arguments]
  | .list elements _ => by rw [erase, longestRun, longestRun, longestRunAll_erase elements]

theorem longestRunAll_erase : (es : List Expr) → longestRunAll (eraseAll es) = longestRunAll es
  | [] => rfl
  | e :: es => by
    rw [eraseAll, longestRunAll, longestRunAll, e.longestRun_erase, longestRunAll_erase es]

end

end Expr

section Greatest

variable (step : Nat) (f : Expr → Nat)

mutual

/-- The greatest measure of an expression in a statement, and a step more for every statement and
block around it. -/
def Stmt.greatest : Stmt → Nat
  | .declare _ value _ => f value + step
  | .print value _ => f value + step
  | .branch condition thenBlock elseBlock _ =>
    max (f condition) (max thenBlock.greatest (Block.greatestElse elseBlock)) + step
  | .define function => function.greatest + step
  | .giveBack value _ => f value + step

def Stmt.greatestAll : List Stmt → Nat
  | [] => 0
  | s :: ss => max s.greatest (Stmt.greatestAll ss)

def Block.greatest : Block → Nat
  | ⟨statements, _⟩ => Stmt.greatestAll statements + step

def Block.greatestElse : Option Block → Nat
  | none => 0
  | some block => block.greatest

def FunctionDef.greatest : FunctionDef → Nat
  | ⟨_, _, body, _⟩ => body.greatest

end

variable {step f}

theorem Stmt.greatestAll_le_iff {ss : List Stmt} {n : Nat} :
    Stmt.greatestAll step f ss ≤ n ↔ ∀ s ∈ ss, s.greatest step f ≤ n := by
  induction ss with
  | nil => simp [Stmt.greatestAll]
  | cons s ss ih => rw [Stmt.greatestAll, Nat.max_le, ih, List.forall_mem_cons]

mutual

theorem Stmt.greatest_erase (hf : ∀ e, f e.erase = f e) :
    (s : Stmt) → s.erase.greatest step f = s.greatest step f
  | .declare _ value _ => by rw [Stmt.erase, Stmt.greatest, Stmt.greatest, hf]
  | .print value _ => by rw [Stmt.erase, Stmt.greatest, Stmt.greatest, hf]
  | .branch condition thenBlock elseBlock _ => by
    rw [Stmt.erase, Stmt.greatest, Stmt.greatest, hf, thenBlock.greatest_erase hf,
      Block.greatestElse_erase hf elseBlock]
  | .define function => by rw [Stmt.erase, Stmt.greatest, Stmt.greatest, function.greatest_erase hf]
  | .giveBack value _ => by rw [Stmt.erase, Stmt.greatest, Stmt.greatest, hf]

theorem Stmt.greatestAll_erase (hf : ∀ e, f e.erase = f e) :
    (ss : List Stmt) → Stmt.greatestAll step f (Stmt.eraseAll ss) = Stmt.greatestAll step f ss
  | [] => rfl
  | s :: ss => by
    rw [Stmt.eraseAll, Stmt.greatestAll, Stmt.greatestAll, s.greatest_erase hf,
      Stmt.greatestAll_erase hf ss]

theorem Block.greatest_erase (hf : ∀ e, f e.erase = f e) :
    (b : Block) → b.erase.greatest step f = b.greatest step f
  | ⟨statements, _⟩ => by
    rw [Block.erase, Block.greatest, Block.greatest, Stmt.greatestAll_erase hf statements]

theorem Block.greatestElse_erase (hf : ∀ e, f e.erase = f e) :
    (b : Option Block) → Block.greatestElse step f (Block.eraseElse b) = Block.greatestElse step f b
  | none => rfl
  | some b => by rw [Block.eraseElse, Block.greatestElse, Block.greatestElse, b.greatest_erase hf]

theorem FunctionDef.greatest_erase (hf : ∀ e, f e.erase = f e) :
    (function : FunctionDef) → function.erase.greatest step f = function.greatest step f
  | ⟨_, _, body, _⟩ => by
    rw [FunctionDef.erase, FunctionDef.greatest, FunctionDef.greatest, body.greatest_erase hf]

end

variable {more : Nat} {g : Expr → Nat}

mutual

theorem Stmt.greatest_le (hstep : step ≤ more) (hf : ∀ e, f e ≤ g e) :
    (s : Stmt) → s.greatest step f ≤ s.greatest more g
  | .declare _ value _ => Nat.add_le_add (hf value) hstep
  | .print value _ => Nat.add_le_add (hf value) hstep
  | .branch condition thenBlock elseBlock _ => by
    have hcondition := hf condition
    have hthen := thenBlock.greatest_le hstep hf
    have helse := Block.greatestElse_le hstep hf elseBlock
    rw [Stmt.greatest, Stmt.greatest]
    omega
  | .define function => by
    rw [Stmt.greatest, Stmt.greatest]
    exact Nat.add_le_add (function.greatest_le hstep hf) hstep
  | .giveBack value _ => Nat.add_le_add (hf value) hstep

theorem Stmt.greatestAll_le (hstep : step ≤ more) (hf : ∀ e, f e ≤ g e) :
    (ss : List Stmt) → Stmt.greatestAll step f ss ≤ Stmt.greatestAll more g ss
  | [] => Nat.le_refl 0
  | s :: ss => by
    have hfirst := s.greatest_le hstep hf
    have hothers := Stmt.greatestAll_le hstep hf ss
    rw [Stmt.greatestAll, Stmt.greatestAll]
    omega

theorem Block.greatest_le (hstep : step ≤ more) (hf : ∀ e, f e ≤ g e) :
    (b : Block) → b.greatest step f ≤ b.greatest more g
  | ⟨statements, _⟩ => by
    rw [Block.greatest, Block.greatest]
    exact Nat.add_le_add (Stmt.greatestAll_le hstep hf statements) hstep

theorem Block.greatestElse_le (hstep : step ≤ more) (hf : ∀ e, f e ≤ g e) :
    (b : Option Block) → Block.greatestElse step f b ≤ Block.greatestElse more g b
  | none => Nat.le_refl 0
  | some b => b.greatest_le hstep hf

theorem FunctionDef.greatest_le (hstep : step ≤ more) (hf : ∀ e, f e ≤ g e) :
    (function : FunctionDef) → function.greatest step f ≤ function.greatest more g
  | ⟨_, _, body, _⟩ => body.greatest_le hstep hf

end

end Greatest

/-- The greatest number of statements, blocks, operators, calls and lists on a path down a program. -/
def Program.height (program : Program) : Nat := Stmt.greatestAll 1 Expr.height program.statements

def Program.longestRun (program : Program) : Nat :=
  Stmt.greatestAll 0 Expr.longestRun program.statements

theorem Program.height_erase (program : Program) : program.erase.height = program.height :=
  Stmt.greatestAll_erase Expr.height_erase program.statements

theorem Program.longestRun_erase (program : Program) :
    program.erase.longestRun = program.longestRun :=
  Stmt.greatestAll_erase Expr.longestRun_erase program.statements

theorem Program.longestRun_le_height (program : Program) : program.longestRun ≤ program.height :=
  Stmt.greatestAll_le (Nat.zero_le 1) Expr.longestRun_le_height program.statements

/-! ## Phrases bound the height of their trees -/

/-- What a level adds to the height: a comparison, two chains of operators, and a call or a list; or a
block and a statement. -/
def heightBound (run levels : Nat) : Nat := (2 * run + 2) * levels

theorem heightBound_mono (run : Nat) {h k : Nat} (hle : h ≤ k) :
    heightBound run h ≤ heightBound run k :=
  Nat.mul_le_mul_left _ hle

theorem heightBound_max (run h k : Nat) :
    heightBound run (max h k) = max (heightBound run h) (heightBound run k) :=
  (Nat.mul_max_mul_left (2 * run + 2) h k).symm

theorem heightBound_succ (run h : Nat) :
    heightBound run (h + 1) = heightBound run h + (2 * run + 2) :=
  Nat.mul_succ _ _

namespace Grammar

theorem Repeated.forall_mem {α : Type} {item : Phrase α} (holds : Nat → α → Prop)
    (hitem : ∀ {ts : List Token} {h : Nat} {a : α}, item ts h a → holds h a)
    (hmono : ∀ {h k : Nat} {a : α}, h ≤ k → holds h a → holds k a)
    {ts : List Token} {h : Nat} {as : List α} (phrase : Repeated item ts h as) :
    ∀ a ∈ as, holds h a := by
  induction phrase with
  | none => exact List.forall_mem_nil _
  | more first _ ih =>
    refine List.forall_mem_cons.2 ⟨hmono (Nat.le_max_left _ _) (hitem first), fun a ha => ?_⟩
    exact hmono (Nat.le_max_right _ _) (ih a ha)

theorem Listed.forall_mem {α : Type} {item : Phrase α} (holds : Nat → α → Prop)
    (hitem : ∀ {ts : List Token} {h : Nat} {a : α}, item ts h a → holds h a)
    (hmono : ∀ {h k : Nat} {a : α}, h ≤ k → holds h a → holds k a)
    {ts : List Token} {h : Nat} {as : List α} (phrase : Listed item ts h as) :
    ∀ a ∈ as, holds h a := by
  cases phrase with
  | none => exact List.forall_mem_nil _
  | some first others =>
    have hothers := others.forall_mem holds (fun | .intro phrase => hitem phrase) hmono
    refine List.forall_mem_cons.2 ⟨hmono (Nat.le_max_left _ _) (hitem first), fun a ha => ?_⟩
    exact hmono (Nat.le_max_right _ _) (hothers a ha)

section Bounds

variable {run : Nat}

/-- The tree is no higher than its levels and runs of operators allow. -/
def Low (run : Nat) (h : Nat) (e : Expr) : Prop := e.longestRun ≤ run → e.height ≤ heightBound run h

theorem Low.mono {h k : Nat} {e : Expr} (hle : h ≤ k) (hlow : Low run h e) : Low run k e :=
  fun hrun => Nat.le_trans (hlow hrun) (heightBound_mono run hle)

theorem Chain.height_le {accepts : Operator → Bool} {operand : Phrase Expr} {extra : Nat}
    (hoperand : ∀ {ts : List Token} {h : Nat} {e : Expr}, operand ts h e → e.longestRun ≤ run →
      e.height ≤ heightBound run h + extra)
    {ts : List Token} {h : Nat} {e : Expr} (phrase : Chain accepts operand ts h e)
    (hrun : e.longestRun ≤ run) : e.height ≤ e.operators + (heightBound run h + extra) := by
  induction phrase with
  | first phrase => exact Nat.le_trans (hoperand phrase hrun) (Nat.le_add_left _ _)
  | @further ts us h k left right op front accepted last ih =>
    rw [Expr.longestRun] at hrun
    have hleft := ih (by omega)
    have hright := hoperand last (by omega)
    rw [heightBound_max, Expr.height, Expr.operators]
    omega

theorem Primary.height_le {ts : List Token} {h : Nat} {e : Expr}
    (phrase : Primary (fun _ h e => Low run h e) ts h e) (hrun : e.longestRun ≤ run) :
    e.height ≤ heightBound run h + 1 := by
  have hlisted {ts : List Token} {h : Nat} {es : List Expr}
      (listed : Listed (fun _ h e => Low run h e) ts h es) (hes : Expr.longestRunAll es ≤ run) :
      Expr.heightAll es ≤ heightBound run h := by
    have hlow := listed.forall_mem (Low run) id Low.mono
    exact Expr.heightAll_le_iff.2 fun e he => hlow e he (Expr.longestRunAll_le_iff.1 hes e he)
  cases phrase with
  | integer | text | name => exact Nat.zero_le _
  | call name arguments => exact Nat.succ_le_succ (hlisted arguments hrun)
  | group inner => exact Nat.le_succ_of_le (inner hrun)
  | list elements => exact Nat.succ_le_succ (hlisted elements hrun)

theorem Expression.low (run : Nat) {ts : List Token} {h : Nat} {e : Expr} (phrase : Expression ts h e) :
    Low run h e := by
  apply Expression.induct (motive := fun _ h e => Low run h e) _ phrase
  intro ts h e compared hrun
  have hfactors {ts : List Token} {h : Nat} {e : Expr} (factors : Chain Operator.isMultiplicative
      (Primary fun _ h e => Low run h e) ts h e) (he : e.longestRun ≤ run) :
      e.height ≤ heightBound run h + (run + 1) := by
    have hheight := factors.height_le Primary.height_le he
    have hoperators := e.operators_le_longestRun
    omega
  have hadditive {ts : List Token} {h : Nat} {e : Expr} (additive : Chain Operator.isAdditive
      (Chain Operator.isMultiplicative (Primary fun _ h e => Low run h e)) ts h e)
      (he : e.longestRun ≤ run) : e.height ≤ heightBound run h + (2 * run + 1) := by
    have hheight := additive.height_le hfactors he
    have hoperators := e.operators_le_longestRun
    omega
  rw [heightBound_succ]
  cases compared with
  | plain phrase =>
    have hheight := hadditive phrase hrun
    omega
  | @compared ts us h k left right op first accepted second =>
    rw [Expr.longestRun] at hrun
    have hfirst := hadditive first (by omega)
    have hsecond := hadditive second (by omega)
    rw [heightBound_max, Expr.height]
    omega

def LowBlock (run : Nat) (h : Nat) (b : UzScript.Block) : Prop :=
  b.greatest 0 Expr.longestRun ≤ run → b.greatest 1 Expr.height ≤ heightBound run h

def LowStmt (run : Nat) (h : Nat) (s : Stmt) : Prop :=
  s.greatest 0 Expr.longestRun ≤ run → s.greatest 1 Expr.height ≤ heightBound run h + 1

theorem LowStmt.mono {h k : Nat} {s : Stmt} (hle : h ≤ k) (hlow : LowStmt run h s) :
    LowStmt run k s :=
  fun hrun => Nat.le_trans (hlow hrun) (Nat.succ_le_succ (heightBound_mono run hle))

theorem Statement.low {block : Phrase UzScript.Block}
    (hblock : ∀ {ts : List Token} {h : Nat} {b : UzScript.Block}, block ts h b → LowBlock run h b)
    {ts : List Token} {h : Nat} {s : Stmt} (phrase : Statement block ts h s) : LowStmt run h s := by
  intro hrun
  cases phrase with
  | declare _ value | print value | giveBack value => exact Nat.succ_le_succ (value.low run hrun)
  | @branch ts us h k e b condition thenBlock =>
    rw [Stmt.greatest, Block.greatestElse] at hrun
    have hcondition := condition.low run (by omega)
    have hthen := hblock thenBlock (by omega)
    rw [heightBound_max, Stmt.greatest, Block.greatestElse]
    omega
  | @branchElse ts us vs h k l e b c condition thenBlock elseBlock =>
    rw [Stmt.greatest, Block.greatestElse] at hrun
    have hcondition := condition.low run (by omega)
    have hthen := hblock thenBlock (by omega)
    have helse := hblock elseBlock (by omega)
    rw [heightBound_max, heightBound_max, Stmt.greatest, Block.greatestElse]
    omega
  | @define name ts us h k ps b parameters body =>
    rw [Stmt.greatest, FunctionDef.greatest] at hrun
    have hbody := hblock body (by omega)
    rw [heightBound_max, Stmt.greatest, FunctionDef.greatest]
    omega

theorem Repeated.height_le {block : Phrase UzScript.Block}
    (hblock : ∀ {ts : List Token} {h : Nat} {b : UzScript.Block}, block ts h b → LowBlock run h b)
    {ts : List Token} {h : Nat} {ss : List Stmt} (phrase : Repeated (Statement block) ts h ss)
    (hrun : Stmt.greatestAll 0 Expr.longestRun ss ≤ run) :
    Stmt.greatestAll 1 Expr.height ss ≤ heightBound run h + 1 := by
  have hlow := phrase.forall_mem (LowStmt run) (Statement.low hblock) LowStmt.mono
  exact Stmt.greatestAll_le_iff.2 fun s hs => hlow s hs (Stmt.greatestAll_le_iff.1 hrun s hs)

theorem Block.low {ts : List Token} {h : Nat} {b : UzScript.Block} (phrase : Block ts h b) :
    LowBlock run h b := by
  apply Block.induct (motive := fun _ h b => LowBlock run h b) _ phrase
  intro ts h ss statements hrun
  have hheight := statements.height_le id hrun
  rw [heightBound_succ, Block.greatest]
  omega

theorem Program.height_le {ts : List Token} {h : Nat} {P : UzScript.Program}
    (phrase : Program ts h P) : P.height ≤ heightBound P.longestRun h + 1 := by
  obtain ⟨statements⟩ := phrase
  exact statements.height_le Block.low (Nat.le_refl _)

end Bounds

end Grammar

/-- The height of a program that parses is at least its longest run of operators, and at most what that
run and the limit on nesting allow together. -/
theorem Script.height_bounds {script : Script} {program : Program}
    (h : script.program = .ok program) :
    program.longestRun ≤ program.height ∧
      program.height ≤ (2 * program.longestRun + 2) * nestingLimit + 1 := by
  refine ⟨program.longestRun_le_height, ?_⟩
  obtain ⟨levels, hlevels, hphrase⟩ := (Script.printable h).derivable
  have hheight := hphrase.height_le
  rw [program.height_erase, program.longestRun_erase] at hheight
  have hbound : heightBound program.longestRun levels ≤
      (2 * program.longestRun + 2) * nestingLimit := heightBound_mono _ hlevels
  omega

theorem Script.height_bounds_nested :
    ∃ program, Script.program ⟨"sums.uz", "agar(1)\x7bchop f(1+2-3*4,[5]);\x7d"⟩ = .ok program ∧
      program.longestRun = 2 ∧ program.height = 6 ∧
      program.longestRun ≤ program.height ∧
      program.height ≤ (2 * program.longestRun + 2) * nestingLimit + 1 := by
  have hparsed : (Script.program ⟨"sums.uz", "agar(1)\x7bchop f(1+2-3*4,[5]);\x7d"⟩).toOption.map
      (fun program => (program.longestRun, program.height)) = some (2, 6) := by
    decide +kernel
  cases hprogram : Script.program ⟨"sums.uz", "agar(1)\x7bchop f(1+2-3*4,[5]);\x7d"⟩ with
  | error failure =>
    rw [hprogram] at hparsed
    cases hparsed
  | ok program =>
    rw [hprogram] at hparsed
    obtain ⟨hrun, hheight⟩ := Prod.mk.inj (Option.some.inj hparsed)
    exact ⟨program, rfl, hrun, hheight, Script.height_bounds hprogram⟩

/-! ## Sums as long as one likes -/

def zeros : Nat → Expr
  | 0 => .integer .zero .zero
  | n + 1 => .binary .add (zeros n) (.integer .zero .zero) .zero

def printZeros (n : Nat) : Program := ⟨[.print (zeros n) .zero], .zero⟩

theorem height_zeros (n : Nat) : (zeros n).height = n := by
  induction n with
  | zero => rfl
  | succ n ih =>
    rw [zeros, Expr.height, ih]
    exact congrArg Nat.succ (Nat.max_zero n)

theorem height_printZeros (n : Nat) : (printZeros n).height = n + 1 := by
  change max ((zeros n).height + 1) 0 = n + 1
  rw [height_zeros, Nat.max_zero]

theorem zeros_additive (n : Nat) :
    ∃ ts, Grammar.Additive ts 0 (zeros n) ∧ ∀ t ∈ ts, t.Writable := by
  have hzero : Token.Writable (.integer .zero) := Int.le_refl 0
  have hprimary : Grammar.Multiplicative [.integer .zero] 0 (.integer .zero .zero) :=
    .first (.integer .zero)
  induction n with
  | zero => exact ⟨_, .first hprimary, List.forall_mem_singleton.2 hzero⟩
  | succ n ih =>
    obtain ⟨ts, hchain, hwritable⟩ := ih
    refine ⟨_, .further hchain rfl hprimary, List.forall_mem_append.2 ⟨hwritable, ?_⟩⟩
    exact List.forall_mem_cons.2 ⟨trivial, List.forall_mem_singleton.2 hzero⟩

theorem printable_printZeros (n : Nat) : (printZeros n).Printable := by
  obtain ⟨ts, hchain, hwritable⟩ := zeros_additive n
  have hphrase : Grammar.Program ((.keyword .print :: ts ++ [.semicolon]) ++ []) (max 1 0)
      (printZeros n) :=
    .intro (.more (.print (.intro (.plain hchain))) .none)
  obtain ⟨k, hk, hprinted, hsublist⟩ := hphrase.reprinted
  refine ⟨fun t ht => ?_, k, Nat.le_trans hk (by decide), hprinted⟩
  have hall : ∀ t ∈ (.keyword .print :: ts ++ [.semicolon]) ++ [], t.Writable := by
    rw [List.append_nil]
    refine List.forall_mem_append.2 ⟨List.forall_mem_cons.2 ⟨trivial, hwritable⟩, ?_⟩
    exact List.forall_mem_singleton.2 trivial
  exact hall t (hsublist.subset ht)

/-- No number bounds the height of all programs that parse. -/
theorem heights_unbounded :
    ¬ ∃ bound, ∀ (script : Script) (program : Program), script.program = .ok program →
      program.height ≤ bound := by
  rintro ⟨bound, hbound⟩
  obtain ⟨program, hprogram, herase⟩ := (printable_printZeros bound).reparsed "sum.uz"
  have hheight := hbound _ program hprogram
  rw [← program.height_erase, herase, height_printZeros] at hheight
  omega

end UzScript
