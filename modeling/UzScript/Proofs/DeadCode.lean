import UzScript.Proofs.Resemblance

/-! # Dead code has no influence

The elements of a list are counted and never evaluated, and nothing runs after a value is given back.
Programs that differ in such dead code only, anywhere and also in the bodies of their functions, do
the same. -/

set_option autoImplicit false

namespace UzScript

inductive Expr.SameLive : Expr → Expr → Prop
  | intro {e e' : Expr} (layer : e.Match Expr.SameLive e') : SameLive e e'

/-- The same statements, but for the elements of lists, and for the statements that come after a
value is given back, here or in a block inside. -/
inductive Stmt.SameLive : List Stmt → List Stmt → Prop
  | intro {ss ss' : List Stmt} (layer : Stmt.MatchAll Expr.SameLive Stmt.SameLive ss ss') :
      SameLive ss ss'

def Program.SameLive (P Q : Program) : Prop := Stmt.SameLive P.statements Q.statements

def Callable.SameLive : Callable → Callable → Prop := Callable.Match Stmt.SameLive

/-- Both environments have the same frames, and functions that differ in dead code only. -/
structure Environment.SameLive (env other : Environment) : Prop where
  frames : env.frames.map Bindings.get? = other.frames.map Bindings.get?
  functions : ∀ name, Option.Rel Callable.SameLive (env.function? name) (other.function? name)

/-! ## Nothing is changed by changing nothing -/

mutual

theorem Expr.SameLive.refl : (e : Expr) → e.SameLive e
  | .integer value location => .intro (.integer value location)
  | .text value location => .intro (.text value location)
  | .variable name => .intro (.ident name)
  | .binary op left right location => .intro (.binary op (.refl left) (.refl right) location)
  | .call function arguments location =>
    .intro (.call function (Expr.SameLive.refl_all arguments) location)
  | .list _ location => .intro (.list rfl location)

theorem Expr.SameLive.refl_all : (es : List Expr) → List.Forall₂ Expr.SameLive es es
  | [] => .nil
  | e :: es => .cons (.refl e) (Expr.SameLive.refl_all es)

end

mutual

theorem Stmt.Match.refl_live : (s : Stmt) → Stmt.Match Expr.SameLive Stmt.SameLive s s
  | .declare ident value location => .declare ident (.refl value) location
  | .print value location => .print (.refl value) location
  | .branch condition ⟨statements, place⟩ none location =>
    .branch (.refl condition) (.intro (.refl statements) place) location
  | .branch condition ⟨statements, place⟩ (some ⟨others, place'⟩) location =>
    .branchElse (.refl condition) (.intro (.refl statements) place) (.intro (.refl others) place')
      location
  | .define ⟨ident, parameters, ⟨statements, place⟩, location⟩ =>
    .define (.intro ident parameters (.intro (.refl statements) place) location)
  | .giveBack value location => .giveBack (.refl value) location

theorem Stmt.SameLive.refl : (ss : List Stmt) → Stmt.SameLive ss ss
  | [] => .intro .nil
  | s :: ss => .intro (.cons (.refl_live s) (.refl ss))

end

theorem Environment.SameLive.refl (env : Environment) : env.SameLive env := by
  refine ⟨rfl, fun name => ?_⟩
  cases env.function? name with
  | none => exact .none
  | some callable => exact .some (.refl Stmt.SameLive.refl callable)

/-! ## Runs -/

def Resemblance.live : Resemblance where
  frames fs gs := fs.map Bindings.get? = gs.map Bindings.get?
  part := Expr.SameLive
  body := Stmt.SameLive
  tighter := False
  get?_eq {fs gs} h name := by
    have hfind := congrArg (List.findSome? (· name)) h
    rwa [List.findSome?_map, List.findSome?_map] at hfind
  insert {f g fs gs} h name value := by
    rw [List.map_cons, List.map_cons, List.cons.injEq] at h ⊢
    refine ⟨funext fun other => ?_, h.2⟩
    rw [Bindings.get?_insert, Bindings.get?_insert, h.1]
  push h frame := by
    rw [List.map_cons, List.map_cons, h]
  part_match
    | .intro layer => layer
  body_match
    | .intro layer => layer

theorem Environment.SameLive.depth_eq {env other : Environment} (h : env.SameLive other) :
    env.depth = other.depth := by
  have hlength := congrArg List.length h.frames
  rw [List.length_map, List.length_map, length_frames, length_frames] at hlength
  omega

/-- Programs that differ in dead code only, on machines with the same frames and with functions that
differ in dead code only, end in the same way, with the same fault at the same place if any, print
the same lines, and leave the same frames and functions that differ in dead code only. -/
theorem dead_code_without_influence {P Q : Program} (hprogram : P.SameLive Q) {m n : Machine}
    (henv : m.env.SameLive n.env) :
    (m.run P).1 = (n.run Q).1 ∧ (m.run P).2.env.SameLive (n.run Q).2.env ∧
      ∃ lines, (m.run P).2.output = m.output ++ lines ∧ (n.run Q).2.output = n.output ++ lines := by
  have hmachines : Resemblance.live.Machines m.output n.output m n :=
    ⟨henv.frames, henv.functions, #[], by simp, by simp⟩
  rcases Resemblance.run_ends hprogram hmachines (.inl henv.depth_eq) with ⟨hsame, halike⟩ | ⟨hfalse, -⟩
  · exact ⟨hsame, ⟨halike.frames, halike.functions⟩, halike.lines⟩
  · exact hfalse.elim

/-- Prints how many elements a function's list has, and ends, with the rest both in the function and
after the end. -/
def countingTwo (element : Expr) (rest : List Stmt) : Program where
  statements :=
    .define ⟨⟨"f", .zero⟩, [], ⟨.giveBack (.list [element, element] .zero) .zero :: rest, .zero⟩,
        .zero⟩ ::
      .print (.call ⟨"f", .zero⟩ [] .zero) .zero :: .giveBack (.integer .zero .zero) .zero :: rest
  location := .zero

theorem countingTwo_sameLive (element element' : Expr) (rest rest' : List Stmt) :
    (countingTwo element rest).SameLive (countingTwo element' rest') := by
  have hcount : [element, element].length = [element', element'].length := rfl
  have hbody : Stmt.SameLive (.giveBack (.list [element, element] .zero) .zero :: rest)
      (.giveBack (.list [element', element'] .zero) .zero :: rest') :=
    .intro (.ended (.intro (.list hcount .zero)) .zero rest rest')
  have hend : Stmt.SameLive (.giveBack (.integer .zero .zero) .zero :: rest)
      (.giveBack (.integer .zero .zero) .zero :: rest') :=
    .intro (.ended (.refl _) .zero rest rest')
  refine .intro (.cons (.define (.intro _ _ (.intro hbody .zero) .zero)) ?_)
  exact .intro (.cons (.refl_live _) hend)

/-- Neither a division by zero nor an endless recursion matters where it cannot be reached. -/
theorem dead_code_without_influence_counting :
    let failing := countingTwo
      (.binary .divide (.integer .one .zero) (.integer .zero .zero) .zero)
      [.print (.call ⟨"f", .zero⟩ [] .zero) .zero]
    let plain := countingTwo (.integer .one .zero) []
    failing.SameLive plain ∧ (Machine.initial.run failing).1 = .ok () ∧
      (Machine.initial.run failing).2.output = #["2"] := by
  intro failing plain
  have hlive : failing.SameLive plain := countingTwo_sameLive _ _ _ _
  obtain ⟨hsame, -, lines, hlines, hlines'⟩ :=
    dead_code_without_influence hlive (Environment.SameLive.refl Machine.initial.env)
  have hplain : (Machine.initial.run plain).1 = .ok () ∧
      (Machine.initial.run plain).2.output = #["2"] := by decide +kernel
  exact ⟨hlive, hsame.trans hplain.1, (hlines.trans hlines'.symm).trans hplain.2⟩

end UzScript
