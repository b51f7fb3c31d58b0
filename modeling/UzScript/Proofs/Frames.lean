import UzScript.Proofs.Allowances

/-! # Frames are isolated

An expression leaves all frames as they are, since a call runs in a frame of its own, which is gone
when the call ends, well or not. A statement changes at most the innermost frame. Functions are
never lost. -/

set_option autoImplicit false

namespace UzScript

namespace Environment

theorem length_frames (env : Environment) : env.frames.length = env.depth + 1 := by
  simp [frames, depth]

theorem frames_declare (env : Environment) (name : String) (value : Value) :
    ∃ frame outer, env.frames = frame :: outer ∧
      (env.declare name value).frames = frame.insert name value :: outer := by
  unfold declare
  split
  · next hcalls => exact ⟨env.globals, [], by simp [frames, hcalls], by simp [frames, hcalls]⟩
  · next frame outer hcalls =>
    exact ⟨frame, outer ++ [env.globals], by simp [frames, hcalls], by simp [frames]⟩

theorem frames_pop (env : Environment) :
    env.pop.2.frames = if env.depth = 0 then env.frames else env.frames.tail := by
  unfold pop
  split
  · next hcalls => simp [depth, hcalls]
  · next hcalls => simp [depth, hcalls, frames]

theorem functions_declare (env : Environment) (name : String) (value : Value) :
    (env.declare name value).functions = env.functions := by
  unfold declare
  split <;> rfl

theorem functions_pop (env : Environment) : env.pop.2.functions = env.functions := by
  unfold pop
  split <;> rfl

theorem get?_congr {env other : Environment} (h : other.frames = env.frames) (name : String) :
    other.get? name = env.get? name := by
  rw [get?, h, get?]

end Environment

namespace Machine

def FramesKept (before after : Machine) : Prop := after.env.frames = before.env.frames

/-- Every frame but the innermost is kept. -/
structure OuterKept (before after : Machine) : Prop where
  outer : after.env.frames.tail = before.env.frames.tail
  length : after.env.frames.length = before.env.frames.length

/-- A function that is there stays, under its own definition or a later one. -/
def FunctionsKept (before after : Machine) : Prop :=
  ∀ name, (before.env.function? name).isSome → (after.env.function? name).isSome

theorem OuterKept.of_tail {m n : Machine} (h : n.env.frames.tail = m.env.frames.tail) :
    OuterKept m n := by
  refine ⟨h, ?_⟩
  have htails := congrArg List.length h
  rw [List.length_tail, List.length_tail, Environment.length_frames,
    Environment.length_frames] at htails
  rw [Environment.length_frames, Environment.length_frames]
  omega

theorem OuterKept.depth {m n : Machine} (h : OuterKept m n) : n.env.depth = m.env.depth := by
  have hlength := h.length
  rw [Environment.length_frames, Environment.length_frames] at hlength
  omega

/-- The frame of a call is the only one that its body changes, and it goes with the call. -/
theorem OuterKept.framesKept_pop {m n : Machine} {frame : Frame}
    (h : OuterKept { m with env := m.env.push frame } n) :
    FramesKept m { n with env := n.env.pop.2 } := by
  have hdepth : n.env.depth = m.env.depth + 1 := h.depth
  have htail : n.env.frames.tail = m.env.frames := h.outer
  change n.env.pop.2.frames = m.env.frames
  rw [Environment.frames_pop, if_neg (by omega), htail]

theorem framesKept_allowance : Allowance FramesKept OuterKept where
  quiet_refl _ := rfl
  quiet_trans h h' := h'.trans h
  step_of_quiet h := ⟨congrArg List.tail h, congrArg List.length h⟩
  step_trans h h' := ⟨h'.outer.trans h.outer, h'.length.trans h.length⟩
  declare m name value := by
    obtain ⟨frame, outer, hframes, hdeclared⟩ := m.env.frames_declare name value
    refine .of_tail ?_
    rw [hframes, hdeclared, List.tail_cons, List.tail_cons]
  define _ _ _ := ⟨rfl, rfl⟩
  print _ _ := ⟨rfl, rfl⟩
  call := OuterKept.framesKept_pop

theorem functionsKept_allowance : Allowance FunctionsKept FunctionsKept where
  quiet_refl _ _ h := h
  quiet_trans h h' name hname := h' name (h name hname)
  step_of_quiet h := h
  step_trans h h' name hname := h' name (h name hname)
  declare m name value other hother := by
    rw [Environment.function?, Environment.functions_declare]
    exact hother
  define m name callable other hother := by
    change ((m.env.functions.insert name callable).get? other).isSome
    rw [Bindings.get?_insert]
    split
    · rfl
    · exact hother
  print _ _ _ h := h
  call {_ n _} h name hname := by
    rw [Environment.function?, Environment.functions_pop]
    exact h name hname

/-- What running scripts and programs one after the other makes of a machine. -/
inductive Leads (start : Machine) : Machine → Prop
  | here : Leads start start
  | script {m : Machine} (before : Leads start m) (script : Script) :
      Leads start (m.runScript script).2
  | program {m : Machine} (before : Leads start m) (program : Program) :
      Leads start (m.run program).2
  | withoutOutput {m : Machine} (before : Leads start m) : Leads start m.withoutOutput

theorem Leads.allowed {quiet step : Machine → Machine → Prop} (allowed : Allowance quiet step)
    (hclear : ∀ m, step m m.withoutOutput) {m n : Machine} (h : Leads m n) : step m n := by
  induction h with
  | here => exact allowed.step_of_quiet (allowed.quiet_refl m)
  | script _ script ih => exact allowed.step_trans ih (allowed.runScript _ script)
  | program _ program ih => exact allowed.step_trans ih (allowed.run _ program)
  | withoutOutput _ ih => exact allowed.step_trans ih (hclear _)

end Machine

theorem Eval.declare_error {invoke : Invoke} {ident : Ident} {value : Expr} {location : Span}
    {m n : Machine} {fault : RuntimeFault}
    (h : stmt invoke (.declare ident value location) m = .error fault n) :
    expr invoke value m = .error fault n := by
  rw [stmt] at h
  cases hvalue : expr invoke value m with
  | ok v after =>
    rw [bind_of_ok hvalue] at h
    cases h
  | error fault' after =>
    rw [bind_of_error hvalue] at h
    cases h
    rfl

open Machine in
/-- Expressions leave all frames as they are, statements, blocks and programs all but the innermost,
whether they end well or with a fault and however many calls there is room for. So a call changes no
variable that its caller sees, a declaration that fails declares nothing, no call is active between
the runs of a session, and no function is lost. -/
theorem frames_isolated :
    (∀ (room : Nat) (e : Expr) (m : Machine),
      ((Eval.expr (Eval.invoke room) e).after m).env.frames = m.env.frames) ∧
    (∀ (room : Nat) (s : Stmt) (m : Machine),
      OuterKept m ((Eval.stmt (Eval.invoke room) s).after m)) ∧
    (∀ (room : Nat) (b : Block) (m : Machine),
      OuterKept m ((Eval.block (Eval.invoke room) b).after m)) ∧
    (∀ (m : Machine) (program : Program), OuterKept m (m.run program).2) ∧
    (∀ (room : Nat) (function : Ident) (arguments : List Expr) (location : Span) (m : Machine)
      (name : String),
      ((Eval.expr (Eval.invoke room) (.call function arguments location)).after m).env.get? name =
        m.env.get? name) ∧
    (∀ (room : Nat) (ident : Ident) (value : Expr) (location : Span) (m n : Machine)
      (fault : RuntimeFault),
      Eval.stmt (Eval.invoke room) (.declare ident value location) m = .error fault n →
        n.env.frames = m.env.frames) ∧
    (∀ m : Machine, Leads .initial m → m.env.depth = 0) ∧
    (∀ (room : Nat) (e : Expr) (m : Machine),
      FunctionsKept m ((Eval.expr (Eval.invoke room) e).after m)) ∧
    (∀ (room : Nat) (s : Stmt) (m : Machine),
      FunctionsKept m ((Eval.stmt (Eval.invoke room) s).after m)) ∧
    ∀ m n : Machine, Leads m n → FunctionsKept m n := by
  have hexpr : ∀ (room : Nat) (e : Expr) (m : Machine),
      ((Eval.expr (Eval.invoke room) e).after m).env.frames = m.env.frames :=
    fun room e => framesKept_allowance.expr (framesKept_allowance.calls room) e
  refine ⟨hexpr, ?_, ?_, ?_, ?_, ?_, ?_, ?_, ?_, ?_⟩
  · exact fun room s => framesKept_allowance.stmt (framesKept_allowance.calls room) s
  · exact fun room b => framesKept_allowance.block (framesKept_allowance.calls room) b
  · exact framesKept_allowance.run
  · exact fun room function arguments location m name =>
      Environment.get?_congr (hexpr room (.call function arguments location) m) name
  · intro room ident value location m n fault h
    have hkept := hexpr room value m
    rwa [Eval.after_error (Eval.declare_error h)] at hkept
  · exact fun m h => (h.allowed framesKept_allowance fun _ => ⟨rfl, rfl⟩).depth
  · exact fun room e => functionsKept_allowance.expr (functionsKept_allowance.calls room) e
  · exact fun room s => functionsKept_allowance.stmt (functionsKept_allowance.calls room) s
  · exact fun m n h => h.allowed functionsKept_allowance fun _ _ hname => hname

theorem frames_isolated_after_fault :
    (Machine.initial.runScript ⟨"a.uz", "funksiya f(n) \x7b chop n / 0; \x7d chop f(1);"⟩).1.isOk =
        false ∧
      (Machine.initial.runScript
        ⟨"a.uz", "funksiya f(n) \x7b chop n / 0; \x7d chop f(1);"⟩).2.env.depth = 0 := by
  refine ⟨by decide +kernel, ?_⟩
  exact frames_isolated.2.2.2.2.2.2.1 _ (.script .here _)

end UzScript
