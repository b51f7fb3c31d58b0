import UzScript.Proofs.Allowances
import UzScript.Proofs.Erasure
import UzScript.Proofs.Frames

/-! # Runs in lockstep

Two environments that bind the same names to the same values, frame by frame, and the same names to
functions that differ in their locations only, cannot be told apart by a run. Two evaluations are in
lockstep when they take such environments to such environments, print the same lines, and end in the
same value or in the same cause of a fault. -/

set_option autoImplicit false

namespace UzScript

/-- What a run can tell of an environment. -/
structure View where
  frames : List (String → Option Value)
  functions : String → Option Callable

namespace Environment

def view (env : Environment) : View :=
  ⟨env.frames.map Bindings.get?, fun name => (env.function? name).map Callable.erase⟩

variable {env other : Environment}

theorem get?_of_view (h : env.view = other.view) (name : String) :
    env.get? name = other.get? name := by
  have hframes : env.frames.map Bindings.get? = other.frames.map Bindings.get? :=
    congrArg View.frames h
  have hfind := congrArg (List.findSome? (· name)) hframes
  rwa [List.findSome?_map, List.findSome?_map] at hfind

theorem function?_of_view (h : env.view = other.view) (name : String) :
    (env.function? name).map Callable.erase = (other.function? name).map Callable.erase :=
  congrFun (congrArg View.functions h) name

theorem depth_of_view (h : env.view = other.view) : env.depth = other.depth := by
  have hframes := congrArg (fun view => view.frames.length) h
  change (env.frames.map Bindings.get?).length = (other.frames.map Bindings.get?).length at hframes
  rw [List.length_map, List.length_map, length_frames, length_frames] at hframes
  omega

theorem view_push (h : env.view = other.view) (frame : Frame) :
    (env.push frame).view = (other.push frame).view := by
  obtain ⟨hframes, hfunctions⟩ := View.mk.inj h
  rw [view, view, frames_push, frames_push, List.map_cons, List.map_cons, hframes]
  exact congrArg _ hfunctions

theorem view_pop (h : env.view = other.view) : env.pop.2.view = other.pop.2.view := by
  obtain ⟨hframes, hfunctions⟩ := View.mk.inj h
  have hpopped : env.pop.2.frames.map Bindings.get? = other.pop.2.frames.map Bindings.get? := by
    rw [frames_pop, frames_pop, depth_of_view h]
    split
    · exact hframes
    · rw [List.map_tail, List.map_tail, hframes]
  rw [view, view, hpopped]
  unfold function? at hfunctions ⊢
  rw [functions_pop, functions_pop, hfunctions]

theorem view_declare (h : env.view = other.view) (name : String) (value : Value) :
    (env.declare name value).view = (other.declare name value).view := by
  obtain ⟨hframes, hfunctions⟩ := View.mk.inj h
  obtain ⟨frame, outer, henv, henv'⟩ := env.frames_declare name value
  obtain ⟨frame', outer', hother, hother'⟩ := other.frames_declare name value
  rw [henv, hother, List.map_cons, List.map_cons, List.cons.injEq] at hframes
  have hinsert : (frame.insert name value).get? = (frame'.insert name value).get? := by
    funext x
    rw [Bindings.get?_insert, Bindings.get?_insert, hframes.1]
  rw [view, view, henv', hother', List.map_cons, List.map_cons, hinsert, hframes.2]
  unfold function? at hfunctions ⊢
  rw [functions_declare, functions_declare, hfunctions]

theorem view_define (h : env.view = other.view) (name : String) {callable callable' : Callable}
    (hcallable : callable.erase = callable'.erase) :
    (env.define name callable).view = (other.define name callable').view := by
  obtain ⟨hframes, hfunctions⟩ := View.mk.inj h
  have hdefined : (fun x => ((env.define name callable).function? x).map Callable.erase) =
      fun x => ((other.define name callable').function? x).map Callable.erase := by
    funext x
    have hx := congrFun hfunctions x
    change ((env.functions.insert name callable).get? x).map _ =
      ((other.functions.insert name callable').get? x).map _
    rw [Bindings.get?_insert, Bindings.get?_insert]
    split
    · exact congrArg some hcallable
    · exact hx
  change View.mk (env.frames.map Bindings.get?) _ = View.mk (other.frames.map Bindings.get?) _
  rw [hframes, hdefined]

end Environment

/-- Machines that a run cannot tell apart, and on which the same lines were printed after the lines
`a` and `b`. -/
structure Machine.Alike (a b : Array String) (m n : Machine) : Prop where
  view : m.env.view = n.env.view
  lines : ∃ lines, m.output = a ++ lines ∧ n.output = b ++ lines

namespace Machine.Alike

variable {a b c : Array String} {l m n : Machine}

theorem symm (h : Alike a b m n) : Alike b a n m := by
  obtain ⟨lines, hm, hn⟩ := h.lines
  exact ⟨h.view.symm, lines, hn, hm⟩

theorem trans (h : Alike a b l m) (h' : Alike b c m n) : Alike a c l n := by
  obtain ⟨lines, hl, hm⟩ := h.lines
  obtain ⟨lines', hm', hn⟩ := h'.lines
  obtain rfl : lines = lines' := Array.append_right_inj b |>.1 (hm.symm.trans hm')
  exact ⟨h.view.trans h'.view, lines, hl, hn⟩

theorem left (h : Alike a b m n) : Alike a a m m := by
  obtain ⟨lines, hm, -⟩ := h.lines
  exact ⟨rfl, lines, hm, hm⟩

theorem mapEnv (h : Alike a b m n) {env env' : Environment} (henv : env.view = env'.view) :
    Alike a b { m with env := env } { n with env := env' } :=
  ⟨henv, h.lines⟩

theorem print (h : Alike a b m n) (line : String) :
    Alike a b { m with output := m.output.push line } { n with output := n.output.push line } := by
  obtain ⟨lines, hm, hn⟩ := h.lines
  refine ⟨h.view, lines.push line, ?_, ?_⟩
  · simp [hm]
  · simp [hn]

end Machine.Alike

namespace Eval

variable {α β : Type} {a b c : Array String}

/-- Both runs give the same value, or both fail for the same cause. -/
inductive SameEnd (a b : Array String) :
    EStateM.Result RuntimeFault Machine α → EStateM.Result RuntimeFault Machine α → Prop
  | ok (value : α) {m n : Machine} (alike : Machine.Alike a b m n) :
      SameEnd a b (.ok value m) (.ok value n)
  | error {fault fault' : RuntimeFault} {m n : Machine} (cause : fault.cause = fault'.cause)
      (alike : Machine.Alike a b m n) : SameEnd a b (.error fault m) (.error fault' n)

def Lockstep (a b : Array String) (x y : Eval α) : Prop :=
  ∀ m n, Machine.Alike a b m n → SameEnd a b (x m) (y n)

namespace Lockstep

theorem symm {x y : Eval α} (h : Lockstep a b x y) : Lockstep b a y x := by
  intro n m hnm
  have hsame := h m n hnm.symm
  generalize x m = r at hsame ⊢
  generalize y n = r' at hsame ⊢
  cases hsame with
  | ok value alike => exact .ok value alike.symm
  | error cause alike => exact .error cause.symm alike.symm

theorem trans {x y z : Eval α} (h : Lockstep a a x y) (h' : Lockstep a b y z) :
    Lockstep a b x z := by
  intro m n hmn
  have hfirst := h m m hmn.left
  have hsecond := h' m n hmn
  generalize x m = r at hfirst ⊢
  generalize y m = r' at hfirst hsecond
  generalize z n = r'' at hsecond ⊢
  cases hfirst with
  | ok value alike =>
    cases hsecond with
    | ok _ alike' => exact .ok value (alike.trans alike')
  | error cause alike =>
    cases hsecond with
    | error cause' alike' => exact .error (cause.trans cause') (alike.trans alike')

theorem pure (value : α) : Lockstep a b (Pure.pure value) (Pure.pure value) :=
  fun _ _ h => .ok value h

theorem fail (cause : RuntimeCause) (location location' : Span) :
    Lockstep a b (Eval.fail cause location : Eval α) (Eval.fail cause location') :=
  fun _ _ h => .error rfl h

theorem bind {x y : Eval α} {f g : α → Eval β} (hxy : Lockstep a b x y)
    (hfg : ∀ value, Lockstep a b (f value) (g value)) : Lockstep a b (x >>= f) (y >>= g) := by
  intro m n hmn
  have hsame := hxy m n hmn
  change SameEnd a b (EStateM.bind x f m) (EStateM.bind y g n)
  unfold EStateM.bind
  generalize x m = r at hsame ⊢
  generalize y n = r' at hsame ⊢
  cases hsame with
  | ok value alike => exact hfg value _ _ alike
  | error cause alike => exact .error cause alike

/-- What is read of the machine is alike, though not the same. -/
theorem get_bind {f g : Machine → Eval α}
    (h : ∀ m n, Machine.Alike a b m n → Lockstep a b (f m) (g n)) :
    Lockstep a b (get >>= f) (get >>= g) :=
  fun m n hmn => h m n hmn m n hmn

theorem modifyEnv {f g : Environment → Environment}
    (h : ∀ env other, env.view = other.view → (f env).view = (g other).view) :
    Lockstep a b (Eval.modifyEnv f) (Eval.modifyEnv g) :=
  fun _ _ hmn => .ok () (hmn.mapEnv (h _ _ hmn.view))

theorem printLine (line : String) : Lockstep a b (Eval.printLine line) (Eval.printLine line) :=
  fun _ _ hmn => .ok () (hmn.print line)

theorem withFrame {x y : Eval α} (hxy : Lockstep a b x y) (frame : Frame) :
    Lockstep a b (Eval.withFrame frame x) (Eval.withFrame frame y) := by
  intro m n hmn
  have hsame := hxy _ _ (hmn.mapEnv (Environment.view_push hmn.view frame))
  unfold Eval.withFrame
  generalize x { m with env := m.env.push frame } = r at hsame ⊢
  generalize y { n with env := n.env.push frame } = r' at hsame ⊢
  cases hsame with
  | ok value alike => exact .ok value (alike.mapEnv (Environment.view_pop alike.view))
  | error cause alike => exact .error cause (alike.mapEnv (Environment.view_pop alike.view))

end Lockstep

end Eval

end UzScript
