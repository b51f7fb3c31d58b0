import UzScript.Proofs.Resemblance
import UzScript.Proofs.RoundTrip

/-! # Only visible bindings matter

How variables are spread over frames does not show, as long as every name stands for the same value.
How many calls are active shows only in how soon the limit on them is reached. So a run that does
not reach the limit is the same from any environment that looks like its own and has no more calls
active. -/

set_option autoImplicit false

namespace UzScript

/-- Every name stands for the same value, and for the same function. -/
structure Environment.LooksLike (env other : Environment) : Prop where
  get?_eq : ∀ name, env.get? name = other.get? name
  function?_eq : ∀ name, env.function? name = other.function? name

namespace Resemblance

/-- Only what look-ups find in the frames counts. -/
def visible : Resemblance where
  frames fs gs := ∀ name, fs.findSome? (·.get? name) = gs.findSome? (·.get? name)
  part := Eq
  body := Eq
  tighter := True
  get?_eq h := h
  insert {f g fs gs} h name value other := by
    have hother := h other
    simp only [List.findSome?_cons, Bindings.get?_insert] at hother ⊢
    by_cases hname : other = name
    · rw [if_pos hname, if_pos hname]
    · rw [if_neg hname, if_neg hname]
      exact hother
  push h frame name := by
    rw [List.findSome?_cons, List.findSome?_cons, h name]
  part_match {e e'} h := by
    subst h
    exact .refl (fun _ => rfl) e
  body_match {ss ss'} h := by
    subst h
    exact .refl (fun _ => rfl) (fun _ => rfl) ss

end Resemblance

theorem Block.Match.eq {c c' : Block} (h : c.Match Eq c') : c = c' := by
  obtain ⟨rfl, location⟩ := h
  rfl

theorem Callable.Match.eq {c c' : Callable} (h : c.Match Eq c') : c = c' := by
  cases h with
  | builtin _ => rfl
  | defined inner =>
    obtain ⟨ident, parameters, inner, location⟩ := inner
    rw [inner.eq]

namespace Machine

variable {m n m' n' : Machine}

theorem visible_of_looksLike (h : m.env.LooksLike n.env) :
    Resemblance.visible.Machines m.output n.output m n := by
  refine ⟨h.get?_eq, fun name => ?_, #[], by simp, by simp⟩
  rw [h.function?_eq name]
  cases n.env.function? name with
  | none => exact .none
  | some c => exact .some (.refl (fun _ => rfl) c)

/-- What two runs leave of the machines that they started on: environments that look alike, with as
many calls active as before, and the same lines printed. -/
structure Parallel (m n m' n' : Machine) : Prop where
  looksLike : m'.env.LooksLike n'.env
  depth_first : m'.env.depth = m.env.depth
  depth_second : n'.env.depth = n.env.depth
  lines : ∃ lines, m'.output = m.output ++ lines ∧ n'.output = n.output ++ lines

theorem parallel_of_visible (hm : OuterKept m m') (hn : OuterKept n n')
    (h : Resemblance.visible.Machines m.output n.output m' n') : Parallel m n m' n' := by
  refine ⟨⟨h.get?_eq, fun name => ?_⟩, hm.depth, hn.depth, h.lines⟩
  have hfunction := h.functions name
  generalize m'.env.function? name = found at hfunction ⊢
  generalize n'.env.function? name = found' at hfunction ⊢
  cases hfunction with
  | none => rfl
  | some hcallable => exact congrArg some hcallable.eq

end Machine

namespace Eval

variable {α : Type} {m n : Machine}

/-- The same value, or the same fault at the same place. -/
inductive SameResult (m n : Machine) :
    EStateM.Result RuntimeFault Machine α → EStateM.Result RuntimeFault Machine α → Prop
  | ok (value : α) {m' n' : Machine} (parallel : Machine.Parallel m n m' n') :
      SameResult m n (.ok value m') (.ok value n')
  | error (fault : RuntimeFault) {m' n' : Machine} (parallel : Machine.Parallel m n m' n') :
      SameResult m n (.error fault m') (.error fault n')

/-- The computation fails because too many calls are active. -/
def Exceeds (x : Eval α) (m : Machine) : Prop :=
  ∃ fault n, x m = .error fault n ∧ fault.cause = .callDepthExceeded

theorem inRoom_kept {x : Invoke → Eval α}
    (hkept : ∀ room, Along Machine.OuterKept (x (invoke room))) :
    Along Machine.OuterKept (inRoom x) :=
  Machine.framesKept_allowance.quiet_bind Machine.framesKept_allowance.get fun _ => hkept _

/-- With fewer calls active, there is room for all calls that the second run makes. -/
theorem inRoom_sameResult {x : Invoke → Eval α}
    (hx : ∀ {a b invoke invoke'}, Resemblance.visible.Calls a b invoke invoke' →
      Resemblance.visible.Together a b (x invoke) (x invoke'))
    (hkept : ∀ room, Along Machine.OuterKept (x (invoke room)))
    (hlooks : m.env.LooksLike n.env) (hdepth : m.env.depth ≤ n.env.depth)
    (hroom : ¬ (inRoom x).Exceeds n) : SameResult m n (inRoom x m) (inRoom x n) := by
  have hends := Resemblance.inRoom_ends hx (Machine.visible_of_looksLike hlooks)
    (.inr ⟨trivial, hdepth⟩)
  have hm := inRoom_kept hkept m
  have hn := inRoom_kept hkept n
  unfold Exceeds at hroom
  unfold after at hm hn
  generalize inRoom x m = r at hends hm ⊢
  generalize inRoom x n = r' at hends hn hroom ⊢
  cases hends with
  | ok value alike => exact .ok value (Machine.parallel_of_visible hm hn alike)
  | error fault alike => exact .error fault (Machine.parallel_of_visible hm hn alike)
  | exceeded _ cause => exact absurd ⟨_, _, rfl, cause⟩ hroom

end Eval

open Eval Machine in
/-- From environments that look alike, of which the second has at least as many calls active,
expressions, statements, blocks and programs give the same value, or fail for the same cause at the
same place, and print the same lines, unless the second run exceeds the limit on calls. They leave
environments that look alike, at the depths from before. -/
theorem visible_bindings_suffice {m n : Machine} (hlooks : m.env.LooksLike n.env)
    (hdepth : m.env.depth ≤ n.env.depth) :
    (∀ e : Expr, ¬ (inRoom (expr · e)).Exceeds n →
      SameResult m n (inRoom (expr · e) m) (inRoom (expr · e) n)) ∧
    (∀ s : Stmt, ¬ (inRoom (stmt · s)).Exceeds n →
      SameResult m n (inRoom (stmt · s) m) (inRoom (stmt · s) n)) ∧
    (∀ c : Block, ¬ (inRoom (block · c)).Exceeds n →
      SameResult m n (inRoom (block · c) m) (inRoom (block · c) n)) ∧
    ∀ P : Program, (∀ fault, (n.run P).1 = .error fault → fault.cause ≠ .callDepthExceeded) →
      (m.run P).1 = (n.run P).1 ∧ Parallel m n (m.run P).2 (n.run P).2 := by
  refine ⟨fun e => ?_, fun s => ?_, fun c => ?_, fun P hroom => ?_⟩
  · refine inRoom_sameResult (fun hinvoke => Resemblance.expr_together hinvoke e rfl) (fun room => ?_)
      hlooks hdepth
    exact (framesKept_allowance.expr (framesKept_allowance.calls room) e).mono
      framesKept_allowance.step_of_quiet
  · refine inRoom_sameResult (fun hinvoke => Resemblance.stmt_together hinvoke s ?_) (fun room => ?_)
      hlooks hdepth
    · exact .refl (fun _ => rfl) (fun _ => rfl) s
    · exact framesKept_allowance.stmt (framesKept_allowance.calls room) s
  · refine inRoom_sameResult (fun hinvoke => Resemblance.block_together hinvoke c ?_) (fun room => ?_)
      hlooks hdepth
    · exact .refl (fun _ => rfl) c
    · exact framesKept_allowance.block (framesKept_allowance.calls room) c
  · rcases Resemblance.run_ends (P := P) (Q := P) rfl (visible_of_looksLike hlooks)
      (.inr ⟨trivial, hdepth⟩) with ⟨hsame, halike⟩ | ⟨-, fault, herror, hcause⟩
    · refine ⟨hsame, parallel_of_visible ?_ ?_ halike⟩
      · exact framesKept_allowance.run m P
      · exact framesKept_allowance.run n P
    · exact absurd hcause (hroom fault herror)

def flatSeven : Machine :=
  ⟨Environment.initial.declare "x" (.integer ⟨7, by decide⟩), #[]⟩

/-- A machine with a call active, in whose frame `x` is seven, while it is one outside. -/
def nestedSeven : Machine :=
  ⟨(Environment.initial.declare "x" (.integer .one)).push
    (Bindings.empty.insert "x" (.integer ⟨7, by decide⟩)), #["before"]⟩

/-- A script whose function reads `x` from outside and declares one of its own. -/
def shadowing : Script :=
  ⟨"a.uz", "funksiya f(n) \x7b soni x = x + n; qaytar x; \x7d chop f(3); chop x; chop y;"⟩

theorem visible_bindings_suffice_nested :
    flatSeven.env.LooksLike nestedSeven.env ∧ flatSeven.env.depth < nestedSeven.env.depth ∧
      ∃ P, shadowing.program = .ok P ∧
        (flatSeven.run P).1 = .error ⟨.unboundVariable "y", ⟨68, 69⟩⟩ ∧
        Machine.Parallel flatSeven nestedSeven (flatSeven.run P).2 (nestedSeven.run P).2 ∧
        (nestedSeven.run P).2.output = #["before", "10", "7"] := by
  have hlooks : flatSeven.env.LooksLike nestedSeven.env := by
    refine ⟨fun name => ?_, fun name => rfl⟩
    simp only [flatSeven, nestedSeven, Environment.get?_push, Environment.get?_declare,
      Bindings.get?_insert]
    split <;> rfl
  obtain ⟨P, hP, -⟩ := Script.program_of_text shadowing
    "funksiya f(n) \x7b soni x = x + n; qaytar x; \x7d\nchop f(3);\nchop x;\nchop y;"
    (by decide +kernel)
  have hruns : shadowing.program.toOption.map (fun P => ((nestedSeven.run P).1,
      (nestedSeven.run P).2.output)) = some (.error ⟨.unboundVariable "y", ⟨68, 69⟩⟩,
        #["before", "10", "7"]) := by
    decide +kernel
  rw [hP] at hruns
  obtain ⟨hfault, houtput⟩ := Prod.mk.inj (Option.some.inj hruns)
  have hparallel := (visible_bindings_suffice hlooks (Nat.zero_le 1)).2.2.2 P fun fault h => by
    cases hfault.symm.trans h
    decide
  exact ⟨hlooks, Nat.zero_lt_one, P, hP, hparallel.1.trans hfault, hparallel.2, houtput⟩

end UzScript
