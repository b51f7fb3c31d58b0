import UzScript.Proofs.Stepping

/-! # Runs end, within the call limit

One lemma says what a step may do to the active calls: leave them as they are, enter one more while
there is room, leave the innermost one, or refuse a call because the limit is reached. From it follow
the bound on the active calls in every state of a run, and where a run gets to the fault that the
limit is exceeded. -/

set_option autoImplicit false

namespace UzScript

open Relation (ReflTransGen)

/-! ## The active calls of a state -/

/-- How many calls are waiting for the end of their bodies. -/
def Pending.calls : {awaited : Awaited} → Pending awaited → Nat
  | _, .right _ _ _ _ k => k.calls
  | _, .operation _ _ _ _ _ k => k.calls
  | _, .argument _ _ _ _ _ _ k => k.calls
  | _, .declare _ k => k.calls
  | _, .print k => k.calls
  | _, .branch _ _ _ k => k.calls
  | _, .giveBack _ k => k.calls
  | _, .statements _ k => k.calls
  | _, .leave k => k.calls + 1
  | _, .finish => 0

namespace State

def machine : State → Machine
  | .expr _ _ m | .call _ _ _ _ _ m | .value _ _ m => m
  | .stmt _ _ m | .stmts _ _ m | .flow _ _ m | .fault _ _ m => m

def calls : State → Nat
  | .expr _ k _ | .call _ _ _ _ k _ | .value _ k _ => k.calls
  | .stmt _ k _ | .stmts _ k _ | .flow _ k _ | .fault _ k _ => k.calls

def depth (s : State) : Nat := s.machine.env.depth

def exceeded? : State → Option Span
  | .fault reason _ _ => if reason.cause = .callDepthExceeded then some reason.span else none
  | _ => none

/-- What a step may do to the active calls. -/
inductive Change (s t : State) : Prop
  | keep (depth : t.depth = s.depth) (calls : t.calls = s.calls)
      (exceeded : t.exceeded? = s.exceeded?)
  | enter (room : s.depth < callLimit) (depth : t.depth = s.depth + 1)
      (calls : t.calls = s.calls + 1) (exceeded : t.exceeded? = s.exceeded?)
  | leave (depth : t.depth = s.depth - 1) (calls : s.calls = t.calls + 1)
      (exceeded : t.exceeded? = s.exceeded?)
  | refuse {name : String} {function : FunctionDef} {args : List Integer} {location : Span}
      {k : Pending .value} {m : Machine}
      (here : s = .call name (.defined function) args location k m)
      (arity : args.length = function.arity) (full : callLimit ≤ m.env.depth)
      (refused : t = .fault ⟨.callDepthExceeded, location⟩ k m)

/-- A state at the same depth as the machine, with so many calls waiting, that has not exceeded the
limit. -/
structure Within (m : Machine) (calls : Nat) (t : State) : Prop where
  depth : t.depth = m.env.depth
  calls : t.calls = calls
  exceeded : t.exceeded? = none

end State

/-- The machine stays as it is, and the limit on calls plays no part. -/
def Eval.Plain {α : Type} (x : Eval α) : Prop :=
  ∀ m, (∃ a, x m = .ok a m) ∨ ∃ reason, x m = .error reason m ∧ reason.cause ≠ .callDepthExceeded

namespace Eval.Plain

variable {α β : Type}

theorem pure (a : α) : Plain (Pure.pure a : Eval α) := fun _ => .inl ⟨a, rfl⟩

theorem fail {cause : RuntimeCause} (h : cause ≠ .callDepthExceeded) (location : Span) :
    Plain (Eval.fail cause location : Eval α) :=
  fun _ => .inr ⟨_, rfl, h⟩

theorem bind {x : Eval α} {f : α → Eval β} (hx : Plain x) (hf : ∀ a, Plain (f a)) :
    Plain (x >>= f) := by
  intro m
  rcases hx m with ⟨a, hok⟩ | ⟨reason, herror, hcause⟩
  · rw [bind_of_ok hok]
    exact hf a m
  · exact .inr ⟨reason, bind_of_error herror, hcause⟩

theorem integer (v : Value) (use : IntegerUse) (location : Span) :
    Plain (Eval.integer v use location) := by
  unfold Eval.integer
  split
  · exact pure _
  · exact fail (by simp) location

theorem operation (op : Operator) (a b : Integer) (location : Span) :
    Plain (Eval.operation op a b location) := by
  unfold Eval.operation
  split
  · exact pure _
  · next undefined _ => exact fail (by cases undefined <;> simp [RuntimeCause.ofUndefined]) location

end Eval.Plain

namespace State

/-! ## What a step does -/

theorem within_fault {awaited : Awaited} {reason : RuntimeFault}
    (h : reason.cause ≠ .callDepthExceeded) (k : Pending awaited) (m : Machine) :
    Within m k.calls (.fault reason k m) :=
  ⟨rfl, rfl, if_neg h⟩

theorem within_ofResult {α : Type} {x : Eval α} (hx : x.Plain) {awaited : Awaited}
    (k : Pending awaited) (m : Machine) {next : α → Machine → State}
    (hnext : ∀ a, Within m k.calls (next a m)) : Within m k.calls (ofResult k next (x m)) := by
  rcases hx m with ⟨a, hok⟩ | ⟨reason, herror, hcause⟩
  · rw [hok]
    exact hnext a
  · rw [herror]
    exact within_fault hcause k m

theorem within_arguments (name : String) (callable : Callable) (before : List Integer)
    (location : Span) (k : Pending .value) (m : Machine) (es : List Expr) :
    Within m k.calls (arguments name callable before location k m es) := by
  cases es <;> exact ⟨rfl, rfl, rfl⟩

theorem within_begin (k : Pending .value) (m : Machine) : (e : Expr) → Within m k.calls (begin k m e)
  | .integer _ _ | .text _ _ | .binary _ _ _ _ => ⟨rfl, rfl, rfl⟩
  | .variable ident => by
    rw [begin]
    split
    · exact ⟨rfl, rfl, rfl⟩
    · exact within_fault (by simp) k m
  | .call function args location => by
    rw [begin]
    split
    · exact within_fault (by simp) k m
    · exact within_arguments _ _ _ _ _ _ _
  | .list elements location => by
    rw [begin]
    split
    · exact ⟨rfl, rfl, rfl⟩
    · exact within_fault (by simp) k m

theorem within_branch (k : Pending .flow) (m : Machine) (block : Option Block) :
    Within m k.calls (branch k m block) := by
  cases block <;> exact ⟨rfl, rfl, rfl⟩

theorem within_run (k : Pending .flow) (m : Machine) (s : Stmt) : Within m k.calls (run k m s) := by
  cases s <;> exact ⟨rfl, rfl, rfl⟩

theorem within_supply (v : Value) (m : Machine) (k : Pending .value) :
    Within m k.calls (supply v m k) := by
  cases k with
  | right => exact ⟨rfl, rfl, rfl⟩
  | operation op a left right location k =>
    refine within_ofResult (.bind (.integer _ _ _) fun i => ?_) k m fun _ => ⟨rfl, rfl, rfl⟩
    exact .bind (.integer _ _ _) fun j => .bind (.operation _ _ _ _) fun result => .pure _
  | argument name callable before e es location k =>
    exact within_ofResult (.integer _ _ _) k m fun i => within_arguments _ _ _ _ k m es
  | declare name k => exact ⟨Environment.depth_declare _ _ _, rfl, rfl⟩
  | print k => exact ⟨rfl, rfl, rfl⟩
  | branch condition thenBlock elseBlock k =>
    exact within_ofResult (.integer _ _ _) k m fun test => within_branch k m _
  | giveBack value k =>
    exact within_ofResult (.bind (.integer _ _ _) fun i => .pure _) k m fun _ => ⟨rfl, rfl, rfl⟩

theorem depth_pop (env : Environment) : env.pop.2.depth = env.depth - 1 := by
  unfold Environment.pop Environment.depth
  split
  · next hcalls => rw [hcalls]; rfl
  · next hcalls => rw [hcalls]; rfl

theorem Change.of_within {s t : State} (h : Within s.machine s.calls t)
    (hs : s.exceeded? = none) : Change s t :=
  .keep h.depth h.calls (h.exceeded.trans hs.symm)

theorem change_call (name : String) (callable : Callable) (args : List Integer) (location : Span)
    (k : Pending .value) (m : Machine) :
    Change (.call name callable args location k m) (enter name args location k m callable) := by
  cases callable with
  | builtin builtin =>
    refine .of_within ?_ rfl
    rw [enter]
    split
    · split
      · exact ⟨rfl, rfl, rfl⟩
      · exact within_fault (by simp) k m
    · exact within_fault (by simp) k m
  | defined function =>
    by_cases harity : args.length = (Callable.defined function).arity
    · by_cases hfull : callLimit ≤ m.env.depth
      · refine .refuse rfl harity hfull ?_
        rw [enter, if_pos harity, if_pos hfull]
      · rw [enter, if_pos harity, if_neg hfull]
        exact .enter (Nat.lt_of_not_le hfull) rfl rfl rfl
    · refine .of_within ?_ rfl
      rw [enter, if_neg harity]
      exact within_fault (by simp) k m

theorem change_finish {f : Flow} {m : Machine} {k : Pending .flow} {t : State}
    (h : finish f m k = some t) : Change (.flow f k m) t := by
  cases k with
  | finish => cases h
  | statements ss k => cases f <;> cases h <;> exact .keep rfl rfl rfl
  | leave k =>
    cases h
    exact .leave (depth_pop m.env) rfl rfl

theorem change_unwind {awaited : Awaited} {reason : RuntimeFault} {m : Machine}
    {k : Pending awaited} {t : State} (h : unwind reason m k = some t) :
    Change (.fault reason k m) t := by
  cases k with
  | finish => cases h
  | leave k =>
    cases h
    exact .leave (depth_pop m.env) rfl rfl
  | _ =>
    cases h
    exact .keep rfl rfl rfl

theorem Next.change {s t : State} (h : s.Next t) : Change s t := by
  cases s with
  | expr e k m =>
    cases h
    exact .of_within (within_begin k m e) rfl
  | call name callable args location k m =>
    cases h
    exact change_call name callable args location k m
  | value v k m =>
    cases h
    exact .of_within (within_supply v m k) rfl
  | stmt s k m =>
    cases h
    exact .of_within (within_run k m s) rfl
  | stmts ss k m => cases ss <;> cases h <;> exact .keep rfl rfl rfl
  | flow f k m => exact change_finish h
  | fault reason k m => exact change_unwind h

/-! ## What a run keeps -/

namespace Change

variable {s t : State}

theorem depth_le (h : Change s t) (hs : s.depth ≤ callLimit) : t.depth ≤ callLimit := by
  cases h with
  | keep depth => omega
  | enter room depth => omega
  | leave depth => omega
  | refuse here _ _ refused =>
    subst here refused
    exact hs

theorem depth_eq {base : Nat} (h : Change s t) (hs : s.depth = base + s.calls) :
    t.depth = base + t.calls := by
  cases h with
  | keep depth calls => omega
  | enter _ depth calls => omega
  | leave depth calls => omega
  | refuse here _ _ refused =>
    subst here refused
    exact hs

end Change

variable {s t last : State}

theorem depth_le_of_reaches (h : Reaches s t) (hs : s.depth ≤ callLimit) : t.depth ≤ callLimit := by
  induction h with
  | refl => exact hs
  | tail _ hstep ih => exact hstep.change.depth_le ih

theorem depth_eq_of_reaches {base : Nat} (h : Reaches s t) (hs : s.depth = base + s.calls) :
    t.depth = base + t.calls := by
  induction h with
  | refl => exact hs
  | tail _ hstep ih => exact hstep.change.depth_eq ih

/-- A call of a defined function that there is no room for. -/
def Refused (location : Span) (s : State) : Prop :=
  ∃ name function args k m, s = .call name (.defined function) args location k m ∧
    args.length = function.arity ∧ callLimit ≤ m.env.depth

theorem refused_of_reaches {location : Span} (h : Reaches s t) (hs : s.exceeded? = none)
    (ht : t.exceeded? = some location) : ∃ u, Reaches s u ∧ Refused location u := by
  induction h with
  | refl => rw [hs] at ht; cases ht
  | @tail u t hrun hstep ih =>
    cases hstep.change with
    | keep _ _ exceeded => exact ih (exceeded ▸ ht)
    | enter _ _ _ exceeded => exact ih (exceeded ▸ ht)
    | leave _ _ exceeded => exact ih (exceeded ▸ ht)
    | refuse here arity full refused =>
      subst refused
      cases ht
      exact ⟨u, hrun, _, _, _, _, _, here, arity, full⟩

theorem exceeded?_of_reaches {location : Span} (h : Reaches s t)
    (hs : s.exceeded? = some location) : t.exceeded? = some location := by
  induction h with
  | refl => exact hs
  | tail _ hstep ih =>
    cases hstep.change with
    | keep _ _ exceeded => rwa [exceeded]
    | enter _ _ _ exceeded => rwa [exceeded]
    | leave _ _ exceeded => rwa [exceeded]
    | refuse here =>
      subst here
      cases ih

theorem Refused.next {location : Span} (h : Refused location s) :
    ∃ t, s.Next t ∧ t.exceeded? = some location := by
  obtain ⟨name, function, args, k, m, rfl, harity, hfull⟩ := h
  refine ⟨.fault ⟨.callDepthExceeded, location⟩ k m, ?_, rfl⟩
  change some (enter name args location k m (.defined function)) = _
  have harity' : args.length = (Callable.defined function).arity := harity
  rw [enter, if_pos harity', if_pos hfull]

/-! ## Runs end -/

theorem step_eq_none_iff (s : State) : s.step = none ↔ s.result?.isSome = true := by
  cases s with
  | expr | call | value | stmt => simp [step, result?]
  | stmts ss => cases ss <;> simp [step, result?]
  | flow f k m =>
    cases k with
    | finish => simp [step, finish, result?]
    | leave => simp [step, finish, result?]
    | statements => cases f <;> simp [step, finish, result?]
  | fault reason k m => cases k <;> simp [step, unwind, result?]

theorem Next.unique {u : State} (h : s.Next t) (h' : s.Next u) : t = u :=
  Option.some.inj (h.symm.trans h')

theorem reaches_last (h : Reaches s t) (hlast : Reaches s last) (hend : last.step = none) :
    Reaches t last := by
  have hunique : Relator.RightUnique Next := fun _ _ _ => Next.unique
  rcases ReflTransGen.total_of_right_unique hunique h hlast with hrun | hrun
  · exact hrun
  · rcases hrun.cases_head with rfl | ⟨u, hstep, -⟩
    · exact .refl
    · rw [Next, hend] at hstep
      cases hstep

theorem acc_of_reaches (h : Reaches s last) (hend : last.step = none) :
    Acc (fun t s => Next s t) s := by
  induction h using ReflTransGen.head_induction_on with
  | refl =>
    refine ⟨_, fun t hstep => ?_⟩
    rw [Next, hend] at hstep
    cases hstep
  | head hstep _ ih =>
    refine ⟨_, fun t hother => ?_⟩
    rwa [hother.unique hstep]

theorem result?_exceeded {result : Except RuntimeFault Unit × Machine} {location : Span}
    (h : s.result? = some result) :
    s.exceeded? = some location ↔ result.1 = .error ⟨.callDepthExceeded, location⟩ := by
  cases s with
  | expr | call | value | stmt | stmts => cases h
  | flow f k m =>
    cases k with
    | leave | statements => cases h
    | finish =>
      cases h
      simp [exceeded?]
  | fault reason k m =>
    cases k with
    | finish =>
      cases h
      obtain ⟨cause, span⟩ := reason
      simp [exceeded?]
    | _ => cases h

end State

open State (Reaches start Next Refused)

/-- From every machine, a program runs to an end: its steps do not go on for ever, and the state in
which no step is left holds the result of the run. In every state on the way there is a frame for each
call that waits for the end of its body, and the calls stay within the limit if they were within it at
the start. A run fails because the limit is exceeded exactly if it gets to a call of a defined function
while that many calls are active, and the fault is at the place of that call. -/
theorem run_terminates (program : Program) (m : Machine) :
    Acc (fun t s => Next s t) (start program m) ∧
    (∃ last, Reaches (start program m) last ∧ last.step = none) ∧
    (∀ s, Reaches (start program m) s →
      (s.step = none → s.result? = some (m.run program)) ∧
      s.depth = m.env.depth + s.calls ∧
      (m.env.depth ≤ callLimit → s.depth ≤ callLimit)) ∧
    ∀ location, (m.run program).1 = .error ⟨.callDepthExceeded, location⟩ ↔
      ∃ s, Reaches (start program m) s ∧ Refused location s := by
  obtain ⟨last, hlast, hresult⟩ := start_reaches program m
  have hend : last.step = none := (State.step_eq_none_iff last).2 (by rw [hresult]; rfl)
  refine ⟨State.acc_of_reaches hlast hend, ⟨last, hlast, hend⟩, ?_, ?_⟩
  · intro s hs
    refine ⟨fun hstep => ?_, State.depth_eq_of_reaches hs rfl, State.depth_le_of_reaches hs⟩
    rcases (State.reaches_last hs hlast hend).cases_head with rfl | ⟨t, hnext, -⟩
    · exact hresult
    · rw [Next, hstep] at hnext
      cases hnext
  · intro location
    rw [← State.result?_exceeded hresult]
    constructor
    · exact State.refused_of_reaches hlast rfl
    · rintro ⟨s, hs, hrefused⟩
      obtain ⟨t, hnext, ht⟩ := hrefused.next
      exact State.exceeded?_of_reaches (State.reaches_last (hs.tail hnext) hlast hend) ht

def endlessCalls : Program where
  statements :=
    [.define ⟨⟨"f", ⟨9, 10⟩⟩, [], ⟨[.giveBack (.call ⟨"f", ⟨22, 23⟩⟩ [] ⟨22, 25⟩) ⟨15, 26⟩], ⟨13, 28⟩⟩,
        ⟨0, 28⟩⟩,
      .print (.call ⟨"f", ⟨34, 35⟩⟩ [] ⟨34, 37⟩) ⟨29, 38⟩]
  location := ⟨0, 38⟩

/-- Endless calls end at the limit, at the call in the body. -/
theorem run_terminates_endless :
    (Machine.initial.run endlessCalls).1 = .error ⟨.callDepthExceeded, ⟨22, 25⟩⟩ ∧
      ∃ s, Reaches (start endlessCalls .initial) s ∧ Refused ⟨22, 25⟩ s ∧
        s.depth = s.calls ∧ s.depth ≤ callLimit := by
  have hfault : (match (Machine.initial.run endlessCalls).1 with
      | .error fault => some fault
      | .ok _ => none) = some ⟨.callDepthExceeded, ⟨22, 25⟩⟩ := by
    decide +kernel
  have hrun : (Machine.initial.run endlessCalls).1 = .error ⟨.callDepthExceeded, ⟨22, 25⟩⟩ := by
    split at hfault
    · next heq => rw [heq, Option.some.inj hfault]
    · cases hfault
  obtain ⟨-, -, hstates, hexceeded⟩ := run_terminates endlessCalls .initial
  obtain ⟨s, hs, hrefused⟩ := (hexceeded ⟨22, 25⟩).1 hrun
  obtain ⟨-, hdepth, hle⟩ := hstates s hs
  have hinitial : Machine.initial.env.depth = 0 := rfl
  rw [hinitial, Nat.zero_add] at hdepth
  exact ⟨hrun, s, hs, hrefused, hdepth, hle (Nat.zero_le _)⟩

end UzScript
