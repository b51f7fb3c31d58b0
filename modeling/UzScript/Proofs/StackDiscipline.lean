import Mathlib.Data.List.Induction
import UzScript.Proofs.Frames

/-! # Frames are a stack

Whatever is done to a new environment, and in whatever order, its frames can be told from the
history alone: which pushes are not undone, and what was declared while each of their frames was the
innermost. The bottom frame is never popped, so the history may hold more pops than pushes. -/

set_option autoImplicit false

namespace UzScript

theorem Bindings.get?_foldl_insert {α : Type} (b : Bindings α) (entries : List (String × α))
    (name : String) :
    (entries.foldl (fun b entry => b.insert entry.1 entry.2) b).get? name =
      (entries.reverse.lookup name).or (b.get? name) := by
  induction entries generalizing b with
  | nil => rfl
  | cons entry entries ih =>
    obtain ⟨key, bound⟩ := entry
    rw [List.foldl_cons, ih, Bindings.get?_insert, List.reverse_cons, List.lookup_append,
      Option.or_assoc]
    congr 1
    by_cases hname : name = key
    · simp [hname]
    · have hother : (name == key) = false := by simp [hname]
      simp [List.lookup_cons, hname, hother]

namespace Environment

/-- What changes an environment. -/
inductive Operation where
  | declare (name : String) (value : Value)
  | push (frame : Frame)
  | pop
  | define (name : String) (callable : Callable)

namespace Operation

def isPush : Operation → Bool
  | .push _ => true
  | _ => false

def isPop : Operation → Bool
  | .pop => true
  | _ => false

def declared? : Operation → Option (String × Value)
  | .declare name value => some (name, value)
  | _ => none

end Operation

def apply (env : Environment) : Operation → Environment
  | .declare name value => env.declare name value
  | .push frame => env.push frame
  | .pop => env.pop.2
  | .define name callable => env.define name callable

def after (env : Environment) (ops : List Operation) : Environment := ops.foldl apply env

/-- What an operation makes of a list of frames, the innermost first. The last frame that is left is
not popped. -/
def onFrames (frames : List Frame) : Operation → List Frame
  | .declare name value => frames.modifyHead (·.insert name value)
  | .push frame => frame :: frames
  | .pop => if 1 < frames.length then frames.tail else frames
  | .define _ _ => frames

theorem frames_apply (env : Environment) (op : Operation) :
    (env.apply op).frames = onFrames env.frames op := by
  cases op with
  | declare name value =>
    obtain ⟨frame, outer, hframes, hdeclared⟩ := env.frames_declare name value
    change (env.declare name value).frames = env.frames.modifyHead (·.insert name value)
    rw [hdeclared, hframes, List.modifyHead_cons]
  | push frame => rfl
  | pop =>
    change env.pop.2.frames = if 1 < env.frames.length then env.frames.tail else env.frames
    rw [frames_pop, length_frames]
    by_cases hdepth : env.depth = 0
    · rw [if_pos hdepth, if_neg (by omega)]
    · rw [if_neg hdepth, if_pos (by omega)]
  | define name callable => rfl

theorem frames_after (env : Environment) (ops : List Operation) :
    (env.after ops).frames = ops.foldl onFrames env.frames := by
  induction ops generalizing env with
  | nil => rfl
  | cons op ops ih =>
    change ((env.apply op).after ops).frames = _
    rw [ih, frames_apply, List.foldl_cons]

theorem frames_ne_nil (env : Environment) : env.frames ≠ [] :=
  List.append_ne_nil_of_right_ne_nil _ (List.cons_ne_nil _ _)

theorem pop_of_depth_eq_zero {env : Environment} (h : env.depth = 0) : env.pop = (none, env) := by
  have hcalls : env.calls = [] := List.eq_nil_of_length_eq_zero h
  unfold pop
  rw [hcalls]

theorem pop_of_depth_pos {env : Environment} (h : 0 < env.depth) :
    ∃ frame, env.pop.1 = some frame ∧ env.frames = frame :: env.pop.2.frames := by
  obtain ⟨frame, outer, hcalls⟩ := List.exists_cons_of_length_pos h
  refine ⟨frame, ?_, ?_⟩
  · unfold pop
    rw [hcalls]
  · unfold pop frames
    rw [hcalls]
    rfl

/-! ## Histories -/

def pushes (ops : List Operation) : Nat := ops.countP Operation.isPush

def pops (ops : List Operation) : Nat := ops.countP Operation.isPop

/-- At no point among the operations more was popped than pushed, so a frame that was there before
them is there at every point. -/
def StaysAbove (ops : List Operation) : Prop := ∀ start, start <+: ops → pops start ≤ pushes start

/-- How many of the frames that were there before the operations are popped, if there are enough. -/
def reach : List Operation → Nat
  | [] => 0
  | .push _ :: ops => reach ops - 1
  | .pop :: ops => reach ops + 1
  | .declare _ _ :: ops => reach ops
  | .define _ _ :: ops => reach ops

theorem pushes_cons (op : Operation) (ops : List Operation) :
    pushes (op :: ops) = pushes ops + if op.isPush then 1 else 0 := List.countP_cons

theorem pops_cons (op : Operation) (ops : List Operation) :
    pops (op :: ops) = pops ops + if op.isPop then 1 else 0 := List.countP_cons

theorem pushes_concat (ops : List Operation) (op : Operation) :
    pushes (ops ++ [op]) = pushes ops + if op.isPush then 1 else 0 := by
  rw [pushes, List.countP_append, List.countP_singleton, pushes]

theorem pops_concat (ops : List Operation) (op : Operation) :
    pops (ops ++ [op]) = pops ops + if op.isPop then 1 else 0 := by
  rw [pops, List.countP_append, List.countP_singleton, pops]

/-- The reach is the most by which pops outnumber pushes at any point. -/
theorem reach_le_iff (ops : List Operation) (room : Nat) :
    reach ops ≤ room ↔ ∀ start, start <+: ops → pops start ≤ pushes start + room := by
  induction ops generalizing room with
  | nil =>
    refine ⟨fun _ start hstart => ?_, fun _ => Nat.zero_le room⟩
    rw [List.prefix_nil.1 hstart]
    exact Nat.zero_le _
  | cons op ops ih =>
    have hcons : (∀ start, start <+: op :: ops → pops start ≤ pushes start + room) ↔
        ∀ start, start <+: ops → pops (op :: start) ≤ pushes (op :: start) + room := by
      refine ⟨fun h start hstart => h _ ((List.prefix_cons_inj op).2 hstart), ?_⟩
      intro h start hstart
      obtain rfl | ⟨rest, rfl, hrest⟩ := List.prefix_cons_iff.1 hstart
      · exact Nat.zero_le _
      · exact h rest hrest
    rw [hcons]
    simp only [pushes_cons, pops_cons]
    cases op with
    | declare name value => exact ih room
    | define name callable => exact ih room
    | push frame =>
      have hroom : reach ops - 1 ≤ room ↔ reach ops ≤ room + 1 := by omega
      rw [reach, hroom, ih]
      refine forall₂_congr fun start _ => ?_
      change _ ↔ pops start + 0 ≤ pushes start + 1 + room
      omega
    | pop =>
      cases room with
      | zero =>
        refine ⟨fun h => absurd h (Nat.not_succ_le_zero _), fun h => ?_⟩
        exact absurd (h [] ops.nil_prefix) (by decide)
      | succ room =>
        rw [reach, Nat.add_le_add_iff_right, ih]
        refine forall₂_congr fun start _ => ?_
        change _ ↔ pops start + 1 ≤ pushes start + 0 + (room + 1)
        omega

theorem staysAbove_iff (ops : List Operation) : StaysAbove ops ↔ reach ops = 0 :=
  (reach_le_iff ops 0).symm.trans Nat.le_zero

instance (ops : List Operation) : Decidable (StaysAbove ops) :=
  decidable_of_iff _ (staysAbove_iff ops).symm

theorem staysAbove_concat (ops : List Operation) (op : Operation) :
    StaysAbove (ops ++ [op]) ↔ StaysAbove ops ∧ pops (ops ++ [op]) ≤ pushes (ops ++ [op]) := by
  constructor
  · exact fun h => ⟨fun start hstart => h start (hstart.trans (List.prefix_append ops [op])),
      h _ List.prefix_rfl⟩
  · rintro ⟨h, hwhole⟩ start hstart
    obtain rfl | hstart := List.prefix_concat_iff.1 hstart
    · exact hwhole
    · exact h start hstart

/-- A frame that was pushed, and the operations since then. -/
structure Scope where
  origin : Frame
  since : List Operation

/-- The frames of the pushes that are not undone, the innermost first. -/
def opened : List Operation → List Scope
  | [] => []
  | .push frame :: ops => if StaysAbove ops then opened ops ++ [⟨frame, ops⟩] else opened ops
  | .pop :: ops => opened ops
  | .declare _ _ :: ops => opened ops
  | .define _ _ :: ops => opened ops

theorem pushes_add_reach (ops : List Operation) :
    pushes ops + reach ops = pops ops + (opened ops).length := by
  induction ops with
  | nil => rfl
  | cons op ops ih =>
    rw [pushes_cons, pops_cons]
    cases op with
    | declare name value => exact ih
    | define name callable => exact ih
    | pop =>
      change pushes ops + 0 + (reach ops + 1) = pops ops + 1 + (opened ops).length
      omega
    | push frame =>
      change pushes ops + 1 + (reach ops - 1) = pops ops + 0 + (opened (.push frame :: ops)).length
      rw [opened]
      by_cases habove : StaysAbove ops
      · have hreach := (staysAbove_iff ops).1 habove
        rw [if_pos habove, List.length_append, List.length_singleton]
        omega
      · have hreach := mt (staysAbove_iff ops).2 habove
        rw [if_neg habove]
        omega

theorem StaysAbove.pushes_eq {ops : List Operation} (h : StaysAbove ops) :
    pushes ops = pops ops + (opened ops).length := by
  have hcounted := pushes_add_reach ops
  rwa [(staysAbove_iff ops).1 h] at hcounted

theorem staysAbove_concat_pop (ops : List Operation) :
    StaysAbove (ops ++ [.pop]) ↔ StaysAbove ops ∧ opened ops ≠ [] := by
  rw [staysAbove_concat, pops_concat, pushes_concat]
  refine and_congr_right fun habove => ?_
  rw [habove.pushes_eq, ← List.length_pos_iff]
  change pops ops + 1 ≤ pops ops + (opened ops).length + 0 ↔ _
  omega

theorem staysAbove_concat_of_not_pop {op : Operation} (hop : op.isPop = false)
    (ops : List Operation) : StaysAbove (ops ++ [op]) ↔ StaysAbove ops := by
  rw [staysAbove_concat, pops_concat, pushes_concat, hop]
  refine ⟨And.left, fun habove => ⟨habove, ?_⟩⟩
  exact Nat.le_trans (habove ops List.prefix_rfl) (Nat.le_add_right _ _)

def Scope.extend (s : Scope) (op : Operation) : Scope := { s with since := s.since ++ [op] }

theorem opened_concat {op : Operation} (hop : op.isPop = false) (ops : List Operation) :
    opened (ops ++ [op]) = opened [op] ++ (opened ops).map (·.extend op) := by
  induction ops with
  | nil => simp [opened]
  | cons first ops ih =>
    cases first with
    | declare name value => exact ih
    | define name callable => exact ih
    | pop => exact ih
    | push frame =>
      change opened (.push frame :: (ops ++ [op])) = _
      rw [opened, opened]
      by_cases habove : StaysAbove ops
      · rw [if_pos ((staysAbove_concat_of_not_pop hop ops).2 habove), if_pos habove, ih,
          List.map_append, List.append_assoc]
        rfl
      · rw [if_neg (mt (staysAbove_concat_of_not_pop hop ops).1 habove), if_neg habove, ih]

theorem opened_concat_pop (ops : List Operation) :
    opened (ops ++ [.pop]) = (opened ops).tail.map (·.extend .pop) := by
  induction ops with
  | nil => rfl
  | cons first ops ih =>
    cases first with
    | declare name value => exact ih
    | define name callable => exact ih
    | pop => exact ih
    | push frame =>
      change opened (.push frame :: (ops ++ [.pop])) = _
      rw [opened, opened, ih]
      by_cases habove : StaysAbove ops
      · rw [if_pos habove]
        by_cases hopen : opened ops = []
        · rw [if_neg fun h => ((staysAbove_concat_pop ops).1 h).2 hopen, hopen]
          rfl
        · rw [if_pos ((staysAbove_concat_pop ops).2 ⟨habove, hopen⟩),
            List.tail_append_of_ne_nil hopen, List.map_append]
          rfl
      · rw [if_neg fun h => habove ((staysAbove_concat_pop ops).1 h).1, if_neg habove]

/-! ## What is declared in a frame -/

def declaredWhen (test : List Operation → Bool) (before : List Operation) :
    List Operation → List (String × Value)
  | [] => []
  | op :: ops =>
    (if test before then op.declared?.toList else []) ++ declaredWhen test (before ++ [op]) ops

theorem declaredWhen_concat (test : List Operation → Bool) (before ops : List Operation)
    (op : Operation) :
    declaredWhen test before (ops ++ [op]) =
      declaredWhen test before ops ++ if test (before ++ ops) then op.declared?.toList else [] := by
  induction ops generalizing before with
  | nil => simp [declaredWhen]
  | cons first ops ih =>
    rw [List.cons_append, declaredWhen, ih, declaredWhen, List.append_assoc, List.append_assoc]
    rfl

namespace Scope

def declared (s : Scope) : List (String × Value) :=
  declaredWhen (fun before => (opened before).isEmpty) [] s.since

/-- The latest binding of a name in the frame: the last that was declared, or else the one that the
frame was pushed with. -/
def latest (s : Scope) (name : String) : Option Value :=
  (s.declared.reverse.lookup name).or (s.origin.get? name)

def frame (s : Scope) : Frame := s.declared.foldl (fun f entry => f.insert entry.1 entry.2) s.origin

end Scope

/-- The frames in use, the innermost first, if there was a frame at the bottom before the
operations. -/
def scopes (bottom : Frame) (ops : List Operation) : List Scope := opened ops ++ [⟨bottom, ops⟩]

theorem scopes_ne_nil (bottom : Frame) (ops : List Operation) : scopes bottom ops ≠ [] :=
  List.append_ne_nil_of_right_ne_nil _ (List.cons_ne_nil _ _)

theorem scopes_split {bottom : Frame} {ops : List Operation} {inner outer : List Scope} {s : Scope}
    (h : scopes bottom ops = inner ++ s :: outer) :
    (opened ops = inner ∧ s = ⟨bottom, ops⟩) ∨ ∃ more, opened ops = inner ++ s :: more := by
  rw [scopes] at h
  obtain rfl | ⟨more, last, rfl⟩ := outer.eq_nil_or_concat
  · obtain ⟨hinner, hs⟩ := List.append_inj' h rfl
    exact .inl ⟨hinner, (List.singleton_inj.1 hs).symm⟩
  · rw [List.concat_eq_append, ← List.cons_append, ← List.append_assoc] at h
    exact .inr ⟨more, (List.append_inj' h rfl).1⟩

theorem opened_since {ops : List Operation} {inner outer : List Scope} {s : Scope}
    (h : opened ops = inner ++ s :: outer) : opened s.since = inner := by
  induction ops generalizing outer with
  | nil => simp [opened] at h
  | cons op ops ih =>
    cases op with
    | declare name value => exact ih h
    | define name callable => exact ih h
    | pop => exact ih h
    | push frame =>
      rw [opened] at h
      split at h
      · obtain ⟨hinner, rfl⟩ | ⟨more, hmore⟩ := scopes_split h
        · exact hinner
        · exact ih hmore
      · exact ih h

theorem scopes_since {bottom : Frame} {ops : List Operation} {inner outer : List Scope} {s : Scope}
    (h : scopes bottom ops = inner ++ s :: outer) : opened s.since = inner := by
  obtain ⟨hinner, rfl⟩ | ⟨more, hmore⟩ := scopes_split h
  · exact hinner
  · exact opened_since hmore

namespace Scope

theorem declared_extend (s : Scope) (op : Operation) :
    (s.extend op).declared =
      s.declared ++ if (opened s.since).isEmpty then op.declared?.toList else [] :=
  declaredWhen_concat _ [] s.since op

theorem frame_extend_of_declares_none (s : Scope) {op : Operation} (hop : op.declared? = none) :
    (s.extend op).frame = s.frame := by
  rw [frame, declared_extend, hop, Option.toList_none, ite_self, List.append_nil]
  rfl

theorem frame_extend_of_inner (s : Scope) (op : Operation) (hinner : opened s.since ≠ []) :
    (s.extend op).frame = s.frame := by
  rw [frame, declared_extend, if_neg (by simpa using hinner), List.append_nil]
  rfl

theorem frame_extend_declare (s : Scope) (name : String) (value : Value)
    (hinner : opened s.since = []) :
    (s.extend (.declare name value)).frame = s.frame.insert name value := by
  rw [frame, declared_extend, hinner, List.foldl_append]
  rfl

end Scope

theorem map_frame_extend {op : Operation} (hop : op.declared? = none) (ss : List Scope) :
    (ss.map (·.extend op)).map Scope.frame = ss.map Scope.frame := by
  rw [List.map_map]
  exact List.map_congr_left fun s _ => s.frame_extend_of_declares_none hop

theorem scopes_concat {op : Operation} (hop : op.isPop = false) (bottom : Frame)
    (ops : List Operation) :
    scopes bottom (ops ++ [op]) = opened [op] ++ (scopes bottom ops).map (·.extend op) := by
  rw [scopes, opened_concat hop, List.append_assoc, scopes, List.map_append]
  rfl

theorem scopes_concat_pop (bottom : Frame) (ops : List Operation) :
    scopes bottom (ops ++ [.pop]) =
      ((opened ops).tail ++ [Scope.mk bottom ops]).map (·.extend .pop) := by
  rw [scopes, opened_concat_pop, List.map_append]
  rfl

theorem frames_scopes_concat (bottom : Frame) (ops : List Operation) (op : Operation) :
    (scopes bottom (ops ++ [op])).map Scope.frame =
      onFrames ((scopes bottom ops).map Scope.frame) op := by
  cases op with
  | define name callable =>
    rw [scopes_concat rfl]
    exact map_frame_extend rfl _
  | push frame =>
    rw [scopes_concat rfl]
    exact congrArg (frame :: ·) (map_frame_extend rfl _)
  | pop =>
    have hdeclares : Operation.pop.declared? = none := rfl
    rw [scopes_concat_pop, map_frame_extend hdeclares, scopes, onFrames]
    by_cases hopen : opened ops = []
    · rw [hopen]
      rfl
    · have hlength := List.length_pos_iff.2 hopen
      rw [if_pos (by simpa using hlength), ← List.map_tail, List.tail_append_of_ne_nil hopen]
  | declare name value =>
    obtain ⟨s, outer, hscopes⟩ := List.exists_cons_of_ne_nil (scopes_ne_nil bottom ops)
    have houter : (outer.map (·.extend (.declare name value))).map Scope.frame =
        outer.map Scope.frame := by
      rw [List.map_map]
      refine List.map_congr_left fun t ht => ?_
      obtain ⟨inner, rest, rfl⟩ := List.mem_iff_append.1 ht
      have hinner : opened t.since = s :: inner := scopes_since hscopes
      exact t.frame_extend_of_inner _ (by rw [hinner]; exact List.cons_ne_nil s inner)
    have hs : opened s.since = [] := scopes_since hscopes
    rw [scopes_concat rfl, hscopes]
    change (s.extend (.declare name value)).frame :: _ = s.frame.insert name value :: _
    rw [s.frame_extend_declare name value hs, houter]

theorem foldl_onFrames (bottom : Frame) (ops : List Operation) :
    ops.foldl onFrames [bottom] = (scopes bottom ops).map Scope.frame := by
  induction ops using List.reverseRecOn with
  | nil => rfl
  | append_singleton ops op ih =>
    rw [List.foldl_append, ih, frames_scopes_concat]
    rfl

theorem Scope.get?_frame (s : Scope) (name : String) : s.frame.get? name = s.latest name :=
  s.origin.get?_foldl_insert s.declared name

/-! ## Stretches of a history -/

theorem onFrames_append {frames : List Frame} (hframes : frames ≠ []) {op : Operation}
    (hpop : op.isPop = true → 1 < frames.length) (outer : List Frame) :
    onFrames (frames ++ outer) op = onFrames frames op ++ outer := by
  cases op with
  | push frame => rfl
  | define name callable => rfl
  | declare name value =>
    obtain ⟨frame, rest, rfl⟩ := List.exists_cons_of_ne_nil hframes
    rfl
  | pop =>
    have hlength := hpop rfl
    rw [onFrames, onFrames, if_pos hlength, List.tail_append_of_ne_nil hframes,
      if_pos (by rw [List.length_append]; omega)]

/-- Operations that stay above a frame play no part for the frames below it. -/
theorem foldl_onFrames_append {ops : List Operation} (h : StaysAbove ops) (bottom : Frame)
    (outer : List Frame) :
    ops.foldl onFrames (bottom :: outer) = ops.foldl onFrames [bottom] ++ outer := by
  induction ops using List.reverseRecOn with
  | nil => rfl
  | append_singleton ops op ih =>
    have habove := ((staysAbove_concat ops op).1 h).1
    rw [List.foldl_append, ih habove, List.foldl_append, foldl_onFrames]
    refine onFrames_append (by simpa using scopes_ne_nil bottom ops) (fun hop => ?_) outer
    cases op with
    | pop =>
      have hopen := List.length_pos_iff.2 ((staysAbove_concat_pop ops).1 h).2
      simpa [scopes] using hopen
    | _ => cases hop

/-- Every push among the operations is undone by a pop among them, and every pop undoes one. -/
def Balanced (ops : List Operation) : Prop := StaysAbove ops ∧ pops ops = pushes ops

instance (ops : List Operation) : Decidable (Balanced ops) := instDecidableAnd

theorem Balanced.opened_eq_nil {ops : List Operation} (h : Balanced ops) : opened ops = [] := by
  have hpushes := h.1.pushes_eq
  have hpops := h.2
  exact List.eq_nil_of_length_eq_zero (by omega)

/-- Whatever is declared is declared inside a frame that was pushed among the operations. -/
def DeclaresInside (ops : List Operation) : Prop :=
  ∀ before name value later, ops = before ++ .declare name value :: later → opened before ≠ []

theorem declaredWhen_eq_nil_iff (test : List Operation → Bool) (before ops : List Operation) :
    declaredWhen test before ops = [] ↔
      ∀ front name value later, ops = front ++ .declare name value :: later →
        test (before ++ front) = false := by
  induction ops generalizing before with
  | nil => simp [declaredWhen]
  | cons op ops ih =>
    rw [declaredWhen, List.append_eq_nil_iff, ih]
    constructor
    · rintro ⟨hfirst, hrest⟩ front name value later hsplit
      cases front with
      | nil =>
        obtain ⟨rfl, -⟩ := List.cons.inj hsplit
        simpa [Operation.declared?] using hfirst
      | cons first front =>
        obtain ⟨rfl, hops⟩ := List.cons.inj hsplit
        simpa using hrest front name value later hops
    · refine fun h => ⟨?_, fun front name value later hsplit => ?_⟩
      · cases op with
        | declare name value =>
          have hfirst := h [] name value ops rfl
          rw [List.append_nil] at hfirst
          rw [hfirst]
          rfl
        | _ => exact ite_self []
      · have hrest := h (op :: front) name value later (by rw [hsplit, List.cons_append])
        simpa using hrest

theorem declaresInside_iff (bottom : Frame) (ops : List Operation) :
    DeclaresInside ops ↔ (Scope.mk bottom ops).declared = [] := by
  rw [Scope.declared, declaredWhen_eq_nil_iff]
  simp [DeclaresInside]

instance (ops : List Operation) : Decidable (DeclaresInside ops) :=
  decidable_of_iff _ (declaresInside_iff .empty ops).symm

theorem Balanced.frames_after {ops : List Operation} (h : Balanced ops)
    (hinside : DeclaresInside ops) (env : Environment) : (env.after ops).frames = env.frames := by
  obtain ⟨bottom, outer, hframes⟩ := List.exists_cons_of_ne_nil env.frames_ne_nil
  rw [Environment.frames_after, hframes, foldl_onFrames_append h.1, foldl_onFrames, scopes,
    h.opened_eq_nil]
  change (Scope.mk bottom ops).frame :: outer = bottom :: outer
  rw [Scope.frame, (declaresInside_iff bottom ops).1 hinside]
  rfl

/-! ## New environments -/

theorem frames_initial_after (ops : List Operation) :
    (initial.after ops).frames = (scopes .empty ops).map Scope.frame := by
  rw [frames_after]
  exact foldl_onFrames .empty ops

theorem depth_initial_after (ops : List Operation) :
    (initial.after ops).depth = (opened ops).length := by
  have hlength := congrArg List.length (frames_initial_after ops)
  rw [length_frames, List.length_map, scopes, List.length_append] at hlength
  exact Nat.succ.inj hlength

theorem globals_initial_after (ops : List Operation) :
    (initial.after ops).globals = .ofList (declaredWhen
      (fun before => (initial.after before).depth == 0) [] ops) := by
  have hframes := frames_initial_after ops
  rw [scopes, List.map_append] at hframes
  have hglobals := List.singleton_inj.1 (List.append_inj' hframes rfl).2
  have htest : (fun before => (initial.after before).depth == 0) =
      fun before => (opened before).isEmpty := by
    funext before
    rw [depth_initial_after]
    cases opened before <;> rfl
  rw [hglobals, htest]
  rfl

theorem get?_initial_after (ops : List Operation) (name : String) :
    (initial.after ops).get? name = (scopes .empty ops).findSome? (·.latest name) := by
  rw [get?, frames_initial_after, List.findSome?_map]
  exact congrArg (List.findSome? · _) (funext fun s => s.get?_frame name)

theorem get?_initial_after_iff (ops : List Operation) (name : String) (value : Value) :
    (initial.after ops).get? name = some value ↔
      ∃ inner scope outer, scopes .empty ops = inner ++ scope :: outer ∧
        scope.latest name = some value ∧ ∀ s ∈ inner, s.latest name = none := by
  rw [get?_initial_after, List.findSome?_eq_some_iff]

/-- What the operations that led to an environment tell about it. -/
structure FollowsHistory (ops : List Operation) (env : Environment) : Prop where
  frames_eq : env.frames = ops.foldl onFrames [.empty]
  frames_ne_nil : env.frames ≠ []
  /-- The depth is the number of pushes that are not undone. -/
  depth_eq : env.depth = (opened ops).length
  pop_at_bottom : env.depth = 0 → env.pop = (none, env)
  pop_above : 0 < env.depth →
    ∃ frame, env.pop.1 = some frame ∧ env.frames = frame :: env.pop.2.frames
  /-- Only what was declared with no call active is global. -/
  globals_eq : env.globals =
    .ofList (declaredWhen (fun before => (initial.after before).depth == 0) [] ops)
  /-- A name stands for its latest binding in the innermost frame that binds it. -/
  get?_iff : ∀ name value, env.get? name = some value ↔
    ∃ inner scope outer, scopes .empty ops = inner ++ scope :: outer ∧
      scope.latest name = some value ∧ ∀ s ∈ inner, s.latest name = none

/-- After any operations on a new environment, in any order and with any number of pops, the
environment is what the history tells. On any environment, operations that undo all their pushes and
pop nothing else leave the frames as they were, whatever they declare inside their own frames. -/
theorem stack_discipline :
    (∀ ops : List Operation, FollowsHistory ops (initial.after ops)) ∧
    ∀ (env : Environment) (stretch : List Operation), Balanced stretch → DeclaresInside stretch →
      (env.after stretch).frames = env.frames := by
  refine ⟨fun ops => ?_, fun env stretch h hinside => h.frames_after hinside env⟩
  exact {
    frames_eq := frames_after initial ops
    frames_ne_nil := frames_ne_nil _
    depth_eq := depth_initial_after ops
    pop_at_bottom := pop_of_depth_eq_zero
    pop_above := pop_of_depth_pos
    globals_eq := globals_initial_after ops
    get?_iff := get?_initial_after_iff ops }

/-- More is popped than pushed, a variable is declared in a frame that is gone, and a global is
shadowed in a call that is still active. -/
def surplus : List Operation :=
  [.pop, .declare "x" (.text "1"), .push (.ofList [("x", .text "2")]), .declare "y" (.text "3"),
    .pop, .pop, .declare "y" (.text "4"), .push (.ofList [("x", .text "5")]),
    .declare "x" (.text "6")]

def twoCalls : List Operation :=
  [.push .empty, .declare "x" (.text "7"), .push .empty, .pop, .declare "y" (.text "8"), .pop]

theorem stack_discipline_surplus :
    pushes surplus < pops surplus ∧ (initial.after surplus).depth = 1 ∧
      (initial.after surplus).globals = .ofList [("x", .text "1"), ("y", .text "4")] ∧
      (initial.after surplus).get? "x" = some (.text "6") ∧
      (initial.after surplus).get? "y" = some (.text "4") ∧
      Balanced twoCalls ∧ DeclaresInside twoCalls ∧
      ((initial.after surplus).after twoCalls).frames = (initial.after surplus).frames := by
  obtain ⟨hhistory, hstretch⟩ := stack_discipline
  have hsurplus := hhistory surplus
  have hscopes : scopes .empty surplus =
      [⟨.ofList [("x", .text "5")], [.declare "x" (.text "6")]⟩, ⟨.empty, surplus⟩] := rfl
  have hbalanced : Balanced twoCalls := by decide
  have hinside : DeclaresInside twoCalls := by decide
  refine ⟨by decide, hsurplus.depth_eq, hsurplus.globals_eq, ?_, ?_, hbalanced, hinside,
    hstretch _ _ hbalanced hinside⟩
  · exact (hsurplus.get?_iff _ _).2 ⟨[], _, _, hscopes, by decide +kernel, by simp⟩
  · exact (hsurplus.get?_iff _ _).2 ⟨[_], _, [], hscopes, by decide +kernel, by decide +kernel⟩

end Environment

end UzScript
