import UzScript.Proofs.LexemeWindow
import UzScript.Proofs.LongestMatch
import UzScript.Proofs.StackDiscipline
import UzScript.Proofs.TextOrigins

/-! # Sessions never abort

Offsets are words of 32 bits, arguments and frames are taken by their index, and a span is clamped
between two bounds. Each of these aborts when it is asked for too much: a sum that does not fit, an
index or a difference that does not exist, a lower bound above the upper one. Here every part of the
language is written with such guarded operations, and does the same as without: no session comes to
an abort. -/

set_option autoImplicit false

namespace UzScript

open String (utf8Len)

/-! ## Reading -/

/-- The offset after a character, if it is a word of 32 bits. -/
def PlacedChar.stop? (c : PlacedChar) : Option Nat :=
  if c.offset + c.char.utf8Size < 2 ^ 32 then some (c.offset + c.char.utf8Size) else none

namespace Cursor

def step? : Cursor → Option Cursor
  | ⟨[], stop⟩ => some ⟨[], stop⟩
  | ⟨c :: rest, _⟩ => do return ⟨rest, ← c.stop?⟩

def advance? : Nat → Cursor → Option Cursor
  | 0, cursor => some cursor
  | n + 1, cursor => do advance? n (← cursor.step?)

def skipSpace? (cursor : Cursor) : Option Cursor :=
  cursor.advance? (cursor.rest.takeWhile (isSpace ·.char)).length

def readWord? (cursor : Cursor) : Option (Except LexFault Lexeme × Cursor) :=
  match cursor.rest with
  | [] => some (.ok ⟨.endOfFile, ⟨cursor.stop, cursor.stop⟩⟩, cursor)
  | c :: rest =>
    match Word.read c rest with
    | .token token length => do
      let after ← cursor.advance? length
      return (.ok ⟨token, ⟨cursor.offset, after.offset⟩⟩, after)
    | .fault (.unknownCharacter d) _ => do
      return (.error ⟨.unknownCharacter d, ⟨c.offset, ← c.stop?⟩⟩, cursor)
    | .fault cause length => do
      let after ← cursor.advance? length
      return (.error ⟨cause, ⟨cursor.offset, after.offset⟩⟩, after)

/-- Reads the next token with guarded offsets. -/
def next? (cursor : Cursor) : Option (Except LexFault Lexeme × Cursor) := do
  (← cursor.skipSpace?).readWord?

/-- Every character that is left ends at a word of 32 bits. -/
def Addressable (cursor : Cursor) : Prop := ∀ c ∈ cursor.rest, c.stop < 2 ^ 32

theorem stop?_eq {c : PlacedChar} (h : c.stop < 2 ^ 32) : c.stop? = some c.stop := if_pos h

namespace Addressable

variable {cursor : Cursor}

theorem step?_eq (h : cursor.Addressable) : cursor.step? = some cursor.step := by
  obtain ⟨rest, stop⟩ := cursor
  cases rest with
  | nil => rfl
  | cons c rest =>
    rw [step?, stop?_eq (h c List.mem_cons_self)]
    rfl

theorem advance (h : cursor.Addressable) (n : Nat) : (cursor.advance n).Addressable := by
  intro c hc
  rw [rest_advance] at hc
  exact h c (List.mem_of_mem_drop hc)

theorem advance?_eq (h : cursor.Addressable) (n : Nat) :
    cursor.advance? n = some (cursor.advance n) := by
  induction n generalizing cursor with
  | zero => rfl
  | succ n ih =>
    rw [advance?, h.step?_eq, Cursor.advance]
    exact ih (h.advance 1)

theorem readWord?_eq (h : cursor.Addressable) : cursor.readWord? = some cursor.readWord := by
  obtain ⟨rest, stop⟩ := cursor
  cases rest with
  | nil => rfl
  | cons c rest =>
    have hc : c.stop? = some c.stop := stop?_eq (h c List.mem_cons_self)
    unfold readWord? readWord
    dsimp only
    cases Word.read c rest with
    | token token length =>
      simp only [h.advance?_eq]
      rfl
    | fault cause length =>
      cases cause with
      | unknownCharacter d =>
        simp only [hc]
        rfl
      | unclosedText | integerTooLarge =>
        simp only [h.advance?_eq]
        rfl

theorem next?_eq (h : cursor.Addressable) : cursor.next? = some cursor.next := by
  unfold next? skipSpace?
  rw [h.advance?_eq]
  exact (h.advance _).readWord?_eq

end Addressable

theorem stop_le_of_mem_placed {c : PlacedChar} {cs : List Char} {n : Nat} (h : c ∈ placed n cs) :
    c.stop ≤ n + utf8Len cs := by
  induction cs generalizing n with
  | nil => cases h
  | cons d cs ih =>
    rw [String.utf8Len_cons]
    rcases List.mem_cons.1 h with rfl | hrest
    · change n + d.utf8Size ≤ _
      omega
    · have hstop := ih hrest
      omega

theorem Reached.addressable {source : String} {cursor : Cursor} (h : cursor.Reached source)
    (hsize : source.utf8ByteSize < 2 ^ 32) : cursor.Addressable := by
  obtain ⟨before, rest, hsource, rfl⟩ := h.standing
  intro c hc
  have hstop := stop_le_of_mem_placed hc
  rw [utf8ByteSize_eq, hsource, String.utf8Len_append] at hsize
  omega

end Cursor

/-! ## Running -/

/-- Takes the arguments of a built-in function by their index, the result of which need not fit. -/
def Builtin.call? : Builtin → List Integer → Option (Option Integer)
  | .sum, arguments => do
    let a ← arguments[0]?
    let b ← arguments[1]?
    return Integer.ofInt? (a.val + b.val)

namespace Environment

/-- The number of frames above the globals, if there are globals. -/
def depth? (frames : List Frame) : Option Nat :=
  if 1 ≤ frames.length then some (frames.length - 1) else none

def globals? (frames : List Frame) : Option Frame := frames.reverse[0]?

end Environment

namespace State

def enter? (name : String) (args : List Integer) (location : Span) (k : Pending .value)
    (m : Machine) (callable : Callable) : Option State :=
  if args.length = callable.arity then
    match callable with
    | .builtin builtin => do
      match ← builtin.call? args with
      | some i => return .value (.integer i) k m
      | none => return .fault ⟨.integerOverflow, location⟩ k m
    | .defined function => do
      if callLimit ≤ (← Environment.depth? m.env.frames) then
        return .fault ⟨.callDepthExceeded, location⟩ k m
      else
        return .stmts function.body.statements (.leave k)
          { m with env := m.env.push (Eval.frameOf function args) }
  else some (.fault ⟨.arityMismatch name callable.arity args.length, location⟩ k m)

def step? : State → Option (Option State)
  | .call name callable args location k m => (enter? name args location k m callable).map some
  | s => some s.step

end State

theorem Builtin.call?_eq {builtin : Builtin} {args : List Integer}
    (h : args.length = builtin.arity) : builtin.call? args = some (builtin.call args) := by
  cases builtin with
  | sum =>
    obtain ⟨a, b, rfl⟩ := List.length_eq_two.1 h
    rfl

namespace Environment

theorem onFrames_ne_nil {frames : List Frame} (h : frames ≠ []) (op : Operation) :
    onFrames frames op ≠ [] := by
  cases op with
  | declare name value => simpa [onFrames] using h
  | push frame => simp [onFrames]
  | pop =>
    by_cases hmore : 1 < frames.length
    · rw [onFrames, if_pos hmore, ← List.length_pos_iff, List.length_tail]
      omega
    · rwa [onFrames, if_neg hmore]
  | define name callable => exact h

theorem foldl_onFrames_ne_nil (ops : List Operation) {frames : List Frame} (h : frames ≠ []) :
    ops.foldl onFrames frames ≠ [] := by
  induction ops generalizing frames with
  | nil => exact h
  | cons op ops ih => exact ih (onFrames_ne_nil h op)

theorem frames_of_history (ops : List Operation) :
    (initial.after ops).frames = ops.foldl onFrames [.empty] := frames_after initial ops

theorem depth?_foldl (ops : List Operation) :
    depth? (ops.foldl onFrames [.empty]) = some (initial.after ops).depth := by
  have hne := foldl_onFrames_ne_nil ops (List.cons_ne_nil Bindings.empty [])
  have hpos : 1 ≤ (ops.foldl onFrames [.empty]).length := List.length_pos_iff.2 hne
  rw [depth?, if_pos hpos, ← frames_of_history, length_frames, Nat.add_sub_cancel]

theorem globals?_foldl (ops : List Operation) :
    globals? (ops.foldl onFrames [.empty]) = some (initial.after ops).globals := by
  rw [globals?, ← frames_of_history, frames, List.reverse_append]
  rfl

theorem after_concat (env : Environment) (ops : List Operation) (op : Operation) :
    env.after (ops ++ [op]) = (env.after ops).apply op := by
  rw [after, List.foldl_append]
  rfl

end Environment

/-! ## What single changes keep, runs keep -/

/-- A property of machines that the changes made by single steps keep. -/
structure Machine.Kept (property : Machine → Prop) : Prop where
  declare {m : Machine} (h : property m) (name : String) (value : Value) :
    property { m with env := m.env.declare name value }
  define {m : Machine} (h : property m) (name : String) (callable : Callable) :
    property { m with env := m.env.define name callable }
  print {m : Machine} (h : property m) (line : String) :
    property { m with output := m.output.push line }
  push {m : Machine} (h : property m) (frame : Frame) :
    property { m with env := m.env.push frame }
  pop {m : Machine} (h : property m) : property { m with env := m.env.pop.2 }
  clear {m : Machine} (h : property m) : property m.withoutOutput

namespace Machine.Kept

variable {property : Machine → Prop} {s t : State} {m : Machine}

theorem ofResult (hm : property m) {α : Type} {x : Eval α} (hx : x.Plain) {awaited : Awaited}
    (k : Pending awaited) {next : α → Machine → State}
    (hnext : ∀ a, property (next a m).machine) :
    property (State.ofResult k next (x m)).machine := by
  rcases hx m with ⟨a, hok⟩ | ⟨reason, herror, -⟩
  · rw [hok]
    exact hnext a
  · rw [herror]
    exact hm

theorem arguments (hm : property m) (name : String) (callable : Callable) (before : List Integer)
    (location : Span) (k : Pending .value) (es : List Expr) :
    property (State.arguments name callable before location k m es).machine := by
  cases es <;> exact hm

theorem begin (hm : property m) (k : Pending .value) (e : Expr) :
    property (State.begin k m e).machine := by
  unfold State.begin
  split
  · exact hm
  · exact hm
  · split <;> exact hm
  · exact hm
  · split
    · exact hm
    · exact arguments hm _ _ _ _ _ _
  · split <;> exact hm

theorem enter (h : Kept property) (hm : property m) (name : String) (args : List Integer)
    (location : Span) (k : Pending .value) (callable : Callable) :
    property (State.enter name args location k m callable).machine := by
  unfold State.enter
  split
  · split
    · split <;> exact hm
    · split
      · exact hm
      · exact h.push hm _
  · exact hm

theorem run (h : Kept property) (hm : property m) (k : Pending .flow) (s : Stmt) :
    property (State.run k m s).machine := by
  cases s with
  | define function => exact h.define hm _ _
  | declare _ _ _ | print _ _ | branch _ _ _ _ | giveBack _ _ => exact hm

theorem supply (h : Kept property) (hm : property m) (v : Value) (k : Pending .value) :
    property (State.supply v m k).machine := by
  cases k with
  | right op left right location k => exact hm
  | operation op a left right location k =>
    refine ofResult hm ?_ k fun _ => hm
    exact .bind (.integer _ _ _) fun i => .bind (.integer _ _ _) fun j =>
      .bind (.operation _ _ _ _) fun _ => .pure _
  | argument name callable before e es location k =>
    exact ofResult hm (.integer _ _ _) k fun i => arguments hm _ _ _ _ _ _
  | declare name k => exact h.declare hm name v
  | print k => exact h.print hm _
  | branch condition thenBlock elseBlock k =>
    refine ofResult hm (.integer _ _ _) k fun test => ?_
    unfold State.branch
    split <;> exact hm
  | giveBack e k => exact ofResult hm (.bind (.integer _ _ _) fun _ => .pure _) k fun _ => hm

theorem next (h : Kept property) (hnext : s.Next t) (hs : property s.machine) :
    property t.machine := by
  cases s with
  | expr e k m =>
    cases hnext
    exact begin hs k e
  | call name callable args location k m =>
    cases hnext
    exact h.enter hs name args location k callable
  | value v k m =>
    cases hnext
    exact h.supply hs v k
  | stmt s k m =>
    cases hnext
    exact h.run hs k s
  | stmts ss k m => cases ss <;> cases hnext <;> exact hs
  | flow f k m =>
    cases k with
    | finish => cases hnext
    | statements ss k => cases f <;> cases hnext <;> exact hs
    | leave k =>
      cases hnext
      exact h.pop hs
  | fault reason k m =>
    cases k with
    | finish => cases hnext
    | leave k =>
      cases hnext
      exact h.pop hs
    | _ =>
      cases hnext
      exact hs

theorem reaches (h : Kept property) (hreaches : s.Reaches t) (hs : property s.machine) :
    property t.machine := by
  induction hreaches with
  | refl => exact hs
  | tail _ hnext ih => exact h.next hnext ih

theorem runScript (h : Kept property) (hm : property m) (script : Script) :
    property (m.runScript script).2 := by
  unfold Machine.runScript
  split
  · exact hm
  · next program _ =>
    obtain ⟨last, hreaches, hresult⟩ := start_reaches program m
    have hlast := h.reaches hreaches hm
    rwa [State.machine_of_result? hresult] at hlast

theorem afterAll (h : Kept property) (hm : property m) (scripts : List Script) :
    property (m.afterAll scripts) := by
  induction scripts generalizing m with
  | nil => exact hm
  | cons script scripts ih => exact ih (h.runScript (h.clear hm) script)

end Machine.Kept

/-- The environment comes from a new one by these operations. -/
def Machine.HasHistory (m : Machine) (ops : List Environment.Operation) : Prop :=
  m.env = Environment.initial.after ops

theorem Machine.HasHistory.concat {m : Machine} {ops : List Environment.Operation}
    (h : m.HasHistory ops) (op : Environment.Operation) :
    { m with env := m.env.apply op }.HasHistory (ops ++ [op]) := by
  unfold HasHistory at h ⊢
  rw [Environment.after_concat, h]

theorem Machine.hasHistory_kept : Machine.Kept fun m => ∃ ops, m.HasHistory ops where
  declare := fun ⟨_, h⟩ name value => ⟨_, h.concat (.declare name value)⟩
  define := fun ⟨_, h⟩ name callable => ⟨_, h.concat (.define name callable)⟩
  print h _ := h
  push := fun ⟨_, h⟩ frame => ⟨_, h.concat (.push frame)⟩
  pop := fun ⟨_, h⟩ => ⟨_, h.concat .pop⟩
  clear h := h

theorem State.step?_eq {s : State} {ops : List Environment.Operation}
    (h : s.machine.HasHistory ops) : s.step? = some s.step := by
  cases s with
  | call name callable args location k m =>
    change (enter? name args location k m callable).map some = some (some _)
    suffices hsame : enter? name args location k m callable =
        some (enter name args location k m callable) by rw [hsame]; rfl
    unfold enter? enter
    by_cases harity : args.length = callable.arity
    · rw [if_pos harity, if_pos harity]
      cases callable with
      | builtin builtin =>
        dsimp only
        rw [Builtin.call?_eq harity]
        cases builtin.call args <;> rfl
      | defined function =>
        have hdepth : Environment.depth? m.env.frames = some m.env.depth := by
          have henv : m.env = Environment.initial.after ops := h
          rw [henv, Environment.frames_of_history, Environment.depth?_foldl]
        dsimp only
        rw [hdepth]
        change (if callLimit ≤ m.env.depth then _ else _) = _
        split <;> rfl
    · rw [if_neg harity, if_neg harity]
  | expr | value | stmt | stmts | flow | fault => rfl

/-! ## Rendering -/

namespace Diagnostic

def between? (lower upper n : Nat) : Option Nat :=
  if lower ≤ upper then some (max lower (min n upper)) else none

def clamp? (length : Nat) (span : Span) : Option Span := do
  let start := min span.start length
  return ⟨start, ← between? start length span.stop⟩

/-- The start is cut off at the end of the text before it serves as a bound. -/
theorem clamp?_eq (length : Nat) (span : Span) : clamp? length span = some (clamp length span) := by
  have hbounds : min span.start length ≤ length := Nat.min_le_right _ _
  have hstop : max (min span.start length) (min span.stop length) =
      min (max span.stop (min span.start length)) length := by omega
  change (between? _ _ _).bind _ = _
  rw [between?, if_pos hbounds, hstop]
  rfl

end Diagnostic

/-! ## Whole sessions -/

/-- After any scripts on one machine, a script of fewer than `2 ^ 32` bytes comes to no abort: the
offsets fit into 32 bits, wherever reading has got to and whether or not it failed before; the count
of open levels stays a machine word; calls find their arguments; the list of frames, changed by one
operation after the other since the first script, has a frame for the globals at every time; and
every failure has a span that can be shown. -/
theorem session_never_aborts (earlier : List Script) (script : Script)
    (hsize : script.source.utf8ByteSize < 2 ^ 32) :
    let m := (Machine.initial.afterAll earlier).withoutOutput
    (∀ cursor : Cursor, cursor.Reached script.source → cursor.next? = some cursor.next) ∧
    (∀ lexemes, WindowParser.parse? lexemes = some (parse lexemes)) ∧
    (∀ program s, State.Reaches (.start program m) s → s.step? = some s.step ∧
      ∃ ops, s.machine.HasHistory ops ∧ ∀ before, before <+: ops →
        let frames := before.foldl Environment.onFrames [.empty]
        let env := Environment.initial.after before
        env.frames = frames ∧ Environment.depth? frames = some env.depth ∧
          Environment.globals? frames = some env.globals) ∧
    ∀ failure snippet, (m.runScript script).1 = .error failure →
      failure.diagnostic.snippet = some snippet →
      Diagnostic.clamp? snippet.source.utf8ByteSize snippet.span =
        some (Diagnostic.clamp snippet.source.utf8ByteSize snippet.span) := by
  intro m
  have hinitial : Machine.initial.HasHistory [] := rfl
  have hm := Machine.hasHistory_kept.afterAll ⟨[], hinitial⟩ earlier
  refine ⟨fun cursor hcursor => (hcursor.addressable hsize).next?_eq, WindowParser.parse?_eq,
    fun program s hreaches => ?_, fun _ _ _ _ => Diagnostic.clamp?_eq _ _⟩
  obtain ⟨ops, hops⟩ := Machine.hasHistory_kept.reaches hreaches hm
  refine ⟨State.step?_eq hops, ops, hops, fun before _ => ⟨?_, ?_, ?_⟩⟩
  · exact Environment.frames_of_history before
  · exact Environment.depth?_foldl before
  · exact Environment.globals?_foldl before

/-- A script that fails in a function of an earlier, longer script is shown with a span that was cut
off, since the place of the fault lies outside of it. -/
theorem session_never_aborts_outside_source :
    callingUnbound.source.utf8ByteSize < 2 ^ 32 ∧ Diagnostic.clamp? 9 ⟨22, 25⟩ = some ⟨9, 9⟩ := by
  have hsize : callingUnbound.source.utf8ByteSize = 9 := by decide +kernel
  have hsmall : callingUnbound.source.utf8ByteSize < 2 ^ 32 := by omega
  have hrun : ((Machine.initial.afterAll [definingUnbound]).withoutOutput.runScript
      callingUnbound).1 = .error (.runtime callingUnbound ⟨.unboundVariable "yoq", ⟨22, 25⟩⟩) := by
    decide +kernel
  obtain ⟨-, -, -, hshown⟩ := session_never_aborts [definingUnbound] callingUnbound hsmall
  have hclamp := hshown _ _ hrun rfl
  rw [hsize] at hclamp
  exact ⟨hsmall, hclamp⟩

end UzScript
