import UzScript.Proofs.EarliestFault
import UzScript.Proofs.Placement
import UzScript.Proofs.Positions
import UzScript.Proofs.Tiling

/-! # Faults point at the text they are about

The span of a lexical fault is the text that cannot be read, that of a fault in parsing the token
that was found. When the program and all functions lie on a layout, faults of a run lie on it too,
also those in the body of a function that was defined long before. -/

set_option autoImplicit false

namespace UzScript

open String (utf8Len)

/-! ## Faults of a run -/

def RuntimeCause.absent? : RuntimeCause → Option String
  | .unboundVariable name | .unknownFunction name => some name
  | _ => none

/-- The fault is at a span of the layout, and a name that is not found stands there. -/
structure RuntimeFault.LiesOn (layout : Layout) (fault : RuntimeFault) : Prop where
  span : layout.spans fault.span
  name : ∀ name ∈ fault.cause.absent?, layout.names ⟨name, fault.span⟩

def Machine.LiesOn (layout : Layout) (machine : Machine) : Prop :=
  ∀ name function, layout.calls name → machine.env.function? name = some (.defined function) →
    function.LiesOn layout

namespace Eval

variable {layout : Layout} {α β : Type}

/-- Functions stay on the layout, and faults lie on it. -/
def StaysOn (layout : Layout) (x : Eval α) : Prop :=
  ∀ m : Machine, m.LiesOn layout → (x.after m).LiesOn layout ∧
    ∀ fault n, x m = .error fault n → RuntimeFault.LiesOn layout fault

namespace StaysOn

theorem pure (a : α) : StaysOn layout (Pure.pure a : Eval α) :=
  fun _ hm => ⟨hm, fun _ _ h => by cases h⟩

theorem fail {cause : RuntimeCause} {location : Span}
    (h : RuntimeFault.LiesOn layout ⟨cause, location⟩) :
    StaysOn layout (Eval.fail cause location : Eval α) := by
  refine fun m hm => ⟨hm, fun fault n herror => ?_⟩
  cases herror
  exact h

theorem failAt {cause : RuntimeCause} {location : Span} (hcause : cause.absent? = none)
    (h : layout.spans location) : StaysOn layout (Eval.fail cause location : Eval α) := by
  refine fail ⟨h, fun name hname => ?_⟩
  rw [hcause] at hname
  cases hname

theorem bind {x : Eval α} {f : α → Eval β} (hx : StaysOn layout x)
    (hf : ∀ a, StaysOn layout (f a)) : StaysOn layout (x >>= f) := by
  intro m hm
  obtain ⟨hafter, hfault⟩ := hx m hm
  cases hrun : x m with
  | ok a n =>
    rw [after_ok hrun] at hafter
    rw [after, bind_of_ok hrun]
    exact hf a n hafter
  | error fault n =>
    rw [after_error hrun] at hafter
    rw [after_error (bind_of_error hrun), bind_of_error hrun]
    refine ⟨hafter, fun fault' n' herror => ?_⟩
    cases herror
    exact hfault fault n hrun

theorem get_bind {f : Machine → Eval α}
    (hf : ∀ m : Machine, m.LiesOn layout → StaysOn layout (f m)) :
    StaysOn layout (get >>= f) :=
  fun m hm => hf m hm m hm

theorem modifyEnv {f : Environment → Environment}
    (hf : ∀ m : Machine, m.LiesOn layout → Machine.LiesOn layout { m with env := f m.env }) :
    StaysOn layout (Eval.modifyEnv f) :=
  fun m hm => ⟨hf m hm, fun _ _ h => by cases h⟩

theorem printLine (line : String) : StaysOn layout (Eval.printLine line) :=
  fun _ hm => ⟨hm, fun _ _ h => by cases h⟩

theorem withFrame {body : Eval α} (hbody : StaysOn layout body) (frame : Frame) :
    StaysOn layout (Eval.withFrame frame body) := by
  intro m hm
  obtain ⟨hafter, hfault⟩ := hbody { m with env := m.env.push frame } hm
  have hpop (n : Machine) (hn : n.LiesOn layout) :
      Machine.LiesOn layout { n with env := n.env.pop.2 } := by
    intro name function hcalled h
    rw [Environment.function?, Environment.functions_pop] at h
    exact hn name function hcalled h
  cases hrun : body { m with env := m.env.push frame } with
  | ok a n =>
    rw [after_ok hrun] at hafter
    have hframe : Eval.withFrame frame body m = .ok a { n with env := n.env.pop.2 } := by
      rw [Eval.withFrame, hrun]
    rw [after_ok hframe, hframe]
    exact ⟨hpop n hafter, fun _ _ h => by cases h⟩
  | error fault n =>
    rw [after_error hrun] at hafter
    have hframe : Eval.withFrame frame body m = .error fault { n with env := n.env.pop.2 } := by
      rw [Eval.withFrame, hrun]
    rw [after_error hframe, hframe]
    refine ⟨hpop n hafter, fun fault' n' herror => ?_⟩
    cases herror
    exact hfault fault n hrun

theorem integer (value : Value) (use : IntegerUse) {location : Span}
    (h : layout.spans location) : StaysOn layout (Eval.integer value use location) := by
  unfold Eval.integer
  split
  · exact pure _
  · exact failAt rfl h

theorem operation (op : Operator) (a b : Integer) {location : Span} (h : layout.spans location) :
    StaysOn layout (Eval.operation op a b location) := by
  unfold Eval.operation
  split
  · exact pure _
  · next undefined _ => exact failAt (by cases undefined <;> rfl) h

def Calls (layout : Layout) (invoke : Invoke) : Prop :=
  ∀ function arguments location, FunctionDef.LiesOn layout function → layout.spans location →
    StaysOn layout (invoke function arguments location)

theorem apply {invoke : Invoke} (hinvoke : Calls layout invoke) (name : String)
    {callable : Callable}
    (hcallable : ∀ function, callable = .defined function → function.LiesOn layout)
    (arguments : List Integer) {location : Span} (h : layout.spans location) :
    StaysOn layout (Eval.apply invoke name callable arguments location) := by
  unfold Eval.apply
  split
  · split
    · split
      · exact pure _
      · exact failAt rfl h
    · exact hinvoke _ _ _ (hcallable _ rfl) h
  · exact failAt rfl h

mutual

theorem expr {invoke : Invoke} (hinvoke : Calls layout invoke) :
    (e : Expr) → e.LiesOn layout → StaysOn layout (Eval.expr invoke e)
  | .integer value _, _ => by
    rw [Eval.expr]
    exact pure _
  | .text value _, _ => by
    rw [Eval.expr]
    exact pure _
  | .variable ident, .ident name => by
    rw [Eval.expr]
    refine get_bind fun m _ => ?_
    split
    · exact pure _
    · refine fail ⟨layout.span_of_name name, fun other hother => ?_⟩
      cases hother
      exact name
  | .binary op left right location, .binary _ first second span => by
    rw [Eval.expr]
    refine bind (expr hinvoke left first) fun a => ?_
    refine bind (expr hinvoke right second) fun b => ?_
    refine bind (integer _ _ first.span) fun i => ?_
    refine bind (integer _ _ second.span) fun j => ?_
    exact bind (operation _ _ _ span) fun k => pure _
  | .call function arguments location, .call name called all span => by
    rw [Eval.expr]
    refine get_bind fun m hm => ?_
    split
    · refine fail ⟨layout.span_of_name name, fun other hother => ?_⟩
      cases hother
      exact name
    · next callable hcallable =>
      refine bind (exprs hinvoke arguments all) fun values => ?_
      refine bind (apply hinvoke _ (fun f hf => ?_) _ span) fun i => pure _
      exact hm function.name f called (hf ▸ hcallable)
  | .list elements location, .list _ span => by
    rw [Eval.expr]
    split
    · exact pure _
    · exact failAt rfl span

theorem exprs {invoke : Invoke} (hinvoke : Calls layout invoke) :
    (es : List Expr) → (∀ e ∈ es, e.LiesOn layout) → StaysOn layout (Eval.exprs invoke es)
  | [], _ => by
    rw [Eval.exprs]
    exact pure _
  | e :: es, hall => by
    obtain ⟨hfirst, hothers⟩ := List.forall_mem_cons.1 hall
    rw [Eval.exprs]
    refine bind (expr hinvoke e hfirst) fun value => ?_
    refine bind (integer _ _ hfirst.span) fun first => ?_
    exact bind (exprs hinvoke es hothers) fun rest => pure _

end

theorem declare (name : String) (value : Value) :
    StaysOn layout (Eval.modifyEnv (·.declare name value)) := by
  refine modifyEnv fun m hm other function hcalled h => hm other function hcalled ?_
  rw [Environment.function?, Environment.functions_declare] at h
  exact h

theorem define {function : FunctionDef} (hfunction : function.LiesOn layout) :
    StaysOn layout (Eval.modifyEnv (·.define function.ident.name (.defined function))) := by
  refine modifyEnv fun m hm other function' hcalled h => ?_
  change (m.env.functions.insert function.ident.name (.defined function)).get? other = _ at h
  rw [Bindings.get?_insert] at h
  split at h
  · cases h
    exact hfunction
  · exact hm other function' hcalled h

mutual

theorem stmt {invoke : Invoke} (hinvoke : Calls layout invoke) :
    (s : Stmt) → s.LiesOn layout → StaysOn layout (Eval.stmt invoke s)
  | .declare ident value _, .declare _ inner _ => by
    rw [Eval.stmt]
    refine bind (expr hinvoke value inner) fun v => ?_
    exact bind (declare _ _) fun _ => pure _
  | .print value _, .print inner _ => by
    rw [Eval.stmt]
    refine bind (expr hinvoke value inner) fun v => ?_
    exact bind (printLine _) fun _ => pure _
  | .branch condition thenBlock elseBlock _, .branch test first second _ => by
    rw [Eval.stmt]
    refine bind (expr hinvoke condition test) fun v => ?_
    refine bind (integer _ _ test.span) fun i => ?_
    split
    · exact block hinvoke thenBlock first
    · exact optionalBlock hinvoke elseBlock second
  | .define function, .define inner => by
    rw [Eval.stmt]
    exact bind (define inner) fun _ => pure _
  | .giveBack value _, .giveBack inner _ => by
    rw [Eval.stmt]
    refine bind (expr hinvoke value inner) fun v => ?_
    exact bind (integer _ _ inner.span) fun i => pure _

theorem stmts {invoke : Invoke} (hinvoke : Calls layout invoke) :
    (ss : List Stmt) → (∀ s ∈ ss, s.LiesOn layout) → StaysOn layout (Eval.stmts invoke ss)
  | [], _ => by
    rw [Eval.stmts]
    exact pure _
  | s :: ss, hall => by
    obtain ⟨hfirst, hothers⟩ := List.forall_mem_cons.1 hall
    rw [Eval.stmts]
    refine bind (stmt hinvoke s hfirst) fun flow => ?_
    split
    · exact stmts hinvoke ss hothers
    · exact pure _

theorem block {invoke : Invoke} (hinvoke : Calls layout invoke) :
    (b : Block) → b.LiesOn layout → StaysOn layout (Eval.block invoke b)
  | ⟨statements, _⟩, .intro all _ => by
    rw [Eval.block]
    exact stmts hinvoke statements all

theorem optionalBlock {invoke : Invoke} (hinvoke : Calls layout invoke) :
    (b : Option Block) → (∀ c ∈ b, c.LiesOn layout) →
      StaysOn layout (Eval.optionalBlock invoke b)
  | none, _ => by
    rw [Eval.optionalBlock]
    exact pure _
  | some b, h => by
    rw [Eval.optionalBlock]
    exact block hinvoke b (h b rfl)

end

theorem calls (room : Nat) : Calls layout (Eval.invoke room) := by
  induction room with
  | zero => exact fun _ _ location _ h => failAt rfl h
  | succ room ih =>
    rintro ⟨ident, parameters, body, location⟩ arguments place hfunction -
    obtain ⟨-, -, inner, -⟩ := hfunction
    exact bind (withFrame (block ih body inner) _) fun _ => pure _

end StaysOn

end Eval

theorem Machine.initial_liesOn (layout : Layout) : Machine.initial.LiesOn layout := by
  intro name function _ h
  have hbuiltin : Machine.initial.env.function? name =
      if name = Builtin.sum.name then some (.builtin .sum) else none :=
    Bindings.get?_insert .empty _ name _
  rw [hbuiltin] at h
  split at h <;> cases h

theorem Machine.run_staysOn {layout : Layout} {m : Machine} {P : Program} (hm : m.LiesOn layout)
    (hP : ∀ s ∈ P.statements, s.LiesOn layout) :
    (m.run P).2.LiesOn layout ∧
      ∀ fault, (m.run P).1 = .error fault → RuntimeFault.LiesOn layout fault := by
  have hexecute : Eval.StaysOn layout (Machine.execute P.statements) :=
    .get_bind fun _ _ => .stmts (.calls _) P.statements hP
  obtain ⟨hafter, hfault⟩ := hexecute m hm
  unfold Machine.run
  split
  · next hrun => exact ⟨Eval.after_ok hrun ▸ hafter, fun _ h => by cases h⟩
  · next fault n hrun =>
    refine ⟨Eval.after_error hrun ▸ hafter, fun fault' h => ?_⟩
    cases h
    exact hfault fault n hrun

/-! ## Faults of reading and parsing -/

theorem closes_none : Closes none := fun _ h => by cases h

theorem Token.Spelled.last {t : Token} {word : List Char} (h : t.Spelled (String.ofList word))
    {d : Char} (hd : d.isDigit = true) (hends : t.EndsBefore (some d)) :
    ∀ c ∈ word.getLast?, c.isDigit = false := by
  have hword (t : Token) (htext : String.ofList word = t.spelling) : word = t.spelling.toList := by
    rw [← htext, String.toList_ofList]
  cases t with
  | integer value =>
    rw [hends d rfl] at hd
    cases hd
  | ident name | keyword word' =>
    have hpart := hends d rfl
    rw [isNamePart_of_isDigit hd] at hpart
    cases hpart
  | text value =>
    have hquoted : (Token.text value).spelling.toList = ('"' :: value.toList) ++ ['"'] := by
      simp [Token.spelling]
    rw [hword _ h.2, hquoted, List.getLast?_concat]
    rintro _ ⟨⟩
    rfl
  | operator op =>
    rw [hword _ h.2]
    cases op <;> rintro _ ⟨⟩ <;> rfl
  | opening bracket | closing bracket =>
    rw [hword _ h.2]
    cases bracket <;> rintro _ ⟨⟩ <;> rfl
  | assign | comma | semicolon =>
    rw [hword _ h.2]
    rintro _ ⟨⟩
    rfl
  | endOfFile => exact absurd rfl h.ne_endOfFile

theorem Tiled.last {n : Nat} {cs : List Char} {ls : List Lexeme} {d : Char}
    (h : Tiled (some d) n cs ls) (hd : d.isDigit = true) : ∀ c ∈ cs.getLast?, c.isDigit = false := by
  induction h with
  | none offset => exact fun c hc => by cases hc
  | @space offset c cs ls blank _ ih =>
    cases cs with
    | nil =>
      rw [List.getLast?_singleton]
      rintro _ ⟨⟩
      cases hdigit : c.isDigit with
      | false => rfl
      | true => rw [← blank, isSpace_of_isNamePart (isNamePart_of_isDigit hdigit)]
    | cons c' cs => rwa [List.getLast?_cons_cons]
  | @word offset t word cs ls spelled ends _ ih =>
    cases cs with
    | nil =>
      rw [List.append_nil]
      exact spelled.last hd ends
    | cons c' cs => rwa [List.getLast?_append_cons]

/-- What cannot be read stands at the span, after a text that can be read by itself. -/
theorem tokenize_error {source : String} {fault : LexFault} (h : tokenize source = .error fault) :
    ∃ before text after, source.toList = before ++ text ++ after ∧
      fault.span = ⟨utf8Len before, utf8Len before + utf8Len text⟩ ∧
      Word.Torn text after fault.cause ∧
      (fault.cause = .integerTooLarge → ∀ c ∈ before.getLast?, c.isDigit = false) ∧
      ∃ lexemes, tokenize (String.ofList before) = .ok lexemes := by
  unfold tokenize at h
  split at h
  · cases h
  · next hread =>
    cases h
    rcases Cursor.ReadsTiled.all source.toList 0 with
      ⟨ls, -, hall⟩ | ⟨before, text, after, ls, cause, hsplit, htiled, htorn, hall⟩
    · cases hread.symm.trans hall
    · obtain rfl : _ = Fault.mk cause _ := Option.some.inj (congrArg Prod.snd (hread.symm.trans hall))
      refine ⟨before, text, after, hsplit, by simp, htorn, ?_, ?_⟩
      · rintro rfl
        cases htorn with
        | integerTooLarge nonempty digits _ _ =>
          obtain ⟨d, ds, rfl⟩ := List.exists_cons_of_ne_nil nonempty
          exact htiled.last (digits d List.mem_cons_self)
      · have hwhole : Tiled none 0 (String.ofList before).toList ls := by
          rw [String.toList_ofList]
          exact htiled.ending closes_none
        exact ⟨_, tokenize_of_tiled hwhole⟩

theorem parse_error_place {ls : List Lexeme} {fault : ParseFault} (h : parse ls = .error fault)
    (hend : ∃ l ∈ ls, l.token = .endOfFile) :
    fault.cause ≠ .missingToken ∧ (fault.span = .zero ∨ ∃ l ∈ ls, fault.span = l.span) ∧
      ∀ t, fault.cause.found? = some t → ⟨t, fault.span⟩ ∈ ls := by
  obtain ⟨rest, hrun⟩ := parse_error.1 h
  have haccounted := Parser.program_predicts (Nat.le_refl nestingLimit) ls
  rw [hrun] at haccounted
  cases haccounted with
  | @found front post t _ split _ cause =>
    have hmem : ⟨t, fault.span⟩ ∈ ls := by simp [split]
    refine ⟨?_, .inr ⟨_, hmem, rfl⟩, fun t' ht' => ?_⟩
    · intro hmissing
      rw [hmissing] at cause
      cases cause
    · rw [cause] at ht'
      cases ht'
      exact hmem
  | missing free =>
    obtain ⟨l, hl, htoken⟩ := hend
    exact absurd htoken (free l hl)
  | @nesting front rest _ split _ cause span =>
    refine ⟨by simp [cause], ?_, fun t ht => ?_⟩
    · rw [span]
      cases rest with
      | nil => exact .inl rfl
      | cons l rest => exact .inr ⟨l, by simp [split], rfl⟩
    · rw [cause] at ht
      cases ht

/-! ## All faults of a script -/

theorem Span.Inside.clamp {span : Span} {source : String} (h : span.Inside source) :
    Diagnostic.clamp source.utf8ByteSize span = span := by
  have hordered := h.ordered
  have hstop := h.stop_le
  unfold Diagnostic.clamp
  ext <;> dsimp only <;> omega

theorem Span.inside_zero (source : String) : Span.zero.Inside source := by
  have hsplit : source.toList = [] ++ [] ++ source.toList := rfl
  exact inside_of_split hsplit

theorem Span.inside_end (source : String) :
    Span.Inside ⟨source.utf8ByteSize, source.utf8ByteSize⟩ source := by
  have hsplit : source.toList = source.toList ++ [] ++ [] := by simp
  rw [utf8ByteSize_eq]
  exact inside_of_split hsplit

section Lexemes

variable {source : String} {lexemes : List Lexeme} (h : tokenize source = .ok lexemes)

include h

theorem inside_of_tokenize : ∀ l ∈ lexemes, l.span.Inside source := by
  obtain ⟨ls, htiled, rfl⟩ := tiled_of_tokenize h
  refine List.forall_mem_append.2 ⟨fun l hl => (htiled.placed l hl).2.1, ?_⟩
  exact List.forall_mem_singleton.2 (Span.inside_end source)

theorem ordered_of_tokenize : Ordered lexemes := by
  refine ⟨?_, fun l hl => (inside_of_tokenize h l hl).ordered⟩
  obtain ⟨ls, htiled, rfl⟩ := tiled_of_tokenize h
  refine List.pairwise_append.2 ⟨htiled.ordered, List.pairwise_singleton _ _, fun l hl l' hl' => ?_⟩
  rw [List.mem_singleton.1 hl']
  exact (htiled.placed l hl).2.1.stop_le

theorem inside_of_layout {span : Span} (hspan : (Layout.ofLexemes lexemes).spans span) :
    span.Inside source := by
  obtain ⟨hle, ⟨l, hl, hstart⟩, l', hl', hstop⟩ := hspan
  refine ⟨hle, ?_, ?_⟩
  · rw [hstart]
    exact (inside_of_tokenize h l hl).start_valid
  · rw [hstop]
    exact (inside_of_tokenize h l' hl').stop_valid

theorem mem_of_tokenize {l : Lexeme} (hl : l ∈ lexemes) (hend : l.token ≠ .endOfFile) :
    l.token.Spelled (l.span.slice source) := by
  obtain ⟨ls, htiled, rfl⟩ := tiled_of_tokenize h
  rcases List.mem_append.1 hl with hword | hlast
  · exact (htiled.placed l hword).2.2
  · rw [List.mem_singleton.1 hlast] at hend
    exact absurd rfl hend

theorem end_of_tokenize {span : Span} (hl : ⟨.endOfFile, span⟩ ∈ lexemes) :
    span = ⟨source.utf8ByteSize, source.utf8ByteSize⟩ := by
  obtain ⟨ls, htiled, rfl⟩ := tiled_of_tokenize h
  rcases List.mem_append.1 hl with hword | hlast
  · exact absurd rfl (htiled.placed _ hword).2.2.ne_endOfFile
  · cases List.mem_singleton.1 hlast
    rfl

end Lexemes

theorem Token.Spelled.tokenize {t : Token} {text : String} (h : t.Spelled text) :
    tokenize text = .ok [⟨t, ⟨0, text.utf8ByteSize⟩⟩,
      ⟨.endOfFile, ⟨text.utf8ByteSize, text.utf8ByteSize⟩⟩] := by
  rw [← String.ofList_toList (s := text)] at h
  have hsingle := Tiled.single 0 h (t.endsBefore_of_closes closes_none)
  rw [Nat.zero_add, ← utf8ByteSize_eq] at hsingle
  exact tokenize_of_tiled hsingle

theorem Script.program_error {script : Script} {failure : Failure}
    (h : script.program = .error failure) :
    (∃ fault, tokenize script.source = .error fault ∧ failure = .lexical script fault) ∨
      ∃ lexemes fault, tokenize script.source = .ok lexemes ∧ parse lexemes = .error fault ∧
        failure = .syntactic script fault := by
  unfold Script.program Script.lexemes at h
  cases htokens : tokenize script.source with
  | error fault =>
    rw [htokens] at h
    cases h
    exact .inl ⟨fault, rfl, rfl⟩
  | ok lexemes =>
    rw [htokens] at h
    dsimp only [Except.mapError] at h
    cases hparse : parse lexemes with
    | error fault =>
      rw [hparse] at h
      cases h
      exact .inr ⟨lexemes, fault, rfl, hparse, rfl⟩
    | ok program =>
      rw [hparse] at h
      cases h

/-- Where the fault is, for a failure of a script that was loaded. -/
def Failure.span? : Failure → Option Span
  | .loading _ => none
  | .lexical _ fault => some fault.span
  | .syntactic _ fault => some fault.span
  | .runtime _ fault => some fault.span

/-- What the text at the span of the failure is. -/
def Failure.Points (source : String) : Failure → Prop
  | .loading _ => False
  | .lexical _ fault => ∃ before text after, source.toList = before ++ text ++ after ∧
      fault.span = ⟨utf8Len before, utf8Len before + utf8Len text⟩ ∧
      fault.span.slice source = String.ofList text ∧ Word.Torn text after fault.cause ∧
      (fault.cause = .integerTooLarge → ∀ c ∈ before.getLast?, c.isDigit = false) ∧
      ∃ lexemes, tokenize (String.ofList before) = .ok lexemes
  | .syntactic _ fault => fault.cause ≠ .missingToken ∧
      ∀ t, fault.cause.found? = some t →
        (t = .endOfFile ∧ fault.span = ⟨source.utf8ByteSize, source.utf8ByteSize⟩) ∨
          tokenize (fault.span.slice source) =
            .ok [⟨t, ⟨0, (fault.span.slice source).utf8ByteSize⟩⟩,
              ⟨.endOfFile, ⟨(fault.span.slice source).utf8ByteSize,
                (fault.span.slice source).utf8ByteSize⟩⟩]
  | .runtime _ fault => ∀ name,
      fault.cause = .unboundVariable name ∨ fault.cause = .unknownFunction name →
        fault.span.slice source = name

section Points

variable {script : Script}

theorem lexical_points {fault : LexFault} (h : tokenize script.source = .error fault) :
    fault.span.Inside script.source ∧ (Failure.lexical script fault).Points script.source := by
  obtain ⟨before, text, after, hsplit, hspan, htorn, hmaximal, hbefore⟩ := tokenize_error h
  have hinside := Span.inside_of_split hsplit
  have hslice := Span.slice_of_split hsplit
  rw [← hspan] at hinside hslice
  exact ⟨hinside, before, text, after, hsplit, hspan, hslice, htorn, hmaximal, hbefore⟩

theorem syntactic_points {lexemes : List Lexeme} {fault : ParseFault}
    (htokens : tokenize script.source = .ok lexemes) (h : parse lexemes = .error fault) :
    fault.span.Inside script.source ∧ (Failure.syntactic script fault).Points script.source := by
  have hend : ∃ l ∈ lexemes, l.token = .endOfFile := by
    obtain ⟨ls, -, rfl⟩ := tiled_of_tokenize htokens
    exact ⟨_, List.mem_append_right ls (List.mem_singleton_self _), rfl⟩
  obtain ⟨hmissing, hplace, hfound⟩ := parse_error_place h hend
  refine ⟨?_, hmissing, fun t ht => ?_⟩
  · rcases hplace with hzero | ⟨l, hl, hspan⟩
    · rw [hzero]
      exact Span.inside_zero script.source
    · rw [hspan]
      exact inside_of_tokenize htokens l hl
  · have hmem := hfound t ht
    by_cases heof : t = .endOfFile
    · subst heof
      exact .inl ⟨rfl, end_of_tokenize htokens hmem⟩
    · exact .inr (mem_of_tokenize htokens hmem heof).tokenize

theorem runtime_points {program : Program} {fault : RuntimeFault}
    (hprogram : script.program = .ok program)
    (h : (Machine.initial.run program).1 = .error fault) :
    fault.span.Inside script.source ∧ (Failure.runtime script fault).Points script.source := by
  obtain ⟨lexemes, htokens, hparse⟩ := Script.program_ok.1 hprogram
  have hlies := laysOut_of_parse (ordered_of_tokenize htokens) hparse
  obtain ⟨hspan, hname⟩ := (Machine.run_staysOn (Machine.initial_liesOn _) hlies).2 fault h
  refine ⟨inside_of_layout htokens hspan, fun name hcause => ?_⟩
  have habsent : name ∈ fault.cause.absent? := by
    rcases hcause with hcause | hcause <;> rw [hcause] <;> rfl
  exact (mem_of_tokenize htokens (hname name habsent).2 (by simp)).2

end Points

/-- A script that fails does so at a place inside its source, with both ends between characters, and
what is said there of the text is true of it. -/
theorem Script.run_error_points {script : Script} {failure : Failure}
    (h : script.run.1 = .error failure) :
    ∃ span, failure.span? = some span ∧ span.Inside script.source ∧
      span.stop ≤ script.source.utf8ByteSize ∧
      (failure.diagnostic.snippet.map fun snippet => (snippet.source, snippet.span)) =
        some (script.source, span) ∧
      Diagnostic.clamp script.source.utf8ByteSize span = span ∧ failure.Points script.source := by
  cases hprogram : script.program with
  | error failure' =>
    rw [Script.run, Machine.runScript, hprogram] at h
    cases h
    rcases Script.program_error hprogram with
      ⟨fault, htokens, rfl⟩ | ⟨lexemes, fault, htokens, hparse, rfl⟩
    · obtain ⟨hinside, hpoints⟩ := lexical_points htokens
      exact ⟨fault.span, rfl, hinside, hinside.stop_le, rfl, hinside.clamp, hpoints⟩
    · obtain ⟨hinside, hpoints⟩ := syntactic_points htokens hparse
      have hshown : Failure.parseSpan script fault = fault.span := by
        unfold Failure.parseSpan
        split
        · next hmissing => exact absurd hmissing hpoints.1
        · rfl
      refine ⟨fault.span, rfl, hinside, hinside.stop_le, ?_, hinside.clamp, hpoints⟩
      rw [← hshown]
      rfl
  | ok program =>
    rw [Script.run_of_program hprogram] at h
    cases hrun : (Machine.initial.run program).1 with
    | ok _ =>
      rw [hrun] at h
      cases h
    | error fault =>
      rw [hrun] at h
      cases h
      obtain ⟨hinside, hpoints⟩ := runtime_points hprogram hrun
      exact ⟨fault.span, rfl, hinside, hinside.stop_le, rfl, hinside.clamp, hpoints⟩

/-- A script whose fault is in the body of a function, at a name of two bytes. -/
def unboundInBody : Script :=
  ⟨"a.uz", "funksiya f(n) \x7b chop n + ў; \x7d chop f(1);"⟩

theorem Script.run_error_points_body :
    unboundInBody.run.1 = .error (.runtime unboundInBody ⟨.unboundVariable "ў", ⟨25, 27⟩⟩) ∧
      Span.Inside ⟨25, 27⟩ unboundInBody.source ∧
      Span.slice ⟨25, 27⟩ unboundInBody.source = "ў" := by
  have hrun : unboundInBody.run.1 =
      .error (.runtime unboundInBody ⟨.unboundVariable "ў", ⟨25, 27⟩⟩) := by decide +kernel
  obtain ⟨span, hspan, hinside, -, -, -, hpoints⟩ := Script.run_error_points hrun
  cases hspan
  exact ⟨hrun, hinside, hpoints "ў" (.inl rfl)⟩

end UzScript
