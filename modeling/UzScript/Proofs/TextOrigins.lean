import UzScript.Proofs.JoinedScripts
import UzScript.Proofs.SessionFaults
import UzScript.Proofs.Termination

/-! # Where texts come from

No operation makes a text: operators and calls take integers and give integers. So a text that a
variable holds, or that is printed, stands between the quotes of a string literal, in one of the
scripts that ran so far. Every step of a run keeps to this, whatever it does to the machine and to
what is still to be done. -/

set_option autoImplicit false

namespace UzScript

/-! ## The string literals of a program -/

namespace Expr

mutual

def texts : Expr → List String
  | .integer _ _ | .variable _ => []
  | .text value _ => [value]
  | .binary _ left right _ => left.texts ++ right.texts
  | .call _ arguments _ => textsAll arguments
  | .list elements _ => textsAll elements

def textsAll : List Expr → List String
  | [] => []
  | e :: es => e.texts ++ textsAll es

end

end Expr

mutual

def Stmt.texts : Stmt → List String
  | .declare _ value _ | .print value _ | .giveBack value _ => value.texts
  | .branch condition thenBlock elseBlock _ =>
    condition.texts ++ (thenBlock.texts ++ Block.textsElse elseBlock)
  | .define function => function.texts

def Stmt.textsAll : List Stmt → List String
  | [] => []
  | s :: ss => s.texts ++ Stmt.textsAll ss

def Block.texts : Block → List String
  | ⟨statements, _⟩ => Stmt.textsAll statements

def Block.textsElse : Option Block → List String
  | none => []
  | some block => block.texts

def FunctionDef.texts : FunctionDef → List String
  | ⟨_, _, body, _⟩ => body.texts

end

theorem Block.texts_eq (b : Block) : b.texts = Stmt.textsAll b.statements := by
  cases b
  rfl

theorem FunctionDef.texts_eq (f : FunctionDef) : f.texts = Stmt.textsAll f.body.statements := by
  cases f
  exact Block.texts_eq _

def Program.texts (program : Program) : List String := Stmt.textsAll program.statements

section Tokens

variable {text : String}

theorem mem_wrapTokens {t : Token} {ts : List Token} (h : t ∈ ts) (wrap : Bool) :
    t ∈ wrapTokens wrap ts := by
  cases wrap with
  | false => exact h
  | true => exact List.mem_append_left _ (List.mem_cons_of_mem _ h)

theorem mem_intercalate_comma {t : Token} {ts : List Token} {all : List (List Token)}
    (ht : t ∈ ts) (hts : ts ∈ all) : t ∈ [Token.comma].intercalate all := by
  cases all with
  | nil => cases hts
  | cons us all =>
    rw [Grammar.intercalate_comma]
    rcases List.mem_cons.1 hts with rfl | hrest
    · exact List.mem_append_left _ ht
    · have hafter : Token.comma :: ts ∈ all.map (Token.comma :: ·) := List.mem_map_of_mem hrest
      exact List.mem_append_right _ (List.mem_flatten_of_mem hafter (List.mem_cons_of_mem _ ht))

mutual

theorem Expr.mem_tokens_of_mem_texts : (e : Expr) → text ∈ e.texts → .text text ∈ e.erase.tokens
  | .integer _ _, h | .variable _, h => by cases h
  | .text value _, h => by
    rw [Expr.texts, List.mem_singleton] at h
    rw [h, Expr.erase, Expr.tokens]
    exact List.mem_singleton_self _
  | .binary op left right _, h => by
    rw [Expr.erase, Expr.tokens]
    rcases List.mem_append.1 h with hleft | hright
    · exact List.mem_append_left _ (mem_wrapTokens (left.mem_tokens_of_mem_texts hleft) _)
    · refine List.mem_append_right _ (List.mem_cons_of_mem _ (mem_wrapTokens ?_ _))
      exact right.mem_tokens_of_mem_texts hright
  | .call _ arguments _, h => by
    obtain ⟨ts, hts, htext⟩ := Expr.mem_tokens_of_mem_textsAll arguments h
    rw [Expr.erase, Expr.tokens]
    exact List.mem_append_left _ (List.mem_cons_of_mem _ (List.mem_cons_of_mem _
      (mem_intercalate_comma htext hts)))
  | .list elements _, h => by
    obtain ⟨ts, hts, htext⟩ := Expr.mem_tokens_of_mem_textsAll elements h
    rw [Expr.erase, Expr.tokens]
    exact List.mem_append_left _ (List.mem_cons_of_mem _ (mem_intercalate_comma htext hts))

theorem Expr.mem_tokens_of_mem_textsAll : (es : List Expr) → text ∈ Expr.textsAll es →
    ∃ ts ∈ Expr.tokensAll (Expr.eraseAll es), Token.text text ∈ ts
  | [], h => by cases h
  | e :: es, h => by
    rw [Expr.eraseAll, Expr.tokensAll]
    rcases List.mem_append.1 h with hfirst | hrest
    · exact ⟨_, List.mem_cons_self, e.mem_tokens_of_mem_texts hfirst⟩
    · obtain ⟨ts, hts, htext⟩ := Expr.mem_tokens_of_mem_textsAll es hrest
      exact ⟨ts, List.mem_cons_of_mem _ hts, htext⟩

end

mutual

theorem Stmt.mem_tokens_of_mem_texts : (s : Stmt) → text ∈ s.texts → .text text ∈ s.erase.tokens
  | .declare _ value _, h => by
    simp [Stmt.erase, Stmt.tokens, value.mem_tokens_of_mem_texts h]
  | .print value _, h | .giveBack value _, h => by
    simp [Stmt.erase, Stmt.tokens, value.mem_tokens_of_mem_texts h]
  | .branch condition thenBlock elseBlock _, h => by
    rw [Stmt.texts, List.mem_append, List.mem_append] at h
    rcases h with hcondition | hthen | helse
    · simp [Stmt.erase, Stmt.tokens, condition.mem_tokens_of_mem_texts hcondition]
    · simp [Stmt.erase, Stmt.tokens, thenBlock.mem_tokens_of_mem_texts hthen]
    · have hother := Block.mem_tokens_of_mem_textsElse elseBlock helse
      rw [Stmt.erase, Stmt.tokens]
      exact List.mem_append_right _ hother
  | .define function, h => by
    rw [Stmt.erase, Stmt.tokens]
    exact function.mem_tokens_of_mem_texts h

theorem Stmt.mem_tokens_of_mem_textsAll : (ss : List Stmt) → text ∈ Stmt.textsAll ss →
    .text text ∈ (Stmt.tokensAll (Stmt.eraseAll ss)).flatten
  | [], h => by cases h
  | s :: ss, h => by
    rw [Stmt.eraseAll, Stmt.tokensAll, List.flatten_cons]
    rcases List.mem_append.1 h with hfirst | hrest
    · exact List.mem_append_left _ (s.mem_tokens_of_mem_texts hfirst)
    · exact List.mem_append_right _ (Stmt.mem_tokens_of_mem_textsAll ss hrest)

theorem Block.mem_tokens_of_mem_texts : (b : Block) → text ∈ b.texts → .text text ∈ b.erase.tokens
  | ⟨statements, _⟩, h => by
    rw [Block.erase, Block.tokens]
    exact List.mem_append_left _ (List.mem_cons_of_mem _
      (Stmt.mem_tokens_of_mem_textsAll statements h))

theorem Block.mem_tokens_of_mem_textsElse : (b : Option Block) → text ∈ Block.textsElse b →
    .text text ∈ Block.elseTokens (Block.eraseElse b)
  | none, h => by cases h
  | some block, h => by
    rw [Block.eraseElse, Block.elseTokens]
    exact List.mem_cons_of_mem _ (block.mem_tokens_of_mem_texts h)

theorem FunctionDef.mem_tokens_of_mem_texts : (f : FunctionDef) → text ∈ f.texts →
    .text text ∈ f.erase.tokens
  | ⟨_, _, body, _⟩, h => by
    rw [FunctionDef.erase, FunctionDef.tokens]
    exact List.mem_append_right _ (List.mem_cons_of_mem _ (body.mem_tokens_of_mem_texts h))

end

end Tokens

/-- The text stands between the quotes of a string literal of the script. -/
def Script.Quotes (script : Script) (text : String) : Prop :=
  ∃ lexemes span, tokenize script.source = .ok lexemes ∧ ⟨.text text, span⟩ ∈ lexemes

/-- The text stands between the quotes of a string literal of one of the scripts. -/
def QuotedIn (scripts : List Script) (text : String) : Prop :=
  ∃ script ∈ scripts, script.Quotes text

theorem QuotedIn.append {scripts : List Script} {text : String} (h : QuotedIn scripts text)
    (more : List Script) : QuotedIn (scripts ++ more) text := by
  obtain ⟨script, hscript, hquotes⟩ := h
  exact ⟨script, List.mem_append_left _ hscript, hquotes⟩

theorem Script.quotes_of_mem_texts {script : Script} {program : Program}
    (hprogram : script.program = .ok program) {text : String} (h : text ∈ program.texts) :
    script.Quotes text := by
  obtain ⟨lexemes, htokens, hparse⟩ := Script.program_ok.1 hprogram
  obtain ⟨ls, htiled, rfl⟩ := tiled_of_tokenize htokens
  obtain ⟨_, _, hphrase⟩ := parse_derivation (free_of_tiled htiled) hparse
  obtain ⟨_, _, -, hsublist⟩ := hphrase.reprinted
  obtain ⟨⟨t, span⟩, hl, htoken⟩ :=
    List.mem_map.1 (hsublist.subset (Stmt.mem_tokens_of_mem_textsAll program.statements h))
  cases htoken
  exact ⟨_, span, htokens, List.mem_append_left _ hl⟩

/-! ## Machines that hold no text but the given ones -/

def Value.From (literal : String → Prop) : Value → Prop
  | .integer _ => True
  | .text content => literal content

def Frame.From (literal : String → Prop) (frame : Frame) : Prop :=
  ∀ name value, frame.get? name = some value → value.From literal

def Callable.From (literal : String → Prop) : Callable → Prop
  | .builtin _ => True
  | .defined function => ∀ text ∈ function.texts, literal text

/-- Every text that is held by a variable, is written in a function or was printed is one of the given
ones. -/
structure Machine.From (literal : String → Prop) (m : Machine) : Prop where
  frames : ∀ frame ∈ m.env.frames, frame.From literal
  functions : ∀ name callable, m.env.function? name = some callable → callable.From literal
  lines : ∀ line ∈ m.output, ∃ value : Value, value.From literal ∧ line = value.print

section Machines

variable {literal : String → Prop}

theorem Frame.From.insert {frame : Frame} (h : frame.From literal) (name : String) {v : Value}
    (hv : v.From literal) : Frame.From literal (frame.insert name v) := by
  intro other value hvalue
  rw [Bindings.get?_insert] at hvalue
  split at hvalue
  · cases hvalue
    exact hv
  · exact h other value hvalue

theorem Bindings.exists_mem_of_get?_ofList {α : Type} {entries : List (String × α)} {name : String}
    {value : α} (h : (Bindings.ofList entries).get? name = some value) : (name, value) ∈ entries := by
  suffices hfold : ∀ b : Bindings α,
      (entries.foldl (fun b entry => b.insert entry.1 entry.2) b).get? name = some value →
        b.get? name = some value ∨ (name, value) ∈ entries by
    exact (hfold .empty h).resolve_left (by simp)
  intro b hb
  clear h
  induction entries generalizing b with
  | nil => exact .inl hb
  | cons entry entries ih =>
    rcases ih _ hb with hinsert | hmem
    · rw [Bindings.get?_insert] at hinsert
      split at hinsert
      · next hname =>
        cases hinsert
        exact .inr (hname ▸ List.mem_cons_self)
      · exact .inl hinsert
    · exact .inr (List.mem_cons_of_mem _ hmem)

/-- A call starts with integers only, each of them an argument. -/
theorem Eval.frameOf_get? {function : FunctionDef} {args : List Integer} {name : String} {v : Value}
    (h : (frameOf function args).get? name = some v) : ∃ i ∈ args, v = .integer i := by
  have hmem := (List.of_mem_zip (Bindings.exists_mem_of_get?_ofList h)).2
  obtain ⟨i, hi, rfl⟩ := List.mem_map.1 hmem
  exact ⟨i, hi, rfl⟩

theorem Eval.frameOf_from (function : FunctionDef) (args : List Integer) :
    Frame.From literal (frameOf function args) := by
  intro name v hv
  obtain ⟨i, -, rfl⟩ := frameOf_get? hv
  trivial

namespace Machine

theorem initial_from (literal : String → Prop) : Machine.initial.From literal where
  frames frame hframe name value hvalue := by
    obtain rfl : frame = .empty := List.mem_singleton.1 hframe
    cases hvalue
  functions name callable hcallable := by
    have hmem := Bindings.exists_mem_of_get?_ofList hcallable
    obtain ⟨builtin, -, hentry⟩ := List.mem_map.1 hmem
    cases hentry
    trivial
  lines line hline := by cases Array.not_mem_empty line hline

namespace From

variable {m : Machine}

theorem mono {other : String → Prop} (hm : m.From literal) (h : ∀ text, literal text → other text) :
    m.From other := by
  have hvalue : ∀ v : Value, v.From literal → v.From other := by
    rintro (i | content) hv
    · trivial
    · exact h content hv
  refine ⟨fun frame hframe name v hv => hvalue v (hm.frames frame hframe name v hv), ?_, ?_⟩
  · rintro name (builtin | function) hcallable
    · trivial
    · exact fun text htext => h text (hm.functions name _ hcallable text htext)
  · intro line hline
    obtain ⟨v, hv, hprint⟩ := hm.lines line hline
    exact ⟨v, hvalue v hv, hprint⟩

theorem withoutOutput (hm : m.From literal) : m.withoutOutput.From literal :=
  ⟨hm.frames, hm.functions, fun line hline => by cases Array.not_mem_empty line hline⟩

theorem get? (hm : m.From literal) {name : String} {v : Value} (h : m.env.get? name = some v) :
    v.From literal := by
  obtain ⟨frame, hframe, hv⟩ := List.exists_of_findSome?_eq_some h
  exact hm.frames frame hframe name v hv

theorem declare (hm : m.From literal) (name : String) {v : Value} (hv : v.From literal) :
    Machine.From literal { m with env := m.env.declare name v } where
  frames := by
    obtain ⟨frame, outer, hframes, hdeclared⟩ := m.env.frames_declare name v
    have hall := hm.frames
    rw [hframes, List.forall_mem_cons] at hall
    change ∀ frame ∈ (m.env.declare name v).frames, frame.From literal
    rw [hdeclared, List.forall_mem_cons]
    exact ⟨hall.1.insert name hv, hall.2⟩
  functions := by
    unfold Environment.function?
    rw [m.env.functions_declare name v]
    exact hm.functions
  lines := hm.lines

theorem define (hm : m.From literal) (name : String) {callable : Callable}
    (h : callable.From literal) :
    Machine.From literal { m with env := m.env.define name callable } where
  frames := hm.frames
  functions other found hfound := by
    rw [Environment.function?, Environment.define, Bindings.get?_insert] at hfound
    split at hfound
    · cases hfound
      exact h
    · exact hm.functions other found hfound
  lines := hm.lines

theorem push (hm : m.From literal) {frame : Frame} (h : frame.From literal) :
    Machine.From literal { m with env := m.env.push frame } :=
  ⟨List.forall_mem_cons.2 ⟨h, hm.frames⟩, hm.functions, hm.lines⟩

theorem pop (hm : m.From literal) : Machine.From literal { m with env := m.env.pop.2 } where
  frames frame hframe := by
    rw [Environment.frames_pop] at hframe
    split at hframe
    · exact hm.frames frame hframe
    · exact hm.frames frame (List.mem_of_mem_tail hframe)
  functions := by
    unfold Environment.function?
    rw [m.env.functions_pop]
    exact hm.functions
  lines := hm.lines

theorem print (hm : m.From literal) {v : Value} (hv : v.From literal) :
    Machine.From literal { m with output := m.output.push v.print } where
  frames := hm.frames
  functions := hm.functions
  lines line hline := by
    rcases Array.mem_push.1 hline with hbefore | rfl
    · exact hm.lines line hbefore
    · exact ⟨v, hv, rfl⟩

end From

end Machine

end Machines

/-! ## What succeeds on integers only -/

namespace Eval

variable {invoke : Invoke} {m n : Machine}

theorem integer_ok_iff {v : Value} {use : IntegerUse} {location : Span} {i : Integer} :
    integer v use location m = .ok i n ↔ v = .integer i ∧ m = n := by
  constructor
  · intro h
    cases v with
    | text content => cases h
    | integer j =>
      cases h
      exact ⟨rfl, rfl⟩
  · rintro ⟨rfl, rfl⟩
    rfl

theorem operation_ok_iff {op : Operator} {i j result : Integer} {location : Span} :
    operation op i j location m = .ok result n ↔ op.apply i j = .ok result ∧ m = n := by
  unfold operation
  cases op.apply i j with
  | ok computed => rw [pure_ok, Except.ok.injEq]
  | error undefined =>
    constructor
    · intro h
      cases h
    · rintro ⟨h, -⟩
      cases h

inductive Integers (invoke : Invoke) : List Expr → List Integer → Machine → Machine → Prop
  | nil (m : Machine) : Integers invoke [] [] m m
  | cons {e : Expr} {es : List Expr} {i : Integer} {is : List Integer} {m mid n : Machine}
      (first : expr invoke e m = .ok (.integer i) mid) (rest : Integers invoke es is mid n) :
      Integers invoke (e :: es) (i :: is) m n

theorem exprs_integers {es : List Expr} {is : List Integer} (h : exprs invoke es m = .ok is n) :
    Integers invoke es is m n := by
  induction es generalizing is m with
  | nil =>
    rw [exprs] at h
    obtain ⟨rfl, rfl⟩ := pure_ok.1 h
    exact .nil m
  | cons e es ih =>
    rw [exprs] at h
    simp only [bind_ok, integer_ok_iff, pure_ok] at h
    obtain ⟨_, mid, hfirst, i, _, ⟨rfl, rfl⟩, is, _, hrest, rfl, rfl⟩ := h
    exact .cons hfirst (ih hrest)

/-- Only integers go into and come out of calls, operations and what is given back. A call starts with
a frame of integers, a text as an argument or operand is a fault, and so is a text given back. -/
structure OnIntegers (invoke : Invoke) : Prop where
  call : ∀ {function : Ident} {args : List Expr} {location : Span} {m n : Machine} {v : Value},
    expr invoke (.call function args location) m = .ok v n →
      ∃ callable is mid i, m.env.function? function.name = some callable ∧
        Integers invoke args is m mid ∧
        apply invoke function.name callable is location mid = .ok i n ∧ v = .integer i
  binary : ∀ {op : Operator} {left right : Expr} {location : Span} {m n : Machine} {v : Value},
    expr invoke (.binary op left right location) m = .ok v n →
      ∃ i j result mid, expr invoke left m = .ok (.integer i) mid ∧
        expr invoke right mid = .ok (.integer j) n ∧ op.apply i j = .ok result ∧
        v = .integer result
  giveBack : ∀ {e : Expr} {location : Span} {m n : Machine} {f : Flow},
    stmt invoke (.giveBack e location) m = .ok f n →
      ∃ i, expr invoke e m = .ok (.integer i) n ∧ f = .returned i
  frame : ∀ {function : FunctionDef} {args : List Integer} {name : String} {v : Value},
    (frameOf function args).get? name = some v → ∃ i ∈ args, v = .integer i

theorem onIntegers (invoke : Invoke) : OnIntegers invoke where
  call {function args location m n v} h := by
    rw [expr, get_bind] at h
    cases hfunction : m.env.function? function.name with
    | none =>
      rw [hfunction] at h
      cases h
    | some callable =>
      rw [hfunction] at h
      simp only [bind_ok, pure_ok] at h
      obtain ⟨is, mid, hargs, i, _, happly, rfl, rfl⟩ := h
      exact ⟨callable, is, mid, i, rfl, exprs_integers hargs, happly, rfl⟩
  binary {op left right location m n v} h := by
    rw [expr] at h
    simp only [bind_ok, integer_ok_iff, operation_ok_iff, pure_ok] at h
    obtain ⟨_, mid, hleft, _, _, hright, i, _, ⟨rfl, rfl⟩, j, _, ⟨rfl, rfl⟩, result, _,
      ⟨happly, rfl⟩, rfl, rfl⟩ := h
    exact ⟨i, j, result, mid, hleft, hright, happly, rfl⟩
  giveBack {e location m n f} h := by
    rw [stmt] at h
    simp only [bind_ok, integer_ok_iff, pure_ok] at h
    obtain ⟨_, _, hvalue, i, _, ⟨rfl, rfl⟩, rfl, rfl⟩ := h
    exact ⟨i, hvalue, rfl⟩
  frame := frameOf_get?

end Eval

/-! ## What a step keeps -/

def Pending.From (literal : String → Prop) : {awaited : Awaited} → Pending awaited → Prop
  | _, .right _ _ e _ k => (∀ text ∈ e.texts, literal text) ∧ k.From literal
  | _, .operation _ _ _ _ _ k => k.From literal
  | _, .argument _ callable _ _ es _ k =>
    callable.From literal ∧ (∀ text ∈ Expr.textsAll es, literal text) ∧ k.From literal
  | _, .declare _ k => k.From literal
  | _, .print k => k.From literal
  | _, .branch _ thenBlock elseBlock k =>
    (∀ text ∈ thenBlock.texts, literal text) ∧ (∀ text ∈ Block.textsElse elseBlock, literal text) ∧
      k.From literal
  | _, .giveBack _ k => k.From literal
  | _, .statements ss k => (∀ text ∈ Stmt.textsAll ss, literal text) ∧ k.From literal
  | _, .leave k => k.From literal
  | _, .finish => True

namespace State

/-- Every text in the state, held or written, is one of the given ones. -/
def From (literal : String → Prop) : State → Prop
  | .expr e k m => (∀ text ∈ e.texts, literal text) ∧ k.From literal ∧ m.From literal
  | .call _ callable _ _ k m => callable.From literal ∧ k.From literal ∧ m.From literal
  | .value v k m => v.From literal ∧ k.From literal ∧ m.From literal
  | .stmt s k m => (∀ text ∈ s.texts, literal text) ∧ k.From literal ∧ m.From literal
  | .stmts ss k m => (∀ text ∈ Stmt.textsAll ss, literal text) ∧ k.From literal ∧ m.From literal
  | .flow _ k m | .fault _ k m => k.From literal ∧ m.From literal

variable {literal : String → Prop}

theorem From.machine {s : State} (h : s.From literal) : s.machine.From literal := by
  cases s with
  | expr | call | value | stmt | stmts => exact h.2.2
  | flow | fault => exact h.2

section Steps

variable {m : Machine}

theorem from_ofResult {α : Type} {x : Eval α} (hx : x.Plain) {awaited : Awaited}
    (k : Pending awaited) (hk : k.From literal) (hm : m.From literal) {next : α → Machine → State}
    (hnext : ∀ a, x m = .ok a m → (next a m).From literal) :
    (ofResult k next (x m)).From literal := by
  rcases hx m with ⟨a, hok⟩ | ⟨reason, herror, -⟩
  · rw [hok]
    exact hnext a hok
  · rw [herror]
    exact ⟨hk, hm⟩

theorem from_arguments {callable : Callable} (hcallable : callable.From literal) (name : String)
    (before : List Integer) (location : Span) {k : Pending .value} (hk : k.From literal)
    (hm : m.From literal) {es : List Expr} (hes : ∀ text ∈ Expr.textsAll es, literal text) :
    (arguments name callable before location k m es).From literal := by
  cases es with
  | nil => exact ⟨hcallable, hk, hm⟩
  | cons e es =>
    rw [Expr.textsAll, List.forall_mem_append] at hes
    exact ⟨hes.1, ⟨hcallable, hes.2, hk⟩, hm⟩

theorem from_begin {k : Pending .value} (hk : k.From literal) (hm : m.From literal) {e : Expr}
    (he : ∀ text ∈ e.texts, literal text) : (begin k m e).From literal := by
  cases e with
  | integer => exact ⟨trivial, hk, hm⟩
  | text content => exact ⟨he content (List.mem_singleton_self _), hk, hm⟩
  | «variable» ident =>
    rw [begin]
    split
    · next v hv => exact ⟨hm.get? hv, hk, hm⟩
    · exact ⟨hk, hm⟩
  | binary op left right location =>
    rw [Expr.texts, List.forall_mem_append] at he
    exact ⟨he.1, ⟨he.2, hk⟩, hm⟩
  | call function args location =>
    rw [begin]
    split
    · exact ⟨hk, hm⟩
    · next callable hcallable =>
      exact from_arguments (hm.functions _ _ hcallable) _ _ _ hk hm he
  | list elements location =>
    rw [begin]
    split
    · exact ⟨trivial, hk, hm⟩
    · exact ⟨hk, hm⟩

theorem from_enter {callable : Callable} (hcallable : callable.From literal) (name : String)
    (args : List Integer) (location : Span) {k : Pending .value} (hk : k.From literal)
    (hm : m.From literal) : (enter name args location k m callable).From literal := by
  cases callable with
  | builtin builtin =>
    rw [enter]
    split
    · split
      · exact ⟨trivial, hk, hm⟩
      · exact ⟨hk, hm⟩
    · exact ⟨hk, hm⟩
  | defined function =>
    rw [Callable.From, FunctionDef.texts_eq] at hcallable
    rw [enter]
    split
    · split
      · exact ⟨hk, hm⟩
      · exact ⟨hcallable, hk, hm.push (Eval.frameOf_from function args)⟩
    · exact ⟨hk, hm⟩

theorem from_run {k : Pending .flow} (hk : k.From literal) (hm : m.From literal) {s : Stmt}
    (hs : ∀ text ∈ s.texts, literal text) : (run k m s).From literal := by
  cases s with
  | declare | print | giveBack => exact ⟨hs, hk, hm⟩
  | define function => exact ⟨hk, hm.define _ hs⟩
  | branch condition thenBlock elseBlock location =>
    rw [Stmt.texts, List.forall_mem_append, List.forall_mem_append] at hs
    exact ⟨hs.1, ⟨hs.2.1, hs.2.2, hk⟩, hm⟩

theorem from_branch {k : Pending .flow} (hk : k.From literal) (hm : m.From literal)
    {b : Option Block} (hb : ∀ text ∈ Block.textsElse b, literal text) :
    (branch k m b).From literal := by
  cases b with
  | none => exact ⟨hk, hm⟩
  | some b =>
    rw [Block.textsElse, Block.texts_eq] at hb
    exact ⟨hb, hk, hm⟩

theorem from_supply {v : Value} (hv : v.From literal) (hm : m.From literal) {k : Pending .value}
    (hk : k.From literal) : (supply v m k).From literal := by
  cases k with
  | right op left right location k => exact ⟨hk.1, hk.2, hm⟩
  | operation op a left right location k =>
    refine from_ofResult (.bind (.integer _ _ _) fun i => .bind (.integer _ _ _) fun j =>
      .bind (.operation _ _ _ _) fun result => .pure _) k hk hm fun w hw => ?_
    refine ⟨?_, hk, hm⟩
    simp only [bind_ok, pure_ok] at hw
    obtain ⟨_, _, -, _, _, -, _, _, -, rfl, -⟩ := hw
    trivial
  | argument name callable before e es location k =>
    exact from_ofResult (.integer _ _ _) k hk.2.2 hm fun i _ =>
      from_arguments hk.1 _ _ _ hk.2.2 hm hk.2.1
  | declare name k => exact ⟨hk, hm.declare name hv⟩
  | print k => exact ⟨hk, hm.print hv⟩
  | branch condition thenBlock elseBlock k =>
    refine from_ofResult (.integer _ _ _) k hk.2.2 hm fun test _ => from_branch hk.2.2 hm ?_
    split
    · exact hk.1
    · exact hk.2.1
  | giveBack e k =>
    refine from_ofResult (.bind (.integer _ _ _) fun i => .pure _) k hk hm fun f _ => ?_
    exact ⟨hk, hm⟩

theorem from_finish {f : Flow} {k : Pending .flow} (hk : k.From literal) (hm : m.From literal)
    {t : State} (h : finish f m k = some t) : t.From literal := by
  cases k with
  | finish => cases h
  | statements ss k =>
    cases f with
    | done =>
      cases h
      exact ⟨hk.1, hk.2, hm⟩
    | returned i =>
      cases h
      exact ⟨hk.2, hm⟩
  | leave k =>
    cases h
    exact ⟨trivial, hk, hm.pop⟩

theorem from_unwind {awaited : Awaited} {reason : RuntimeFault} {k : Pending awaited}
    (hk : k.From literal) (hm : m.From literal) {t : State} (h : unwind reason m k = some t) :
    t.From literal := by
  cases k with
  | finish => cases h
  | leave k =>
    cases h
    exact ⟨hk, hm.pop⟩
  | operation | declare | print | giveBack =>
    cases h
    exact ⟨hk, hm⟩
  | right | statements =>
    cases h
    exact ⟨hk.2, hm⟩
  | argument | branch =>
    cases h
    exact ⟨hk.2.2, hm⟩

end Steps

theorem Next.from {s t : State} (h : s.Next t) (hs : s.From literal) : t.From literal := by
  cases s with
  | expr e k m =>
    cases h
    exact from_begin hs.2.1 hs.2.2 hs.1
  | call name callable args location k m =>
    cases h
    exact from_enter hs.1 name args location hs.2.1 hs.2.2
  | value v k m =>
    cases h
    exact from_supply hs.1 hs.2.2 hs.2.1
  | stmt s k m =>
    cases h
    exact from_run hs.2.1 hs.2.2 hs.1
  | stmts ss k m =>
    cases ss with
    | nil =>
      cases h
      exact hs.2
    | cons s ss =>
      cases h
      obtain ⟨hss, hk, hm⟩ := hs
      rw [Stmt.textsAll, List.forall_mem_append] at hss
      exact ⟨hss.1, ⟨hss.2, hk⟩, hm⟩
  | flow f k m => exact from_finish hs.1 hs.2 h
  | fault reason k m => exact from_unwind hs.1 hs.2 h

theorem From.of_reaches {s t : State} (hs : s.From literal) (h : Reaches s t) : t.From literal := by
  induction h with
  | refl => exact hs
  | tail _ hstep ih => exact hstep.from ih

theorem machine_of_result? {s : State} {result : Except RuntimeFault Unit × Machine}
    (h : s.result? = some result) : s.machine = result.2 := by
  cases s with
  | expr | call | value | stmt | stmts => cases h
  | flow f k m =>
    cases k with
    | leave | statements => cases h
    | finish =>
      cases h
      rfl
  | fault reason k m =>
    cases k with
    | finish =>
      cases h
      rfl
    | _ => cases h

end State

/-! ## The scripts of a session -/

namespace Machine

section Scripts

variable {m : Machine} {earlier : List Script} {script : Script} {program : Program}

/-- The script adds its own literals to those of the scripts before it, and in every state of its run
these are all there is. -/
theorem From.start (hm : m.From (QuotedIn earlier)) (hprogram : script.program = .ok program) :
    (State.start program m).From (QuotedIn (earlier ++ [script])) := by
  refine ⟨fun text htext => ?_, trivial, hm.mono fun text htext => htext.append [script]⟩
  have hscript : script ∈ earlier ++ [script] := List.mem_append_right _ (List.mem_singleton_self _)
  exact ⟨script, hscript, Script.quotes_of_mem_texts hprogram htext⟩

theorem From.runScript (hm : m.From (QuotedIn earlier)) (script : Script) :
    (m.runScript script).2.From (QuotedIn (earlier ++ [script])) := by
  unfold Machine.runScript
  split
  · exact hm.mono fun text htext => htext.append [script]
  · next program hprogram =>
    obtain ⟨last, hrun, hresult⟩ := start_reaches program m
    have hlast := ((hm.start hprogram).of_reaches hrun).machine
    rwa [State.machine_of_result? hresult] at hlast

theorem From.afterAll (hm : m.From (QuotedIn earlier)) (scripts : List Script) :
    (m.afterAll scripts).From (QuotedIn (earlier ++ scripts)) := by
  induction scripts generalizing m earlier with
  | nil => rwa [List.append_nil]
  | cons script scripts ih =>
    have hstep := ih (hm.withoutOutput.runScript script)
    rwa [List.append_assoc] at hstep

end Scripts

end Machine

/-- The line is an integer of the language in decimal, or one of the given texts. -/
def LineFrom (literal : String → Prop) (line : String) : Prop :=
  (∃ n : Int, Integer.Fits n ∧ line = toString n) ∨ literal line

theorem Machine.From.lineFrom {literal : String → Prop} {m : Machine} (hm : m.From literal)
    {line : String} (h : line ∈ m.output) : LineFrom literal line := by
  obtain ⟨v, hv, rfl⟩ := hm.lines line h
  cases v with
  | integer i => exact .inl ⟨i.val, i.fits, rfl⟩
  | text content => exact .inr hv

/-- Every variable in a frame that holds a text holds one of the given ones. -/
def Environment.TextsFrom (literal : String → Prop) (env : Environment) : Prop :=
  ∀ frame ∈ env.frames, ∀ name text, frame.get? name = some (.text text) → literal text

theorem Machine.From.textsFrom {literal : String → Prop} {m : Machine} (hm : m.From literal) :
    m.env.TextsFrom literal :=
  fun frame hframe name text htext => hm.frames frame hframe name (.text text) htext

/-- Each line that a script prints, whether it fails in the end or not, is an integer in decimal or
the contents of one of its string literals. In a session the literals are those of the scripts run so
far, and in every state of a run they are the only texts that variables hold. Calls, operations and
what is given back deal in integers alone. -/
theorem texts_from_literals (earlier : List Script) (script : Script) :
    (∀ line ∈ script.run.2, LineFrom script.Quotes line) ∧
    (let m := (Machine.initial.afterAll earlier).withoutOutput
     let literal := QuotedIn (earlier ++ [script])
     (∀ line ∈ (m.runScript script).2.output, LineFrom literal line) ∧
     (m.runScript script).2.env.TextsFrom literal ∧
     ∀ program s, script.program = .ok program → State.Reaches (State.start program m) s →
       s.machine.env.TextsFrom literal) ∧
    ∀ room, Eval.OnIntegers (Eval.invoke room) := by
  have hsession : (Machine.initial.afterAll earlier).withoutOutput.From (QuotedIn earlier) :=
    ((Machine.initial_from (QuotedIn [])).afterAll earlier).withoutOutput
  have hafter := hsession.runScript script
  refine ⟨fun line hline => ?_, ⟨fun line hline => hafter.lineFrom hline, hafter.textsFrom, ?_⟩,
    fun room => Eval.onIntegers _⟩
  · have halone := ((Machine.initial_from (QuotedIn [])).runScript script).lineFrom hline
    refine halone.imp_right ?_
    rintro ⟨source, hsource, hquotes⟩
    rwa [List.mem_singleton.1 hsource] at hquotes
  · intro program s hprogram hreaches
    exact ((hsession.start hprogram).of_reaches hreaches).machine.textsFrom

def definingGreeting : Script := ⟨"<repl>", "funksiya f() \x7b chop \"salom\"; \x7d"⟩

def callingGreeting : Script := ⟨"<repl>", "soni x = \"olma\"; chop x; chop f(); chop x + 1;"⟩

theorem texts_from_literals_session :
    let after := ((Machine.initial.afterAll [definingGreeting]).withoutOutput.runScript
      callingGreeting).2
    after.output = #["olma", "salom", "0"] ∧
      LineFrom (QuotedIn [definingGreeting, callingGreeting]) "salom" ∧
      QuotedIn [definingGreeting, callingGreeting] "olma" := by
  obtain ⟨-, ⟨hlines, htexts, -⟩, -⟩ := texts_from_literals [definingGreeting] callingGreeting
  have houtput : ((Machine.initial.afterAll [definingGreeting]).withoutOutput.runScript
      callingGreeting).2.output = #["olma", "salom", "0"] := by
    decide +kernel
  have hglobal : ((Machine.initial.afterAll [definingGreeting]).withoutOutput.runScript
      callingGreeting).2.env.globals.get? "x" = some (.text "olma") := by
    decide +kernel
  refine ⟨houtput, hlines "salom" (by simp [houtput]), ?_⟩
  exact htexts _ (List.mem_append_right _ (List.mem_singleton_self _)) "x" "olma" hglobal

end UzScript
