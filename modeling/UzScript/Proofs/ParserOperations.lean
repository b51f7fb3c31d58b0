import UzScript.Proofs.LexemeWindow
import UzScript.Proofs.LoopRuns

/-! # What the operations on a parser keep

A parser with a window can be used in many ways: operation after operation, whether they succeed or
not, with further operations inside a level or for the items of a list. Each use is compared with
the parser of the language. A parser of the language takes lexemes from the front only, and does not
know of windows and counts; so the window always stands at the front of an end of the stream, and
the count is restored. -/

set_option autoImplicit false

namespace UzScript

/-! ## What a parser leaves and takes -/

def remainder {ε σ α : Type} : EStateM.Result ε σ α → σ
  | .ok _ s => s
  | .error _ s => s

namespace Grammar

theorem Chain.ne_nil {accepts : Operator → Bool} {operand : Phrase Expr}
    (hoperand : ∀ {ts : List Token} {h : Nat} {e : Expr}, operand ts h e → ts ≠ [])
    {ts : List Token} {h : Nat} {e : Expr} (phrase : Chain accepts operand ts h e) : ts ≠ [] := by
  cases phrase with
  | first phrase => exact hoperand phrase
  | further front _ last => simp

theorem Expression.ne_nil {ts : List Token} {h : Nat} {e : Expr} (phrase : Expression ts h e) :
    ts ≠ [] := by
  have hadditive {ts : List Token} {h : Nat} {e : Expr} (additive : Additive ts h e) : ts ≠ [] := by
    refine additive.ne_nil fun factors => factors.ne_nil fun primary => ?_
    cases primary <;> simp
  obtain ⟨compared⟩ := phrase
  cases compared with
  | plain phrase => exact hadditive phrase
  | compared first _ second => simp

end Grammar

namespace Parser

variable {α β : Type}

/-- The parser takes lexemes from the front only, also when it fails. -/
def LeavesEnd (p : Parser α) : Prop := ∀ ls, remainder (p ls) <:+ ls

namespace LeavesEnd

theorem of_predicts {p q : Parser α} {L : Language Token} (h : Predicts p q L) : LeavesEnd p := by
  intro ls
  have hls := h ls
  generalize p ls = result at hls
  cases hls with
  | ok split => exact ⟨_, split.symm⟩
  | found split => exact ⟨_, split.symm⟩
  | missing => exact List.nil_suffix
  | nesting split => exact ⟨_, split.symm⟩

theorem shrinks {p : Parser α} (h : LeavesEnd p) : Shrinks p := by
  intro ls a rest hrun
  have hrest := h ls
  rw [hrun] at hrest
  exact hrest.length_le

theorem pure (a : α) : LeavesEnd (Pure.pure a) := fun _ => List.suffix_refl _

theorem throw (fault : ParseFault) : LeavesEnd (α := α) (MonadExcept.throw fault) :=
  fun _ => List.suffix_refl _

theorem get : LeavesEnd MonadState.get := fun _ => List.suffix_refl _

theorem step : LeavesEnd Parser.step := List.tail_suffix

theorem bind {p : Parser α} {f : α → Parser β} (hp : LeavesEnd p) (hf : ∀ a, LeavesEnd (f a)) :
    LeavesEnd (p >>= f) := by
  intro ls
  have hfirst := hp ls
  cases hrun : p ls with
  | ok a mid =>
    rw [hrun] at hfirst
    rw [bind_of_ok hrun]
    exact (hf a mid).trans hfirst
  | error fault rest =>
    rw [hrun] at hfirst
    rw [bind_of_error hrun]
    exact hfirst

theorem ite {condition : Prop} [Decidable condition] {p q : Parser α} (hp : LeavesEnd p)
    (hq : LeavesEnd q) : LeavesEnd (if condition then p else q) := by
  split
  · exact hp
  · exact hq

theorem observing {p : Parser α} (hp : LeavesEnd p) : LeavesEnd (observing p) := by
  intro ls
  have hfirst := hp ls
  change remainder (EStateM.tryCatch (EStateM.bind p _) _ ls) <:+ ls
  unfold EStateM.tryCatch EStateM.bind
  cases hrun : p ls with
  | ok a rest => rwa [hrun] at hfirst
  | error fault rest => rwa [hrun] at hfirst

theorem expectAmong (expected : List Expectation) (token : Token) :
    LeavesEnd (Parser.expectAmong expected token) := by
  intro ls
  cases ls with
  | nil => exact List.suffix_refl _
  | cons l rest =>
    change remainder ((if l.token = token then _ else _ : Parser Span) _) <:+ _
    split
    · exact List.suffix_cons l rest
    · exact List.suffix_refl _

theorem ident : LeavesEnd Parser.ident := of_predicts ident_predicts

theorem nested {p : Nat → Parser α} (hp : ∀ levels, LeavesEnd (p levels)) (levels : Nat) :
    LeavesEnd (Parser.nested p 1 levels) := by
  cases levels with
  | zero => exact .bind .get fun ls => .throw _
  | succ levels => exact hp levels

theorem furtherItems {item : Parser α} (hitem : LeavesEnd item) :
    (rounds : List Lexeme) → LeavesEnd (Parser.furtherItems item rounds)
  | [] => .pure []
  | _ :: rounds => by
    refine .bind .get fun ls => .ite ?_ (.pure [])
    exact .bind .step fun _ => .bind hitem fun first =>
      .bind (furtherItems hitem rounds) fun others => .pure _

theorem delimited {item : Parser α} (hitem : LeavesEnd item) (opening closing : Token) :
    LeavesEnd (Parser.delimited opening closing item) := by
  refine .bind (.expectAmong _ opening) fun first => .bind .get fun ls => .ite ?_ ?_
  · exact .bind (.pure []) fun _ => .bind (.expectAmong _ closing) fun _ => .pure _
  · refine .bind hitem fun head => .bind .get fun rounds => ?_
    refine .bind (.furtherItems hitem rounds) fun tail => ?_
    exact .bind (.pure _) fun _ => .bind (.expectAmong _ closing) fun _ => .pure _

end LeavesEnd

theorem Sound.consumes {p : Parser α} {erase : α → α} {phrase : Grammar.Phrase α} {limit : Nat}
    (hsound : Sound p erase phrase limit)
    (hphrase : ∀ {ts : List Token} {h : Nat} {a : α}, phrase ts h a → ts ≠ []) : Consumes p := by
  intro ls a rest hrun
  obtain ⟨front, h, rfl, -, hfront⟩ := hsound hrun
  have hne : front ≠ [] := fun hnil => hphrase hfront (List.map_eq_nil_iff.2 hnil)
  have hpos : 0 < front.length := List.length_pos_iff.2 hne
  rw [List.length_append]
  omega

theorem expression_consumes (levels : Nat) : Consumes (expression levels) :=
  (expression_sound levels).consumes Grammar.Expression.ne_nil

theorem block_consumes (levels : Nat) : Consumes (block levels) := by
  refine (block_sound levels).consumes fun phrase => ?_
  obtain ⟨statements⟩ := phrase
  simp

theorem statement_consumes (levels : Nat) : Consumes (statement levels) :=
  consumes_of_sound (statement_sound levels)

end Parser

/-! ## Operations -/

namespace WindowParser

variable {α β : Type}

/-- The constructs, each with a parser that counts and one that is told how many levels are left. -/
inductive Construct : {α : Type} → WindowParser α → ((levels : Nat) → Parser α) → Prop
  | program : Construct program Parser.program
  | statement : Construct statement Parser.statement
  | block : Construct block Parser.block
  | expression : Construct expression Parser.expression
  | declaration : Construct (Parser.declaration expression)
      fun levels => Parser.declaration (Parser.expression levels)
  | printing : Construct (Parser.printing expression)
      fun levels => Parser.printing (Parser.expression levels)
  | givingBack : Construct (Parser.givingBack expression)
      fun levels => Parser.givingBack (Parser.expression levels)
  | branching : Construct (Parser.branching expression block)
      fun levels => Parser.branching (Parser.expression levels) (Parser.block levels)
  | functionDef : Construct (Parser.functionDef block)
      fun levels => Parser.functionDef (Parser.block levels)
  | call : Construct (Parser.call expression)
      fun levels => Parser.call (Parser.expression levels)
  | listLiteral : Construct (Parser.listLiteral expression)
      fun levels => Parser.listLiteral (Parser.expression levels)

theorem Construct.agrees {op : WindowParser α} {p : Nat → Parser α} (h : Construct op p)
    {depth levels : Nat} (hlevels : depth + levels = nestingLimit) :
    Agrees depth op (p levels) := by
  have hvalue := Agrees.expression hlevels
  have hblock := Agrees.block hlevels
  cases h with
  | program => exact .program hlevels
  | statement => exact .statement hlevels
  | block => exact hblock
  | expression => exact hvalue
  | declaration => exact hvalue.declaration
  | printing => exact hvalue.printing
  | givingBack => exact hvalue.givingBack
  | branching => exact hvalue.branching hblock
  | functionDef => exact hblock.functionDef
  | call => exact hvalue.call
  | listLiteral => exact hvalue.listLiteral

theorem Construct.leavesEnd {op : WindowParser α} {p : Nat → Parser α} (h : Construct op p)
    (levels : Nat) : Parser.LeavesEnd (p levels) := by
  have hexpression := Parser.expression_predicts (Nat.le_refl levels)
  have hblock := Parser.block_predicts (Nat.le_refl levels)
  have hvalue : Parser.LeavesEnd (Parser.expression levels) := .of_predicts hexpression
  have hbody : Parser.LeavesEnd (Parser.block levels) := .of_predicts hblock
  cases h with
  | program => exact .of_predicts (Parser.program_predicts (Nat.le_refl levels))
  | statement => exact .of_predicts (Parser.statementOf_predicts hexpression hblock)
  | block => exact hbody
  | expression => exact hvalue
  | declaration => exact .of_predicts (Parser.declaration_predicts hexpression)
  | printing => exact .of_predicts (Parser.printing_predicts hexpression)
  | givingBack => exact .of_predicts (Parser.givingBack_predicts hexpression)
  | branching => exact .of_predicts (Parser.branching_predicts hexpression hblock)
  | functionDef =>
    exact .bind (.expectAmong _ _) fun _ => .bind .ident fun _ =>
      .bind (.delimited .ident _ _) fun _ => .bind hbody fun _ => .pure _
  | call => exact .bind .ident fun _ => .bind (hvalue.delimited _ _) fun _ => .pure _
  | listLiteral => exact .bind (hvalue.delimited _ _) fun _ => .pure _

/-- All that can be done with a parser: its operations, what is done inside a level or for an item,
and one thing after another, where what comes next may depend on what came before and a fault may be
kept. Each comes with what the parser of the language does instead. -/
inductive Operation : {α : Type} → WindowParser α → ((levels : Nat) → Parser α) → Prop
  | nextLexeme : Operation nextLexeme fun _ => Parser.take?
  | step : Operation step fun _ => Parser.step
  | current : Operation LexemeReader.current fun _ => LexemeReader.current
  | next : Operation LexemeReader.next fun _ => LexemeReader.next
  | expect (token : Token) : Operation (expect token) fun _ => Parser.expect token
  | ident : Operation ident fun _ => Parser.ident
  | delimited {α : Type} {item : WindowParser α} {p : Nat → Parser α} (opening closing : Token)
      (items : Operation item p) : Operation (Parser.delimited opening closing item)
        fun levels => Parser.delimited opening closing (p levels)
  | nested {α : Type} {inner : WindowParser α} {p : Nat → Parser α} (inside : Operation inner p) :
      Operation (nested inner) (Parser.nested p 1)
  | parse {α : Type} {op : WindowParser α} {p : Nat → Parser α} (construct : Construct op p) :
      Operation op p
  | pure {α : Type} (a : α) : Operation (Pure.pure a) fun _ => Pure.pure a
  | throw {α : Type} (fault : ParseFault) :
      Operation (α := α) (MonadExcept.throw fault) fun _ => MonadExcept.throw fault
  | bind {α β : Type} {op : WindowParser α} {p : Nat → Parser α} {f : α → WindowParser β}
      {g : α → Nat → Parser β} (first : Operation op p) (others : ∀ a, Operation (f a) (g a)) :
      Operation (op >>= f) fun levels => p levels >>= fun a => g a levels
  | observing {α : Type} {op : WindowParser α} {p : Nat → Parser α} (tried : Operation op p) :
      Operation (observing op : WindowParser (Except ParseFault α)) fun levels => observing (p levels)

namespace Operation

variable {op : WindowParser α} {p : Nat → Parser α}

theorem agrees (h : Operation op p) {depth levels : Nat} (hlevels : depth + levels = nestingLimit) :
    Agrees depth op (p levels) := by
  induction h generalizing depth levels with
  | nextLexeme => exact .nextLexeme
  | step => exact .step
  | current => exact .current
  | next => exact .next
  | expect token => exact .expect token
  | ident => exact .ident
  | delimited opening closing _ ih => exact (ih hlevels).delimited opening closing
  | nested _ ih =>
    cases levels with
    | zero =>
      obtain rfl : depth = nestingLimit := hlevels
      exact .tooDeep _
    | succ levels => exact .nested (ih (by omega)) (by omega)
  | parse construct => exact construct.agrees hlevels
  | pure a => exact .pure a
  | throw fault => exact .throw fault
  | bind _ _ ih ihs => exact .bind (ih hlevels) fun a => ihs a hlevels
  | observing _ ih => exact (ih hlevels).observing

theorem leavesEnd (h : Operation op p) (levels : Nat) : Parser.LeavesEnd (p levels) := by
  induction h generalizing levels with
  | nextLexeme => exact List.tail_suffix
  | step => exact .step
  | current => exact .bind .get fun _ => .pure _
  | next => exact .bind .get fun _ => .pure _
  | expect token => exact .expectAmong _ token
  | ident => exact .ident
  | delimited opening closing _ ih => exact (ih levels).delimited opening closing
  | nested _ ih => exact .nested ih levels
  | parse construct => exact construct.leavesEnd levels
  | pure a => exact .pure a
  | throw fault => exact .throw fault
  | bind _ _ ih ihs => exact .bind (ih levels) fun a => ihs a levels
  | observing _ ih => exact (ih levels).observing

end Operation

/-- How an operation ends, and how the parser of the language ends on what was left: with the same
result or fault and the same lexemes left, which are an end of those before. The count is as before. -/
inductive Kept (w : Window) :
    EStateM.Result Stop Window α → EStateM.Result ParseFault (List Lexeme) α → Prop
  | ok {a : α} {w' : Window} (left : w'.left <:+ w.left) (depth : w'.depth = w.depth) :
      Kept w (.ok a w') (.ok a w'.left)
  | fault {fault : ParseFault} {w' : Window} (left : w'.left <:+ w.left)
      (depth : w'.depth = w.depth) : Kept w (.error (.fault fault) w') (.error fault w'.left)

/-- The windows that come up while a parser is used: at the start, after an operation on it, and
where a level has been opened and what is to be done inside begins. -/
inductive Reached (stream : List Lexeme) : Window → Prop
  | start : Reached stream (.start stream)
  | after {α : Type} {op : WindowParser α} {p : Nat → Parser α} {w : Window}
      (before : Reached stream w) (operation : Operation op p) : Reached stream (remainder (op w))
  | inside {w : Window} (before : Reached stream w) (room : w.depth < nestingLimit) :
      Reached stream { w with depth := w.depth + 1 }

theorem remainder_seen (depth : Nat) (result : EStateM.Result ParseFault (List Lexeme) α) :
    remainder (seen depth result) = .front (remainder result) depth := by
  cases result <;> rfl

theorem Reached.eq_front {stream : List Lexeme} {w : Window} (h : Reached stream w) :
    ∃ ls depth levels, w = .front ls depth ∧ ls <:+ stream ∧ depth + levels = nestingLimit := by
  induction h with
  | start =>
    rw [Window.start_eq_front]
    exact ⟨stream, 0, nestingLimit, rfl, List.suffix_refl _, Nat.zero_add _⟩
  | after _ operation ih =>
    obtain ⟨ls, depth, levels, rfl, hls, hlevels⟩ := ih
    rw [operation.agrees hlevels ls, remainder_seen]
    exact ⟨_, depth, levels, rfl, (operation.leavesEnd levels ls).trans hls, hlevels⟩
  | inside _ room ih =>
    obtain ⟨ls, depth, levels, rfl, hls, hlevels⟩ := ih
    have hroom : depth < nestingLimit := room
    exact ⟨ls, depth + 1, levels - 1, rfl, hls, by omega⟩

theorem Kept.of_seen {ls : List Lexeme} {result : EStateM.Result ParseFault (List Lexeme) α}
    (h : remainder result <:+ ls) (depth : Nat) :
    Kept (.front ls depth) (seen depth result) result := by
  have hleft : (remainder (seen depth result)).left <:+ (Window.front ls depth).left := by
    rwa [remainder_seen, Window.left_front, Window.left_front]
  cases result with
  | ok a rest =>
    have hkept := Kept.ok (a := a) hleft rfl
    rwa [remainder_seen, Window.left_front] at hkept
  | error fault rest =>
    have hkept := @Kept.fault α _ fault _ hleft rfl
    rwa [remainder_seen, Window.left_front] at hkept

theorem Operation.kept {op : WindowParser α} {p : Nat → Parser α} (h : Operation op p)
    (ls : List Lexeme) {depth levels : Nat} (hlevels : depth + levels = nestingLimit) :
    Kept (.front ls depth) (op (.front ls depth)) (p levels ls) := by
  rw [h.agrees hlevels ls]
  exact .of_seen (h.leavesEnd levels ls) depth

/-- If the operation fails here, the window is as before. -/
def FailsInPlace (op : WindowParser α) (w : Window) : Prop :=
  ∀ stop w', op w = .error stop w' → w' = w

theorem expect_failsInPlace (token : Token) (w : Window) : FailsInPlace (expect token) w := by
  intro stop w' hrun
  rcases w with ⟨_ | lexeme, next, unread, depth⟩
  · cases hrun
    rfl
  · change (if lexeme.token = token then _ else _ : WindowParser Span) _ = _ at hrun
    split at hrun
    · cases hrun
    · cases hrun
      rfl

theorem ident_failsInPlace (w : Window) : FailsInPlace ident w := by
  intro stop w' hrun
  rcases w with ⟨_ | ⟨token, span⟩, next, unread, depth⟩
  · cases hrun
    rfl
  · cases token <;> cases hrun <;> rfl

/-- If the operation is successful here, it takes at least one lexeme. -/
def Takes (op : WindowParser α) (w : Window) : Prop :=
  ∀ a w', op w = .ok a w' → w'.left.length < w.left.length

theorem Construct.takes {op : WindowParser α} {p : Nat → Parser α} (h : Construct op p)
    (hconsumes : ∀ levels, Parser.Consumes (p levels)) (ls : List Lexeme) {depth levels : Nat}
    (hlevels : depth + levels = nestingLimit) : Takes op (.front ls depth) := by
  intro a w' hrun
  rw [h.agrees hlevels ls] at hrun
  cases hp : p levels ls with
  | ok b rest =>
    rw [hp] at hrun
    cases hrun
    rw [Window.left_front, Window.left_front]
    exact hconsumes levels hp
  | error fault rest =>
    rw [hp] at hrun
    cases hrun

/-! ## Loops -/

/-- The loops that the operations run, with what is left to do after them. -/
inductive Loop (levels : Nat) : {α β : Type} → (α → Parser β) → (List Lexeme → Bool) →
    (α → Parser α) → (α → Parser β) → Prop
  | items {α : Type} {item : WindowParser α} {p : Nat → Parser α} (operation : Operation item p) :
      Loop levels (Parser.moreItems (p levels)) (Parser.isAt .comma)
        (Parser.collect (Parser.nextItem (p levels))) pure
  | factors : Loop levels
      (Parser.moreOperands Operator.isMultiplicative (Parser.primary (Parser.expression levels)))
      (fun ls => (Parser.operatorAt Operator.isMultiplicative ls).isSome)
      (Parser.joinOperand Operator.isMultiplicative (Parser.primary (Parser.expression levels)))
      pure
  | terms : Loop levels
      (Parser.moreOperands Operator.isAdditive
        (Parser.operandChain Operator.isMultiplicative (Parser.primary (Parser.expression levels))))
      (fun ls => (Parser.operatorAt Operator.isAdditive ls).isSome)
      (Parser.joinOperand Operator.isAdditive
        (Parser.operandChain Operator.isMultiplicative (Parser.primary (Parser.expression levels))))
      pure
  | ofBlock (build : List Stmt → Span → Block) : Loop levels
      (Parser.moreOfBlock (Parser.statement levels) build)
      (fun ls => !Parser.isAt (.closing .curly) ls)
      (Parser.collect (Parser.blockStatement (Parser.statement levels))) (Parser.closeBlock build)
  | ofProgram : Loop levels (Parser.moreStatements (Parser.statement levels)) Parser.goesOn
      (Parser.collect (Parser.statement levels)) pure

theorem Loop.isLoop {levels : Nat} {loop : α → Parser β} {goes : List Lexeme → Bool}
    {round : α → Parser α} {finish : α → Parser β} (h : Loop levels loop goes round finish) :
    Parser.IsLoop loop goes round finish := by
  have hprimary := Parser.primary_sound (Parser.expression_sound levels)
  cases h with
  | items operation => exact Parser.moreItems_isLoop (operation.leavesEnd levels).shrinks
  | factors => exact Parser.moreOperands_isLoop _ hprimary.shrinks
  | terms => exact Parser.moreOperands_isLoop _ (Parser.operandChain_sound hprimary).shrinks
  | ofBlock build => exact Parser.moreOfBlock_isLoop build (Parser.statement_consumes levels) rfl
  | ofProgram => exact Parser.moreStatements_isLoop (Parser.statement_consumes levels)

/-- Whatever is done with a parser over a finite stream, the lexemes that are left are an end of the
stream, and none are left if the window is empty. Every operation ends as the parser of the language
ends on the lexemes that are left, with the levels that are left, and leaves the count as it was; an
expected token or identifier that does not come leaves all as it was; a statement, a block and an
expression take at least one lexeme; and every loop ends by itself. -/
theorem operations_keep_stream (stream : List Lexeme) :
    (∀ w, Reached stream w →
      (w.left <:+ stream ∧ (w.current = none → w.left = [])) ∧
      (∀ {α : Type} {op : WindowParser α} {p : Nat → Parser α}, Operation op p →
        Kept w (op w) (p (nestingLimit - w.depth) w.left)) ∧
      (∀ token, FailsInPlace (expect token) w) ∧ FailsInPlace ident w ∧
      Takes statement w ∧ Takes block w ∧ Takes expression w) ∧
    ∀ {levels : Nat} {α β : Type} {loop : α → Parser β} {goes : List Lexeme → Bool}
      {round : α → Parser α} {finish : α → Parser β}, Loop levels loop goes round finish →
      ∀ a ls, ∃ result, Parser.LoopRun goes round a ls result ∧
        loop a ls = Parser.followedBy finish result := by
  refine ⟨fun w hw => ?_, fun h => h.isLoop.ends⟩
  obtain ⟨ls, depth, levels, rfl, hls, hlevels⟩ := hw.eq_front
  have hbudget : nestingLimit - (Window.front ls depth).depth = levels := by
    change nestingLimit - depth = levels
    omega
  rw [hbudget, Window.left_front]
  refine ⟨⟨hls, fun hcurrent => List.head?_eq_none_iff.1 hcurrent⟩, fun h => h.kept ls hlevels,
    fun token => expect_failsInPlace token _, ident_failsInPlace _, ?_, ?_, ?_⟩
  · exact Construct.statement.takes Parser.statement_consumes ls hlevels
  · exact Construct.block.takes Parser.block_consumes ls hlevels
  · exact Construct.expression.takes Parser.expression_consumes ls hlevels

/-- `chop (0;`, where the bracket is not closed -/
def unclosed : List Lexeme :=
  [⟨.keyword .print, ⟨0, 4⟩⟩, ⟨.opening .round, ⟨5, 6⟩⟩, ⟨.integer .zero, ⟨6, 7⟩⟩,
    ⟨.semicolon, ⟨7, 8⟩⟩]

/-- The statement fails two levels deep, at the semicolon. Then a comma is expected in vain, and the
semicolon is taken inside a level. -/
theorem operations_keep_stream_unclosed :
    remainder (statement (.start unclosed)) =
        .front [⟨.semicolon, ⟨7, 8⟩⟩] 0 ∧
      [⟨.semicolon, ⟨7, 8⟩⟩] <:+ unclosed ∧
      FailsInPlace (expect .comma) (.front [⟨.semicolon, ⟨7, 8⟩⟩] 0) ∧
      Kept (.front [⟨.semicolon, ⟨7, 8⟩⟩] 0)
        (nested (expect .semicolon) (.front [⟨.semicolon, ⟨7, 8⟩⟩] 0)) (.ok ⟨7, 8⟩ []) ∧
      ∃ result, Parser.LoopRun (Parser.isAt .comma) (Parser.collect (Parser.nextItem Parser.ident))
          [] [⟨.comma, ⟨0, 1⟩⟩, ⟨.ident "x", ⟨1, 2⟩⟩] result ∧
        EStateM.Result.ok [⟨"x", ⟨1, 2⟩⟩] [] = Parser.followedBy pure result := by
  have hfailed : remainder (statement (.start unclosed)) =
      .front [⟨.semicolon, ⟨7, 8⟩⟩] 0 := rfl
  have hreached : Reached unclosed (.front [⟨.semicolon, ⟨7, 8⟩⟩] 0) := by
    rw [← hfailed]
    exact .after .start (.parse .statement)
  obtain ⟨hwindows, hloops⟩ := operations_keep_stream unclosed
  obtain ⟨⟨hleft, -⟩, hkept, hexpect, -⟩ := hwindows _ hreached
  have hitems := @Loop.items 0 _ _ _ .ident
  exact ⟨hfailed, hleft, hexpect .comma, hkept (.nested (.expect .semicolon)), hloops hitems [] _⟩

end WindowParser

end UzScript
