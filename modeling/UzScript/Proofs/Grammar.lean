import UzScript.Syntax.Basic
import UzScript.Token.Basic

/-! # The grammar

The grammar of the language, as classes of phrases. A phrase has tokens, a height, and the tree
that it stands for. The height of a phrase is the greatest number of expressions and blocks on any
path down its derivation. The trees have no locations. -/

set_option autoImplicit false

namespace UzScript.Grammar

/-- A class of phrases, each given by its tokens, its height and its tree. -/
abbrev Phrase (α : Type) := List Token → Nat → α → Prop

/-- `{ item }` -/
inductive Repeated {α : Type} (item : Phrase α) : Phrase (List α)
  | none : Repeated item [] 0 []
  | more {ts us : List Token} {h k : Nat} {a : α} {as : List α}
      (first : item ts h a) (others : Repeated item us k as) :
      Repeated item (ts ++ us) (max h k) (a :: as)

/-- `"," item` -/
inductive AfterComma {α : Type} (item : Phrase α) : Phrase α
  | intro {ts : List Token} {h : Nat} {a : α} (phrase : item ts h a) :
      AfterComma item (.comma :: ts) h a

/-- `[ item { "," item } ]` -/
inductive Listed {α : Type} (item : Phrase α) : Phrase (List α)
  | none : Listed item [] 0 []
  | some {ts us : List Token} {h k : Nat} {a : α} {as : List α}
      (first : item ts h a) (others : Repeated (AfterComma item) us k as) :
      Listed item (ts ++ us) (max h k) (a :: as)

/-- `operand { operator operand }`, grouped from the left -/
inductive Chain (accepts : Operator → Bool) (operand : Phrase Expr) : Phrase Expr
  | first {ts : List Token} {h : Nat} {e : Expr} (phrase : operand ts h e) :
      Chain accepts operand ts h e
  | further {ts us : List Token} {h k : Nat} {left right : Expr} {op : Operator}
      (front : Chain accepts operand ts h left) (accepted : accepts op = true)
      (last : operand us k right) :
      Chain accepts operand (ts ++ .operator op :: us) (max h k) (.binary op left right .zero)

/-- `operand [ comparison operand ]` -/
inductive Compared (operand : Phrase Expr) : Phrase Expr
  | plain {ts : List Token} {h : Nat} {e : Expr} (phrase : operand ts h e) :
      Compared operand ts h e
  | compared {ts us : List Token} {h k : Nat} {left right : Expr} {op : Operator}
      (first : operand ts h left) (accepted : op.isComparison = true)
      (second : operand us k right) :
      Compared operand (ts ++ .operator op :: us) (max h k) (.binary op left right .zero)

/-- `INT | STRING | IDENT [ "(" [ expression { "," expression } ] ")" ] | "(" expression ")"
| "[" [ expression { "," expression } ] "]"` -/
inductive Primary (expression : Phrase Expr) : Phrase Expr
  | integer (value : Integer) : Primary expression [.integer value] 0 (.integer value .zero)
  | text (value : String) : Primary expression [.text value] 0 (.text value .zero)
  | name (name : String) : Primary expression [.ident name] 0 (.variable ⟨name, .zero⟩)
  | call (name : String) {ts : List Token} {h : Nat} {es : List Expr}
      (arguments : Listed expression ts h es) :
      Primary expression (.ident name :: .opening .round :: ts ++ [.closing .round]) h
        (.call ⟨name, .zero⟩ es .zero)
  | group {ts : List Token} {h : Nat} {e : Expr} (inner : expression ts h e) :
      Primary expression (.opening .round :: ts ++ [.closing .round]) h e
  | list {ts : List Token} {h : Nat} {es : List Expr} (elements : Listed expression ts h es) :
      Primary expression (.opening .square :: ts ++ [.closing .square]) h (.list es .zero)

/-- `additive [ comparison additive ]`, one level of its own, where `additive` is a chain of
`multiplicative` and `multiplicative` a chain of `primary` -/
inductive Expression : Phrase Expr
  | intro {ts : List Token} {h : Nat} {e : Expr}
      (phrase : Compared (Chain Operator.isAdditive
        (Chain Operator.isMultiplicative (Primary Expression))) ts h e) :
      Expression ts (h + 1) e

abbrev Multiplicative : Phrase Expr := Chain Operator.isMultiplicative (Primary Expression)

abbrev Additive : Phrase Expr := Chain Operator.isAdditive Multiplicative

inductive Parameter : Phrase Ident
  | intro (name : String) : Parameter [.ident name] 0 ⟨name, .zero⟩

/-- The five kinds of statements, with the given blocks inside. -/
inductive Statement (block : Phrase UzScript.Block) : Phrase Stmt
  | declare (name : String) {ts : List Token} {h : Nat} {e : Expr} (value : Expression ts h e) :
      Statement block (.keyword .declare :: .ident name :: .assign :: ts ++ [.semicolon]) h
        (.declare ⟨name, .zero⟩ e .zero)
  | print {ts : List Token} {h : Nat} {e : Expr} (value : Expression ts h e) :
      Statement block (.keyword .print :: ts ++ [.semicolon]) h (.print e .zero)
  | branch {ts us : List Token} {h k : Nat} {e : Expr} {b : UzScript.Block}
      (condition : Expression ts h e) (thenBlock : block us k b) :
      Statement block
        (.keyword .branch :: .opening .round :: ts ++ .closing .round :: us)
        (max h k) (.branch e b none .zero)
  | branchElse {ts us vs : List Token} {h k l : Nat} {e : Expr} {b c : UzScript.Block}
      (condition : Expression ts h e) (thenBlock : block us k b) (elseBlock : block vs l c) :
      Statement block
        (.keyword .branch :: .opening .round :: ts ++ .closing .round :: us
          ++ .keyword .otherwise :: vs)
        (max (max h k) l) (.branch e b (some c) .zero)
  | define (name : String) {ts us : List Token} {h k : Nat} {ps : List Ident} {b : UzScript.Block}
      (parameters : Listed Parameter ts h ps) (body : block us k b) :
      Statement block
        (.keyword .define :: .ident name :: .opening .round :: ts ++ .closing .round :: us)
        (max h k) (.define ⟨⟨name, .zero⟩, ps, b, .zero⟩)
  | giveBack {ts : List Token} {h : Nat} {e : Expr} (value : Expression ts h e) :
      Statement block (.keyword .giveBack :: ts ++ [.semicolon]) h (.giveBack e .zero)

/-- `"{" { statement } "}"`, which is one level of its own -/
inductive Block : Phrase UzScript.Block
  | intro {ts : List Token} {h : Nat} {ss : List Stmt}
      (statements : Repeated (Statement Block) ts h ss) :
      Block (.opening .curly :: ts ++ [.closing .curly]) (h + 1) ⟨ss, .zero⟩

/-- `{ statement }`, the tokens of a whole program up to its end -/
inductive Program : Phrase UzScript.Program
  | intro {ts : List Token} {h : Nat} {ss : List Stmt}
      (statements : Repeated (Statement Block) ts h ss) : Program ts h ⟨ss, .zero⟩

/-! ## Induction

What holds of every expression whose inner expressions have it, holds of all expressions; and so it
is with blocks. -/

theorem Expression.induct {motive : Phrase Expr}
    (step : ∀ {ts : List Token} {h : Nat} {e : Expr}, Compared (Chain Operator.isAdditive
      (Chain Operator.isMultiplicative (Primary motive))) ts h e → motive ts (h + 1) e)
    {ts : List Token} {h : Nat} {e : Expr} (phrase : Expression ts h e) : motive ts h e :=
  @Expression.rec
    (fun ts h e _ => motive ts h e)
    (fun ts h e _ => Compared (Chain Operator.isAdditive
      (Chain Operator.isMultiplicative (Primary motive))) ts h e)
    (fun ts h e _ => Chain Operator.isAdditive
      (Chain Operator.isMultiplicative (Primary motive)) ts h e)
    (fun ts h e _ => Chain Operator.isMultiplicative (Primary motive) ts h e)
    (fun ts h e _ => Primary motive ts h e)
    (fun ts h es _ => Listed motive ts h es)
    (fun ts h es _ => Repeated (AfterComma motive) ts h es)
    (fun ts h e _ => AfterComma motive ts h e)
    (fun _ ih => step ih)
    (fun _ ih => .plain ih)
    (fun _ accepted _ first second => .compared first accepted second)
    (fun _ ih => .first ih)
    (fun _ accepted _ front last => .further front accepted last)
    (fun _ ih => .first ih)
    (fun _ accepted _ front last => .further front accepted last)
    .integer .text .name
    (fun name _ _ _ _ ih => .call name ih)
    (fun _ ih => .group ih)
    (fun _ ih => .list ih)
    .none
    (fun _ _ first others => .some first others)
    .none
    (fun _ _ first others => .more first others)
    (fun _ ih => .intro ih)
    ts h e phrase

theorem Block.induct {motive : Phrase UzScript.Block}
    (step : ∀ {ts : List Token} {h : Nat} {ss : List Stmt}, Repeated (Statement motive) ts h ss →
      motive (.opening .curly :: ts ++ [.closing .curly]) (h + 1) ⟨ss, .zero⟩)
    {ts : List Token} {h : Nat} {b : UzScript.Block} (phrase : Block ts h b) : motive ts h b :=
  @Block.rec
    (fun ts h b _ => motive ts h b)
    (fun ts h ss _ => Repeated (Statement motive) ts h ss)
    (fun ts h s _ => Statement motive ts h s)
    (fun _ ih => step ih)
    .none
    (fun _ _ first others => .more first others)
    (fun name _ _ _ value => .declare name value)
    (fun value => .print value)
    (fun condition _ thenBlock => .branch condition thenBlock)
    (fun condition _ _ thenBlock elseBlock => .branchElse condition thenBlock elseBlock)
    (fun name _ _ _ _ _ _ parameters _ body => .define name parameters body)
    (fun value => .giveBack value)
    ts h b phrase

/-! ## The end of a source is in no phrase -/

theorem Repeated.no_end {α : Type} {item : Phrase α}
    (hitem : ∀ {ts : List Token} {h : Nat} {a : α}, item ts h a → Token.endOfFile ∉ ts)
    {ts : List Token} {h : Nat} {as : List α} (phrase : Repeated item ts h as) :
    Token.endOfFile ∉ ts := by
  induction phrase with
  | none => simp
  | more first _ ih => simp [hitem first, ih]

theorem Listed.no_end {α : Type} {item : Phrase α}
    (hitem : ∀ {ts : List Token} {h : Nat} {a : α}, item ts h a → Token.endOfFile ∉ ts)
    {ts : List Token} {h : Nat} {as : List α} (phrase : Listed item ts h as) :
    Token.endOfFile ∉ ts := by
  cases phrase with
  | none => simp
  | some first others =>
    have hcomma {ts : List Token} {h : Nat} {a : α} (after : AfterComma item ts h a) :
        Token.endOfFile ∉ ts := by
      obtain ⟨phrase⟩ := after
      simp [hitem phrase]
    simp [hitem first, others.no_end hcomma]

theorem Chain.no_end {accepts : Operator → Bool} {operand : Phrase Expr}
    (hoperand : ∀ {ts : List Token} {h : Nat} {e : Expr}, operand ts h e → Token.endOfFile ∉ ts)
    {ts : List Token} {h : Nat} {e : Expr} (phrase : Chain accepts operand ts h e) :
    Token.endOfFile ∉ ts := by
  induction phrase with
  | first phrase => exact hoperand phrase
  | further _ _ last ih => simp [ih, hoperand last]

theorem Primary.no_end {inner : Phrase Expr}
    (hinner : ∀ {ts : List Token} {h : Nat} {e : Expr}, inner ts h e → Token.endOfFile ∉ ts)
    {ts : List Token} {h : Nat} {e : Expr} (phrase : Primary inner ts h e) :
    Token.endOfFile ∉ ts := by
  cases phrase with
  | integer | text | name => simp
  | call _ arguments => simp [arguments.no_end hinner]
  | group phrase => simp [hinner phrase]
  | list elements => simp [elements.no_end hinner]

theorem Expression.no_end {ts : List Token} {h : Nat} {e : Expr} (phrase : Expression ts h e) :
    Token.endOfFile ∉ ts := by
  apply Expression.induct (motive := fun ts _ _ => Token.endOfFile ∉ ts) _ phrase
  intro ts h e compared
  have hadditive {ts : List Token} {h : Nat} {e : Expr} (additive : Chain Operator.isAdditive
      (Chain Operator.isMultiplicative (Primary fun ts _ _ => Token.endOfFile ∉ ts)) ts h e) :
      Token.endOfFile ∉ ts :=
    additive.no_end fun factors => factors.no_end fun primary => primary.no_end id
  cases compared with
  | plain phrase => exact hadditive phrase
  | compared first _ second => simp [hadditive first, hadditive second]

theorem Statement.no_end {block : Phrase UzScript.Block}
    (hblock : ∀ {ts : List Token} {h : Nat} {b : UzScript.Block}, block ts h b →
      Token.endOfFile ∉ ts)
    {ts : List Token} {h : Nat} {s : Stmt} (phrase : Statement block ts h s) :
    Token.endOfFile ∉ ts := by
  cases phrase with
  | declare _ value => simp [value.no_end]
  | print value => simp [value.no_end]
  | branch condition thenBlock => simp [condition.no_end, hblock thenBlock]
  | branchElse condition thenBlock elseBlock =>
    simp [condition.no_end, hblock thenBlock, hblock elseBlock]
  | define _ parameters body =>
    have hparameter {ts : List Token} {h : Nat} {i : Ident} (parameter : Parameter ts h i) :
        Token.endOfFile ∉ ts := by
      obtain ⟨name⟩ := parameter
      simp
    simp [parameters.no_end hparameter, hblock body]
  | giveBack value => simp [value.no_end]

theorem Block.no_end {ts : List Token} {h : Nat} {b : UzScript.Block} (phrase : Block ts h b) :
    Token.endOfFile ∉ ts := by
  apply Block.induct (motive := fun ts _ _ => Token.endOfFile ∉ ts) _ phrase
  intro ts h ss statements
  have hstatements := statements.no_end fun statement => statement.no_end id
  simp [hstatements]

theorem Program.no_end {ts : List Token} {h : Nat} {P : UzScript.Program}
    (phrase : Program ts h P) : Token.endOfFile ∉ ts := by
  obtain ⟨statements⟩ := phrase
  exact statements.no_end fun statement => statement.no_end Block.no_end

end UzScript.Grammar
