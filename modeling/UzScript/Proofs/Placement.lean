import UzScript.Proofs.ProgramRecognition

/-! # Where the parts of a program stand

A layout says which spans the parts of a program may take, which names may stand where, and which
names may be called. Lexemes in order give a layout: a part starts where a lexeme starts and stops
where one stops, and a name is a lexeme itself. What the parser makes of lexemes lies on their
layout. -/

set_option autoImplicit false

namespace UzScript

structure Layout where
  spans : Span → Prop
  names : Ident → Prop
  calls : String → Prop
  span_of_name {ident : Ident} (h : names ident) : spans ident.location

/-- The second layout has room for all that the first one has room for. -/
structure Layout.Extends (layout other : Layout) : Prop where
  spans {span : Span} (h : layout.spans span) : other.spans span
  names {ident : Ident} (h : layout.names ident) : other.names ident
  calls {name : String} (h : layout.calls name) : other.calls name

inductive Expr.LiesOn (layout : Layout) : Expr → Prop
  | integer (value : Integer) {location : Span} (span : layout.spans location) :
      LiesOn layout (.integer value location)
  | text (value : String) {location : Span} (span : layout.spans location) :
      LiesOn layout (.text value location)
  | ident {ident : Ident} (name : layout.names ident) : LiesOn layout (.variable ident)
  | binary (op : Operator) {left right : Expr} {location : Span} (first : LiesOn layout left)
      (second : LiesOn layout right) (span : layout.spans location) :
      LiesOn layout (.binary op left right location)
  | call {function : Ident} {arguments : List Expr} {location : Span}
      (name : layout.names function) (called : layout.calls function.name)
      (all : ∀ e ∈ arguments, LiesOn layout e) (span : layout.spans location) :
      LiesOn layout (.call function arguments location)
  | list {elements : List Expr} {location : Span} (all : ∀ e ∈ elements, LiesOn layout e)
      (span : layout.spans location) : LiesOn layout (.list elements location)

mutual

inductive Stmt.LiesOn (layout : Layout) : Stmt → Prop
  | declare {ident : Ident} {value : Expr} {location : Span} (name : layout.names ident)
      (inner : value.LiesOn layout) (span : layout.spans location) :
      Stmt.LiesOn layout (.declare ident value location)
  | print {value : Expr} {location : Span} (inner : value.LiesOn layout)
      (span : layout.spans location) : Stmt.LiesOn layout (.print value location)
  | branch {condition : Expr} {thenBlock : Block} {elseBlock : Option Block} {location : Span}
      (test : condition.LiesOn layout) (first : Block.LiesOn layout thenBlock)
      (second : ∀ b ∈ elseBlock, Block.LiesOn layout b) (span : layout.spans location) :
      Stmt.LiesOn layout (.branch condition thenBlock elseBlock location)
  | define {function : FunctionDef} (inner : FunctionDef.LiesOn layout function) :
      Stmt.LiesOn layout (.define function)
  | giveBack {value : Expr} {location : Span} (inner : value.LiesOn layout)
      (span : layout.spans location) : Stmt.LiesOn layout (.giveBack value location)

inductive Block.LiesOn (layout : Layout) : Block → Prop
  | intro {statements : List Stmt} {location : Span}
      (all : ∀ s ∈ statements, Stmt.LiesOn layout s) (span : layout.spans location) :
      Block.LiesOn layout ⟨statements, location⟩

inductive FunctionDef.LiesOn (layout : Layout) : FunctionDef → Prop
  | intro {ident : Ident} {parameters : List Ident} {body : Block} {location : Span}
      (name : layout.names ident) (all : ∀ i ∈ parameters, layout.names i)
      (inner : Block.LiesOn layout body) (span : layout.spans location) :
      FunctionDef.LiesOn layout ⟨ident, parameters, body, location⟩

end

section Mono

variable {layout other : Layout} (h : layout.Extends other)

include h

theorem Expr.LiesOn.mono {e : Expr} (he : e.LiesOn layout) : e.LiesOn other := by
  induction he with
  | integer value span => exact .integer value (h.spans span)
  | text value span => exact .text value (h.spans span)
  | ident name => exact .ident (h.names name)
  | binary op _ _ span first second => exact .binary op first second (h.spans span)
  | call name called _ span all => exact .call (h.names name) (h.calls called) all (h.spans span)
  | list _ span all => exact .list all (h.spans span)

mutual

theorem Stmt.LiesOn.mono {s : Stmt} : s.LiesOn layout → s.LiesOn other
  | .declare name inner span => .declare (h.names name) (inner.mono h) (h.spans span)
  | .print inner span => .print (inner.mono h) (h.spans span)
  | .branch test first second span =>
    .branch (test.mono h) first.mono (fun b hb => (second b hb).mono) (h.spans span)
  | .define inner => .define inner.mono
  | .giveBack inner span => .giveBack (inner.mono h) (h.spans span)

theorem Block.LiesOn.mono {b : Block} : b.LiesOn layout → b.LiesOn other
  | .intro all span => .intro (fun s hs => (all s hs).mono) (h.spans span)

theorem FunctionDef.LiesOn.mono {f : FunctionDef} : f.LiesOn layout → f.LiesOn other
  | .intro name all inner span =>
    .intro (h.names name) (fun i hi => h.names (all i hi)) inner.mono (h.spans span)

end

end Mono

theorem Expr.LiesOn.span {layout : Layout} {e : Expr} (h : e.LiesOn layout) :
    layout.spans e.location := by
  cases h with
  | integer _ span | text _ span | binary _ _ _ span | call _ _ _ span | list _ span => exact span
  | ident name => exact layout.span_of_name name

theorem Block.LiesOn.span {layout : Layout} {b : Block} (h : b.LiesOn layout) :
    layout.spans b.location := by
  obtain ⟨-, span⟩ := h
  exact span

/-! ## Layouts of lexemes -/

/-- The lexemes come one after the other. -/
structure Ordered (ls : List Lexeme) : Prop where
  apart : ls.Pairwise fun l l' => l.span.stop ≤ l'.span.start
  forward : ∀ l ∈ ls, l.span.start ≤ l.span.stop

namespace Ordered

theorem suffix {ls rest : List Lexeme} (h : Ordered ls) (hrest : rest <:+ ls) : Ordered rest :=
  ⟨h.apart.sublist hrest.sublist, fun l hl => h.forward l (hrest.subset hl)⟩

theorem start_le_stop {l l' : Lexeme} {ls : List Lexeme} (h : Ordered (l :: ls)) (hl' : l' ∈ ls) :
    l.span.start ≤ l'.span.stop := by
  have hfirst := h.forward l List.mem_cons_self
  have hapart := List.rel_of_pairwise_cons h.apart hl'
  have hlast := h.forward l' (List.mem_cons_of_mem l hl')
  omega

end Ordered

/-- Parts run from the start of a lexeme to the stop of one. -/
def Layout.ofLexemes (ls : List Lexeme) : Layout where
  spans span := span.start ≤ span.stop ∧ (∃ l ∈ ls, span.start = l.span.start) ∧
    ∃ l ∈ ls, span.stop = l.span.stop
  names ident := ident.location.start ≤ ident.location.stop ∧
    ⟨.ident ident.name, ident.location⟩ ∈ ls
  calls name := ∃ l ∈ ls, l.token = .ident name
  span_of_name h := ⟨h.1, ⟨_, h.2, rfl⟩, _, h.2, rfl⟩

namespace Layout

variable {ls : List Lexeme}

theorem extends_of_suffix {rest : List Lexeme} (h : rest <:+ ls) :
    (ofLexemes rest).Extends (ofLexemes ls) where
  spans hspan := by
    obtain ⟨hle, ⟨l, hl, hstart⟩, l', hl', hstop⟩ := hspan
    exact ⟨hle, ⟨l, h.subset hl, hstart⟩, l', h.subset hl', hstop⟩
  names hname := ⟨hname.1, h.subset hname.2⟩
  calls hcalled := by
    obtain ⟨l, hl, htoken⟩ := hcalled
    exact ⟨l, h.subset hl, htoken⟩

theorem span_of_mem (hls : Ordered ls) {l : Lexeme} (hl : l ∈ ls) : (ofLexemes ls).spans l.span :=
  ⟨hls.forward l hl, ⟨l, hl, rfl⟩, l, hl, rfl⟩

theorem span_of_head {l : Lexeme} {span : Span} (hls : Ordered (l :: ls))
    (hspan : (ofLexemes ls).spans span) : (ofLexemes (l :: ls)).spans ⟨l.span.start, span.stop⟩ := by
  obtain ⟨-, -, l', hl', hstop⟩ := hspan
  refine ⟨?_, ⟨l, List.mem_cons_self, rfl⟩, l', List.mem_cons_of_mem l hl', hstop⟩
  have hle := hls.start_le_stop hl'
  change l.span.start ≤ span.stop
  omega

theorem span_merge {s t : Span} (hs : (ofLexemes ls).spans s) (ht : (ofLexemes ls).spans t) :
    (ofLexemes ls).spans (s.merge t) := by
  obtain ⟨hsle, hsstart, hsstop⟩ := hs
  obtain ⟨htle, htstart, htstop⟩ := ht
  refine ⟨?_, ?_, ?_⟩
  · change min s.start t.start ≤ max s.stop t.stop
    omega
  · change ∃ l ∈ ls, min s.start t.start = l.span.start
    rcases Nat.le_total s.start t.start with h | h
    · rwa [Nat.min_eq_left h]
    · rwa [Nat.min_eq_right h]
  · change ∃ l ∈ ls, max s.stop t.stop = l.span.stop
    rcases Nat.le_total s.stop t.stop with h | h
    · rwa [Nat.max_eq_right h]
    · rwa [Nat.max_eq_left h]

end Layout

namespace Parser

variable {α : Type}

/-- What the parser makes of lexemes in order lies on their layout. -/
def LaysOut (p : Parser α) (lies : Layout → α → Prop) : Prop :=
  ∀ ⦃ls : List Lexeme⦄ ⦃a : α⦄ ⦃rest : List Lexeme⦄, Ordered ls → p ls = .ok a rest →
    rest <:+ ls ∧ lies (.ofLexemes ls) a

theorem ident_mono ⦃layout other : Layout⦄ ⦃i : Ident⦄ (h : layout.Extends other)
    (hi : layout.names i) : other.names i :=
  h.names hi

theorem ident_laysOut : LaysOut ident Layout.names := by
  intro ls i rest hls hrun
  obtain rfl := ident_ok.1 hrun
  exact ⟨List.suffix_cons _ rest, hls.forward _ List.mem_cons_self, List.mem_cons_self⟩

section Items

variable {item : Parser α} {lies : Layout → α → Prop}
  (hmono : ∀ ⦃layout other : Layout⦄ ⦃a : α⦄, layout.Extends other → lies layout a → lies other a)

include hmono

theorem furtherItems_laysOut (hitem : LaysOut item lies) (rounds : List Lexeme) :
    LaysOut (furtherItems item rounds) fun layout as => ∀ a ∈ as, lies layout a := by
  induction rounds with
  | nil =>
    intro ls as rest _ hrun
    obtain ⟨rfl, rfl⟩ := pure_ok.1 hrun
    exact ⟨List.suffix_refl ls, by simp⟩
  | cons _ rounds ih =>
    intro ls as rest hls hrun
    rw [furtherItems, currentIs_bind] at hrun
    split at hrun
    · next hcomma =>
      obtain ⟨span, ls, rfl⟩ := isAt_eq_true hcomma
      simp only [step_bind, List.tail_cons, bind_ok, pure_ok] at hrun
      obtain ⟨a, mid, ha, as, _, has, rfl, rfl⟩ := hrun
      have hstep := List.suffix_cons (⟨.comma, span⟩ : Lexeme) ls
      obtain ⟨hmid, hfirst⟩ := hitem (hls.suffix hstep) ha
      obtain ⟨hrest, hothers⟩ := ih (hls.suffix (hmid.trans hstep)) has
      refine ⟨hrest.trans (hmid.trans hstep), List.forall_mem_cons.2 ⟨?_, fun b hb => ?_⟩⟩
      · exact hmono (Layout.extends_of_suffix hstep) hfirst
      · exact hmono (Layout.extends_of_suffix (hmid.trans hstep)) (hothers b hb)
    · obtain ⟨rfl, rfl⟩ := pure_ok.1 hrun
      exact ⟨List.suffix_refl ls, by simp⟩

theorem delimited_laysOut {opening closing : Token} (hitem : LaysOut item lies) :
    LaysOut (delimited opening closing item) fun layout items =>
      (∀ a ∈ items.1, lies layout a) ∧ layout.spans items.2 := by
  rintro ls ⟨as, span⟩ rest hls hrun
  obtain ⟨first, last, mid, rfl, rfl, hitems⟩ := delimited_ok.1 hrun
  have hstep := List.suffix_cons (⟨opening, first⟩ : Lexeme) mid
  have hlast (h : ⟨closing, last⟩ :: rest <:+ mid) : rest <:+ ⟨opening, first⟩ :: mid ∧
      (Layout.ofLexemes (⟨opening, first⟩ :: mid)).spans ⟨first.start, last.stop⟩ := by
    have hmem : ⟨closing, last⟩ ∈ mid := h.subset List.mem_cons_self
    exact ⟨(List.suffix_cons _ rest).trans (h.trans hstep),
      Layout.span_of_head hls (Layout.span_of_mem (hls.suffix hstep) hmem)⟩
  obtain ⟨rfl, rfl⟩ | ⟨a, after, others, -, ha, hothers, rfl⟩ := hitems
  · obtain ⟨hrest, hspan⟩ := hlast (List.suffix_refl _)
    exact ⟨hrest, by simp, hspan⟩
  · obtain ⟨hafter, hfirst⟩ := hitem (hls.suffix hstep) ha
    obtain ⟨hclosing, hmore⟩ :=
      furtherItems_laysOut hmono hitem after (hls.suffix (hafter.trans hstep)) hothers
    obtain ⟨hrest, hspan⟩ := hlast (hclosing.trans hafter)
    refine ⟨hrest, List.forall_mem_cons.2 ⟨?_, fun b hb => ?_⟩, hspan⟩
    · exact hmono (Layout.extends_of_suffix hstep) hfirst
    · exact hmono (Layout.extends_of_suffix (hafter.trans hstep)) (hmore b hb)

end Items

section Expressions

variable {operand inner : Parser Expr}

theorem expr_mono ⦃layout other : Layout⦄ ⦃e : Expr⦄ (h : layout.Extends other)
    (he : e.LiesOn layout) : e.LiesOn other :=
  he.mono h

theorem combine_laysOut (hoperand : LaysOut operand fun layout e => e.LiesOn layout)
    {whole ls mid : List Lexeme} {op : Operator} {span : Span} {left right : Expr}
    (hwhole : Ordered whole) (hls : ⟨.operator op, span⟩ :: ls <:+ whole)
    (hleft : left.LiesOn (.ofLexemes whole)) (hright : operand ls = .ok right mid) :
    mid <:+ ls ∧ (Expr.combine op left right).LiesOn (.ofLexemes whole) := by
  have hstep := (List.suffix_cons (⟨.operator op, span⟩ : Lexeme) ls).trans hls
  obtain ⟨hmid, hlies⟩ := hoperand (hwhole.suffix hstep) hright
  have hsecond := hlies.mono (Layout.extends_of_suffix hstep)
  exact ⟨hmid, .binary op hleft hsecond (Layout.span_merge hleft.span hsecond.span)⟩

theorem furtherOperands_laysOut {accepts : Operator → Bool}
    (hoperand : LaysOut operand fun layout e => e.LiesOn layout) (rounds : List Lexeme)
    {whole ls rest : List Lexeme} {left e : Expr} (hwhole : Ordered whole) (hls : ls <:+ whole)
    (hleft : left.LiesOn (.ofLexemes whole))
    (hrun : furtherOperands accepts operand rounds left ls = .ok e rest) :
    rest <:+ ls ∧ e.LiesOn (.ofLexemes whole) := by
  induction rounds generalizing left ls with
  | nil =>
    obtain ⟨rfl, rfl⟩ := pure_ok.1 hrun
    exact ⟨List.suffix_refl ls, hleft⟩
  | cons _ rounds ih =>
    rw [furtherOperands, currentOperator_bind] at hrun
    cases hop : operatorAt accepts ls with
    | none =>
      simp only [hop] at hrun
      obtain ⟨rfl, rfl⟩ := pure_ok.1 hrun
      exact ⟨List.suffix_refl ls, hleft⟩
    | some op =>
      obtain ⟨-, span, ls, rfl⟩ := operatorAt_eq_some hop
      simp only [hop, step_bind, List.tail_cons, bind_ok] at hrun
      obtain ⟨right, mid, hright, hmore⟩ := hrun
      have hstep := List.suffix_cons (⟨.operator op, span⟩ : Lexeme) ls
      obtain ⟨hmid, hjoined⟩ := combine_laysOut hoperand hwhole hls hleft hright
      obtain ⟨hrest, he⟩ := ih (hmid.trans (hstep.trans hls)) hjoined hmore
      exact ⟨hrest.trans (hmid.trans hstep), he⟩

theorem operandChain_laysOut {accepts : Operator → Bool}
    (hoperand : LaysOut operand fun layout e => e.LiesOn layout) :
    LaysOut (operandChain accepts operand) fun layout e => e.LiesOn layout := by
  intro ls e rest hls hrun
  simp only [operandChain, bind_ok, remaining_bind] at hrun
  obtain ⟨left, mid, hleft, hmore⟩ := hrun
  obtain ⟨hmid, hlies⟩ := hoperand hls hleft
  obtain ⟨hrest, he⟩ := furtherOperands_laysOut hoperand mid hls hmid hlies hmore
  exact ⟨hrest.trans hmid, he⟩

theorem primary_laysOut (hinner : LaysOut inner fun layout e => e.LiesOn layout) :
    LaysOut (primary inner) fun layout e => e.LiesOn layout := by
  intro ls e rest hls hrun
  cases primary_ok.1 hrun with
  | integer value span =>
    exact ⟨List.suffix_cons _ _, .integer value (Layout.span_of_mem hls List.mem_cons_self)⟩
  | text value span =>
    exact ⟨List.suffix_cons _ _, .text value (Layout.span_of_mem hls List.mem_cons_self)⟩
  | name i =>
    obtain ⟨hrest, hname⟩ := ident_laysOut hls (ident_ok.2 rfl)
    exact ⟨hrest, .ident hname⟩
  | @call i mid _ es span items =>
    have hstep := List.suffix_cons (⟨.ident i.name, i.location⟩ : Lexeme) mid
    obtain ⟨hrest, hall, hspan⟩ := delimited_laysOut expr_mono hinner (hls.suffix hstep) items
    refine ⟨hrest.trans hstep, .call ?_ ?_ (fun e he => ?_) (Layout.span_of_head hls hspan)⟩
    · exact ⟨hls.forward _ List.mem_cons_self, List.mem_cons_self⟩
    · exact ⟨_, List.mem_cons_self, rfl⟩
    · exact (hall e he).mono (Layout.extends_of_suffix hstep)
  | @group first last mid _ _ value =>
    have hstep := List.suffix_cons (⟨.opening .round, first⟩ : Lexeme) mid
    obtain ⟨hmid, hlies⟩ := hinner (hls.suffix hstep) value
    exact ⟨(List.suffix_cons _ _).trans (hmid.trans hstep),
      hlies.mono (Layout.extends_of_suffix hstep)⟩
  | list items =>
    obtain ⟨hrest, hall, hspan⟩ := delimited_laysOut expr_mono hinner hls items
    exact ⟨hrest, .list hall hspan⟩

theorem comparison_laysOut (hoperand : LaysOut operand fun layout e => e.LiesOn layout) :
    LaysOut (comparison operand) fun layout e => e.LiesOn layout := by
  have hadditive : LaysOut (additive operand) fun layout e => e.LiesOn layout :=
    operandChain_laysOut (operandChain_laysOut hoperand)
  intro ls e rest hls hrun
  rcases comparison_ok.1 hrun with ⟨hplain, -⟩ | ⟨op, left, right, span, mid, hleft, -, hright, rfl⟩
  · exact hadditive hls hplain
  · obtain ⟨hmid, hfirst⟩ := hadditive hls hleft
    obtain ⟨hrest, hjoined⟩ := combine_laysOut hadditive hls hmid hfirst hright
    exact ⟨hrest.trans ((List.suffix_cons _ mid).trans hmid), hjoined⟩

end Expressions

theorem expression_laysOut (levels : Nat) :
    LaysOut (expression levels) fun layout e => e.LiesOn layout := by
  induction levels with
  | zero =>
    intro ls e rest _ hrun
    rw [expression_zero, nestingTooDeep, get_bind] at hrun
    exact absurd hrun throw_ok.1
  | succ levels ih => exact comparison_laysOut (primary_laysOut ih)

section Statements

variable {value : Parser Expr} {block : Parser Block}

theorem value_laysOut (hvalue : LaysOut value fun layout e => e.LiesOn layout)
    {l : Lexeme} {ls mid rest : List Lexeme} {e : Expr} {last : Span} (hls : Ordered (l :: ls))
    (hmid : mid <:+ ls) (hrun : value mid = .ok e (⟨.semicolon, last⟩ :: rest)) :
    rest <:+ l :: ls ∧ e.LiesOn (.ofLexemes (l :: ls)) ∧
      (Layout.ofLexemes (l :: ls)).spans ⟨l.span.start, last.stop⟩ := by
  have hstep := List.suffix_cons l ls
  obtain ⟨hend, hlies⟩ := hvalue (hls.suffix (hmid.trans hstep)) hrun
  refine ⟨(List.suffix_cons _ rest).trans (hend.trans (hmid.trans hstep)),
    hlies.mono (Layout.extends_of_suffix (hmid.trans hstep)), ?_⟩
  have hlast : ⟨.semicolon, last⟩ ∈ ls := hmid.subset (hend.subset List.mem_cons_self)
  exact Layout.span_of_head hls (Layout.span_of_mem (hls.suffix hstep) hlast)

theorem branching_laysOut (hvalue : LaysOut value fun layout e => e.LiesOn layout)
    (hblock : LaysOut block fun layout b => b.LiesOn layout) :
    LaysOut (branching value block) fun layout s => s.LiesOn layout := by
  intro ls s rest hls hrun
  obtain ⟨first, opening, closing, mid, e, after, b, rest', rfl, hcondition, hthen, hend⟩ :=
    branching_ok.1 hrun
  have hfirst := List.suffix_cons (⟨.keyword .branch, first⟩ : Lexeme)
    (⟨.opening .round, opening⟩ :: mid)
  have hmid := List.suffix_cons (⟨.opening .round, opening⟩ : Lexeme) mid
  obtain ⟨hclosing, he⟩ := hvalue (hls.suffix (hmid.trans hfirst)) hcondition
  have hafter := (List.suffix_cons _ after).trans (hclosing.trans hmid)
  obtain ⟨hrest', hb⟩ := hblock (hls.suffix (hafter.trans hfirst)) hthen
  have htest := he.mono (Layout.extends_of_suffix (hmid.trans hfirst))
  have hbody := hb.mono (Layout.extends_of_suffix (hafter.trans hfirst))
  have hspan {tail : List Lexeme} {c : Block}
      (htail : tail <:+ ⟨.opening .round, opening⟩ :: mid) (hc : c.LiesOn (.ofLexemes tail)) :
      (Layout.ofLexemes (⟨.keyword .branch, first⟩ :: ⟨.opening .round, opening⟩ :: mid)).spans
        ⟨first.start, c.location.stop⟩ :=
    Layout.span_of_head hls (hc.mono (Layout.extends_of_suffix htail)).span
  rcases hend with ⟨-, rfl, rfl⟩ | ⟨otherwise, more, c, rfl, helse, rfl⟩
  · exact ⟨hrest'.trans (hafter.trans hfirst), .branch htest hbody (by simp) (hspan hafter hb)⟩
  · have hmore := (List.suffix_cons _ more).trans (hrest'.trans hafter)
    obtain ⟨hrest, hc⟩ := hblock (hls.suffix (hmore.trans hfirst)) helse
    refine ⟨hrest.trans (hmore.trans hfirst), .branch htest hbody ?_ (hspan hmore hc)⟩
    rintro _ ⟨⟩
    exact hc.mono (Layout.extends_of_suffix (hmore.trans hfirst))

theorem functionDef_laysOut (hblock : LaysOut block fun layout b => b.LiesOn layout) :
    LaysOut (functionDef block) fun layout f => f.LiesOn layout := by
  intro ls f rest hls hrun
  obtain ⟨first, name, location, mid, parameters, span, after, body, rfl, hparameters, hbody, rfl⟩ :=
    functionDef_ok.1 hrun
  have hfirst := List.suffix_cons (⟨.keyword .define, first⟩ : Lexeme)
    (⟨.ident name, location⟩ :: mid)
  have hmid := List.suffix_cons (⟨.ident name, location⟩ : Lexeme) mid
  obtain ⟨hafter, hnames, -⟩ := delimited_laysOut ident_mono ident_laysOut
    (hls.suffix (hmid.trans hfirst)) hparameters
  obtain ⟨hrest, hb⟩ := hblock (hls.suffix (hafter.trans (hmid.trans hfirst))) hbody
  have hinner := hb.mono (Layout.extends_of_suffix (hafter.trans hmid))
  refine ⟨hrest.trans (hafter.trans (hmid.trans hfirst)), .intro ?_ (fun i hi => ?_)
    (hinner.mono (Layout.extends_of_suffix hfirst)) (Layout.span_of_head hls hinner.span)⟩
  · have hmem : ⟨.ident name, location⟩ ∈ ⟨.keyword .define, first⟩ :: ⟨.ident name, location⟩ :: mid :=
      List.mem_cons_of_mem _ List.mem_cons_self
    exact ⟨hls.forward _ hmem, hmem⟩
  · exact (Layout.extends_of_suffix (hmid.trans hfirst)).names (hnames i hi)

theorem statementOf_laysOut (hvalue : LaysOut value fun layout e => e.LiesOn layout)
    (hblock : LaysOut block fun layout b => b.LiesOn layout) :
    LaysOut (statementOf value block) fun layout s => s.LiesOn layout := by
  intro ls s rest hls hrun
  cases statementOf_ok.1 hrun with
  | declare hrun =>
    obtain ⟨first, name, location, assign, last, mid, e, hcons, he, rfl⟩ := declaration_ok.1 hrun
    rw [hcons] at hls ⊢
    have hmid : mid <:+ ⟨.ident name, location⟩ :: ⟨.assign, assign⟩ :: mid :=
      (List.suffix_cons _ mid).trans (List.suffix_cons _ _)
    obtain ⟨hrest, hlies, hspan⟩ := value_laysOut hvalue hls hmid he
    have hname : ⟨.ident name, location⟩ ∈ ⟨.keyword .declare, first⟩ :: ⟨.ident name, location⟩ ::
        ⟨.assign, assign⟩ :: mid := List.mem_cons_of_mem _ List.mem_cons_self
    exact ⟨hrest, .declare ⟨hls.forward _ hname, hname⟩ hlies hspan⟩
  | print hrun =>
    obtain ⟨first, last, mid, e, hcons, he, rfl⟩ := printing_ok.1 hrun
    rw [hcons] at hls ⊢
    obtain ⟨hrest, hlies, hspan⟩ := value_laysOut hvalue hls (List.suffix_refl mid) he
    exact ⟨hrest, .print hlies hspan⟩
  | branch hrun =>
    exact branching_laysOut hvalue hblock hls hrun
  | define hf =>
    obtain ⟨hrest, hlies⟩ := functionDef_laysOut hblock hls hf
    exact ⟨hrest, .define hlies⟩
  | giveBack hrun =>
    obtain ⟨first, last, mid, e, hcons, he, rfl⟩ := givingBack_ok.1 hrun
    rw [hcons] at hls ⊢
    obtain ⟨hrest, hlies, hspan⟩ := value_laysOut hvalue hls (List.suffix_refl mid) he
    exact ⟨hrest, .giveBack hlies hspan⟩

end Statements

/-! ## Blocks and programs -/

theorem StatementLoop.laysOut {statement : Parser Stmt} {ends : List Lexeme → Prop}
    {loop : List Lexeme → Parser (List Stmt)} (hloop : StatementLoop statement ends loop)
    (hstatement : LaysOut statement fun layout s => s.LiesOn layout) (rounds : List Lexeme) :
    LaysOut (loop rounds) fun layout ss => ∀ s ∈ ss, s.LiesOn layout := by
  induction rounds with
  | nil =>
    intro ls ss rest _ hrun
    rw [hloop.exhausted] at hrun
    cases hrun
    exact ⟨List.suffix_refl ls, by simp⟩
  | cons l rounds ih =>
    intro ls ss rest hls hrun
    rcases hloop.round hrun with ⟨-, rfl, rfl⟩ | ⟨s, mid, others, hs, hothers, rfl⟩
    · exact ⟨List.suffix_refl ls, by simp⟩
    · obtain ⟨hmid, hfirst⟩ := hstatement hls hs
      obtain ⟨hrest, hmore⟩ := ih (hls.suffix hmid) hothers
      refine ⟨hrest.trans hmid, List.forall_mem_cons.2 ⟨hfirst, fun s' hs' => ?_⟩⟩
      exact (hmore s' hs').mono (Layout.extends_of_suffix hmid)

theorem block_laysOut (levels : Nat) : LaysOut (block levels) fun layout b => b.LiesOn layout := by
  induction levels with
  | zero =>
    intro ls b rest _ hrun
    rw [block_zero, nestingTooDeep, get_bind] at hrun
    exact absurd hrun throw_ok.1
  | succ levels ih =>
    intro ls b rest hls hrun
    obtain ⟨first, last, mid, ss, rfl, hstatements, rfl⟩ := blockOf_ok.1 hrun
    have hstep := List.suffix_cons (⟨.opening .curly, first⟩ : Lexeme) mid
    obtain ⟨hend, hall⟩ := (blockStatements_loop _).laysOut
      (statementOf_laysOut (expression_laysOut levels) ih) mid (hls.suffix hstep) hstatements
    refine ⟨(List.suffix_cons _ rest).trans (hend.trans hstep), .intro (fun s hs => ?_) ?_⟩
    · exact (hall s hs).mono (Layout.extends_of_suffix hstep)
    · have hlast : ⟨.closing .curly, last⟩ ∈ mid := hend.subset List.mem_cons_self
      exact Layout.span_of_head hls (Layout.span_of_mem (hls.suffix hstep) hlast)

end Parser

theorem laysOut_of_parse {ls : List Lexeme} {P : Program} (hls : Ordered ls)
    (hparse : parse ls = .ok P) : ∀ s ∈ P.statements, s.LiesOn (.ofLexemes ls) := by
  obtain ⟨rest, hrun⟩ := parse_ok.1 hparse
  simp only [Parser.program, Parser.programOf, Parser.remaining_bind, Parser.currentSpan_bind, bind_ok,
    pure_ok] at hrun
  obtain ⟨ss, _, hstatements, rfl, rfl⟩ := hrun
  exact ((Parser.programStatements_loop _).laysOut (Parser.statementOf_laysOut
    (Parser.expression_laysOut nestingLimit) (Parser.block_laysOut nestingLimit)) ls hls
      hstatements).2

end UzScript
