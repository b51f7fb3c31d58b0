import UzScript.Proofs.BalancedBrackets
import UzScript.Proofs.Excerpts
import UzScript.Proofs.OperationRuns

/-! # The places of operations

The place of an operation goes from the place of its left operand to that of its right operand. Round
brackets around an operand belong to no place, so those at the outer ends of an operation are left out
of its place, although it needs them: with them its text is an expression, and without them it is
none. -/

set_option autoImplicit false

namespace UzScript

open Grammar (Balanced)

theorem Span.Around.merge {span other : Span} {front mid back : List Lexeme} (h : span.Around front)
    (h' : other.Around back) (hls : Ordered (front ++ mid ++ back)) :
    (span.merge other).Around (front ++ mid ++ back) := by
  obtain ⟨-, -, hapart⟩ := List.pairwise_append.1 hls.apart
  have hbefore : ∀ l ∈ front, ∀ l' ∈ back, l.span.stop ≤ l'.span.start :=
    fun l hl l' hl' => hapart l (List.mem_append_left mid hl) l' hl'
  have hforward : ∀ l ∈ front ++ back, l.span.start ≤ l.span.stop := by
    intro l hl
    apply hls.forward
    rcases List.mem_append.1 hl with hfront | hback
    · exact List.mem_append_left _ (List.mem_append_left _ hfront)
    · exact List.mem_append_right _ hback
  constructor
  · obtain ⟨l, more, rfl, hl, hstart⟩ := h.first
    obtain ⟨l', more', rfl, -, hstart'⟩ := h'.first
    have hle := hbefore l (by simp) l' (by simp)
    have hlen := hforward l (by simp)
    refine ⟨l, more ++ mid ++ l' :: more', by simp, hl, ?_⟩
    change l.span.start = min span.start other.start
    omega
  · obtain ⟨before, l, rfl, -, hstop⟩ := h.last
    obtain ⟨before', l', rfl, hl', hstop'⟩ := h'.last
    have hle := hbefore l (by simp) l' (by simp)
    have hlen := hforward l' (by simp)
    refine ⟨before ++ [l] ++ mid ++ before', l', by simp, hl', ?_⟩
    change l'.span.stop = max span.stop other.stop
    omega

theorem Span.Around.unique {span other : Span} {ls : List Lexeme} (h : span.Around ls)
    (h' : other.Around ls) : span = other := by
  obtain ⟨l, more, rfl, -, hstart⟩ := h.first
  obtain ⟨l', more', hcons, -, hstart'⟩ := h'.first
  obtain ⟨before, last, hlast, -, hstop⟩ := h.last
  obtain ⟨before', last', hlast', -, hstop'⟩ := h'.last
  obtain ⟨rfl, -⟩ := List.cons.inj hcons
  obtain ⟨-, hsame⟩ := List.append_inj' (hlast.symm.trans hlast') rfl
  obtain ⟨rfl, -⟩ := List.cons.inj hsame
  exact Span.ext (hstart.symm.trans hstart') (hstop.symm.trans hstop')

/-- The lexemes of an expression: those at its place, and round brackets before and after them. -/
structure Framed (span : Span) (opens core closes : List Lexeme) : Prop where
  opening : ∀ l ∈ opens, l.token = .opening .round
  closing : ∀ l ∈ closes, l.token = .closing .round
  around : span.Around core
  balanced : Balanced ((opens ++ core ++ closes).map Lexeme.token)

/-- The lexemes are those of the expression, with the brackets around it. -/
def Bracketed (used : List Lexeme) (e : Expr) : Prop :=
  ∃ opens core closes, used = opens ++ core ++ closes ∧ Framed e.location opens core closes

/-! ## Frames of operations -/

namespace Framed

section Operation

variable {op : Operator} {left right : Expr} {place : Span}
  {opens core closes opens' core' closes' : List Lexeme}
  (h : Framed left.location opens core closes) (h' : Framed right.location opens' core' closes')

include h h'

theorem balanced_join : Balanced
    ((opens ++ (core ++ (closes ++ ⟨.operator op, place⟩ :: opens') ++ core') ++ closes').map
      Lexeme.token) := by
  have hboth := h.balanced.append (.cons (t := .operator op) (fun _ => rfl) h'.balanced)
  simpa using hboth

/-- An operation has the opening brackets of its left operand and the closing ones of its right
operand around it. All other brackets are inside its place. -/
theorem combine (hordered : Ordered (core ++ (closes ++ ⟨.operator op, place⟩ :: opens') ++ core')) :
    Framed (Expr.combine op left right).location opens
      (core ++ (closes ++ ⟨.operator op, place⟩ :: opens') ++ core') closes' :=
  ⟨h.opening, h'.closing, h.around.merge h'.around hordered, h.balanced_join h'⟩

/-- If what stands at its place is balanced, then an operation has no brackets around it. A bracket
that opens before the left operand is closed before the operator. -/
theorem tight (hbalanced : Balanced
      ((core ++ (closes ++ ⟨.operator op, place⟩ :: opens') ++ core').map Lexeme.token)) :
    opens = [] ∧ closes' = [] := by
  have hleft : Balanced (opens.map Lexeme.token ++ (core ++ closes).map Lexeme.token) := by
    rw [← List.map_append, ← List.append_assoc]
    exact h.balanced
  have hrest : Balanced ((core ++ closes).map Lexeme.token ++
      (⟨.operator op, place⟩ :: opens' ++ core').map Lexeme.token) := by
    rw [← List.map_append]
    simpa using hbalanced
  have hopens := hleft.eq_nil_of_opens (List.forall_mem_map.2 h.opening) hrest
  rw [List.map_eq_nil_iff] at hopens
  subst hopens
  have hall : Balanced ((core ++ (closes ++ ⟨.operator op, place⟩ :: opens') ++ core').map Lexeme.token
      ++ closes'.map Lexeme.token) := by
    rw [← List.map_append]
    exact h.balanced_join h'
  have hcloses := hall.eq_nil_of_closes (List.forall_mem_map.2 h'.closing) hbalanced
  exact ⟨rfl, List.map_eq_nil_iff.1 hcloses⟩

end Operation

theorem group {span first last : Span} {opens core closes : List Lexeme}
    (h : Framed span opens core closes) :
    Framed span (⟨.opening .round, first⟩ :: opens) core (closes ++ [⟨.closing .round, last⟩]) := by
  refine ⟨List.forall_mem_cons.2 ⟨rfl, h.opening⟩, ?_, h.around, ?_⟩
  · intro l hl
    rcases List.mem_append.1 hl with hcloses | hlast
    · exact h.closing l hcloses
    · rw [List.mem_singleton.1 hlast]
  · have hgroup := h.balanced.group .nil
    simpa using hgroup

theorem exists_outer {span : Span} {opens core closes : List Lexeme}
    (h : Framed span opens core closes) : ∃ outer : Span, outer.Around (opens ++ core ++ closes) := by
  have hends : ∀ l ∈ opens ++ closes, l.token ≠ .endOfFile := by
    intro l hl
    rcases List.mem_append.1 hl with hopens | hcloses
    · simp [h.opening l hopens]
    · simp [h.closing l hcloses]
  obtain ⟨first, more, hfirst, hne, -⟩ := h.around.first
  obtain ⟨before, last, hlast, hne', -⟩ := h.around.last
  have hstart : ∃ l more, opens ++ core ++ closes = l :: more ∧ l.token ≠ .endOfFile := by
    cases opens with
    | nil => exact ⟨first, more ++ closes, by rw [hfirst]; rfl, hne⟩
    | cons l opens => exact ⟨l, opens ++ core ++ closes, rfl, hends l (by simp)⟩
  have hstop : ∃ before l, opens ++ core ++ closes = before ++ [l] ∧ l.token ≠ .endOfFile := by
    rcases List.eq_nil_or_concat closes with rfl | ⟨closes, l, rfl⟩
    · exact ⟨opens ++ before, last, by rw [hlast, List.append_nil, List.append_assoc], hne'⟩
    · exact ⟨opens ++ core ++ closes, l, by simp, hends l (by simp)⟩
  obtain ⟨l, more, hl, hlne⟩ := hstart
  obtain ⟨before, l', hl', hlne'⟩ := hstop
  exact ⟨⟨l.span.start, l'.span.stop⟩, ⟨l, more, hl, hlne, rfl⟩, before, l', hl', hlne', rfl⟩

end Framed

/-! ## Brackets that the parsers take -/

namespace Parser

open Grammar (Expression)

variable {whole : List Lexeme}

def Brackets (whole : List Lexeme) (p : Parser Expr) : Prop :=
  ∀ ⦃ls : List Lexeme⦄ ⦃e : Expr⦄ ⦃rest : List Lexeme⦄, ls <:+ whole → p ls = .ok e rest →
    ∃ used, ls = used ++ rest ∧ Bracketed used e

section Expressions

variable (hwhole : Ordered whole) {operand inner : Parser Expr} {accepts : Operator → Bool}

include hwhole

theorem frame_of_operands {op : Operator} {place : Span} {left right : Expr}
    {used used' rest : List Lexeme} (hleft : Bracketed used left) (hright : Bracketed used' right)
    (hsuffix : used ++ ⟨.operator op, place⟩ :: used' ++ rest <:+ whole) :
    ∃ opens core closes, used ++ ⟨.operator op, place⟩ :: used' = opens ++ core ++ closes ∧
      Framed (Expr.combine op left right).location opens core closes ∧
        (Balanced (core.map Lexeme.token) → opens = [] ∧ closes = []) := by
  obtain ⟨opens, core, closes, rfl, hframe⟩ := hleft
  obtain ⟨opens', core', closes', rfl, hframe'⟩ := hright
  have hsplit : opens ++ core ++ closes ++ ⟨.operator op, place⟩ :: (opens' ++ core' ++ closes') =
      opens ++ (core ++ (closes ++ ⟨.operator op, place⟩ :: opens') ++ core') ++ closes' := by simp
  refine ⟨_, _, _, hsplit, hframe.combine hframe' ?_, hframe.tight hframe'⟩
  rw [hsplit, List.append_assoc, List.append_assoc] at hsuffix
  exact hwhole.of_used ((List.suffix_append opens _).trans hsuffix)

theorem bracketed_combine {op : Operator} {place : Span} {left right : Expr}
    {used used' rest : List Lexeme} (hleft : Bracketed used left) (hright : Bracketed used' right)
    (hsuffix : used ++ ⟨.operator op, place⟩ :: used' ++ rest <:+ whole) :
    Bracketed (used ++ ⟨.operator op, place⟩ :: used') (.combine op left right) := by
  obtain ⟨opens, core, closes, hsplit, hframe, -⟩ := frame_of_operands hwhole hleft hright hsuffix
  exact ⟨opens, core, closes, hsplit, hframe⟩

theorem ChainRun.bracketed (hoperand : Brackets whole operand) {ls rest : List Lexeme} {e : Expr}
    (hsuffix : ls <:+ whole) (h : ChainRun accepts operand ls e rest) :
    ∃ used, ls = used ++ rest ∧ Bracketed used e := by
  induction h with
  | first run => exact hoperand hsuffix run
  | @further op span left right mid rest _ _ last ih =>
    obtain ⟨used, rfl, hleft⟩ := ih
    have hmid := ((List.suffix_cons _ mid).trans (List.suffix_append used _)).trans hsuffix
    obtain ⟨used', rfl, hright⟩ := hoperand hmid last
    have hjoined : used ++ ⟨.operator op, span⟩ :: used' ++ rest <:+ whole := by simpa using hsuffix
    exact ⟨used ++ ⟨.operator op, span⟩ :: used', by simp,
      bracketed_combine hwhole hleft hright hjoined⟩

theorem operandChain_brackets (hoperand : Brackets whole operand) :
    Brackets whole (operandChain accepts operand) :=
  fun _ _ _ hsuffix hrun => (ChainRun.of_operandChain hrun).bracketed hwhole hoperand hsuffix

theorem OperationRun.framed (hoperand : Brackets whole operand) {ls rest : List Lexeme} {e : Expr}
    (hsuffix : ls <:+ whole) (h : OperationRun operand ls e rest) :
    ∃ opens core closes, ls = opens ++ core ++ closes ++ rest ∧
      Framed e.location opens core closes ∧
        (Balanced (core.map Lexeme.token) → opens = [] ∧ closes = []) := by
  have hchain : Brackets whole (operandChain Operator.isMultiplicative operand) :=
    operandChain_brackets hwhole hoperand
  have hadditive : Brackets whole (additive operand) := operandChain_brackets hwhole hchain
  have hoperation {p : Parser Expr} (hp : Brackets whole p) {op : Operator} {span : Span}
      {left right : Expr} {mid : List Lexeme}
      (hleft : ∃ used, ls = used ++ ⟨.operator op, span⟩ :: mid ∧ Bracketed used left)
      (hlast : p mid = .ok right rest) :
      ∃ opens core closes, ls = opens ++ core ++ closes ++ rest ∧
        Framed (Expr.combine op left right).location opens core closes ∧
          (Balanced (core.map Lexeme.token) → opens = [] ∧ closes = []) := by
    obtain ⟨used, rfl, hleft⟩ := hleft
    have hmid := ((List.suffix_cons _ mid).trans (List.suffix_append used _)).trans hsuffix
    obtain ⟨used', rfl, hright⟩ := hp hmid hlast
    have hjoined : used ++ ⟨.operator op, span⟩ :: used' ++ rest <:+ whole := by simpa using hsuffix
    obtain ⟨opens, core, closes, hsplit, hframe⟩ :=
      frame_of_operands hwhole hleft hright hjoined
    refine ⟨opens, core, closes, ?_, hframe⟩
    rw [← hsplit]
    simp
  cases h with
  | multiplied front _ last => exact hoperation hoperand (front.bracketed hwhole hoperand hsuffix) last
  | added front _ last => exact hoperation hchain (front.bracketed hwhole hchain hsuffix) last
  | compared front _ last => exact hoperation hadditive (hadditive hsuffix front) last

theorem comparison_brackets (hoperand : Brackets whole operand) :
    Brackets whole (comparison operand) := by
  have hadditive : Brackets whole (additive operand) :=
    operandChain_brackets hwhole (operandChain_brackets hwhole hoperand)
  intro ls e rest hsuffix hrun
  rcases comparison_ok.1 hrun with
    ⟨hplain, -⟩ | ⟨op, left, right, span, mid, hleft, haccepts, hright, rfl⟩
  · exact hadditive hsuffix hplain
  · obtain ⟨opens, core, closes, hls, hframe, -⟩ :=
      OperationRun.framed hwhole hoperand hsuffix (.compared hleft haccepts hright)
    exact ⟨_, hls, opens, core, closes, rfl, hframe⟩

omit hwhole in
theorem primary_brackets {limit : Nat} (hinner : Brackets whole inner)
    (hplaces : Places whole inner fun e => [.expression e])
    (hsound : Sound inner Expr.erase Expression limit) : Brackets whole (primary inner) := by
  intro ls e rest hsuffix hrun
  have hplain (used : List Lexeme) (hls : ls = used ++ rest) (haround : e.location.Around used) :
      ∃ used, ls = used ++ rest ∧ Bracketed used e := by
    obtain ⟨front, h, hfront, -, hphrase⟩ := primary_sound hsound hrun
    obtain rfl := List.append_cancel_right (hls.symm.trans hfront)
    refine ⟨used, hls, [], used, [], by simp, ⟨by simp, by simp, haround, ?_⟩⟩
    simpa using hphrase.balanced Expression.balanced
  cases primary_ok.1 hrun with
  | integer value span => exact hplain [⟨.integer value, span⟩] rfl (.single (by simp))
  | text value span => exact hplain [⟨.text value, span⟩] rfl (.single (by simp))
  | name i => exact hplain [⟨.ident i.name, i.location⟩] rfl (.single (by simp))
  | @call i mid _ es span items =>
    obtain ⟨used, rfl, haround, -⟩ :=
      delimited_fills hplaces ((List.suffix_cons _ mid).trans hsuffix) items
    exact hplain (⟨.ident i.name, i.location⟩ :: used) rfl
      (haround.cons (.ident i.name) (by simp) i.location [])
  | @group first last mid _ _ value =>
    obtain ⟨_, rfl, opens, core, closes, rfl, hframe⟩ :=
      hinner ((List.suffix_cons _ mid).trans hsuffix) value
    exact ⟨⟨.opening .round, first⟩ :: opens ++ core ++ (closes ++ [⟨.closing .round, last⟩]), by simp,
      _, _, _, rfl, hframe.group⟩
  | list items =>
    obtain ⟨used, hls, haround, -⟩ := delimited_fills hplaces hsuffix items
    exact hplain used hls haround

end Expressions

theorem expression_brackets (hwhole : Ordered whole) {levels : Nat} (h : levels ≤ nestingLimit) :
    Brackets whole (expression levels) := by
  induction levels with
  | zero =>
    intro ls e rest _ hrun
    rw [expression_zero, nestingTooDeep, get_bind] at hrun
    exact absurd hrun throw_ok.1
  | succ levels ih =>
    have hle : levels ≤ nestingLimit := Nat.le_of_succ_le h
    exact comparison_brackets hwhole (primary_brackets (ih hle)
      (expression_places hwhole hle) (expression_sound levels))

/-! ## Operations of a program -/

section Items

variable {α : Type} {item : Parser α} {erase : α → α} {phrase : Grammar.Phrase α} {limit : Nat}
  (hsound : Sound item erase phrase limit) {ls rest : List Lexeme}

include hsound

theorem furtherItems_read {rounds : List Lexeme} {as : List α}
    (hrun : furtherItems item rounds ls = .ok as rest) :
    ∀ a ∈ as, ∃ mid back, mid <:+ ls ∧ item mid = .ok a back := by
  induction rounds generalizing ls as with
  | nil =>
    obtain ⟨rfl, -⟩ := pure_ok.1 hrun
    simp
  | cons _ rounds ih =>
    cases hcomma : isAt .comma ls with
    | false =>
      rw [furtherItems_end hcomma] at hrun
      cases hrun
      simp
    | true =>
      obtain ⟨span, ls, rfl⟩ := isAt_eq_true hcomma
      rw [furtherItems, currentIs_bind] at hrun
      simp only [hcomma, if_true, step_bind, List.tail_cons, bind_ok, pure_ok] at hrun
      obtain ⟨a, mid, ha, as, _, has, rfl, rfl⟩ := hrun
      refine List.forall_mem_cons.2 ⟨⟨ls, mid, List.suffix_cons _ ls, ha⟩, fun b hb => ?_⟩
      obtain ⟨mid', back, hmid', hrun⟩ := ih has b hb
      exact ⟨mid', back, (hmid'.trans (hsound.suffix ha)).trans (List.suffix_cons _ ls), hrun⟩

theorem delimited_read {opening closing : Token} {as : List α} {span : Span}
    (hrun : delimited opening closing item ls = .ok (as, span) rest) :
    ∀ a ∈ as, ∃ mid back, mid <:+ ls ∧ item mid = .ok a back := by
  obtain ⟨first, last, mid, rfl, -, ⟨rfl, -⟩ | ⟨a, after, as, -, ha, has, rfl⟩⟩ := delimited_ok.1 hrun
  · simp
  · have hmid := List.suffix_cons (⟨opening, first⟩ : Lexeme) mid
    refine List.forall_mem_cons.2 ⟨⟨mid, after, hmid, ha⟩, fun b hb => ?_⟩
    obtain ⟨mid', back, hmid', hrun⟩ := furtherItems_read hsound has b hb
    exact ⟨mid', back, (hmid'.trans (hsound.suffix ha)).trans hmid, hrun⟩

end Items

/-- An operand that is an operation stands in brackets. -/
theorem primary_operation {inner : Parser Expr} {ls rest : List Lexeme} {e : Expr}
    (hrun : primary inner ls = .ok e rest) (hoperation : e.operator? ≠ none) :
    ∃ first last mid, ls = ⟨.opening .round, first⟩ :: mid ∧
      inner mid = .ok e (⟨.closing .round, last⟩ :: rest) := by
  cases primary_ok.1 hrun with
  | integer | text | name | call | list => exact absurd rfl hoperation
  | @group first last mid _ _ value => exact ⟨first, last, mid, rfl, value⟩

end Parser

namespace Expr

theorem MadeOf.trans {r x e : Expr} (h : r.MadeOf x) (h' : x.MadeOf e) : r.MadeOf e := by
  induction h with
  | self => exact h'
  | left _ ih => exact .left (ih h')
  | right _ ih => exact .right (ih h')

theorem MadeOf.operator?_ne_none {x e : Expr} (h : x.MadeOf e) (he : e.operator? ≠ none) :
    x.operator? ≠ none := by
  cases h with
  | self => exact he
  | left | right => exact Option.some_ne_none _

end Expr

def ReadWhole (whole : List Lexeme) (e : Expr) : Prop :=
  ∃ levels ls rest, levels ≤ nestingLimit ∧ ls <:+ whole ∧ Parser.expression levels ls = .ok e rest

theorem operationRun_of_madeOf {whole ls rest : List Lexeme} {levels : Nat} {r e : Expr}
    (hlevels : levels ≤ nestingLimit) (hsuffix : ls <:+ whole)
    (hrun : Parser.expression levels ls = .ok r rest) (hpart : r.MadeOf e)
    (hoperation : e.operator? ≠ none) :
    ∃ levels' mid back, levels' < nestingLimit ∧ mid <:+ whole ∧
      Parser.OperationRun (Parser.primary (Parser.expression levels')) mid e back := by
  induction levels generalizing ls rest r with
  | zero =>
    rw [Parser.expression_zero, Parser.nestingTooDeep, get_bind] at hrun
    exact absurd hrun throw_ok.1
  | succ levels ih =>
    have hsound := Parser.primary_sound (Parser.expression_sound levels)
    rcases Parser.comparison_parts hsound hrun hpart with
      ⟨mid, back, hmid, hrun⟩ | ⟨x, mid, back, hmid, hx, hpart⟩
    · exact ⟨levels, mid, back, hlevels, hmid.trans hsuffix, hrun⟩
    · obtain ⟨first, last, mid, rfl, hinner⟩ :=
        Parser.primary_operation hx (hpart.operator?_ne_none hoperation)
      exact ih (Nat.le_of_succ_le hlevels) (((List.suffix_cons _ mid).trans hmid).trans hsuffix)
        hinner hpart

namespace Node

/-- An expression is part of one that was read as a whole. -/
def Grounded (whole : List Lexeme) : Node → Prop
  | expression e => ∃ r, ReadWhole whole r ∧ r.MadeOf e
  | program _ | statement _ | block _ | ident _ => True

theorem Grounded.of_read {whole : List Lexeme} {e : Expr} (h : ReadWhole whole e) :
    (expression e).Grounded whole :=
  ⟨e, h, .self e⟩

variable {whole : List Lexeme}

theorem grounded_of_statement {levels : Nat} {s : Stmt} {ls rest : List Lexeme}
    (hlevels : levels ≤ nestingLimit) (hsuffix : ls <:+ whole)
    (hrun : Parser.statement levels ls = .ok s rest) :
    ∀ child ∈ (statement s).children, child.Grounded whole := by
  have hvalue {mid back : List Lexeme} {e : Expr} (hmid : mid <:+ whole)
      (hrun : Parser.expression levels mid = .ok e back) : (expression e).Grounded whole :=
    .of_read ⟨levels, mid, back, hlevels, hmid, hrun⟩
  cases Parser.statementOf_ok.1 hrun with
  | declare hrun =>
    obtain ⟨first, name, location, assign, last, mid, e, hls, he, rfl⟩ := Parser.declaration_ok.1 hrun
    rw [hls] at hsuffix
    have htail := ((List.suffix_cons _ _).trans (List.suffix_cons _ _)).trans hsuffix
    exact List.forall_mem_cons.2 ⟨trivial, List.forall_mem_singleton.2
      (hvalue ((List.suffix_cons _ _).trans htail) he)⟩
  | print hrun =>
    obtain ⟨first, last, mid, e, hls, he, rfl⟩ := Parser.printing_ok.1 hrun
    rw [hls] at hsuffix
    exact List.forall_mem_singleton.2 (hvalue ((List.suffix_cons _ _).trans hsuffix) he)
  | branch hrun =>
    obtain ⟨first, opening, closing, mid, e, after, b, rest', hls, he, -, hend⟩ :=
      Parser.branching_ok.1 hrun
    rw [hls] at hsuffix
    have hcondition := hvalue (((List.suffix_cons _ _).trans (List.suffix_cons _ _)).trans hsuffix) he
    rcases hend with ⟨-, -, rfl⟩ | ⟨otherwise, more, c, -, -, rfl⟩
    · exact List.forall_mem_cons.2 ⟨hcondition, List.forall_mem_singleton.2 trivial⟩
    · exact List.forall_mem_cons.2 ⟨hcondition, List.forall_mem_cons.2 ⟨trivial,
        List.forall_mem_singleton.2 trivial⟩⟩
  | define =>
    refine List.forall_mem_cons.2 ⟨trivial, List.forall_mem_append.2
      ⟨List.forall_mem_map.2 fun _ _ => trivial, List.forall_mem_singleton.2 trivial⟩⟩
  | giveBack hrun =>
    obtain ⟨first, last, mid, e, hls, he, rfl⟩ := Parser.givingBack_ok.1 hrun
    rw [hls] at hsuffix
    exact List.forall_mem_singleton.2 (hvalue ((List.suffix_cons _ _).trans hsuffix) he)

/-- The arguments of a call and the elements of a list are read as a whole, also when the call or the
list stands in brackets. -/
theorem grounded_of_operand {levels : Nat} {e : Expr} {ls rest : List Lexeme}
    (hlevels : levels ≤ nestingLimit) (hsuffix : ls <:+ whole)
    (hrun : Parser.primary (Parser.expression levels) ls = .ok e rest) (hoperand : e.operator? = none) :
    ∀ child ∈ (expression e).children, child.Grounded whole := by
  have hitems {levels : Nat} {ls : List Lexeme} {es : List Expr} (hlevels : levels ≤ nestingLimit)
      (hls : ls <:+ whole)
      (hread : ∀ e ∈ es, ∃ mid back, mid <:+ ls ∧ Parser.expression levels mid = .ok e back) :
      ∀ child ∈ es.map expression, child.Grounded whole := by
    refine List.forall_mem_map.2 fun e he => ?_
    obtain ⟨mid, back, hmid, hrun⟩ := hread e he
    exact .of_read ⟨levels, mid, back, hlevels, hmid.trans hls, hrun⟩
  induction levels using Nat.strong_induction_on generalizing ls rest with
  | _ levels ih =>
    have hsound := Parser.expression_sound levels
    cases Parser.primary_ok.1 hrun with
    | integer | text => exact fun _ hchild => by cases hchild
    | name i => exact List.forall_mem_singleton.2 trivial
    | @call i mid _ es span items =>
      exact List.forall_mem_cons.2 ⟨trivial, hitems hlevels ((List.suffix_cons _ mid).trans hsuffix)
        (Parser.delimited_read hsound items)⟩
    | @group first last mid _ _ value =>
      cases levels with
      | zero =>
        rw [Parser.expression_zero, Parser.nestingTooDeep, get_bind] at value
        exact absurd value throw_ok.1
      | succ levels =>
        exact ih levels (Nat.lt_succ_self levels) (Nat.le_of_succ_le hlevels)
          ((List.suffix_cons _ mid).trans hsuffix) (Parser.operand_of_comparison value hoperand)
    | list items => exact hitems hlevels hsuffix (Parser.delimited_read hsound items)

theorem Grounded.children {node : Node} (h : node.Grounded whole) (hsettled : node.Settled whole) :
    ∀ child ∈ node.children, child.Grounded whole := by
  have hreads := hsettled.reads
  cases node with
  | program P => exact List.forall_mem_map.2 fun _ _ => trivial
  | statement s =>
    obtain ⟨levels, hlevels, used, back, hsuffix, hrun, -⟩ := hreads
    exact grounded_of_statement hlevels hsuffix hrun
  | block b => exact List.forall_mem_map.2 fun _ _ => trivial
  | ident i => exact fun _ hchild => by cases hchild
  | expression e =>
    cases hoperator : e.operator? with
    | none =>
      obtain ⟨levels, hlevels, used, back, hsuffix, hrun, -⟩ := hreads hoperator
      exact grounded_of_operand (Nat.le_of_lt hlevels) hsuffix hrun hoperator
    | some op =>
      obtain ⟨r, hread, hpart⟩ := h
      cases e with
      | binary op left right location =>
        exact List.forall_mem_cons.2 ⟨⟨r, hread, hpart.trans (.left (.self _))⟩,
          List.forall_mem_singleton.2 ⟨r, hread, hpart.trans (.right (.self _))⟩⟩
      | _ => cases hoperator

theorem Within.grounded {root node : Node} (h : root.Within node)
    (hsettled : root.Everywhere (Settled whole)) (hroot : root.Grounded whole) :
    node.Grounded whole := by
  induction h with
  | self => exact hroot
  | @child root child node mem within ih =>
    refine ih (fun node hnode => hsettled node (.child mem hnode)) ?_
    exact hroot.children (hsettled root (.self root)) child mem

end Node

/-! ## The text of an operation -/

/-- The text at the span, when it is printed, parses to the expression, which then starts five bytes
after the start. -/
def PrintsAlone (source : String) (span : Span) (e : Expr) : Prop :=
  ∃ excerpt e', tokenize ("chop " ++ span.slice source ++ ";") = .ok excerpt ∧
    parse excerpt = .ok ⟨[.print e' ⟨0, ("chop " ++ span.slice source ++ ";").utf8ByteSize⟩],
      ⟨0, ("chop " ++ span.slice source ++ ";").utf8ByteSize⟩⟩ ∧
      e'.shift span.start = e.shift 5

/-- The text at the span can be read, but when it is printed, it does not parse. -/
def PrintsNothing (source : String) (span : Span) : Prop :=
  ∃ excerpt fault, tokenize ("chop " ++ span.slice source ++ ";") = .ok excerpt ∧
    parse excerpt = .error fault

theorem map_token_shift (n : Nat) (ls : List Lexeme) :
    (ls.map (Lexeme.shift n)).map Lexeme.token = ls.map Lexeme.token := by
  rw [List.map_map]
  rfl

section Source

variable {source : String} {lexemes used back : List Lexeme} {span : Span}
  (htokens : tokenize source = .ok lexemes) (hsuffix : used ++ back <:+ lexemes)
  (haround : span.Around used)

include htokens hsuffix haround

theorem printsAlone_of_run {levels : Nat} {e : Expr} (hlevels : levels < nestingLimit)
    (hrun : Parser.OperationRun (Parser.primary (Parser.expression levels)) (used ++ back) e back) :
    PrintsAlone source span e := by
  obtain ⟨used', htiled, rfl⟩ := tiled_of_around htokens hsuffix haround
  have hprinted := tiled_printed htiled
  let size := ("chop " ++ span.slice source ++ ";").utf8ByteSize
  let ending : List Lexeme := [⟨.semicolon, ⟨size - 1, size⟩⟩, ⟨.endOfFile, ⟨size, size⟩⟩]
  let M : Relocation := ⟨5, span.start, back, ending, .semicolon _ _⟩
  have hbeside : M.Beside (used'.map (Lexeme.shift span.start) ++ back)
      (used'.map (Lexeme.shift 5) ++ ending) := .of_map (map_shift_comm _ _ _)
  have hsound := Parser.expression_sound levels
  have hmoves : Parser.Moves M Expr.shift (Parser.primary (Parser.expression levels))
      (Parser.primary (Parser.expression (nestingLimit - 1))) :=
    Parser.primary_moves hsound (Parser.expression_moves (Nat.le_pred_of_lt hlevels))
  obtain ⟨e', rest, hrest, hrun', hsame⟩ :=
    hrun.moves (Parser.primary_sound hsound) hmoves hbeside (Nat.le_refl _)
  obtain rfl := hrest.eq_ending (Nat.le_refl _)
  have hvalue : Parser.expression nestingLimit (used'.map (Lexeme.shift 5) ++ ending) =
      .ok e' ending :=
    hrun'.run (Parser.primary_sound (Parser.expression_sound _)) M.continueNothing
  exact ⟨_, e', tokenize_of_tiled hprinted, parse_printed hvalue, hsame.symm⟩

theorem printsNothing_of_unbalanced (h : ¬ Balanced (used.map Lexeme.token)) :
    PrintsNothing source span := by
  obtain ⟨used', htiled, rfl⟩ := tiled_of_around htokens hsuffix haround
  rw [map_token_shift] at h
  have hprinted := tiled_printed htiled
  have hexcerpt := tokenize_of_tiled hprinted
  cases hparse : parse _ with
  | error fault => exact ⟨_, fault, hexcerpt, hparse⟩
  | ok P =>
    obtain ⟨height, -, hphrase⟩ := parse_derivation (free_of_tiled hprinted) hparse
    have hbalanced := hphrase.balanced
    rw [List.map_cons, List.map_append, map_token_shift] at hbalanced
    exact absurd hbalanced.of_printed h

end Source

theorem operationRun_of_parse {lexemes : List Lexeme} {P : Program} {e : Expr}
    (hordered : Ordered lexemes) (hparse : parse lexemes = .ok P)
    (hwithin : (Node.program P).Within (.expression e)) (hoperation : e.operator? ≠ none) :
    ∃ levels ls rest, levels < nestingLimit ∧ ls <:+ lexemes ∧
      Parser.OperationRun (Parser.primary (Parser.expression levels)) ls e rest := by
  cases hwithin with
  | @child _ child _ mem within =>
    have hsettled := ((placed_of_parse hordered hparse).forall_mem child mem).2
    obtain ⟨s, -, rfl⟩ := List.mem_map.1 mem
    obtain ⟨r, ⟨levels, ls, rest, hlevels, hls, hread⟩, hpart⟩ := within.grounded hsettled trivial
    exact operationRun_of_madeOf hlevels hls hread hpart hoperation

/-- The text of an operation, in every program that parses. Around its place stand the round brackets
at its ends that the place leaves out. With them its text, printed, parses to the operation. Where there
are none, this is the text at its place, and where there are some, the text at its place does not
parse. -/
theorem operations_in_brackets {source : String} {lexemes : List Lexeme} {P : Program} {e : Expr}
    (htokens : tokenize source = .ok lexemes) (hparse : parse lexemes = .ok P)
    (hwithin : (Node.program P).Within (.expression e)) (hoperation : e.operator? ≠ none) :
    ∃ front opens core closes back, ∃ outer : Span,
      lexemes = front ++ (opens ++ core ++ closes) ++ back ∧
        Framed e.location opens core closes ∧ outer.Around (opens ++ core ++ closes) ∧
          PrintsAlone source outer e ∧
            ((opens = [] ∧ closes = [] ∧ outer = e.location) ∨
              ((opens ≠ [] ∨ closes ≠ []) ∧ PrintsNothing source e.location)) := by
  have hordered := ordered_of_tokenize htokens
  obtain ⟨levels, ls, back, hlevels, hsuffix, hrun⟩ :=
    operationRun_of_parse hordered hparse hwithin hoperation
  have hle := Nat.le_of_lt hlevels
  have hoperand : Parser.Brackets lexemes (Parser.primary (Parser.expression levels)) :=
    Parser.primary_brackets (Parser.expression_brackets hordered hle)
      (Parser.expression_places hordered hle) (Parser.expression_sound levels)
  obtain ⟨opens, core, closes, rfl, hframe, htight⟩ := hrun.framed hordered hoperand hsuffix
  obtain ⟨outer, houter⟩ := hframe.exists_outer
  have halone := printsAlone_of_run htokens hsuffix houter hlevels hrun
  obtain ⟨front, hfront⟩ := hsuffix
  have hsplit : lexemes = front ++ (opens ++ core ++ closes) ++ back := by
    rw [← hfront, ← List.append_assoc]
  refine ⟨front, opens, core, closes, back, outer, hsplit, hframe, houter, halone, ?_⟩
  by_cases hbalanced : Balanced (core.map Lexeme.token)
  · obtain ⟨rfl, rfl⟩ := htight hbalanced
    rw [List.nil_append, List.append_nil] at houter
    exact .inl ⟨rfl, rfl, houter.unique hframe.around⟩
  · have hsome : opens ≠ [] ∨ closes ≠ [] := by
      refine Classical.not_and_iff_not_or_not.1 fun hnone => hbalanced ?_
      simpa [hnone.1, hnone.2] using hframe.balanced
    have hcore : core ++ (closes ++ back) <:+ lexemes := ⟨front ++ opens, by simp [hsplit]⟩
    exact .inr ⟨hsome, printsNothing_of_unbalanced htokens hcore hframe.around hbalanced⟩

theorem operations_in_brackets_product :
    ∃ outer, PrintsAlone "chop 2*((1)+3);" outer
      (.binary .multiply (.integer ⟨2, by decide⟩ ⟨5, 6⟩)
        (.binary .add (.integer .one ⟨9, 10⟩) (.integer ⟨3, by decide⟩ ⟨12, 13⟩) ⟨9, 13⟩) ⟨5, 13⟩) ∧
          (outer = ⟨5, 13⟩ ∨ PrintsNothing "chop 2*((1)+3);" ⟨5, 13⟩) := by
  let product : Expr := .binary .multiply (.integer ⟨2, by decide⟩ ⟨5, 6⟩)
    (.binary .add (.integer .one ⟨9, 10⟩) (.integer ⟨3, by decide⟩ ⟨12, 13⟩) ⟨9, 13⟩) ⟨5, 13⟩
  have htokens : tokenize "chop 2*((1)+3);" = .ok
      [⟨.keyword .print, ⟨0, 4⟩⟩, ⟨.integer ⟨2, by decide⟩, ⟨5, 6⟩⟩, ⟨.operator .multiply, ⟨6, 7⟩⟩,
        ⟨.opening .round, ⟨7, 8⟩⟩, ⟨.opening .round, ⟨8, 9⟩⟩, ⟨.integer .one, ⟨9, 10⟩⟩,
        ⟨.closing .round, ⟨10, 11⟩⟩, ⟨.operator .add, ⟨11, 12⟩⟩,
        ⟨.integer ⟨3, by decide⟩, ⟨12, 13⟩⟩, ⟨.closing .round, ⟨13, 14⟩⟩, ⟨.semicolon, ⟨14, 15⟩⟩,
        ⟨.endOfFile, ⟨15, 15⟩⟩] := by
    decide +kernel
  obtain ⟨_, _, _, _, _, outer, -, -, -, halone, htext⟩ :=
    operations_in_brackets (P := ⟨[.print product ⟨0, 15⟩], ⟨0, 15⟩⟩) (e := product) htokens rfl
      (.child (.head _) (.child (.head _) (.self _))) nofun
  exact ⟨outer, halone, htext.imp (·.2.2) (·.2)⟩

/-- The place of an operation is not always its text: the bracket that closes after the `1` is at the
place of the division, the bracket that opens before it is not. -/
theorem division_place_unbalanced :
    ∃ lexemes P e excerpt fault, tokenize "chop (1)/0;" = .ok lexemes ∧ parse lexemes = .ok P ∧
      (Node.program P).Within (.expression e) ∧ e.operator? = some .divide ∧
        e.location.slice "chop (1)/0;" = "1)/0" ∧
          tokenize "chop 1)/0;" = .ok excerpt ∧ parse excerpt = .error fault := by
  let division : Expr :=
    .binary .divide (.integer .one ⟨6, 7⟩) (.integer .zero ⟨9, 10⟩) ⟨6, 10⟩
  have htokens : tokenize "chop (1)/0;" = .ok
      [⟨.keyword .print, ⟨0, 4⟩⟩, ⟨.opening .round, ⟨5, 6⟩⟩, ⟨.integer .one, ⟨6, 7⟩⟩,
        ⟨.closing .round, ⟨7, 8⟩⟩, ⟨.operator .divide, ⟨8, 9⟩⟩, ⟨.integer .zero, ⟨9, 10⟩⟩,
        ⟨.semicolon, ⟨10, 11⟩⟩, ⟨.endOfFile, ⟨11, 11⟩⟩] := by
    decide +kernel
  have hexcerpt : tokenize "chop 1)/0;" = .ok
      [⟨.keyword .print, ⟨0, 4⟩⟩, ⟨.integer .one, ⟨5, 6⟩⟩, ⟨.closing .round, ⟨6, 7⟩⟩,
        ⟨.operator .divide, ⟨7, 8⟩⟩, ⟨.integer .zero, ⟨8, 9⟩⟩, ⟨.semicolon, ⟨9, 10⟩⟩,
        ⟨.endOfFile, ⟨10, 10⟩⟩] := by
    decide +kernel
  have hslice : division.location.slice "chop (1)/0;" = "1)/0" := by decide +kernel
  exact ⟨_, ⟨[.print division ⟨0, 11⟩], ⟨0, 11⟩⟩, division, _, _, htokens, rfl,
    .child (.head _) (.child (.head _) (.self _)), rfl, hslice, hexcerpt, rfl⟩

end UzScript
