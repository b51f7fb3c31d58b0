import UzScript.Proofs.Placement

/-! # The places of the nodes of a program

The statements, blocks, names and expressions of a program are the nodes of a tree. A parser takes
consecutive lexemes for a node, and consecutive parts of them for its children. So the place of each
child lies in the place of its parent, and siblings lie one after the other. Each statement, and each
expression that is no operation, is what one parser makes of the lexemes at its place. -/

set_option autoImplicit false

namespace UzScript

/-! ## Spans on lexemes -/

namespace Span

/-- The first span covers the second. -/
def Contains (span inner : Span) : Prop := span.start ≤ inner.start ∧ inner.stop ≤ span.stop

/-- The span starts where a lexeme starts, and stops where one stops. -/
structure On (span : Span) (ls : List Lexeme) : Prop where
  start : ∃ l ∈ ls, l.token ≠ .endOfFile ∧ l.span.start = span.start
  stop : ∃ l ∈ ls, l.token ≠ .endOfFile ∧ l.span.stop = span.stop

/-- The span goes from the start of the first lexeme to the stop of the last. -/
structure Around (span : Span) (ls : List Lexeme) : Prop where
  first : ∃ l more, ls = l :: more ∧ l.token ≠ .endOfFile ∧ l.span.start = span.start
  last : ∃ before l, ls = before ++ [l] ∧ l.token ≠ .endOfFile ∧ l.span.stop = span.stop

variable {span inner : Span} {ls : List Lexeme}

theorem On.mono {ls' : List Lexeme} (h : span.On ls) (hsubset : ls ⊆ ls') : span.On ls' := by
  obtain ⟨⟨l, hl, hstart⟩, l', hl', hstop⟩ := h
  exact ⟨⟨l, hsubset hl, hstart⟩, l', hsubset hl', hstop⟩

theorem On.merge (h : span.On ls) (h' : inner.On ls) : (span.merge inner).On ls := by
  constructor
  · change ∃ l ∈ ls, _ ∧ _ = min span.start inner.start
    rcases Nat.le_total span.start inner.start with hle | hle
    · rw [Nat.min_eq_left hle]
      exact h.start
    · rw [Nat.min_eq_right hle]
      exact h'.start
  · change ∃ l ∈ ls, _ ∧ _ = max span.stop inner.stop
    rcases Nat.le_total span.stop inner.stop with hle | hle
    · rw [Nat.max_eq_right hle]
      exact h'.stop
    · rw [Nat.max_eq_left hle]
      exact h.stop

theorem Around.on (h : span.Around ls) : span.On ls := by
  obtain ⟨⟨l, more, hcons, hstart⟩, before, l', happend, hstop⟩ := h
  refine ⟨⟨l, ?_, hstart⟩, l', ?_, hstop⟩
  · rw [hcons]
    exact List.mem_cons_self
  · rw [happend]
    exact List.mem_append_right before List.mem_cons_self

theorem Around.single {t : Token} (ht : t ≠ .endOfFile) : span.Around [⟨t, span⟩] :=
  ⟨⟨_, [], rfl, ht, rfl⟩, [], _, rfl, ht, rfl⟩

theorem Around.cons (h : span.Around ls) (t : Token) (ht : t ≠ .endOfFile) (first : Span)
    (mid : List Lexeme) :
    (⟨first.start, span.stop⟩ : Span).Around (⟨t, first⟩ :: (mid ++ ls)) := by
  obtain ⟨-, before, last, rfl, hlast⟩ := h
  refine ⟨⟨_, _, rfl, ht, rfl⟩, ⟨t, first⟩ :: (mid ++ before), last, ?_, hlast⟩
  rw [List.cons_append, List.append_assoc]

theorem Around.forward (h : span.Around ls) (hls : Ordered ls) : span.start ≤ span.stop := by
  obtain ⟨l', hl', -, hstop⟩ := h.on.stop
  obtain ⟨l, more, rfl, -, hstart⟩ := h.first
  rw [← hstart, ← hstop]
  rcases List.mem_cons.1 hl' with rfl | hmore
  · exact hls.forward l' List.mem_cons_self
  · exact hls.start_le_stop hmore

theorem Around.contains (h : span.Around ls) (hls : Ordered ls) (hinner : inner.On ls) :
    span.Contains inner := by
  obtain ⟨⟨l, hl, -, hstart⟩, l', hl', -, hstop⟩ := hinner
  constructor
  · obtain ⟨first, more, rfl, -, hfirst⟩ := h.first
    rcases List.mem_cons.1 hl with rfl | hmore
    · omega
    · have hapart := List.rel_of_pairwise_cons hls.apart hmore
      have hforward := hls.forward first List.mem_cons_self
      omega
  · obtain ⟨before, last, rfl, -, hlast⟩ := h.last
    rcases List.mem_append.1 hl' with hbefore | hsingle
    · have hapart := (List.pairwise_append.1 hls.apart).2.2 l' hbefore last List.mem_cons_self
      have hforward := hls.forward last (List.mem_append_right before List.mem_cons_self)
      omega
    · rw [List.mem_singleton] at hsingle
      rw [← hstop, hsingle]
      exact Nat.le_of_eq hlast

end Span

/-! ## Nodes -/

inductive Node
  | program (P : Program)
  | statement (s : Stmt)
  | block (b : Block)
  | ident (i : Ident)
  | expression (e : Expr)

namespace Node

def span : Node → Span
  | program P => P.location
  | statement s => s.location
  | block b => b.location
  | ident i => i.location
  | expression e => e.location

def children : Node → List Node
  | program P => P.statements.map statement
  | statement (.declare i e _) => [ident i, expression e]
  | statement (.print e _) | statement (.giveBack e _) => [expression e]
  | statement (.branch e b c _) => expression e :: block b :: c.toList.map block
  | statement (.define f) => ident f.ident :: (f.parameters.map ident ++ [block f.body])
  | block b => b.statements.map statement
  | ident _ => []
  | expression (.integer _ _) | expression (.text _ _) => []
  | expression (.variable i) => [ident i]
  | expression (.binary _ left right _) => [expression left, expression right]
  | expression (.call i es _) => ident i :: es.map expression
  | expression (.list es _) => es.map expression

/-- A node of the tree below a root, or the root itself. -/
inductive Within : Node → Node → Prop
  | self (root : Node) : Within root root
  | child {root child node : Node} (mem : child ∈ root.children) (within : Within child node) :
      Within root node

def Everywhere (p : Node → Prop) (root : Node) : Prop := ∀ node, root.Within node → p node

theorem Everywhere.intro {p : Node → Prop} {root : Node} (hroot : p root)
    (hchildren : ∀ child ∈ root.children, child.Everywhere p) : root.Everywhere p := by
  intro node hnode
  cases hnode with
  | self => exact hroot
  | child mem within => exact hchildren _ mem node within

end Node

/-- From some lexeme on, the parser makes `a` of the lexemes at the span. -/
def ReadBy {α : Type} (whole : List Lexeme) (p : Parser α) (a : α) (span : Span) : Prop :=
  ∃ used back, used ++ back <:+ whole ∧ p (used ++ back) = .ok a back ∧ span.Around used

namespace Node

/-- A statement is read as such, and an expression that is no operation as an operand. -/
def Reads (whole : List Lexeme) : Node → Prop
  | statement s => ∃ levels, levels ≤ nestingLimit ∧
      ReadBy whole (Parser.statement levels) s s.location
  | expression e => e.operator? = none → ∃ levels, levels < nestingLimit ∧
      ReadBy whole (Parser.primary (Parser.expression levels)) e e.location
  | program _ | block _ | ident _ => True

/-- The node is in its place among the lexemes, and so are its children. -/
structure Settled (whole : List Lexeme) (node : Node) : Prop where
  on : node.span.On whole
  forward : node.span.start ≤ node.span.stop
  contains : ∀ child ∈ node.children, node.span.Contains child.span
  apart : node.children.Pairwise fun child next => child.span.stop ≤ next.span.start
  reads : node.Reads whole

end Node

/-- The nodes lie on the lexemes, one after the other. -/
inductive Placed (whole : List Lexeme) : List Node → List Lexeme → Prop
  | nil (ls : List Lexeme) : Placed whole [] ls
  | cons {node : Node} {nodes : List Node} {gap used more : List Lexeme} (on : node.span.On used)
      (settled : node.Everywhere (Node.Settled whole)) (rest : Placed whole nodes more) :
      Placed whole (node :: nodes) (gap ++ used ++ more)

namespace Placed

variable {whole ls ls' : List Lexeme} {nodes nodes' : List Node}

theorem single {node : Node} (on : node.span.On ls)
    (settled : node.Everywhere (Node.Settled whole)) : Placed whole [node] ls := by
  have h : Placed whole [node] ([] ++ ls ++ []) := .cons on settled (.nil [])
  rwa [List.append_nil] at h

theorem after (h : Placed whole nodes ls) (gap : List Lexeme) : Placed whole nodes (gap ++ ls) := by
  cases h with
  | nil => exact .nil _
  | cons on settled rest =>
    rw [List.append_assoc, ← List.append_assoc, ← List.append_assoc]
    exact .cons on settled rest

theorem append (h : Placed whole nodes ls) (h' : Placed whole nodes' ls') :
    Placed whole (nodes ++ nodes') (ls ++ ls') := by
  induction h with
  | nil ls => exact h'.after ls
  | cons on settled _ ih =>
    rw [List.append_assoc]
    exact .cons on settled ih

theorem before (h : Placed whole nodes ls) (gap : List Lexeme) : Placed whole nodes (ls ++ gap) := by
  have happend := h.append (.nil gap)
  rwa [List.append_nil] at happend

theorem forall_mem (h : Placed whole nodes ls) :
    ∀ node ∈ nodes, node.span.On ls ∧ node.Everywhere (Node.Settled whole) := by
  induction h with
  | nil => exact fun _ hmem => by cases hmem
  | cons on settled _ ih =>
    refine List.forall_mem_cons.2 ⟨⟨on.mono ?_, settled⟩, fun node hnode => ?_⟩
    · exact fun l hl => List.mem_append_left _ (List.mem_append_right _ hl)
    · obtain ⟨hon, hsettled⟩ := ih node hnode
      exact ⟨hon.mono (List.subset_append_right _ _), hsettled⟩

theorem apart (h : Placed whole nodes ls)
    (hls : ls.Pairwise fun l l' => l.span.stop ≤ l'.span.start) :
    nodes.Pairwise fun node next => node.span.stop ≤ next.span.start := by
  induction h with
  | nil => exact .nil
  | @cons node nodes gap used more on _ rest ih =>
    obtain ⟨-, hmore, hapart⟩ := List.pairwise_append.1 hls
    refine .cons (fun next hnext => ?_) (ih hmore)
    obtain ⟨l, hl, -, hstop⟩ := on.stop
    obtain ⟨l', hl', -, hstart⟩ := (rest.forall_mem next hnext).1.start
    have hle := hapart l (List.mem_append_right gap hl) l' hl'
    omega

end Placed

section Whole

variable {whole used rest : List Lexeme} (hwhole : Ordered whole)

include hwhole

theorem Ordered.of_used (hsuffix : used ++ rest <:+ whole) : Ordered used := by
  have hls := hwhole.suffix hsuffix
  exact ⟨hls.apart.sublist (List.sublist_append_left used rest),
    fun l hl => hls.forward l (List.mem_append_left rest hl)⟩

/-- A node is settled when its children are, and it goes from the first of the lexemes on which they
lie to the last. -/
theorem everywhere_settled {node : Node} (hsuffix : used ++ rest <:+ whole)
    (haround : node.span.Around used) (hplaced : Placed whole node.children used)
    (hreads : node.Reads whole) : node.Everywhere (Node.Settled whole) := by
  have hused := hwhole.of_used hsuffix
  refine .intro ⟨?_, haround.forward hused, fun child hchild => ?_, hplaced.apart hused.apart, hreads⟩
    fun child hchild => (hplaced.forall_mem child hchild).2
  · exact haround.on.mono fun l hl => hsuffix.subset (List.mem_append_left rest hl)
  · exact haround.contains hused (hplaced.forall_mem child hchild).1

theorem placed_combine (op : Operator) {left right : Expr} (hsuffix : used ++ rest <:+ whole)
    (hplaced : Placed whole [.expression left, .expression right] used) :
    Placed whole [.expression (.combine op left right)] used := by
  have hused := hwhole.of_used hsuffix
  obtain ⟨hleft, hothers⟩ := List.forall_mem_cons.1 hplaced.forall_mem
  have hright := List.forall_mem_singleton.1 hothers
  have hon : (Node.expression (.combine op left right)).span.On used := hleft.1.merge hright.1
  refine .single hon (.intro ⟨?_, ?_, ?_, hplaced.apart hused.apart, fun h => by cases h⟩ ?_)
  · exact hon.mono fun l hl => hsuffix.subset (List.mem_append_left rest hl)
  · have hforward : left.location.start ≤ left.location.stop := (hleft.2 _ (.self _)).forward
    change min left.location.start right.location.start ≤ max left.location.stop right.location.stop
    omega
  · exact List.forall_mem_cons.2 ⟨⟨Nat.min_le_left _ _, Nat.le_max_left _ _⟩,
      List.forall_mem_singleton.2 ⟨Nat.min_le_right _ _, Nat.le_max_right _ _⟩⟩
  · exact List.forall_mem_cons.2 ⟨hleft.2, List.forall_mem_singleton.2 hright.2⟩

end Whole

/-! ## What the parsers place -/

namespace Parser

variable {α : Type} {whole : List Lexeme}

/-- The nodes that the parser makes lie on the lexemes that it takes. -/
def Places (whole : List Lexeme) (p : Parser α) (nodes : α → List Node) : Prop :=
  ∀ ⦃ls : List Lexeme⦄ ⦃a : α⦄ ⦃rest : List Lexeme⦄, ls <:+ whole → p ls = .ok a rest →
    ∃ used, ls = used ++ rest ∧ Placed whole (nodes a) used

def Fills (whole : List Lexeme) (p : Parser α) (span : α → Span) (nodes : α → List Node) : Prop :=
  ∀ ⦃ls : List Lexeme⦄ ⦃a : α⦄ ⦃rest : List Lexeme⦄, ls <:+ whole → p ls = .ok a rest →
    ∃ used, ls = used ++ rest ∧ (span a).Around used ∧ Placed whole (nodes a) used

section Items

variable {item : Parser α} {node : α → Node} (hitem : Places whole item fun a => [node a])

include hitem

theorem furtherItems_places (rounds : List Lexeme) :
    Places whole (furtherItems item rounds) (List.map node) := by
  induction rounds with
  | nil =>
    intro ls as rest _ hrun
    obtain ⟨rfl, rfl⟩ := pure_ok.1 hrun
    exact ⟨[], rfl, .nil []⟩
  | cons _ rounds ih =>
    intro ls as rest hsuffix hrun
    cases hcomma : isAt .comma ls with
    | false =>
      rw [furtherItems_end hcomma] at hrun
      cases hrun
      exact ⟨[], rfl, .nil []⟩
    | true =>
      obtain ⟨span, ls, rfl⟩ := isAt_eq_true hcomma
      rw [furtherItems, currentIs_bind] at hrun
      simp only [hcomma, if_true, step_bind, List.tail_cons, bind_ok, pure_ok] at hrun
      obtain ⟨a, mid, ha, as, _, has, rfl, rfl⟩ := hrun
      have htail := (List.suffix_cons _ ls).trans hsuffix
      obtain ⟨f, rfl, hfirst⟩ := hitem htail ha
      obtain ⟨g, rfl, hmore⟩ := ih ((List.suffix_append f mid).trans htail) has
      refine ⟨⟨.comma, span⟩ :: (f ++ g), by simp, ?_⟩
      exact (hfirst.append hmore).after [⟨.comma, span⟩]

theorem delimited_fills {bracket : Bracket} :
    Fills whole (delimited (.opening bracket) (.closing bracket) item) Prod.snd
      fun items => items.1.map node := by
  rintro ls ⟨as, span⟩ rest hsuffix hrun
  obtain ⟨first, last, mid, rfl, rfl, hitems⟩ := delimited_ok.1 hrun
  have hlast : last.Around [⟨.closing bracket, last⟩] := .single nofun
  rcases hitems with ⟨rfl, rfl⟩ | ⟨a, after, as, -, ha, has, rfl⟩
  · exact ⟨[⟨.opening bracket, first⟩, ⟨.closing bracket, last⟩], rfl,
      hlast.cons (.opening bracket) nofun first [], .nil _⟩
  · have hmid := (List.suffix_cons _ mid).trans hsuffix
    obtain ⟨f, rfl, hfirst⟩ := hitem hmid ha
    obtain ⟨g, rfl, hmore⟩ :=
      furtherItems_places hitem _ ((List.suffix_append f after).trans hmid) has
    refine ⟨⟨.opening bracket, first⟩ :: (f ++ g ++ [⟨.closing bracket, last⟩]), by simp,
      hlast.cons (.opening bracket) nofun first (f ++ g), ?_⟩
    exact ((hfirst.append hmore).before _).after [⟨.opening bracket, first⟩]

end Items

section Nodes

variable (hwhole : Ordered whole)

include hwhole

theorem ident_placed {i : Ident} {rest : List Lexeme}
    (hsuffix : ⟨.ident i.name, i.location⟩ :: rest <:+ whole) :
    Placed whole [.ident i] [⟨.ident i.name, i.location⟩] := by
  have haround : i.location.Around [⟨.ident i.name, i.location⟩] := .single nofun
  exact .single haround.on (everywhere_settled hwhole hsuffix haround (.nil _) trivial)

theorem ident_places : Places whole ident fun i => [.ident i] := by
  intro ls i rest hsuffix hrun
  obtain rfl := ident_ok.1 hrun
  exact ⟨[⟨.ident i.name, i.location⟩], rfl, ident_placed hwhole hsuffix⟩

section Expressions

variable {operand inner : Parser Expr} {accepts : Operator → Bool}

theorem furtherOperands_places (hoperand : Places whole operand fun e => [.expression e])
    {rounds taken ls rest : List Lexeme} {left e : Expr} (hsuffix : taken ++ ls <:+ whole)
    (hleft : Placed whole [.expression left] taken)
    (hrun : furtherOperands accepts operand rounds left ls = .ok e rest) :
    ∃ used, ls = used ++ rest ∧ Placed whole [.expression e] (taken ++ used) := by
  induction rounds generalizing taken left ls with
  | nil =>
    obtain ⟨rfl, rfl⟩ := pure_ok.1 hrun
    exact ⟨[], rfl, hleft.before []⟩
  | cons _ rounds ih =>
    cases hop : operatorAt accepts ls with
    | none =>
      rw [furtherOperands_end hop] at hrun
      cases hrun
      exact ⟨[], rfl, hleft.before []⟩
    | some op =>
      obtain ⟨-, span, ls, rfl⟩ := operatorAt_eq_some hop
      rw [furtherOperands, currentOperator_bind] at hrun
      simp only [hop, step_bind, List.tail_cons, bind_ok] at hrun
      obtain ⟨right, mid, hright, hmore⟩ := hrun
      have htail := ((List.suffix_cons _ ls).trans (List.suffix_append taken _)).trans hsuffix
      obtain ⟨f, rfl, hsecond⟩ := hoperand htail hright
      have hjoined : taken ++ ⟨.operator op, span⟩ :: f ++ mid <:+ whole := by simpa using hsuffix
      have hboth := placed_combine hwhole op hjoined
        (hleft.append (hsecond.after [⟨.operator op, span⟩]))
      obtain ⟨g, rfl, hplaced⟩ := ih hjoined hboth hmore
      exact ⟨⟨.operator op, span⟩ :: (f ++ g), by simp, by simpa using hplaced⟩

theorem operandChain_places (hoperand : Places whole operand fun e => [.expression e]) :
    Places whole (operandChain accepts operand) fun e => [.expression e] := by
  intro ls e rest hsuffix hrun
  simp only [operandChain, bind_ok, remaining_bind] at hrun
  obtain ⟨left, mid, hleft, hmore⟩ := hrun
  obtain ⟨f, rfl, hfirst⟩ := hoperand hsuffix hleft
  obtain ⟨g, rfl, hplaced⟩ := furtherOperands_places hwhole hoperand hsuffix hfirst hmore
  exact ⟨f ++ g, by simp, hplaced⟩

theorem comparison_places (hoperand : Places whole operand fun e => [.expression e]) :
    Places whole (comparison operand) fun e => [.expression e] := by
  have hadditive : Places whole (additive operand) fun e => [.expression e] :=
    operandChain_places hwhole (operandChain_places hwhole hoperand)
  intro ls e rest hsuffix hrun
  rcases comparison_ok.1 hrun with ⟨hplain, -⟩ | ⟨op, left, right, span, mid, hleft, -, hright, rfl⟩
  · exact hadditive hsuffix hplain
  · obtain ⟨f, rfl, hfirst⟩ := hadditive hsuffix hleft
    have htail := ((List.suffix_cons _ mid).trans (List.suffix_append f _)).trans hsuffix
    obtain ⟨g, rfl, hsecond⟩ := hadditive htail hright
    have hjoined : f ++ ⟨.operator op, span⟩ :: g ++ rest <:+ whole := by simpa using hsuffix
    refine ⟨f ++ ⟨.operator op, span⟩ :: g, by simp, placed_combine hwhole op hjoined ?_⟩
    exact hfirst.append (hsecond.after [⟨.operator op, span⟩])

/-- Brackets around an expression make no node. Everything else that is read as an operand does. -/
theorem primary_places (hinner : Places whole inner fun e => [.expression e])
    (hreads : ∀ e, ReadBy whole (primary inner) e e.location → (Node.expression e).Reads whole) :
    Places whole (primary inner) fun e => [.expression e] := by
  intro ls e rest hsuffix hrun
  have hnode (used : List Lexeme) (hls : ls = used ++ rest) (haround : e.location.Around used)
      (hplaced : Placed whole (Node.expression e).children used) :
      ∃ used, ls = used ++ rest ∧ Placed whole [.expression e] used := by
    subst hls
    refine ⟨used, rfl, .single haround.on ?_⟩
    exact everywhere_settled hwhole hsuffix haround hplaced
      (hreads e ⟨used, rest, hsuffix, hrun, haround⟩)
  cases primary_ok.1 hrun with
  | integer value span => exact hnode [⟨.integer value, span⟩] rfl (.single (by simp)) (.nil _)
  | text value span => exact hnode [⟨.text value, span⟩] rfl (.single (by simp)) (.nil _)
  | name i =>
    exact hnode [⟨.ident i.name, i.location⟩] rfl (.single (by simp)) (ident_placed hwhole hsuffix)
  | @call i mid _ es span items =>
    have hname := ident_placed hwhole (i := i) hsuffix
    obtain ⟨used, rfl, haround, hplaced⟩ :=
      delimited_fills hinner ((List.suffix_cons _ mid).trans hsuffix) items
    exact hnode (⟨.ident i.name, i.location⟩ :: used) rfl
      (haround.cons (.ident i.name) (by simp) i.location []) (hname.append hplaced)
  | @group first last mid _ _ value =>
    obtain ⟨f, rfl, hplaced⟩ := hinner ((List.suffix_cons _ mid).trans hsuffix) value
    refine ⟨⟨.opening .round, first⟩ :: (f ++ [⟨.closing .round, last⟩]), by simp, ?_⟩
    exact (hplaced.before _).after [⟨.opening .round, first⟩]
  | list items =>
    obtain ⟨used, hls, haround, hplaced⟩ := delimited_fills hinner hsuffix items
    exact hnode used hls haround hplaced

end Expressions

theorem expression_places {levels : Nat} (h : levels ≤ nestingLimit) :
    Places whole (expression levels) fun e => [.expression e] := by
  induction levels with
  | zero =>
    intro ls e rest _ hrun
    rw [expression_zero, nestingTooDeep, get_bind] at hrun
    exact absurd hrun throw_ok.1
  | succ levels ih =>
    apply comparison_places hwhole
    exact primary_places hwhole (ih (by omega)) fun e hread _ => ⟨levels, h, hread⟩

section Statements

variable {value : Parser Expr} {block : Parser Block}
  (hvalue : Places whole value fun e => [.expression e])
  (hblock : Fills whole block Block.location fun b => [.block b])

include hvalue in
theorem declaration_fills :
    Fills whole (declaration value) Stmt.location fun s => (Node.statement s).children := by
  intro ls s rest hsuffix hrun
  obtain ⟨first, name, location, assign, last, mid, e, rfl, he, rfl⟩ := declaration_ok.1 hrun
  have htail := (List.suffix_cons _ _).trans hsuffix
  have hname := ident_placed hwhole (i := ⟨name, location⟩) htail
  obtain ⟨f, rfl, hplaced⟩ :=
    hvalue (((List.suffix_cons _ _).trans (List.suffix_cons _ _)).trans htail) he
  have hlast : last.Around [⟨.semicolon, last⟩] := .single nofun
  refine ⟨⟨.keyword .declare, first⟩ :: ⟨.ident name, location⟩ :: ⟨.assign, assign⟩ ::
    (f ++ [⟨.semicolon, last⟩]), by simp,
    hlast.cons (.keyword .declare) nofun first (⟨.ident name, location⟩ :: ⟨.assign, assign⟩ :: f), ?_⟩
  have hboth := hname.append ((hplaced.before [⟨.semicolon, last⟩]).after [⟨.assign, assign⟩])
  exact hboth.after [⟨.keyword .declare, first⟩]

omit hwhole in
include hvalue in
theorem value_placed {keyword : Keyword} {first last : Span} {mid rest : List Lexeme} {e : Expr}
    (hsuffix : ⟨.keyword keyword, first⟩ :: mid <:+ whole)
    (hrun : value mid = .ok e (⟨.semicolon, last⟩ :: rest)) :
    ∃ used, ⟨.keyword keyword, first⟩ :: mid = used ++ rest ∧
      (⟨first.start, last.stop⟩ : Span).Around used ∧ Placed whole [.expression e] used := by
  obtain ⟨f, rfl, hplaced⟩ := hvalue ((List.suffix_cons _ _).trans hsuffix) hrun
  have hlast : last.Around [⟨.semicolon, last⟩] := .single nofun
  refine ⟨⟨.keyword keyword, first⟩ :: (f ++ [⟨.semicolon, last⟩]), by simp,
    hlast.cons (.keyword keyword) nofun first f, ?_⟩
  exact (hplaced.before _).after [⟨.keyword keyword, first⟩]

omit hwhole in
include hvalue hblock in
theorem branching_fills :
    Fills whole (branching value block) Stmt.location fun s => (Node.statement s).children := by
  intro ls s rest hsuffix hrun
  obtain ⟨first, opening, closing, mid, e, after, b, rest₁, rfl, he, hb, hend⟩ := branching_ok.1 hrun
  have htail := ((List.suffix_cons _ _).trans (List.suffix_cons _ _)).trans hsuffix
  obtain ⟨f, rfl, hcondition⟩ := hvalue htail he
  have hafter := ((List.suffix_cons _ _).trans (List.suffix_append f _)).trans htail
  obtain ⟨g, rfl, haround, hthen⟩ := hblock hafter hb
  have hfirst := (hcondition.after [⟨.keyword .branch, first⟩, ⟨.opening .round, opening⟩]).append
    (hthen.after [⟨.closing .round, closing⟩])
  rcases hend with ⟨-, rfl, rfl⟩ | ⟨otherwise, more, c, rfl, hc, rfl⟩
  · refine ⟨_, ?_, haround.cons (.keyword .branch) nofun first
      (⟨.opening .round, opening⟩ :: f ++ [⟨.closing .round, closing⟩]), ?_⟩
    · simp
    · simpa [Node.children] using hfirst
  · have hmore := ((List.suffix_cons _ _).trans (List.suffix_append g _)).trans hafter
    obtain ⟨g', rfl, haround', helse⟩ := hblock hmore hc
    refine ⟨_, ?_, haround'.cons (.keyword .branch) nofun first (⟨.opening .round, opening⟩ :: f
      ++ ⟨.closing .round, closing⟩ :: g ++ [⟨.keyword .otherwise, otherwise⟩]), ?_⟩
    · simp
    · simpa [Node.children] using hfirst.append (helse.after [⟨.keyword .otherwise, otherwise⟩])

include hblock in
theorem functionDef_fills : Fills whole (functionDef block) FunctionDef.location
    fun f => (Node.statement (.define f)).children := by
  intro ls f rest hsuffix hrun
  obtain ⟨first, name, location, mid, parameters, span, after, body, rfl, hparameters, hbody, rfl⟩ :=
    functionDef_ok.1 hrun
  have htail := (List.suffix_cons _ _).trans hsuffix
  have hmid := (List.suffix_cons _ mid).trans htail
  have hname := ident_placed hwhole (i := ⟨name, location⟩) htail
  obtain ⟨f, rfl, -, hplaced⟩ := delimited_fills (ident_places hwhole) hmid hparameters
  obtain ⟨g, rfl, haround, hblock⟩ := hblock ((List.suffix_append f _).trans hmid) hbody
  refine ⟨_, ?_, haround.cons (.keyword .define) nofun first (⟨.ident name, location⟩ :: f), ?_⟩
  · simp
  · have hall := (hname.append (hplaced.append hblock)).after [⟨.keyword .define, first⟩]
    simpa [Node.children] using hall

include hvalue hblock in
theorem statementOf_fills :
    Fills whole (statementOf value block) Stmt.location fun s => (Node.statement s).children := by
  intro ls s rest hsuffix hrun
  cases statementOf_ok.1 hrun with
  | declare hrun =>
    exact declaration_fills hwhole hvalue hsuffix hrun
  | print hrun =>
    obtain ⟨first, last, mid, e, hls, he, rfl⟩ := printing_ok.1 hrun
    rw [hls] at hsuffix ⊢
    exact value_placed hvalue hsuffix he
  | branch hrun =>
    exact branching_fills hvalue hblock hsuffix hrun
  | define hf =>
    exact functionDef_fills hwhole hblock hsuffix hf
  | giveBack hrun =>
    obtain ⟨first, last, mid, e, hls, he, rfl⟩ := givingBack_ok.1 hrun
    rw [hls] at hsuffix ⊢
    exact value_placed hvalue hsuffix he

end Statements

omit hwhole in
theorem StatementLoop.places {statement : Parser Stmt} {ends : List Lexeme → Prop}
    {loop : List Lexeme → Parser (List Stmt)} (hloop : StatementLoop statement ends loop)
    (hstatement : Places whole statement fun s => [.statement s]) (rounds : List Lexeme) :
    Places whole (loop rounds) (List.map Node.statement) := by
  induction rounds with
  | nil =>
    intro ls ss rest _ hrun
    rw [hloop.exhausted] at hrun
    cases hrun
    exact ⟨[], rfl, .nil []⟩
  | cons l rounds ih =>
    intro ls ss rest hsuffix hrun
    rcases hloop.round hrun with ⟨-, rfl, rfl⟩ | ⟨s, mid, ss, hs, hss, rfl⟩
    · exact ⟨[], rfl, .nil []⟩
    · obtain ⟨f, rfl, hfirst⟩ := hstatement hsuffix hs
      obtain ⟨g, rfl, hothers⟩ := ih ((List.suffix_append f mid).trans hsuffix) hss
      exact ⟨f ++ g, by simp, hfirst.append hothers⟩

theorem statement_places {levels : Nat} (h : levels ≤ nestingLimit)
    (hblock : Fills whole (block levels) Block.location fun b => [.block b]) :
    Places whole (statement levels) fun s => [.statement s] := by
  intro ls s rest hsuffix hrun
  obtain ⟨used, rfl, haround, hplaced⟩ :=
    statementOf_fills hwhole (expression_places hwhole h) hblock hsuffix hrun
  refine ⟨used, rfl, .single haround.on (everywhere_settled hwhole hsuffix haround hplaced ?_)⟩
  exact ⟨levels, h, used, rest, hsuffix, hrun, haround⟩

theorem block_fills {levels : Nat} (h : levels ≤ nestingLimit) :
    Fills whole (block levels) Block.location fun b => [.block b] := by
  induction levels with
  | zero =>
    intro ls b rest _ hrun
    rw [block_zero, nestingTooDeep, get_bind] at hrun
    exact absurd hrun throw_ok.1
  | succ levels ih =>
    intro ls b rest hsuffix hrun
    obtain ⟨first, last, mid, ss, rfl, hss, rfl⟩ := blockOf_ok.1 hrun
    have hstatement := statement_places hwhole (by omega) (ih (by omega))
    obtain ⟨f, rfl, hplaced⟩ := (blockStatements_loop _).places hstatement _
      ((List.suffix_cons _ _).trans hsuffix) hss
    have hlast : last.Around [⟨.closing .curly, last⟩] := .single (by simp)
    have haround : (⟨first.start, last.stop⟩ : Span).Around
        (⟨.opening .curly, first⟩ :: (f ++ [⟨.closing .curly, last⟩])) :=
      hlast.cons (.opening .curly) (by simp) first f
    have hsuffix' : ⟨.opening .curly, first⟩ :: (f ++ [⟨.closing .curly, last⟩]) ++ rest <:+ whole := by
      simpa using hsuffix
    refine ⟨_, by simp, haround, .single haround.on ?_⟩
    refine everywhere_settled hwhole hsuffix' haround ?_ trivial
    exact (hplaced.before _).after [⟨.opening .curly, first⟩]

end Nodes

end Parser

theorem placed_of_parse {ls : List Lexeme} {P : Program} (hls : Ordered ls)
    (hparse : parse ls = .ok P) : Placed ls (Node.program P).children ls := by
  obtain ⟨rest, hrun⟩ := parse_ok.1 hparse
  simp only [Parser.program, Parser.programOf, Parser.remaining_bind, Parser.currentSpan_bind, bind_ok,
    pure_ok] at hrun
  obtain ⟨ss, _, hss, rfl, -⟩ := hrun
  have hlimit := Nat.le_refl nestingLimit
  have hstatement := Parser.statement_places hls hlimit (Parser.block_fills hls hlimit)
  obtain ⟨used, hsplit, hplaced⟩ :=
    (Parser.programStatements_loop _).places hstatement _ (List.suffix_refl ls) hss
  rw [hsplit]
  rw [hsplit] at hplaced
  exact hplaced.before _

end UzScript
