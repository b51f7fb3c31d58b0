import UzScript.Proofs.Grammar

/-! # Round brackets are balanced

In every phrase of the grammar each round bracket that is opened is closed again, and none is closed
that is not open. So a phrase that loses brackets at one of its ends is a phrase no more. -/

set_option autoImplicit false

namespace UzScript.Grammar

/-- How many round brackets are open after a token, unless it closes one that is not open. -/
def openAfter (depth : Nat) : Token → Option Nat
  | .opening .round => some (depth + 1)
  | .closing .round => if 0 < depth then some (depth - 1) else none
  | _ => some depth

/-- The round brackets among the tokens belong together, whatever is open around them. -/
def Balanced (ts : List Token) : Prop := ∀ depth, ts.foldlM openAfter depth = some depth

namespace Balanced

variable {ts us : List Token}

theorem nil : Balanced [] := fun _ => rfl

theorem append (hts : Balanced ts) (hus : Balanced us) : Balanced (ts ++ us) := by
  intro depth
  rw [List.foldlM_append, hts depth]
  exact hus depth

theorem cons {t : Token} (ht : Balanced [t]) (hts : Balanced ts) : Balanced (t :: ts) :=
  ht.append hts

theorem group (hts : Balanced ts) (hus : Balanced us) :
    Balanced (.opening .round :: ts ++ .closing .round :: us) := by
  intro depth
  have hclose : openAfter (depth + 1) (.closing .round) = some depth := by simp [openAfter]
  rw [List.cons_append, List.foldlM_cons]
  change (ts ++ .closing .round :: us).foldlM openAfter (depth + 1) = some depth
  rw [List.foldlM_append, hts (depth + 1)]
  change (openAfter (depth + 1) (.closing .round)).bind (us.foldlM openAfter) = some depth
  rw [hclose]
  exact hus depth

theorem of_printed (h : Balanced (.keyword .print :: (ts ++ [.semicolon]))) : Balanced ts := by
  intro depth
  have hdepth := h depth
  rw [List.foldlM_cons] at hdepth
  change List.foldlM openAfter depth (ts ++ [.semicolon]) = some depth at hdepth
  rw [List.foldlM_append] at hdepth
  obtain ⟨after, hafter, hsame⟩ := Option.bind_eq_some_iff.1 hdepth
  rw [hafter]
  exact hsame

end Balanced

theorem openAfter_add {ts : List Token} {depth after : Nat} (k : Nat)
    (h : ts.foldlM openAfter depth = some after) :
    ts.foldlM openAfter (depth + k) = some (after + k) := by
  induction ts generalizing depth with
  | nil =>
    obtain rfl := Option.some.inj h
    rfl
  | cons t ts ih =>
    rw [List.foldlM_cons] at h ⊢
    obtain ⟨mid, hmid, hts⟩ := Option.bind_eq_some_iff.1 h
    have hstep : openAfter (depth + k) t = some (mid + k) := by
      unfold openAfter at hmid ⊢
      split at hmid
      · obtain rfl := Option.some.inj hmid
        rw [Nat.add_right_comm]
      · split at hmid
        · obtain rfl := Option.some.inj hmid
          rw [if_pos (by omega)]
          congr 1
          omega
        · cases hmid
      · obtain rfl := Option.some.inj hmid
        rfl
    rw [hstep]
    exact ih hts

theorem openAfter_opens {opens : List Token} (h : ∀ t ∈ opens, t = .opening .round) (depth : Nat) :
    opens.foldlM openAfter depth = some (depth + opens.length) := by
  induction opens generalizing depth with
  | nil => rfl
  | cons t opens ih =>
    obtain ⟨rfl, hopens⟩ := List.forall_mem_cons.1 h
    have hmore := ih hopens (depth + 1)
    rw [List.length_cons, ← Nat.add_assoc, Nat.add_right_comm]
    exact hmore

theorem Balanced.eq_nil_of_opens {opens ts us : List Token} (h : Balanced (opens ++ ts))
    (hopens : ∀ t ∈ opens, t = .opening .round) (hrest : Balanced (ts ++ us)) : opens = [] := by
  have hall := h 0
  have hfront := hrest 0
  rw [List.foldlM_append, openAfter_opens hopens] at hall
  rw [List.foldlM_append] at hfront
  obtain ⟨after, hafter, -⟩ := Option.bind_eq_some_iff.1 hfront
  have hmore := openAfter_add opens.length hafter
  have hzero : some (after + opens.length) = some 0 := hmore.symm.trans hall
  have hlength := Option.some.inj hzero
  exact List.eq_nil_of_length_eq_zero (by omega)

theorem Balanced.eq_nil_of_closes {closes ts : List Token} (h : Balanced (ts ++ closes))
    (hcloses : ∀ t ∈ closes, t = .closing .round) (hrest : Balanced ts) : closes = [] := by
  have hall := h 0
  rw [List.foldlM_append, hrest 0] at hall
  cases closes with
  | nil => rfl
  | cons t closes =>
    obtain ⟨rfl, -⟩ := List.forall_mem_cons.1 hcloses
    cases hall

/-! ## Phrases -/

theorem Repeated.balanced {α : Type} {item : Phrase α}
    (hitem : ∀ {ts : List Token} {h : Nat} {a : α}, item ts h a → Balanced ts)
    {ts : List Token} {h : Nat} {as : List α} (phrase : Repeated item ts h as) : Balanced ts := by
  induction phrase with
  | none => exact .nil
  | more first _ ih => exact (hitem first).append ih

theorem Listed.balanced {α : Type} {item : Phrase α}
    (hitem : ∀ {ts : List Token} {h : Nat} {a : α}, item ts h a → Balanced ts)
    {ts : List Token} {h : Nat} {as : List α} (phrase : Listed item ts h as) : Balanced ts := by
  cases phrase with
  | none => exact .nil
  | some first others =>
    have hcomma {ts : List Token} {h : Nat} {a : α} (after : AfterComma item ts h a) :
        Balanced ts := by
      obtain ⟨phrase⟩ := after
      exact .cons (fun _ => rfl) (hitem phrase)
    exact (hitem first).append (others.balanced hcomma)

theorem Chain.balanced {accepts : Operator → Bool} {operand : Phrase Expr}
    (hoperand : ∀ {ts : List Token} {h : Nat} {e : Expr}, operand ts h e → Balanced ts)
    {ts : List Token} {h : Nat} {e : Expr} (phrase : Chain accepts operand ts h e) :
    Balanced ts := by
  induction phrase with
  | first phrase => exact hoperand phrase
  | further _ _ last ih => exact ih.append (.cons (fun _ => rfl) (hoperand last))

theorem Primary.balanced {inner : Phrase Expr}
    (hinner : ∀ {ts : List Token} {h : Nat} {e : Expr}, inner ts h e → Balanced ts)
    {ts : List Token} {h : Nat} {e : Expr} (phrase : Primary inner ts h e) : Balanced ts := by
  cases phrase with
  | integer | text | name => exact fun _ => rfl
  | call _ arguments => exact .cons (fun _ => rfl) ((arguments.balanced hinner).group .nil)
  | group phrase => exact (hinner phrase).group .nil
  | list elements =>
    exact .cons (fun _ => rfl) ((elements.balanced hinner).append fun _ => rfl)

theorem Expression.balanced {ts : List Token} {h : Nat} {e : Expr} (phrase : Expression ts h e) :
    Balanced ts := by
  apply Expression.induct (motive := fun ts _ _ => Balanced ts) _ phrase
  intro ts h e compared
  have hadditive {ts : List Token} {h : Nat} {e : Expr} (additive : Chain Operator.isAdditive
      (Chain Operator.isMultiplicative (Primary fun ts _ _ => Balanced ts)) ts h e) :
      Balanced ts :=
    additive.balanced fun factors => factors.balanced fun primary => primary.balanced id
  cases compared with
  | plain phrase => exact hadditive phrase
  | compared first _ second =>
    exact (hadditive first).append (.cons (fun _ => rfl) (hadditive second))

theorem Statement.balanced {block : Phrase UzScript.Block}
    (hblock : ∀ {ts : List Token} {h : Nat} {b : UzScript.Block}, block ts h b → Balanced ts)
    {ts : List Token} {h : Nat} {s : Stmt} (phrase : Statement block ts h s) : Balanced ts := by
  cases phrase with
  | declare _ value =>
    exact .cons (fun _ => rfl) (.cons (fun _ => rfl) (.cons (fun _ => rfl)
      (value.balanced.append fun _ => rfl)))
  | print value | giveBack value =>
    exact .cons (fun _ => rfl) (value.balanced.append fun _ => rfl)
  | branch condition thenBlock =>
    exact .cons (fun _ => rfl) (condition.balanced.group (hblock thenBlock))
  | branchElse condition thenBlock elseBlock =>
    have hthen := condition.balanced.group (hblock thenBlock)
    exact .append (.cons (fun _ => rfl) hthen) (.cons (fun _ => rfl) (hblock elseBlock))
  | define _ parameters body =>
    have hparameter {ts : List Token} {h : Nat} {i : Ident} (parameter : Parameter ts h i) :
        Balanced ts := by
      obtain ⟨name⟩ := parameter
      exact fun _ => rfl
    exact .cons (fun _ => rfl) (.cons (fun _ => rfl)
      ((parameters.balanced hparameter).group (hblock body)))

theorem Block.balanced {ts : List Token} {h : Nat} {b : UzScript.Block} (phrase : Block ts h b) :
    Balanced ts := by
  apply Block.induct (motive := fun ts _ _ => Balanced ts) _ phrase
  intro ts h ss statements
  have hstatements := statements.balanced fun statement => statement.balanced id
  exact .cons (fun _ => rfl) (hstatements.append fun _ => rfl)

theorem Program.balanced {ts : List Token} {h : Nat} {P : UzScript.Program}
    (phrase : Program ts h P) : Balanced ts := by
  obtain ⟨statements⟩ := phrase
  exact statements.balanced fun statement => statement.balanced Block.balanced

end UzScript.Grammar
