import UzScript.Proofs.JoinedScripts

/-! # The same lexemes in another place

What a parser makes of lexemes depends neither on where they stand nor on what comes after them, as
long as that continues nothing: in another place it makes the same of them but for the places, which
all move by the same amount. So two texts with a line feed between them are read as if each stood
alone. Where the first one ends comes a keyword that begins a statement, or the end of the source. -/

set_option autoImplicit false

namespace UzScript

/-! ## Moving the places of a program -/

theorem Span.shift_between {n n' : Nat} {s s' t t' : Span} (hs : s.shift n = s'.shift n')
    (ht : t.shift n = t'.shift n') :
    (⟨s.start, t.stop⟩ : Span).shift n = (⟨s'.start, t'.stop⟩ : Span).shift n' := by
  have hstart := congrArg Span.start hs
  have hstop := congrArg Span.stop ht
  exact Span.ext hstart hstop

def Ident.shift (n : Nat) (ident : Ident) : Ident := ⟨ident.name, ident.location.shift n⟩

namespace Expr

mutual

def shift (n : Nat) : Expr → Expr
  | .integer value location => .integer value (location.shift n)
  | .text value location => .text value (location.shift n)
  | .variable ident => .variable (ident.shift n)
  | .binary op left right location => .binary op (left.shift n) (right.shift n) (location.shift n)
  | .call function arguments location =>
    .call (function.shift n) (shiftAll n arguments) (location.shift n)
  | .list elements location => .list (shiftAll n elements) (location.shift n)

def shiftAll (n : Nat) : List Expr → List Expr
  | [] => []
  | e :: es => e.shift n :: shiftAll n es

end

theorem shiftAll_eq_map (n : Nat) (es : List Expr) : shiftAll n es = es.map (shift n) := by
  induction es with
  | nil => rfl
  | cons e es ih => rw [shiftAll, ih, List.map_cons]

theorem location_shift (n : Nat) (e : Expr) : (e.shift n).location = e.location.shift n := by
  cases e <;> rfl

theorem shift_combine (n : Nat) (op : Operator) (left right : Expr) :
    (combine op left right).shift n = combine op (left.shift n) (right.shift n) := by
  rw [combine, shift, Span.shift_merge, combine, location_shift, location_shift]

mutual

theorem shift_zero : (e : Expr) → e.shift 0 = e
  | .integer _ _ | .text _ _ | .variable _ => rfl
  | .binary op left right location => by
    rw [shift, left.shift_zero, right.shift_zero]
    rfl
  | .call function arguments location => by
    rw [shift, shiftAll_zero arguments]
    rfl
  | .list elements location => by
    rw [shift, shiftAll_zero elements]
    rfl

theorem shiftAll_zero : (es : List Expr) → shiftAll 0 es = es
  | [] => rfl
  | e :: es => by rw [shiftAll, e.shift_zero, shiftAll_zero es]

end

end Expr

mutual

def Stmt.shift (n : Nat) : Stmt → Stmt
  | .declare ident value location => .declare (ident.shift n) (value.shift n) (location.shift n)
  | .print value location => .print (value.shift n) (location.shift n)
  | .branch condition thenBlock elseBlock location =>
    .branch (condition.shift n) (thenBlock.shift n) (Block.shiftElse n elseBlock) (location.shift n)
  | .define function => .define (function.shift n)
  | .giveBack value location => .giveBack (value.shift n) (location.shift n)

def Stmt.shiftAll (n : Nat) : List Stmt → List Stmt
  | [] => []
  | s :: ss => s.shift n :: Stmt.shiftAll n ss

def Block.shift (n : Nat) : Block → Block
  | ⟨statements, location⟩ => ⟨Stmt.shiftAll n statements, location.shift n⟩

def Block.shiftElse (n : Nat) : Option Block → Option Block
  | none => none
  | some block => some (block.shift n)

def FunctionDef.shift (n : Nat) : FunctionDef → FunctionDef
  | ⟨ident, parameters, body, location⟩ =>
    ⟨ident.shift n, parameters.map (Ident.shift n), body.shift n, location.shift n⟩

end

theorem Stmt.shiftAll_eq_map (n : Nat) (ss : List Stmt) :
    Stmt.shiftAll n ss = ss.map (Stmt.shift n) := by
  induction ss with
  | nil => rfl
  | cons s ss ih => rw [Stmt.shiftAll, ih, List.map_cons]

theorem Block.location_shift (n : Nat) (b : Block) : (b.shift n).location = b.location.shift n := by
  cases b
  rfl

mutual

theorem Stmt.shift_zero : (s : Stmt) → s.shift 0 = s
  | .declare ident value location => by
    rw [Stmt.shift, value.shift_zero]
    rfl
  | .print value location | .giveBack value location => by
    rw [Stmt.shift, value.shift_zero]
    rfl
  | .branch condition thenBlock elseBlock location => by
    rw [Stmt.shift, condition.shift_zero, thenBlock.shift_zero, Block.shiftElse_zero elseBlock]
    rfl
  | .define function => by rw [Stmt.shift, function.shift_zero]

theorem Stmt.shiftAll_zero : (ss : List Stmt) → Stmt.shiftAll 0 ss = ss
  | [] => rfl
  | s :: ss => by rw [Stmt.shiftAll, s.shift_zero, Stmt.shiftAll_zero ss]

theorem Block.shift_zero : (b : Block) → b.shift 0 = b
  | ⟨statements, location⟩ => by
    rw [Block.shift, Stmt.shiftAll_zero statements]
    rfl

theorem Block.shiftElse_zero : (b : Option Block) → Block.shiftElse 0 b = b
  | none => rfl
  | some b => by rw [Block.shiftElse, b.shift_zero]

theorem FunctionDef.shift_zero : (f : FunctionDef) → f.shift 0 = f
  | ⟨ident, parameters, body, location⟩ => by
    have hparameters : parameters.map (Ident.shift 0) = parameters := List.map_id parameters
    rw [FunctionDef.shift, body.shift_zero, hparameters]
    rfl

end

/-! ## Lexemes in another place -/

/-- The token continues nothing that comes before it: a statement begins or ends with it, or it is the
end of the source. -/
def Token.continuesNothing : Token → Bool
  | .endOfFile | .semicolon => true
  | .keyword word => word ≠ .otherwise
  | _ => false

/-- The lexemes do not begin with a token that continues something. -/
def ContinueNothing (ls : List Lexeme) : Prop := ∀ l ∈ ls.head?, l.token.continuesNothing = true

namespace ContinueNothing

variable {ls : List Lexeme}

theorem isAt (h : ContinueNothing ls) {t : Token} (ht : t.continuesNothing = false) :
    Parser.isAt t ls = false := by
  cases ls with
  | nil => rfl
  | cons l ls =>
    have hl : l.token.continuesNothing = true := h l rfl
    rw [Parser.isAt_cons, decide_eq_false_iff_not]
    rintro rfl
    rw [hl] at ht
    cases ht

theorem operatorAt (h : ContinueNothing ls) (accepts : Operator → Bool) :
    Parser.operatorAt accepts ls = none := by
  cases ls with
  | nil => rfl
  | cons l ls =>
    obtain ⟨t, span⟩ := l
    have ht : t.continuesNothing = true := h _ rfl
    cases t with
    | keyword | endOfFile | semicolon => rfl
    | _ => cases ht

theorem endOfFile (span : Span) : ContinueNothing [⟨.endOfFile, span⟩] := by
  rintro _ ⟨rfl⟩
  rfl

theorem semicolon (span : Span) (more : List Lexeme) :
    ContinueNothing (⟨.semicolon, span⟩ :: more) := by
  rintro _ ⟨rfl⟩
  rfl

end ContinueNothing

/-- Two places where the same lexemes stand. Moved along, the ones by `n` bytes and the others by `n'`,
they come to lie on each other. In the second place something comes after them that continues
nothing. -/
structure Relocation where
  n : Nat
  n' : Nat
  ending : List Lexeme
  ending' : List Lexeme
  continueNothing : ContinueNothing ending'

namespace Relocation

/-- The same lexemes in the one place and in the other, with what comes after them. -/
inductive Beside (M : Relocation) : List Lexeme → List Lexeme → Prop
  | last : Beside M M.ending M.ending'
  | cons {l l' : Lexeme} {ls ls' : List Lexeme} (same : l.shift M.n = l'.shift M.n')
      (rest : Beside M ls ls') : Beside M (l :: ls) (l' :: ls')

namespace Beside

variable {M : Relocation} {ls ls' : List Lexeme}

theorem of_map {front front' : List Lexeme}
    (h : front.map (Lexeme.shift M.n) = front'.map (Lexeme.shift M.n')) :
    M.Beside (front ++ M.ending) (front' ++ M.ending') := by
  induction front generalizing front' with
  | nil =>
    rw [List.map_nil, eq_comm, List.map_eq_nil_iff] at h
    rw [h]
    exact .last
  | cons l front ih =>
    rw [List.map_cons, eq_comm, List.map_eq_cons_iff] at h
    obtain ⟨l', front', rfl, hl, hfront⟩ := h
    exact .cons hl.symm (ih hfront.symm)

theorem length_le (h : M.Beside ls ls') : M.ending.length ≤ ls.length := by
  induction h with
  | last => exact Nat.le_refl _
  | cons _ _ ih => exact Nat.le_succ_of_le ih

theorem length_eq (h : M.Beside ls ls') :
    ls'.length + M.ending.length = ls.length + M.ending'.length := by
  induction h with
  | last => exact Nat.add_comm _ _
  | cons _ _ ih =>
    rw [List.length_cons, List.length_cons]
    omega

theorem eq_ending (h : M.Beside ls ls') (hlength : ls.length ≤ M.ending.length) :
    ls' = M.ending' := by
  cases h with
  | last => rfl
  | cons _ rest => exact absurd rest.length_le (Nat.not_le.2 hlength)

theorem take {t : Token} {span : Span} (h : M.Beside (⟨t, span⟩ :: ls) ls')
    (hlength : M.ending.length ≤ ls.length) :
    ∃ span' more, ls' = ⟨t, span'⟩ :: more ∧ span.shift M.n = span'.shift M.n' ∧
      M.Beside ls more := by
  generalize hcons : (⟨t, span⟩ :: ls : List Lexeme) = all at h
  cases h with
  | last =>
    rw [← hcons, List.length_cons] at hlength
    omega
  | cons same rest =>
    cases hcons
    obtain ⟨rfl, hspan⟩ := Lexeme.mk.inj same
    exact ⟨_, _, rfl, hspan, rest⟩

theorem isAt (h : M.Beside ls ls') {t : Token} (ht : t.continuesNothing = false)
    (hat : Parser.isAt t ls = false) : Parser.isAt t ls' = false := by
  cases h with
  | last => exact M.continueNothing.isAt ht
  | @cons l l' _ _ same =>
    have htoken : l.token = l'.token := (Lexeme.mk.inj same).1
    rwa [Parser.isAt_cons, ← htoken]

theorem operatorAt (h : M.Beside ls ls') {accepts : Operator → Bool}
    (hat : Parser.operatorAt accepts ls = none) : Parser.operatorAt accepts ls' = none := by
  cases h with
  | last => exact M.continueNothing.operatorAt accepts
  | @cons l l' _ _ same =>
    have htoken : l.token = l'.token := (Lexeme.mk.inj same).1
    rwa [Parser.operatorAt_cons, ← htoken]

end Beside

end Relocation

namespace Parser

open Grammar (Phrase Expression Statement)

variable {α : Type} {M : Relocation}

/-- What the first parser takes in the one place, short of what comes after, the second takes in the
other, and makes the same of it but for the place. -/
def Moves (M : Relocation) (shift : Nat → α → α) (p p' : Parser α) : Prop :=
  ∀ ⦃ls ls' : List Lexeme⦄ ⦃a : α⦄ ⦃rest : List Lexeme⦄, M.Beside ls ls' → p ls = .ok a rest →
    M.ending.length ≤ rest.length →
      ∃ a' rest', M.Beside rest rest' ∧ p' ls' = .ok a' rest' ∧ shift M.n a = shift M.n' a'

theorem ident_moves : Moves M Ident.shift ident ident := by
  intro ls ls' i rest hbeside hrun hlength
  obtain rfl := ident_ok.1 hrun
  obtain ⟨span', rest', rfl, hspan, hrest⟩ := hbeside.take hlength
  refine ⟨⟨i.name, span'⟩, rest', hrest, ident_ok.2 rfl, ?_⟩
  rw [Ident.shift, hspan]
  rfl

section Items

variable {item item' : Parser α} {shift : Nat → α → α} {erase : α → α} {phrase : Phrase α}
  {limit : Nat} (hsound : Sound item erase phrase limit) (hitem : Moves M shift item item')

include hsound hitem

/-- Items after a comma each. There are rounds enough on both sides, so that neither of them stops
early. -/
theorem furtherItems_moves {rounds rounds' ls ls' rest : List Lexeme} {as : List α}
    (hbeside : M.Beside ls ls') (hrounds : ls.length ≤ rounds.length)
    (hrounds' : ls'.length ≤ rounds'.length)
    (hrun : furtherItems item rounds ls = .ok as rest) (hlength : M.ending.length ≤ rest.length) :
    ∃ as' rest', M.Beside rest rest' ∧ furtherItems item' rounds' ls' = .ok as' rest' ∧
      as.map (shift M.n) = as'.map (shift M.n') := by
  induction rounds generalizing rounds' ls ls' as with
  | nil =>
    obtain rfl := List.eq_nil_of_length_eq_zero (Nat.le_zero.1 hrounds)
    obtain ⟨rfl, rfl⟩ := pure_ok.1 hrun
    exact ⟨[], ls', hbeside, furtherItems_end (hbeside.isAt rfl rfl) rounds', rfl⟩
  | cons l rounds ih =>
    cases hcomma : isAt .comma ls with
    | false =>
      rw [furtherItems_end hcomma] at hrun
      cases hrun
      exact ⟨[], ls', hbeside, furtherItems_end (hbeside.isAt rfl hcomma) rounds', rfl⟩
    | true =>
      obtain ⟨span, ls, rfl⟩ := isAt_eq_true hcomma
      rw [furtherItems, currentIs_bind] at hrun
      simp only [hcomma, if_true, step_bind, List.tail_cons, bind_ok, pure_ok] at hrun
      obtain ⟨a, mid, ha, as, _, has, rfl, rfl⟩ := hrun
      have hmid := (furtherItems_sound hsound rounds).length_le has
      have hls := hsound.length_le ha
      obtain ⟨span', more, rfl, -, hmore⟩ := hbeside.take (by omega)
      obtain ⟨a', mid', hbeside', ha', hsame⟩ := hitem hmore ha (by omega)
      have heq := hmore.length_eq
      have heq' := hbeside'.length_eq
      cases rounds' with
      | nil => exact absurd hrounds' (Nat.not_succ_le_zero _)
      | cons l' rounds' =>
        simp only [List.length_cons] at hrounds hrounds'
        have henough : mid'.length ≤ rounds'.length := by omega
        obtain ⟨as', rest', hrest, has', hsame'⟩ := ih hbeside' (by omega) henough has
        refine ⟨a' :: as', rest', hrest, ?_, by rw [List.map_cons, hsame, hsame', List.map_cons]⟩
        rw [furtherItems, currentIs_bind]
        simp only [isAt_cons, decide_true, if_true, step_bind, List.tail_cons, bind_ok, pure_ok]
        exact ⟨a', mid', ha', as', rest', has', rfl, rfl⟩

theorem delimited_moves {opening closing : Token} (hclosing : closing.continuesNothing = false) :
    Moves M (fun n items => (items.1.map (shift n), items.2.shift n))
      (delimited opening closing item) (delimited opening closing item') := by
  rintro ls ls' ⟨as, span⟩ rest hbeside hrun hlength
  obtain ⟨first, last, mid, rfl, rfl, ⟨rfl, rfl⟩ | ⟨a, after, as, hat, ha, has, rfl⟩⟩ :=
    delimited_ok.1 hrun
  · obtain ⟨first', mid', rfl, hfirst, hmid⟩ := hbeside.take (Nat.le_succ_of_le hlength)
    obtain ⟨last', rest', rfl, hlast, hrest⟩ := hmid.take hlength
    refine ⟨([], ⟨first'.start, last'.stop⟩), rest', hrest, delimited_ok.2 ?_, ?_⟩
    · exact ⟨first', last', _, rfl, rfl, .inl ⟨rfl, rfl⟩⟩
    · exact Prod.ext rfl (Span.shift_between hfirst hlast)
  · have hafter := (furtherItems_sound hsound after).length_le has
    have hmid := hsound.length_le ha
    rw [List.length_cons] at hafter
    obtain ⟨first', mid', rfl, hfirst, hbeside'⟩ := hbeside.take (by omega)
    obtain ⟨a', after', hbeside'', ha', hsame⟩ := hitem hbeside' ha (by omega)
    obtain ⟨as', _, hclosed, has', hsame'⟩ := furtherItems_moves hsound hitem hbeside''
      (Nat.le_refl _) (Nat.le_refl _) has (Nat.le_succ_of_le hlength)
    obtain ⟨last', rest', rfl, hlast, hrest⟩ := hclosed.take hlength
    refine ⟨(a' :: as', ⟨first'.start, last'.stop⟩), rest', hrest, delimited_ok.2 ?_, ?_⟩
    · exact ⟨first', last', mid', rfl, rfl,
        .inr ⟨a', after', as', hbeside'.isAt hclosing hat, ha', has', rfl⟩⟩
    · simp only [List.map_cons, hsame, hsame', Span.shift_between hfirst hlast]

end Items

section Expressions

variable {operand operand' inner inner' : Parser Expr} {accepts : Operator → Bool}
  {phrase : Phrase Expr} {limit : Nat}

theorem furtherOperands_length_le (hsound : Sound operand Expr.erase phrase limit)
    {rounds ls rest : List Lexeme} {left e : Expr}
    (hrun : furtherOperands accepts operand rounds left ls = .ok e rest) :
    rest.length ≤ ls.length := by
  induction rounds generalizing left ls with
  | nil =>
    obtain ⟨-, rfl⟩ := pure_ok.1 hrun
    exact Nat.le_refl _
  | cons l rounds ih =>
    cases hop : operatorAt accepts ls with
    | none =>
      rw [furtherOperands_end hop] at hrun
      cases hrun
      exact Nat.le_refl _
    | some op =>
      obtain ⟨-, span, ls, rfl⟩ := operatorAt_eq_some hop
      rw [furtherOperands, currentOperator_bind] at hrun
      simp only [hop, step_bind, List.tail_cons, bind_ok] at hrun
      obtain ⟨right, mid, hright, hmore⟩ := hrun
      have hmid := hsound.length_le hright
      have hrest := ih hmore
      rw [List.length_cons]
      omega

theorem furtherOperands_moves (hsound : Sound operand Expr.erase phrase limit)
    (hoperand : Moves M Expr.shift operand operand') {rounds rounds' ls ls' rest : List Lexeme}
    {left left' e : Expr} (hbeside : M.Beside ls ls') (hrounds : ls.length ≤ rounds.length)
    (hrounds' : ls'.length ≤ rounds'.length) (hleft : left.shift M.n = left'.shift M.n')
    (hrun : furtherOperands accepts operand rounds left ls = .ok e rest)
    (hlength : M.ending.length ≤ rest.length) :
    ∃ e' rest', M.Beside rest rest' ∧
      furtherOperands accepts operand' rounds' left' ls' = .ok e' rest' ∧
        e.shift M.n = e'.shift M.n' := by
  induction rounds generalizing rounds' ls ls' left left' with
  | nil =>
    obtain rfl := List.eq_nil_of_length_eq_zero (Nat.le_zero.1 hrounds)
    obtain ⟨rfl, rfl⟩ := pure_ok.1 hrun
    exact ⟨left', ls', hbeside, furtherOperands_end (hbeside.operatorAt rfl) rounds' left', hleft⟩
  | cons l rounds ih =>
    cases hop : operatorAt accepts ls with
    | none =>
      rw [furtherOperands_end hop] at hrun
      cases hrun
      exact ⟨left', ls', hbeside, furtherOperands_end (hbeside.operatorAt hop) rounds' left', hleft⟩
    | some op =>
      obtain ⟨haccepts, span, ls, rfl⟩ := operatorAt_eq_some hop
      rw [furtherOperands, currentOperator_bind] at hrun
      simp only [hop, step_bind, List.tail_cons, bind_ok] at hrun
      obtain ⟨right, mid, hright, hmore⟩ := hrun
      have hmid := furtherOperands_length_le hsound hmore
      have hls := hsound.length_le hright
      obtain ⟨span', more, rfl, -, hbeside'⟩ := hbeside.take (by omega)
      obtain ⟨right', mid', hbeside'', hright', hsame⟩ := hoperand hbeside' hright (by omega)
      have heq := hbeside'.length_eq
      have heq' := hbeside''.length_eq
      cases rounds' with
      | nil => exact absurd hrounds' (Nat.not_succ_le_zero _)
      | cons l' rounds' =>
        simp only [List.length_cons] at hrounds hrounds'
        have hjoined : (Expr.combine op left right).shift M.n =
            (Expr.combine op left' right').shift M.n' := by
          rw [Expr.shift_combine, hleft, hsame, Expr.shift_combine]
        have henough : mid'.length ≤ rounds'.length := by omega
        obtain ⟨e', rest', hrest, hmore', hsame'⟩ := ih hbeside'' (by omega) henough hjoined hmore
        refine ⟨e', rest', hrest, ?_, hsame'⟩
        rw [furtherOperands, currentOperator_bind, operatorAt_operator haccepts]
        simp only [step_bind, List.tail_cons, bind_ok]
        exact ⟨right', mid', hright', hmore'⟩

theorem operandChain_moves (hsound : Sound operand Expr.erase phrase limit)
    (hoperand : Moves M Expr.shift operand operand') :
    Moves M Expr.shift (operandChain accepts operand) (operandChain accepts operand') := by
  intro ls ls' e rest hbeside hrun hlength
  simp only [operandChain, bind_ok, remaining_bind] at hrun ⊢
  obtain ⟨left, mid, hleft, hmore⟩ := hrun
  have hmid := furtherOperands_length_le hsound hmore
  obtain ⟨left', mid', hbeside', hleft', hsame⟩ := hoperand hbeside hleft (by omega)
  obtain ⟨e', rest', hrest, hmore', hsame'⟩ := furtherOperands_moves hsound hoperand hbeside'
    (Nat.le_refl _) (Nat.le_refl _) hsame hmore hlength
  exact ⟨e', rest', hrest, ⟨left', mid', hleft', hmore'⟩, hsame'⟩

theorem additive_moves (hsound : Sound operand Expr.erase phrase limit)
    (hoperand : Moves M Expr.shift operand operand') :
    Moves M Expr.shift (additive operand) (additive operand') :=
  operandChain_moves (operandChain_sound hsound) (operandChain_moves hsound hoperand)

theorem comparison_moves (hsound : Sound operand Expr.erase phrase limit)
    (hoperand : Moves M Expr.shift operand operand') :
    Moves M Expr.shift (comparison operand) (comparison operand') := by
  intro ls ls' e rest hbeside hrun hlength
  simp only [comparison_ok] at hrun ⊢
  rcases hrun with ⟨hplain, hend⟩ | ⟨op, left, right, span, mid, hleft, haccepts, hright, rfl⟩
  · obtain ⟨e', rest', hrest, hplain', hsame⟩ :=
      additive_moves hsound hoperand hbeside hplain hlength
    exact ⟨e', rest', hrest, .inl ⟨hplain', hrest.operatorAt hend⟩, hsame⟩
  · have hmid := (operandChain_sound (operandChain_sound hsound)).length_le hright
    obtain ⟨left', _, hbeside', hleft', hsame⟩ :=
      additive_moves hsound hoperand hbeside hleft (by rw [List.length_cons]; omega)
    obtain ⟨span', mid', rfl, -, hbeside''⟩ := hbeside'.take (by omega)
    obtain ⟨right', rest', hrest, hright', hsame'⟩ :=
      additive_moves hsound hoperand hbeside'' hright hlength
    refine ⟨.combine op left' right', rest', hrest,
      .inr ⟨op, left', right', span', mid', hleft', haccepts, hright', rfl⟩, ?_⟩
    rw [Expr.shift_combine, hsame, hsame', Expr.shift_combine]

theorem primary_moves (hsound : Sound inner Expr.erase phrase limit)
    (hinner : Moves M Expr.shift inner inner') :
    Moves M Expr.shift (primary inner) (primary inner') := by
  intro ls ls' e rest hbeside hrun hlength
  simp only [primary_ok] at hrun ⊢
  cases hrun with
  | integer value span =>
    obtain ⟨span', more, rfl, hspan, hmore⟩ := hbeside.take hlength
    exact ⟨.integer value span', more, hmore, .integer _ _ _, by rw [Expr.shift, hspan, Expr.shift]⟩
  | text value span =>
    obtain ⟨span', more, rfl, hspan, hmore⟩ := hbeside.take hlength
    exact ⟨.text value span', more, hmore, .text _ _ _, by rw [Expr.shift, hspan, Expr.shift]⟩
  | name i uncalled =>
    obtain ⟨i', rest', hrest, hident, hsame⟩ := ident_moves hbeside (ident_ok.2 rfl) hlength
    obtain rfl := ident_ok.1 hident
    exact ⟨.variable i', rest', hrest, .name i' (hrest.isAt rfl uncalled),
      by rw [Expr.shift, hsame, Expr.shift]⟩
  | call i items =>
    obtain ⟨first, last, front, h, rfl, -, -⟩ := delimited_sound hsound items
    obtain ⟨span', more, rfl, hspan, hmore⟩ := hbeside.take (by simp; omega)
    obtain ⟨⟨es', items'⟩, rest', hrest, hitems, hsame⟩ :=
      delimited_moves hsound hinner rfl hmore items hlength
    obtain ⟨hes, hspan'⟩ := Prod.mk.inj hsame
    refine ⟨_, rest', hrest, .call ⟨i.name, span'⟩ hitems, ?_⟩
    rw [Expr.shift, Expr.shift, Expr.shiftAll_eq_map, Expr.shiftAll_eq_map, hes,
      Span.shift_between hspan hspan', Ident.shift, Ident.shift, hspan]
  | group first last value =>
    have hls := hsound.length_le value
    rw [List.length_cons] at hls
    obtain ⟨first', more, rfl, -, hmore⟩ := hbeside.take (by omega)
    obtain ⟨value', _, hclosed, hvalue, hsame⟩ := hinner hmore value (Nat.le_succ_of_le hlength)
    obtain ⟨last', rest', rfl, -, hrest⟩ := hclosed.take hlength
    exact ⟨value', rest', hrest, .group first' last' hvalue, hsame⟩
  | list items =>
    obtain ⟨⟨es', items'⟩, rest', hrest, hitems, hsame⟩ :=
      delimited_moves hsound hinner rfl hbeside items hlength
    obtain ⟨hes, hspan⟩ := Prod.mk.inj hsame
    refine ⟨.list es' items', rest', hrest, .list hitems, ?_⟩
    rw [Expr.shift, Expr.shift, Expr.shiftAll_eq_map, Expr.shiftAll_eq_map, hes, hspan]

end Expressions

theorem expression_moves {levels levels' : Nat} (h : levels ≤ levels') :
    Moves M Expr.shift (expression levels) (expression levels') := by
  induction levels generalizing levels' with
  | zero =>
    intro ls ls' e rest _ hrun
    rw [expression_zero, nestingTooDeep, get_bind] at hrun
    exact absurd hrun throw_ok.1
  | succ levels ih =>
    obtain ⟨levels', rfl⟩ : ∃ k, levels' = k + 1 := ⟨levels' - 1, by omega⟩
    have hsound := expression_sound levels
    exact comparison_moves (primary_sound hsound) (primary_moves hsound (ih (by omega)))

section Statements

variable {value value' : Parser Expr} {block block' : Parser Block} {limit : Nat}

theorem value_moves (hvalue : Moves M Expr.shift value value') {ls ls' rest : List Lexeme}
    {e : Expr} {last : Span} (hbeside : M.Beside ls ls')
    (hrun : value ls = .ok e (⟨.semicolon, last⟩ :: rest)) (hlength : M.ending.length ≤ rest.length) :
    ∃ e' last' rest', M.Beside rest rest' ∧ value' ls' = .ok e' (⟨.semicolon, last'⟩ :: rest') ∧
      e.shift M.n = e'.shift M.n' ∧ last.shift M.n = last'.shift M.n' := by
  obtain ⟨e', _, hmid, hvalue', hsame⟩ := hvalue hbeside hrun (Nat.le_succ_of_le hlength)
  obtain ⟨last', rest', rfl, hlast, hrest⟩ := hmid.take hlength
  exact ⟨e', last', rest', hrest, hvalue', hsame, hlast⟩

section Values

variable (hsound : Sound value Expr.erase Expression limit) (hvalue : Moves M Expr.shift value value')

include hsound hvalue

theorem declaration_moves : Moves M Stmt.shift (declaration value) (declaration value') := by
  intro ls ls' s rest hbeside hrun hlength
  obtain ⟨first, name, location, assign, last, mid, e, rfl, he, rfl⟩ := declaration_ok.1 hrun
  have hmid := hsound.length_le he
  rw [List.length_cons] at hmid
  obtain ⟨first', _, rfl, hfirst, hbeside⟩ := hbeside.take (by simp only [List.length_cons]; omega)
  obtain ⟨location', _, rfl, hlocation, hbeside⟩ := hbeside.take (by rw [List.length_cons]; omega)
  obtain ⟨assign', mid', rfl, -, hbeside⟩ := hbeside.take (by omega)
  obtain ⟨e', last', rest', hrest, he', hsame, hlast⟩ := value_moves hvalue hbeside he hlength
  refine ⟨.declare ⟨name, location'⟩ e' ⟨first'.start, last'.stop⟩, rest', hrest,
    declaration_ok.2 ⟨first', name, location', assign', last', mid', e', rfl, he', rfl⟩, ?_⟩
  rw [Stmt.shift, Stmt.shift, hsame, Span.shift_between hfirst hlast, Ident.shift, Ident.shift,
    hlocation]

theorem valued_moves {keyword : Keyword} {first last : Span} {mid ls' rest : List Lexeme} {e : Expr}
    (hbeside : M.Beside (⟨.keyword keyword, first⟩ :: mid) ls')
    (hrun : value mid = .ok e (⟨.semicolon, last⟩ :: rest)) (hlength : M.ending.length ≤ rest.length) :
    ∃ first' last' mid' rest' e', ls' = ⟨.keyword keyword, first'⟩ :: mid' ∧ M.Beside rest rest' ∧
      value' mid' = .ok e' (⟨.semicolon, last'⟩ :: rest') ∧ e.shift M.n = e'.shift M.n' ∧
        (⟨first.start, last.stop⟩ : Span).shift M.n =
          (⟨first'.start, last'.stop⟩ : Span).shift M.n' := by
  have hmid := hsound.length_le hrun
  rw [List.length_cons] at hmid
  obtain ⟨first', mid', rfl, hfirst, hbeside⟩ := hbeside.take (by omega)
  obtain ⟨e', last', rest', hrest, hrun', hsame, hlast⟩ := value_moves hvalue hbeside hrun hlength
  exact ⟨first', last', mid', rest', e', rfl, hrest, hrun', hsame, Span.shift_between hfirst hlast⟩

theorem printing_moves : Moves M Stmt.shift (printing value) (printing value') := by
  intro ls ls' s rest hbeside hrun hlength
  obtain ⟨first, last, mid, e, rfl, he, rfl⟩ := printing_ok.1 hrun
  obtain ⟨first', last', mid', rest', e', rfl, hrest, he', hsame, hspan⟩ :=
    valued_moves hsound hvalue hbeside he hlength
  refine ⟨.print e' ⟨first'.start, last'.stop⟩, rest', hrest,
    printing_ok.2 ⟨first', last', mid', e', rfl, he', rfl⟩, ?_⟩
  rw [Stmt.shift, Stmt.shift, hsame, hspan]

theorem givingBack_moves : Moves M Stmt.shift (givingBack value) (givingBack value') := by
  intro ls ls' s rest hbeside hrun hlength
  obtain ⟨first, last, mid, e, rfl, he, rfl⟩ := givingBack_ok.1 hrun
  obtain ⟨first', last', mid', rest', e', rfl, hrest, he', hsame, hspan⟩ :=
    valued_moves hsound hvalue hbeside he hlength
  refine ⟨.giveBack e' ⟨first'.start, last'.stop⟩, rest', hrest,
    givingBack_ok.2 ⟨first', last', mid', e', rfl, he', rfl⟩, ?_⟩
  rw [Stmt.shift, Stmt.shift, hsame, hspan]

end Values

section Blocks

variable (hsound : Sound value Expr.erase Expression limit) (hvalue : Moves M Expr.shift value value')
  (hsound' : Sound block Block.erase Grammar.Block limit) (hblock : Moves M Block.shift block block')

theorem shift_upTo_block {s s' : Span} {b b' : Block} (hs : s.shift M.n = s'.shift M.n')
    (hb : b.shift M.n = b'.shift M.n') :
    (⟨s.start, b.location.stop⟩ : Span).shift M.n = (⟨s'.start, b'.location.stop⟩ : Span).shift M.n' := by
  have hlocation := congrArg Block.location hb
  rw [Block.location_shift, Block.location_shift] at hlocation
  exact Span.shift_between hs hlocation

include hsound hvalue hsound' hblock in
/-- What comes after in the other place is not the keyword for a second block, so that a branch that
ends there stays as it is. -/
theorem branching_moves :
    Moves M Stmt.shift (branching value block) (branching value' block') := by
  intro ls ls' s rest hbeside hrun hlength
  obtain ⟨first, opening, closing, mid, e, after, b, rest₁, rfl, he, hb, hend⟩ := branching_ok.1 hrun
  have hmid := hsound.length_le he
  have hafter := hsound'.length_le hb
  have hrest₁ : M.ending.length ≤ rest₁.length := by
    rcases hend with ⟨-, rfl, -⟩ | ⟨otherwise, more, c, rfl, hc, -⟩
    · exact hlength
    · have hmore := hsound'.length_le hc
      rw [List.length_cons]
      omega
  rw [List.length_cons] at hmid
  obtain ⟨first', _, rfl, hfirst, hbeside⟩ := hbeside.take (by rw [List.length_cons]; omega)
  obtain ⟨opening', mid', rfl, -, hbeside⟩ := hbeside.take (by omega)
  obtain ⟨e', _, hclosing, he', hsame⟩ := hvalue hbeside he (by rw [List.length_cons]; omega)
  obtain ⟨closing', after', rfl, -, hbeside⟩ := hclosing.take (by omega)
  obtain ⟨b', rest₁', hbeside, hb', hsame'⟩ := hblock hbeside hb hrest₁
  rcases hend with ⟨hother, rfl, rfl⟩ | ⟨otherwise, more, c, rfl, hc, rfl⟩
  · refine ⟨.branch e' b' none ⟨first'.start, b'.location.stop⟩, rest₁', hbeside, branching_ok.2 ?_, ?_⟩
    · exact ⟨first', opening', closing', mid', e', after', b', rest₁', rfl, he', hb',
        .inl ⟨hbeside.isAt rfl hother, rfl, rfl⟩⟩
    · rw [Stmt.shift, Stmt.shift, hsame, hsame', shift_upTo_block hfirst hsame']
      rfl
  · have hmore := hsound'.length_le hc
    obtain ⟨otherwise', more', rfl, -, hbeside⟩ := hbeside.take (by omega)
    obtain ⟨c', rest', hrest, hc', hsame''⟩ := hblock hbeside hc hlength
    refine ⟨.branch e' b' (some c') ⟨first'.start, c'.location.stop⟩, rest', hrest,
      branching_ok.2 ?_, ?_⟩
    · exact ⟨first', opening', closing', mid', e', after', b', _, rfl, he', hb',
        .inr ⟨otherwise', more', c', rfl, hc', rfl⟩⟩
    · rw [Stmt.shift, Stmt.shift, hsame, hsame', shift_upTo_block hfirst hsame'', Block.shiftElse,
        Block.shiftElse, hsame'']

include hsound' hblock in
theorem functionDef_moves :
    Moves M FunctionDef.shift (functionDef block) (functionDef block') := by
  intro ls ls' f rest hbeside hrun hlength
  obtain ⟨first, name, location, mid, parameters, span, after, body, rfl, hparameters, hbody, rfl⟩ :=
    functionDef_ok.1 hrun
  have hafter := hsound'.length_le hbody
  obtain ⟨_, _, front, _, hsplit, -, -⟩ := delimited_sound (ident_sound limit) hparameters
  have hmid : after.length ≤ mid.length := by
    rw [hsplit]
    simp only [List.length_cons, List.length_append]
    omega
  obtain ⟨first', _, rfl, hfirst, hbeside⟩ := hbeside.take (by rw [List.length_cons]; omega)
  obtain ⟨location', mid', rfl, hlocation, hbeside⟩ := hbeside.take (by omega)
  obtain ⟨⟨parameters', span'⟩, after', hbeside, hparameters', hsame⟩ :=
    delimited_moves (ident_sound limit) ident_moves rfl hbeside hparameters (by omega)
  obtain ⟨body', rest', hrest, hbody', hsame'⟩ := hblock hbeside hbody hlength
  refine ⟨⟨⟨name, location'⟩, parameters', body', ⟨first'.start, body'.location.stop⟩⟩, rest', hrest,
    functionDef_ok.2 ⟨first', name, location', mid', parameters', span', after', body', rfl,
      hparameters', hbody', rfl⟩, ?_⟩
  rw [FunctionDef.shift, FunctionDef.shift, (Prod.mk.inj hsame).1, hsame',
    shift_upTo_block hfirst hsame', Ident.shift, Ident.shift, hlocation]

include hsound hvalue hsound' hblock in
theorem statementOf_moves :
    Moves M Stmt.shift (statementOf value block) (statementOf value' block') := by
  intro ls ls' s rest hbeside hrun hlength
  cases statementOf_ok.1 hrun with
  | declare hrun =>
    obtain ⟨s', rest', hrest, hrun', hsame⟩ := declaration_moves hsound hvalue hbeside hrun hlength
    exact ⟨s', rest', hrest, statementOf_ok.2 (.declare hrun'), hsame⟩
  | print hrun =>
    obtain ⟨s', rest', hrest, hrun', hsame⟩ := printing_moves hsound hvalue hbeside hrun hlength
    exact ⟨s', rest', hrest, statementOf_ok.2 (.print hrun'), hsame⟩
  | branch hrun =>
    obtain ⟨s', rest', hrest, hrun', hsame⟩ :=
      branching_moves hsound hvalue hsound' hblock hbeside hrun hlength
    exact ⟨s', rest', hrest, statementOf_ok.2 (.branch hrun'), hsame⟩
  | define hf =>
    obtain ⟨f', rest', hrest, hf', hsame⟩ := functionDef_moves hsound' hblock hbeside hf hlength
    exact ⟨.define f', rest', hrest, statementOf_ok.2 (.define hf'),
      by rw [Stmt.shift, hsame, Stmt.shift]⟩
  | giveBack hrun =>
    obtain ⟨s', rest', hrest, hrun', hsame⟩ := givingBack_moves hsound hvalue hbeside hrun hlength
    exact ⟨s', rest', hrest, statementOf_ok.2 (.giveBack hrun'), hsame⟩

end Blocks

end Statements

/-! ## Loops of statements -/

section Loops

variable {statement statement' : Parser Stmt} {ends ends' : List Lexeme → Prop}
  {loop loop' : List Lexeme → Parser (List Stmt)} {limit : Nat}

/-- Where the loop stops in the one place, it stands in the other with as much left to read, and goes
on from there. -/
theorem StatementLoop.moves (hloop : StatementLoop statement ends loop)
    (hloop' : StatementLoop statement' ends' loop')
    (hsound : Sound statement Stmt.erase (Statement Grammar.Block) limit)
    (hstatement : Moves M Stmt.shift statement statement') {rounds rounds' ls ls' rest : List Lexeme}
    {ss : List Stmt} (hbeside : M.Beside ls ls') (hrounds : ls.length ≤ rounds.length)
    (hrounds' : ls'.length ≤ rounds'.length) (hrun : loop rounds ls = .ok ss rest)
    (hlength : M.ending.length ≤ rest.length) :
    ∃ ss' rest' left, M.Beside rest rest' ∧ rest'.length ≤ left.length ∧
      ss.map (Stmt.shift M.n) = ss'.map (Stmt.shift M.n') ∧
        ∀ added final, loop' left rest' = .ok added final →
          loop' rounds' ls' = .ok (ss' ++ added) final := by
  induction rounds generalizing rounds' ls ls' ss with
  | nil =>
    rw [hloop.exhausted] at hrun
    cases hrun
    exact ⟨[], ls', rounds', hbeside, hrounds', rfl, fun _ _ h => h⟩
  | cons l rounds ih =>
    rcases hloop.round hrun with ⟨-, rfl, rfl⟩ | ⟨s, mid, ss, hs, hss, rfl⟩
    · exact ⟨[], ls', rounds', hbeside, hrounds', rfl, fun _ _ h => h⟩
    · obtain ⟨front, -, hmid, -⟩ := hloop.sound hsound hss
      have hmid' : rest.length ≤ mid.length := by
        rw [hmid, List.length_append]
        exact Nat.le_add_left _ _
      obtain ⟨word, span, more, rfl, hmore⟩ := hsound.keyword hs
      obtain ⟨s', mid', hbeside', hs', hsame⟩ := hstatement hbeside hs (by omega)
      obtain ⟨span', more', rfl, -, -⟩ := hbeside.take (by omega)
      have heq := hbeside.length_eq
      have heq' := hbeside'.length_eq
      cases rounds' with
      | nil => exact absurd hrounds' (Nat.not_succ_le_zero _)
      | cons l' rounds' =>
        simp only [List.length_cons] at hrounds hrounds' heq
        have henough : mid'.length ≤ rounds'.length := by omega
        obtain ⟨ss', rest', left, hrest, hleft, hsame', hmoved⟩ :=
          ih hbeside' (by omega) henough hss
        refine ⟨s' :: ss', rest', left, hrest, hleft, ?_, fun added final hadded => ?_⟩
        · rw [List.map_cons, hsame, hsame', List.map_cons]
        · exact hloop'.go l' rounds' hs' (hmoved added final hadded)

end Loops

theorem block_moves {levels levels' : Nat} (h : levels ≤ levels') :
    Moves M Block.shift (block levels) (block levels') := by
  induction levels generalizing levels' with
  | zero =>
    intro ls ls' b rest _ hrun
    rw [block_zero, nestingTooDeep, get_bind] at hrun
    exact absurd hrun throw_ok.1
  | succ levels ih =>
    obtain ⟨levels', rfl⟩ : ∃ k, levels' = k + 1 := ⟨levels' - 1, by omega⟩
    intro ls ls' b rest hbeside hrun hlength
    obtain ⟨first, last, mid, ss, rfl, hss, rfl⟩ := blockOf_ok.1 hrun
    have hsound := statement_sound levels
    have hstatement : Moves M Stmt.shift (statement levels) (statement levels') :=
      statementOf_moves (expression_sound levels) (expression_moves (by omega)) (block_sound levels)
        (ih (by omega))
    obtain ⟨front, -, hsplit, -⟩ := (blockStatements_loop _).sound hsound hss
    obtain ⟨first', mid', rfl, hfirst, hbeside⟩ := hbeside.take (by
      rw [hsplit, List.length_append, List.length_cons]
      omega)
    obtain ⟨ss', _, left, hclosed, hleft, hsame, hmoved⟩ := (blockStatements_loop _).moves
      (blockStatements_loop (statement levels')) hsound hstatement hbeside (Nat.le_refl _)
      (Nat.le_refl _) hss (Nat.le_succ_of_le hlength)
    obtain ⟨last', rest', rfl, hlast, hrest⟩ := hclosed.take hlength
    obtain ⟨l, left, rfl⟩ := List.exists_cons_of_length_pos (Nat.lt_of_lt_of_le (Nat.succ_pos _) hleft)
    have hss' := hmoved [] _ ((blockStatements_loop _).stop l left ⟨last', rest', rfl⟩)
    rw [List.append_nil] at hss'
    refine ⟨⟨ss', ⟨first'.start, last'.stop⟩⟩, rest', hrest,
      blockOf_ok.2 ⟨first', last', mid', ss', rfl, hss', rfl⟩, ?_⟩
    rw [Block.shift, Block.shift, Stmt.shiftAll_eq_map, Stmt.shiftAll_eq_map, hsame,
      Span.shift_between hfirst hlast]

theorem statement_moves {levels levels' : Nat} (h : levels ≤ levels') :
    Moves M Stmt.shift (statement levels) (statement levels') :=
  statementOf_moves (expression_sound levels) (expression_moves h) (block_sound levels)
    (block_moves h)

theorem programStatements_end (statement : Parser Stmt) (rounds : List Lexeme) (stop : Span) :
    programStatements statement rounds [⟨.endOfFile, stop⟩] = .ok [] [⟨.endOfFile, stop⟩] := by
  cases rounds with
  | nil => rfl
  | cons l rounds => rfl

theorem programStatements_moves {levels n : Nat} {front ending others final : List Lexeme}
    {ss added : List Stmt} (hothers : ContinueNothing others)
    (hrun : programStatements (statement levels) (front ++ ending) (front ++ ending) = .ok ss ending)
    (hadded : ∀ rounds : List Lexeme, others.length ≤ rounds.length →
      programStatements (statement levels) rounds others = .ok added final) :
    ∀ rounds : List Lexeme, (front.map (Lexeme.shift n) ++ others).length ≤ rounds.length →
      programStatements (statement levels) rounds (front.map (Lexeme.shift n) ++ others) =
        .ok (ss.map (Stmt.shift n) ++ added) final := by
  intro rounds hrounds
  let M : Relocation := ⟨n, 0, ending, others, hothers⟩
  have hbeside : M.Beside (front ++ ending) (front.map (Lexeme.shift n) ++ others) :=
    .of_map (List.map_id _).symm
  obtain ⟨ss', rest', left, hrest, hleft, hsame, hmoved⟩ := (programStatements_loop _).moves
    (programStatements_loop (statement levels)) (statement_sound levels)
    (statement_moves (Nat.le_refl levels)) hbeside (Nat.le_refl _) hrounds hrun (Nat.le_refl _)
  obtain rfl := hrest.eq_ending (Nat.le_refl _)
  rw [hsame, ← Stmt.shiftAll_eq_map, Stmt.shiftAll_zero]
  exact hmoved added final (hadded left hleft)

end Parser

/-! ## Joined texts -/

open String (utf8Len)

theorem utf8ByteSize_join (s t : String) :
    (s ++ "\n" ++ t).utf8ByteSize = t.utf8ByteSize + (s.utf8ByteSize + 1) := by
  rw [String.utf8ByteSize_append, String.utf8ByteSize_append, Nat.add_comm]
  rfl

theorem tokenize_join {s t : String} {front back : List Lexeme} (hs : Tiled none 0 s.toList front)
    (ht : Tiled none 0 t.toList back) :
    tokenize (s ++ "\n" ++ t) =
      .ok (front ++ List.map (Lexeme.shift (s.utf8ByteSize + 1))
        (back ++ [⟨.endOfFile, ⟨t.utf8ByteSize, t.utf8ByteSize⟩⟩])) := by
  have hchars : (s ++ "\n" ++ t).toList = s.toList ++ '\n' :: t.toList := by simp
  have hjoined := tiled_join hs ht
  rw [← hchars, ← utf8ByteSize_eq] at hjoined
  rw [tokenize_of_tiled hjoined, utf8ByteSize_join, List.map_append, List.append_assoc]
  rfl

theorem Grammar.Program.start {ts : List Token} {h : Nat} {P : UzScript.Program}
    (hphrase : Program ts h P) :
    ts = [] ∨ ∃ word us, ts = .keyword word :: us ∧ word ≠ .otherwise := by
  obtain ⟨hstatements⟩ := hphrase
  cases hstatements with
  | none => exact .inl rfl
  | more first _ =>
    obtain ⟨word, us, rfl, hword⟩ := Parser.statement_start first
    exact .inr ⟨word, _, rfl, hword⟩

/-- The end of the source comes once, so that nothing but it is left where a program ends. -/
theorem rest_eq_end {front taken rest : List Lexeme} {last : Lexeme}
    (hfree : ∀ l ∈ front, l.token ≠ .endOfFile) (htaken : last ∉ taken)
    (hsplit : front ++ [last] = taken ++ rest) (hend : Parser.EndsProgram rest) : rest = [last] := by
  rcases List.append_eq_append_iff.1 hsplit with ⟨more, rfl, hmore⟩ | ⟨more, rfl, rfl⟩
  · cases more with
    | nil => exact hmore.symm
    | cons l more =>
      obtain ⟨rfl, -⟩ := List.cons.inj hmore
      simp at htaken
  · cases more with
    | nil => rfl
    | cons l more =>
      obtain hnil | ⟨span, others, hcons⟩ := hend
      · cases hnil
      · cases hcons
        exact absurd rfl (hfree ⟨.endOfFile, span⟩ (by simp))

theorem continueNothing_of_parse {back : List Lexeme} {stop : Span} {Q : Program}
    (hfree : ∀ l ∈ back, l.token ≠ .endOfFile)
    (hparse : parse (back ++ [⟨.endOfFile, stop⟩]) = .ok Q) (n : Nat) :
    ContinueNothing (back.map (Lexeme.shift n) ++ [⟨.endOfFile, stop.shift n⟩]) := by
  obtain ⟨_, -, hphrase⟩ := parse_derivation hfree hparse
  rcases hphrase.start with hnil | ⟨word, us, hts, hword⟩
  · rw [List.map_eq_nil_iff.1 hnil]
    rintro _ ⟨rfl⟩
    rfl
  · obtain ⟨span, back, rfl, -⟩ := Parser.map_token_eq_cons hts
    rintro _ ⟨rfl⟩
    exact decide_eq_true hword

theorem statements_of_parse {front : List Lexeme} {stop : Span} {P : Program}
    (hfree : ∀ l ∈ front, l.token ≠ .endOfFile)
    (hparse : parse (front ++ [⟨.endOfFile, stop⟩]) = .ok P) :
    ∃ ss, Parser.programStatements (Parser.statement nestingLimit) (front ++ [⟨.endOfFile, stop⟩])
      (front ++ [⟨.endOfFile, stop⟩]) = .ok ss [⟨.endOfFile, stop⟩] ∧ P = ⟨ss, ⟨0, stop.stop⟩⟩ := by
  obtain ⟨rest, hrun⟩ := parse_ok.1 hparse
  obtain ⟨taken, _, hsplit, -, hphrase, hend⟩ := Parser.program_sound hrun
  simp only [Parser.program, Parser.programOf, Parser.remaining_bind, Parser.currentSpan_bind, bind_ok,
    pure_ok] at hrun
  obtain ⟨ss, _, hss, rfl, rfl⟩ := hrun
  have htaken : ⟨.endOfFile, stop⟩ ∉ taken := fun hmem => hphrase.no_end (List.mem_map_of_mem hmem)
  obtain rfl := rest_eq_end hfree htaken hsplit hend
  exact ⟨ss, hss, rfl⟩

theorem parse_of_statements {ls rest : List Lexeme} {ss : List Stmt}
    (hrun : Parser.programStatements (Parser.statement nestingLimit) ls ls = .ok ss rest) :
    parse ls = .ok ⟨ss, ⟨0, (Parser.spanAt rest).stop⟩⟩ := by
  refine parse_ok.2 ⟨rest, ?_⟩
  simp only [Parser.program, Parser.programOf, Parser.remaining_bind, Parser.currentSpan_bind, bind_ok,
    pure_ok]
  exact ⟨ss, rest, hrun, rfl, rfl⟩

/-- The lexemes of two texts, the second ones further along, parse to the statements of both. First the
second text is moved along, up to its own end; then it takes the place of the end of the first. -/
theorem parse_join {front back : List Lexeme} {stop stop' : Span} {P Q : Program}
    (hfront : ∀ l ∈ front, l.token ≠ .endOfFile) (hback : ∀ l ∈ back, l.token ≠ .endOfFile)
    (hP : parse (front ++ [⟨.endOfFile, stop⟩]) = .ok P)
    (hQ : parse (back ++ [⟨.endOfFile, stop'⟩]) = .ok Q) (n : Nat) :
    parse (front ++ (back.map (Lexeme.shift n) ++ [⟨.endOfFile, stop'.shift n⟩])) =
      .ok ⟨P.statements ++ Q.statements.map (Stmt.shift n), ⟨0, stop'.stop + n⟩⟩ := by
  have hbegin := continueNothing_of_parse hback hQ n
  obtain ⟨ss, hss, rfl⟩ := statements_of_parse hfront hP
  obtain ⟨ss', hss', rfl⟩ := statements_of_parse hback hQ
  have hsecond := Parser.programStatements_moves (n := n) (.endOfFile (stop'.shift n)) hss'
    fun rounds _ => Parser.programStatements_end _ rounds (stop'.shift n)
  have hboth := Parser.programStatements_moves (n := 0) hbegin hss hsecond
  have hfirst : front.map (Lexeme.shift 0) = front := List.map_id front
  have hzero : ss.map (Stmt.shift 0) = ss := by rw [← Stmt.shiftAll_eq_map, Stmt.shiftAll_zero]
  rw [hfirst, hzero, List.append_nil] at hboth
  exact parse_of_statements (hboth _ (Nat.le_refl _))

/-- Two texts with a line feed between them are read as each of them alone: the tokens are those of the
first without its end, and those of the second further along by the length of the first and the line
feed. If both parse, the joined text parses to the statements of the first followed by those of the
second, whose places are all further along by as much, and which are otherwise the same. -/
theorem front_end_joins {s t : String} {ls ls' : List Lexeme} (hs : tokenize s = .ok ls)
    (ht : tokenize t = .ok ls') :
    ∃ front, ls = front ++ [⟨.endOfFile, ⟨s.utf8ByteSize, s.utf8ByteSize⟩⟩] ∧
      tokenize (s ++ "\n" ++ t) =
        .ok (front ++ ls'.map (Lexeme.shift (s.utf8ByteSize + 1))) ∧
      ∀ P Q : Program, parse ls = .ok P → parse ls' = .ok Q →
        parse (front ++ ls'.map (Lexeme.shift (s.utf8ByteSize + 1))) =
          .ok ⟨P.statements ++ Q.statements.map (Stmt.shift (s.utf8ByteSize + 1)),
            ⟨0, (s ++ "\n" ++ t).utf8ByteSize⟩⟩ := by
  obtain ⟨front, hfront, rfl⟩ := tiled_of_tokenize hs
  obtain ⟨back, hback, rfl⟩ := tiled_of_tokenize ht
  refine ⟨front, rfl, tokenize_join hfront hback, fun P Q hP hQ => ?_⟩
  rw [utf8ByteSize_join, List.map_append]
  exact parse_join (free_of_tiled hfront) (free_of_tiled hback) hP hQ _

/-- A branch at the end of the first text looks for a second block, and finds a statement of the second
text instead. -/
theorem front_end_joins_branch :
    ∃ ls, tokenize ("agar (1) \x7b \x7d" ++ "\n" ++ "chop 1;") = .ok ls ∧
      parse ls = .ok ⟨[.branch (.integer .one ⟨6, 7⟩) ⟨[], ⟨9, 12⟩⟩ none ⟨0, 12⟩,
        .print (.integer .one ⟨18, 19⟩) ⟨13, 20⟩], ⟨0, 20⟩⟩ := by
  have hs : tokenize "agar (1) \x7b \x7d" = .ok
      [⟨.keyword .branch, ⟨0, 4⟩⟩, ⟨.opening .round, ⟨5, 6⟩⟩, ⟨.integer .one, ⟨6, 7⟩⟩,
        ⟨.closing .round, ⟨7, 8⟩⟩, ⟨.opening .curly, ⟨9, 10⟩⟩, ⟨.closing .curly, ⟨11, 12⟩⟩,
        ⟨.endOfFile, ⟨12, 12⟩⟩] := by
    decide +kernel
  have ht : tokenize "chop 1;" = .ok
      [⟨.keyword .print, ⟨0, 4⟩⟩, ⟨.integer .one, ⟨5, 6⟩⟩, ⟨.semicolon, ⟨6, 7⟩⟩,
        ⟨.endOfFile, ⟨7, 7⟩⟩] := by
    decide +kernel
  obtain ⟨front, -, htokens, hparse⟩ := front_end_joins hs ht
  refine ⟨_, htokens, ?_⟩
  exact hparse ⟨[.branch (.integer .one ⟨6, 7⟩) ⟨[], ⟨9, 12⟩⟩ none ⟨0, 12⟩], ⟨0, 12⟩⟩
    ⟨[.print (.integer .one ⟨5, 6⟩) ⟨0, 7⟩], ⟨0, 7⟩⟩ rfl rfl

end UzScript
