import UzScript.Proofs.PrintedTokens
import UzScript.Proofs.WrittenTokens

/-! # The text of a printed program

A printed program is a written text of its printed tokens. Pieces of text are put together from
left to right: a name, a number or a keyword has to be closed off by what comes next, and all
separators close it off. -/

set_option autoImplicit false

namespace UzScript

def Anything (_ : Option Char) : Prop := True

/-- Put in front of a written text that goes on as required, the text adds the tokens. -/
def Spells (required : Option Char → Prop) (text : String) (ts : List Token) : Prop :=
  (∀ t ∈ ts, t.Writable) → ∀ (cs : List Char) (rest : List Token), Written cs rest →
    required cs.head? → Written (text.toList ++ cs) (ts ++ rest)

namespace Spells

variable {required next : Option Char → Prop} {a b : String} {ts us : List Token}

theorem append (ha : Spells required a ts) (hb : Spells next b us)
    (hjoin : ∀ c, next c → required (b.toList.head?.or c)) : Spells next (a ++ b) (ts ++ us) := by
  intro hwritable cs rest hcs hnext
  rw [List.forall_mem_append] at hwritable
  have hmore := hb hwritable.2 cs rest hcs hnext
  have hfirst : required (b.toList ++ cs).head? := by
    rw [List.head?_append]
    exact hjoin _ hnext
  have hall := ha hwritable.1 _ _ hmore hfirst
  rwa [String.toList_append, List.append_assoc, List.append_assoc]

theorem before (ha : Spells Anything a ts) (hb : Spells next b us) :
    Spells next (a ++ b) (ts ++ us) :=
  ha.append hb fun _ _ => trivial

theorem mono (ha : Spells Anything a ts) : Spells required a ts :=
  fun hwritable cs rest hcs _ => ha hwritable cs rest hcs trivial

theorem token (t : Token) : Spells Closes t.spelling [t] := by
  intro hwritable cs rest hcs hcloses
  exact .token (hwritable t List.mem_cons_self) (t.endsBefore_of_closes hcloses) hcs

theorem empty : Spells Anything "" [] := fun _ _ _ hcs _ => hcs

theorem blank : Spells Anything " " [] := fun _ _ _ hcs _ => .space rfl hcs

theorem newline : Spells Anything "\n" [] := fun _ _ _ hcs _ => .space rfl hcs

theorem mark (t : Token) (hends : ∀ c, t.EndsBefore c) : Spells Anything t.spelling [t] := by
  intro hwritable cs rest hcs _
  exact .token (hwritable t List.mem_cons_self) (hends _) hcs

end Spells

/-- A separator closes off what stands before it, and asks nothing of what comes next. -/
structure Separates (text : String) (ts : List Token) : Prop where
  spells : Spells Anything text ts
  closes : ∀ next, Closes (text.toList.head?.or next)

namespace Separates

variable {a text : String} {ts us : List Token}

theorem of_first {c : Char} (hspells : Spells Anything text ts) (hfirst : text.toList.head? = some c)
    (hpart : isNamePart c = false) (hequals : c ≠ '=') : Separates text ts := by
  refine ⟨hspells, fun next d hd => ?_⟩
  rw [hfirst, Option.some_or] at hd
  cases hd
  exact ⟨hpart, hequals⟩

theorem after (hsep : Separates text us) (ha : Spells Closes a ts) :
    Spells Anything (a ++ text) (ts ++ us) :=
  ha.append hsep.spells fun next _ => hsep.closes next

theorem append (hsep : Separates text us) (ha : Spells Anything a ts) :
    Separates (text ++ a) (us ++ ts) := by
  refine ⟨hsep.spells.before ha, fun next => ?_⟩
  rw [String.toList_append, List.head?_append, Option.or_assoc]
  exact hsep.closes _

theorem blank : Separates " " [] := of_first .blank rfl (by decide) (by decide)

theorem opening (bracket : Bracket) :
    Separates (Token.opening bracket).spelling [.opening bracket] := by
  have hspells := Spells.mark (.opening bracket) fun _ => trivial
  cases bracket <;> exact of_first hspells rfl (by decide) (by decide)

theorem closing (bracket : Bracket) :
    Separates (Token.closing bracket).spelling [.closing bracket] := by
  have hspells := Spells.mark (.closing bracket) fun _ => trivial
  cases bracket <;> exact of_first hspells rfl (by decide) (by decide)

theorem semicolon : Separates ";" [.semicolon] :=
  of_first (Spells.mark .semicolon fun _ => trivial) rfl (by decide) (by decide)

theorem comma : Separates ", " [.comma] :=
  (of_first (Spells.mark .comma fun _ => trivial) rfl (by decide) (by decide)).append .blank

theorem assign : Separates " = " [.assign] :=
  of_first (blank.after (Spells.blank.before (.token .assign))) rfl (by decide) (by decide)

end Separates

namespace Spells

theorem intercalate {α : Type} {required : Option Char → Prop} {separator : String}
    {us : List Token} {text : α → String} {tokens : α → List Token}
    (hsep : Spells Anything separator us)
    (hjoin : ∀ next, required (separator.toList.head?.or next)) (items : List α)
    (hitems : ∀ x ∈ items, Spells required (text x) (tokens x)) :
    Spells required (separator.intercalate (items.map text))
      (us.intercalate (items.map tokens)) := by
  induction items with
  | nil =>
    rw [List.map_nil, String.intercalate_nil, List.map_nil, List.intercalate_nil]
    exact empty.mono
  | cons x items ih =>
    obtain ⟨hx, hmore⟩ := List.forall_mem_cons.1 hitems
    cases items with
    | nil =>
      rw [List.map_singleton, String.intercalate_singleton, List.map_singleton,
        List.intercalate_singleton]
      exact hx
    | cons y items =>
      rw [List.map_cons, List.map_cons, String.intercalate_cons_cons, List.map_cons, List.map_cons,
        List.intercalate_cons_cons]
      exact (hx.append hsep fun next _ => hjoin next).before (ih hmore)

theorem wrap (wrapped : Bool) {text : String} {ts : List Token} (h : Spells Closes text ts) :
    Spells Closes (wrapIf wrapped text) (wrapTokens wrapped ts) := by
  cases wrapped with
  | false => exact h
  | true => exact ((Separates.closing .round).after ((Separates.opening .round).spells.before h)).mono

end Spells

/-! ## Trees -/

theorem Expr.renderAll_eq_map (es : List Expr) : renderAll es = es.map render := by
  induction es with
  | nil => rfl
  | cons e es ih => rw [renderAll, ih, List.map_cons]

theorem Stmt.renderAll_eq_map (ss : List Stmt) : Stmt.renderAll ss = ss.map Stmt.render := by
  induction ss with
  | nil => rfl
  | cons s ss ih => rw [Stmt.renderAll, ih, List.map_cons]

namespace Expr

theorem spelled_list {es : List Expr} (h : ∀ e ∈ es, Spells Closes e.render e.tokens) :
    Spells Closes (", ".intercalate (renderAll es)) ([Token.comma].intercalate (tokensAll es)) := by
  rw [renderAll_eq_map, tokensAll_eq_map]
  exact Spells.intercalate Separates.comma.spells Separates.comma.closes es h

mutual

theorem spelled : (e : Expr) → Spells Closes e.render e.tokens
  | .integer value _ => by
    rw [render, tokens]
    exact .token (.integer value)
  | .text value _ => by
    rw [render, tokens]
    exact .token (.text value)
  | .variable ident => by
    rw [render, tokens]
    exact .token (.ident ident.name)
  | .binary op left right _ => by
    have hleft := left.spelled.wrap (left.operator?.any op.wrapsLeft)
    have hright := right.spelled.wrap (right.operator?.any op.wrapsRight)
    have hop := (Separates.blank.after hleft).before (.token (.operator op))
    rw [render, tokens]
    simpa [Token.spelling] using (Separates.blank.after hop).before hright
  | .call function arguments _ => by
    have hname := (Separates.opening .round).after (.token (.ident function.name))
    have hall := (Separates.closing .round).after
      (hname.before (spelled_list (spelled_mem arguments)))
    rw [render, tokens]
    exact hall.mono
  | .list elements _ => by
    have hall := (Separates.closing .square).after
      ((Separates.opening .square).spells.before (spelled_list (spelled_mem elements)))
    rw [render, tokens]
    exact hall.mono

theorem spelled_mem : (es : List Expr) → ∀ e ∈ es, Spells Closes e.render e.tokens
  | [] => fun _ he => by cases he
  | e :: es => List.forall_mem_cons.2 ⟨e.spelled, spelled_mem es⟩

end

end Expr

theorem intercalate_nil_eq_flatten (tss : List (List Token)) :
    ([] : List Token).intercalate tss = tss.flatten := by
  induction tss with
  | nil => rfl
  | cons ts tss ih =>
    cases tss with
    | nil => rw [List.intercalate_singleton, List.flatten_singleton]
    | cons us tss => rw [List.intercalate_cons_cons, ih, List.append_nil, List.flatten_cons (l := ts)]

theorem Stmt.spelled_list {space : String} (hspace : Spells Anything space []) {ss : List Stmt}
    (h : ∀ s ∈ ss, Spells Anything s.render s.tokens) :
    Spells Anything (space.intercalate (Stmt.renderAll ss)) (Stmt.tokensAll ss).flatten := by
  rw [Stmt.renderAll_eq_map, Stmt.tokensAll_eq_map, ← intercalate_nil_eq_flatten]
  exact Spells.intercalate hspace (fun _ => trivial) ss h

theorem Ident.spelled_list (idents : List Ident) :
    Spells Closes (", ".intercalate (idents.map Ident.name))
      ([Token.comma].intercalate (idents.map Ident.tokens)) :=
  Spells.intercalate Separates.comma.spells Separates.comma.closes idents
    fun ident _ => .token (.ident ident.name)

theorem Keyword.spelled_value (word : Keyword) (value : Expr) :
    Spells Anything (word.spelling ++ " " ++ value.render ++ ";")
      (.keyword word :: value.tokens ++ [.semicolon]) :=
  Separates.semicolon.after ((Separates.blank.after (.token (.keyword word))).before value.spelled)

mutual

theorem Stmt.spelled : (s : Stmt) → Spells Anything s.render s.tokens
  | .declare ident value _ => by
    have hname := (Separates.blank.after (.token (.keyword .declare))).before
      (.token (.ident ident.name))
    rw [Stmt.render, Stmt.tokens]
    exact Separates.semicolon.after ((Separates.assign.after hname).before value.spelled)
  | .print value _ => by
    rw [Stmt.render, Stmt.tokens]
    exact Keyword.print.spelled_value value
  | .branch condition thenBlock elseBlock _ => by
    have hopen := (Separates.blank.append (Separates.opening .round).spells).after
      (.token (.keyword .branch))
    have hcondition := ((Separates.closing .round).append .blank).after
      (hopen.before condition.spelled)
    have hthen := hcondition.before thenBlock.spelled
    rw [Stmt.render, Stmt.tokens]
    simpa [Token.spelling] using hthen.before (Block.spelled_else elseBlock)
  | .define function => by
    rw [Stmt.render, Stmt.tokens]
    exact function.spelled
  | .giveBack value _ => by
    rw [Stmt.render, Stmt.tokens]
    exact Keyword.giveBack.spelled_value value

theorem Stmt.spelled_mem : (ss : List Stmt) → ∀ s ∈ ss, Spells Anything s.render s.tokens
  | [] => fun _ hs => by cases hs
  | s :: ss => List.forall_mem_cons.2 ⟨s.spelled, Stmt.spelled_mem ss⟩

theorem Block.spelled : (block : Block) → Spells Anything block.render block.tokens
  | ⟨[], _⟩ => by
    rw [Block.render, Block.tokens]
    exact ((Separates.opening .curly).append .blank).spells.before (Separates.closing .curly).spells
  | ⟨s :: ss, _⟩ => by
    have hopen := (Separates.opening .curly).append .blank
    have hbody := hopen.spells.before (Stmt.spelled_list .blank (Stmt.spelled_mem (s :: ss)))
    rw [Block.render, Block.tokens]
    exact hbody.before (Spells.blank.before (Separates.closing .curly).spells)

theorem Block.spelled_else : (elseBlock : Option Block) →
    Spells Anything (Block.renderElse elseBlock) (Block.elseTokens elseBlock)
  | none => by
    rw [Block.renderElse, Block.elseTokens]
    exact .empty
  | some block => by
    rw [Block.renderElse, Block.elseTokens]
    exact (Separates.blank.after (Spells.blank.before (.token (.keyword .otherwise)))).before
      block.spelled

theorem FunctionDef.spelled : (function : FunctionDef) →
    Spells Anything function.render function.tokens
  | ⟨ident, parameters, body, _⟩ => by
    have hname := (Separates.blank.after (.token (.keyword .define))).before
      (.token (.ident ident.name))
    have hparameters := ((Separates.opening .round).after hname).before
      (Ident.spelled_list parameters)
    have hhead := ((Separates.closing .round).append .blank).after hparameters
    rw [FunctionDef.render, FunctionDef.tokens]
    simpa [Token.spelling] using hhead.before body.spelled

end

theorem Program.written_render {program : Program} (h : ∀ t ∈ program.tokens, t.Writable) :
    Written program.render.toList program.tokens := by
  have hspelled := Stmt.spelled_list .newline (Stmt.spelled_mem program.statements)
  have hwritten := hspelled h [] [] .done trivial
  rwa [List.append_nil, List.append_nil] at hwritten

end UzScript
