import Mathlib.Data.List.Basic
import UzScript.Proofs.ExpressionRecognition

/-! # The parser recognizes the programs of the grammar

Statements, blocks and programs are compared with the grammar as expressions are. A block and a
whole program read their statements in loops that differ only in what ends them. The end of a
source is no token of any phrase, so that a program takes all lexemes before it. -/

set_option autoImplicit false

namespace UzScript.Parser

open Grammar

/-! ## Statements -/

/-- No second block of a branch follows. -/
def EndsStatement (rest : List Lexeme) : Prop := isAt (.keyword .otherwise) rest = false

theorem ident_sound (limit : Nat) : Sound ident Ident.erase Parameter limit := by
  intro ls i rest hrun
  rw [ident_ok.1 hrun]
  exact ⟨[⟨.ident i.name, i.location⟩], 0, rfl, Nat.zero_le _, .intro i.name⟩

theorem ident_complete (limit : Nat) :
    Complete ident Ident.erase Parameter limit (fun _ => True) := by
  rintro ts h i ⟨name⟩ - front rest hts -
  obtain ⟨span, _, rfl, hnil⟩ := map_token_eq_cons hts
  rw [List.map_eq_nil_iff.1 hnil]
  exact ⟨⟨name, span⟩, rfl, rfl⟩

theorem parameter_start_ne (ts : List Token) (h : Nat) (i : Ident) (hphrase : Parameter ts h i) :
    ∃ t us, ts = t :: us ∧ t ≠ .closing .round := by
  obtain ⟨name⟩ := hphrase
  exact ⟨.ident name, [], rfl, by simp⟩

theorem statement_start {block : Phrase UzScript.Block} {ts : List Token} {h : Nat} {s : Stmt}
    (hphrase : Statement block ts h s) : ∃ word us, ts = .keyword word :: us ∧ word ≠ .otherwise := by
  cases hphrase <;> exact ⟨_, _, rfl, by simp⟩

theorem Sound.keyword {statement : Parser Stmt} {limit : Nat}
    (hsound : Sound statement Stmt.erase (Statement Grammar.Block) limit) {ls rest : List Lexeme}
    {s : Stmt} (hrun : statement ls = .ok s rest) :
    ∃ word span more, ls = ⟨.keyword word, span⟩ :: more ∧ rest.length ≤ more.length := by
  obtain ⟨front, height, rfl, -, hphrase⟩ := hsound hrun
  obtain ⟨word, us, hts, -⟩ := statement_start hphrase
  obtain ⟨span, back, rfl, -⟩ := map_token_eq_cons hts
  refine ⟨word, span, back ++ rest, rfl, ?_⟩
  rw [List.length_append]
  exact Nat.le_add_left _ _

section Statements

variable {value : Parser Expr} {block : Parser UzScript.Block} {limit : Nat}

theorem branching_sound (hvalue : Sound value Expr.erase Expression limit)
    (hblock : Sound block Block.erase Grammar.Block limit) {ls rest : List Lexeme} {s : Stmt}
    (hrun : branching value block ls = .ok s rest) :
    ∃ front h, ls = front ++ rest ∧ h ≤ limit ∧
      Statement Grammar.Block (front.map Lexeme.token) h s.erase := by
  obtain ⟨first, opening, closing, mid, e, after, b, rest', rfl, hcondition, hthen, hend⟩ :=
    branching_ok.1 hrun
  obtain ⟨f, h, rfl, hh, hphrase⟩ := hvalue hcondition
  obtain ⟨g, k, rfl, hk, hbody⟩ := hblock hthen
  rcases hend with ⟨-, rfl, rfl⟩ | ⟨otherwise, more, c, rfl, helse, rfl⟩
  · refine ⟨⟨.keyword .branch, first⟩ :: ⟨.opening .round, opening⟩ :: f
      ++ ⟨.closing .round, closing⟩ :: g, max h k, by simp, by omega, ?_⟩
    simpa [Stmt.erase] using Statement.branch hphrase hbody
  · obtain ⟨g', l, rfl, hl, hother⟩ := hblock helse
    refine ⟨⟨.keyword .branch, first⟩ :: ⟨.opening .round, opening⟩ :: f
      ++ ⟨.closing .round, closing⟩ :: g ++ ⟨.keyword .otherwise, otherwise⟩ :: g',
      max (max h k) l, by simp, by omega, ?_⟩
    simpa [Stmt.erase] using Statement.branchElse hphrase hbody hother

theorem statementOf_sound (hvalue : Sound value Expr.erase Expression limit)
    (hblock : Sound block Block.erase Grammar.Block limit) :
    Sound (statementOf value block) Stmt.erase (Statement Grammar.Block) limit := by
  intro ls s rest hrun
  cases statementOf_ok.1 hrun with
  | declare hrun =>
    obtain ⟨first, name, location, assign, last, mid, e, hls, he, rfl⟩ := declaration_ok.1 hrun
    obtain ⟨front, h, rfl, hh, hphrase⟩ := hvalue he
    rw [hls]
    refine ⟨⟨.keyword .declare, first⟩ :: ⟨.ident name, location⟩ :: ⟨.assign, assign⟩ :: front
      ++ [⟨.semicolon, last⟩], h, by simp, hh, ?_⟩
    simpa [Stmt.erase, Ident.erase] using Statement.declare name hphrase
  | print hrun =>
    obtain ⟨first, last, mid, e, hls, he, rfl⟩ := printing_ok.1 hrun
    obtain ⟨front, h, rfl, hh, hphrase⟩ := hvalue he
    rw [hls]
    refine ⟨⟨.keyword .print, first⟩ :: front ++ [⟨.semicolon, last⟩], h, by simp, hh, ?_⟩
    simpa [Stmt.erase] using Statement.print hphrase
  | branch hrun =>
    exact branching_sound hvalue hblock hrun
  | define hf =>
    obtain ⟨first, name, location, mid, ps, _, after, body, hls, hitems, hbody, rfl⟩ :=
      functionDef_ok.1 hf
    obtain ⟨opening, closing, front, h, rfl, hh, hlisted⟩ :=
      delimited_sound (ident_sound limit) hitems
    obtain ⟨g, k, rfl, hk, hphrase⟩ := hblock hbody
    rw [hls]
    refine ⟨⟨.keyword .define, first⟩ :: ⟨.ident name, location⟩ :: ⟨.opening .round, opening⟩ :: front
      ++ ⟨.closing .round, closing⟩ :: g, max h k, by simp, by omega, ?_⟩
    simpa [Stmt.erase, FunctionDef.erase, Ident.erase] using Statement.define name hlisted hphrase
  | giveBack hrun =>
    obtain ⟨first, last, mid, e, hls, he, rfl⟩ := givingBack_ok.1 hrun
    obtain ⟨front, h, rfl, hh, hphrase⟩ := hvalue he
    rw [hls]
    refine ⟨⟨.keyword .giveBack, first⟩ :: front ++ [⟨.semicolon, last⟩], h, by simp, hh, ?_⟩
    simpa [Stmt.erase] using Statement.giveBack hphrase

theorem value_complete (hvalue : Complete value Expr.erase Expression limit EndsExpression)
    {t : Token} {ts : List Token} {h : Nat} {e : Expr} (hphrase : Expression ts h e)
    (hh : h ≤ limit) {front rest : List Lexeme}
    (hts : front.map Lexeme.token = t :: ts ++ [.semicolon]) :
    ∃ first last mid b, front = ⟨t, first⟩ :: mid ++ [⟨.semicolon, last⟩] ∧
      value (mid ++ ⟨.semicolon, last⟩ :: rest) = .ok b (⟨.semicolon, last⟩ :: rest) ∧
        b.erase = e := by
  obtain ⟨first, last, mid, rfl, hmid⟩ := map_token_eq_bracketed hts
  obtain ⟨b, hb, herase⟩ := hvalue hphrase hh hmid (endsExpression_semicolon last rest)
  exact ⟨first, last, mid, b, rfl, hb, herase⟩

theorem statementOf_complete (hvalue : Complete value Expr.erase Expression limit EndsExpression)
    (hblock : Complete block Block.erase Grammar.Block limit (fun _ => True)) :
    Complete (statementOf value block) Stmt.erase (Statement Grammar.Block) limit EndsStatement := by
  intro ts h s hphrase hh front rest hts hend
  cases hphrase with
  | declare name hphrase =>
    obtain ⟨first, front, rfl, hfront⟩ := map_token_eq_cons hts
    obtain ⟨location, front, rfl, hfront'⟩ := map_token_eq_cons hfront
    obtain ⟨assign, last, mid, e, rfl, he, rfl⟩ := value_complete hvalue hphrase hh hfront'
    refine ⟨.declare ⟨name, location⟩ e ⟨first.start, last.stop⟩, ?_, rfl⟩
    simp only [List.cons_append, List.append_assoc, List.nil_append]
    refine statementOf_ok.2 (.declare (declaration_ok.2 ?_))
    exact ⟨first, name, location, assign, last, _, e, rfl, he, rfl⟩
  | print hphrase =>
    obtain ⟨first, last, mid, e, rfl, he, rfl⟩ := value_complete hvalue hphrase hh hts
    refine ⟨.print e ⟨first.start, last.stop⟩, ?_, rfl⟩
    simp only [List.cons_append, List.append_assoc, List.nil_append]
    exact statementOf_ok.2 (.print (printing_ok.2 ⟨first, last, _, e, rfl, he, rfl⟩))
  | branch hphrase hthen =>
    obtain ⟨first, front, rfl, hfront⟩ := map_token_eq_cons hts
    obtain ⟨opening, front, rfl, hfront'⟩ := map_token_eq_cons hfront
    obtain ⟨f, g, rfl, hf, hg⟩ := map_token_eq_append hfront'
    obtain ⟨closing, g, rfl, hg'⟩ := map_token_eq_cons hg
    obtain ⟨e, he, rfl⟩ := hvalue hphrase (by omega) hf
      (endsExpression_closing .round closing (g ++ rest))
    obtain ⟨b, hb, rfl⟩ := hblock hthen (by omega) hg' trivial
    refine ⟨.branch e b none ⟨first.start, b.location.stop⟩, ?_, rfl⟩
    simp only [List.cons_append, List.append_assoc]
    refine statementOf_ok.2 (.branch (branching_ok.2 ?_))
    exact ⟨first, opening, closing, _, e, _, b, rest, rfl, he, hb, .inl ⟨hend, rfl, rfl⟩⟩
  | branchElse hphrase hthen helse =>
    obtain ⟨f, g', rfl, hf, hg'⟩ := map_token_eq_append hts
    obtain ⟨first, f, rfl, hf'⟩ := map_token_eq_cons hf
    obtain ⟨opening, f, rfl, hf''⟩ := map_token_eq_cons hf'
    obtain ⟨f, g, rfl, hcondition, hg⟩ := map_token_eq_append hf''
    obtain ⟨closing, g, rfl, hfirst⟩ := map_token_eq_cons hg
    obtain ⟨otherwise, g', rfl, hsecond⟩ := map_token_eq_cons hg'
    obtain ⟨e, he, rfl⟩ := hvalue hphrase (by omega) hcondition
      (endsExpression_closing .round closing (g ++ ⟨.keyword .otherwise, otherwise⟩ :: (g' ++ rest)))
    obtain ⟨b, hb, rfl⟩ := hblock hthen (by omega) hfirst trivial
    obtain ⟨c, hc, rfl⟩ := hblock helse (by omega) hsecond trivial
    refine ⟨.branch e b (some c) ⟨first.start, c.location.stop⟩, ?_, rfl⟩
    simp only [List.cons_append, List.append_assoc]
    refine statementOf_ok.2 (.branch (branching_ok.2 ?_))
    exact ⟨first, opening, closing, _, e, _, b, _, rfl, he, hb,
      .inr ⟨otherwise, _, c, rfl, hc, rfl⟩⟩
  | define name hlisted hbody =>
    obtain ⟨first, front, rfl, hfront⟩ := map_token_eq_cons hts
    obtain ⟨location, front, rfl, hfront'⟩ := map_token_eq_cons hfront
    obtain ⟨f, g, rfl, hf, hg⟩ := map_token_eq_append hfront'
    obtain ⟨opening, f, rfl, hf'⟩ := map_token_eq_cons hf
    obtain ⟨closing, g, rfl, hg'⟩ := map_token_eq_cons hg
    obtain ⟨ps, span, hitems, rfl⟩ := delimited_complete (ident_complete limit)
      (fun _ _ => trivial) (fun _ _ => trivial) (by simp) parameter_start_ne hlisted (by omega) hf'
      opening closing
    obtain ⟨b, hb, rfl⟩ := hblock hbody (by omega) hg' trivial
    refine ⟨.define ⟨⟨name, location⟩, ps, b, ⟨first.start, b.location.stop⟩⟩, ?_, rfl⟩
    simp only [List.cons_append, List.append_assoc]
    refine statementOf_ok.2 (.define (functionDef_ok.2 ?_))
    exact ⟨first, name, location, _, ps, span, _, b, rfl, hitems, hb, rfl⟩
  | giveBack hphrase =>
    obtain ⟨first, last, mid, e, rfl, he, rfl⟩ := value_complete hvalue hphrase hh hts
    refine ⟨.giveBack e ⟨first.start, last.stop⟩, ?_, rfl⟩
    simp only [List.cons_append, List.append_assoc, List.nil_append]
    exact statementOf_ok.2 (.giveBack (givingBack_ok.2 ⟨first, last, _, e, rfl, he, rfl⟩))

end Statements

/-! ## Loops over statements -/

/-- A loop that reads statements and stops where `ends` says so, or when its rounds are used up. -/
structure StatementLoop (statement : Parser Stmt) (ends : List Lexeme → Prop)
    (loop : List Lexeme → Parser (List Stmt)) : Prop where
  exhausted (ls : List Lexeme) : loop [] ls = .ok [] ls
  stop (l : Lexeme) (rounds : List Lexeme) {ls : List Lexeme} (h : ends ls) :
    loop (l :: rounds) ls = .ok [] ls
  go (l : Lexeme) (rounds : List Lexeme) {word : Keyword} {span : Span} {ls mid rest : List Lexeme}
    {s : Stmt} {ss : List Stmt} (hs : statement (⟨.keyword word, span⟩ :: ls) = .ok s mid)
    (hss : loop rounds mid = .ok ss rest) :
    loop (l :: rounds) (⟨.keyword word, span⟩ :: ls) = .ok (s :: ss) rest
  round {l : Lexeme} {rounds ls rest : List Lexeme} {ss : List Stmt}
    (h : loop (l :: rounds) ls = .ok ss rest) :
    (ends ls ∧ ss = [] ∧ ls = rest) ∨
      ∃ s mid others, statement ls = .ok s mid ∧ loop rounds mid = .ok others rest ∧
        ss = s :: others

def EndsBlock (ls : List Lexeme) : Prop := ∃ span more, ls = ⟨.closing .curly, span⟩ :: more

def EndsProgram (ls : List Lexeme) : Prop :=
  ls = [] ∨ ∃ span more, ls = ⟨.endOfFile, span⟩ :: more

theorem blockStatements_loop (statement : Parser Stmt) :
    StatementLoop statement EndsBlock (blockStatements statement) where
  exhausted _ := rfl
  stop l rounds ls h := by
    obtain ⟨span, more, rfl⟩ := h
    rfl
  go l rounds word span ls mid rest s ss hs hss := by
    rw [blockStatements, current_bind, List.head?_cons]
    exact (bind_of_ok hs).trans (bind_of_ok hss)
  round {l rounds ls rest ss} h := by
    rw [blockStatements, current_bind] at h
    generalize hls : ls.head? = head at h
    split at h
    · obtain ⟨more, rfl⟩ := List.head?_eq_some_iff.1 hls
      obtain ⟨rfl, rfl⟩ := pure_ok.1 h
      exact .inl ⟨⟨_, more, rfl⟩, rfl, rfl⟩
    · exact absurd h throw_ok.1
    · simp only [bind_ok, pure_ok] at h
      obtain ⟨s, mid, hs, others, _, hothers, rfl, rfl⟩ := h
      exact .inr ⟨s, mid, others, hs, hothers, rfl⟩

theorem programStatements_loop (statement : Parser Stmt) :
    StatementLoop statement EndsProgram (programStatements statement) where
  exhausted _ := rfl
  stop l rounds ls h := by
    obtain rfl | ⟨span, more, rfl⟩ := h <;> rfl
  go l rounds word span ls mid rest s ss hs hss := by
    rw [programStatements, current_bind, List.head?_cons]
    exact (bind_of_ok hs).trans (bind_of_ok hss)
  round {l rounds ls rest ss} h := by
    rw [programStatements, current_bind] at h
    generalize hls : ls.head? = head at h
    split at h
    · obtain ⟨rfl, rfl⟩ := pure_ok.1 h
      exact .inl ⟨.inl (List.head?_eq_none_iff.1 hls), rfl, rfl⟩
    · obtain ⟨more, rfl⟩ := List.head?_eq_some_iff.1 hls
      obtain ⟨rfl, rfl⟩ := pure_ok.1 h
      exact .inl ⟨.inr ⟨_, more, rfl⟩, rfl, rfl⟩
    · simp only [bind_ok, pure_ok] at h
      obtain ⟨s, mid, hs, others, _, hothers, rfl, rfl⟩ := h
      exact .inr ⟨s, mid, others, hs, hothers, rfl⟩

section Loops

variable {statement : Parser Stmt} {ends : List Lexeme → Prop}
  {loop : List Lexeme → Parser (List Stmt)} {limit : Nat}

/-- Every statement takes a lexeme, so that a loop with a round for each of them stops only at its
end or when nothing is left. -/
theorem StatementLoop.sound (hloop : StatementLoop statement ends loop)
    (hstatement : Sound statement Stmt.erase (Statement Grammar.Block) limit)
    {rounds ls rest : List Lexeme} {ss : List Stmt} (hrun : loop rounds ls = .ok ss rest) :
    ∃ front h, ls = front ++ rest ∧ h ≤ limit ∧
      Repeated (Statement Grammar.Block) (front.map Lexeme.token) h (ss.map Stmt.erase) ∧
        (ls.length ≤ rounds.length → ends rest ∨ rest = []) := by
  induction rounds generalizing ls ss with
  | nil =>
    rw [hloop.exhausted] at hrun
    cases hrun
    exact ⟨[], 0, rfl, Nat.zero_le _, .none, fun h => .inr (List.eq_nil_of_length_eq_zero (by simpa using h))⟩
  | cons l rounds ih =>
    rcases hloop.round hrun with ⟨hends, rfl, rfl⟩ | ⟨s, mid, others, hs, hothers, rfl⟩
    · exact ⟨[], 0, rfl, Nat.zero_le _, .none, fun _ => .inl hends⟩
    · obtain ⟨f, h, rfl, hh, hphrase⟩ := hstatement hs
      obtain ⟨g, k, rfl, hk, hmore, hend⟩ := ih hothers
      have hpositive : 0 < f.length := by
        obtain ⟨word, us, hts, -⟩ := statement_start hphrase
        obtain ⟨span, back, rfl, -⟩ := map_token_eq_cons hts
        simp
      refine ⟨f ++ g, max h k, by simp, by omega, ?_, fun hlength => hend ?_⟩
      · rw [List.map_append]
        exact .more hphrase hmore
      · simp only [List.length_append, List.length_cons] at hlength ⊢
        omega

theorem StatementLoop.complete (hloop : StatementLoop statement ends loop)
    (hstatement : Complete statement Stmt.erase (Statement Grammar.Block) limit EndsStatement)
    {ts : List Token} {h : Nat} {ss : List Stmt}
    (hphrase : Repeated (Statement Grammar.Block) ts h ss) (hh : h ≤ limit)
    {front rest : List Lexeme} (hts : front.map Lexeme.token = ts) (hends : ends rest)
    (hrest : EndsStatement rest) (rounds : List Lexeme) (hrounds : front.length ≤ rounds.length) :
    ∃ bs, loop rounds (front ++ rest) = .ok bs rest ∧ bs.map Stmt.erase = ss := by
  induction hphrase generalizing front rounds with
  | none =>
    rw [List.map_eq_nil_iff.1 hts]
    cases rounds with
    | nil => exact ⟨[], hloop.exhausted rest, rfl⟩
    | cons l rounds => exact ⟨[], hloop.stop l rounds hends, rfl⟩
  | @more _ us k l s ss hfirst hothers ih =>
    obtain ⟨f, g, rfl, hf, hg⟩ := map_token_eq_append hts
    have hnext : EndsStatement (g ++ rest) := by
      cases hothers with
      | none => rwa [List.map_eq_nil_iff.1 hg]
      | more hsecond _ =>
        obtain ⟨word, vs, rfl, hword⟩ := statement_start hsecond
        obtain ⟨span, g, rfl, -⟩ := map_token_eq_cons hg
        simpa [EndsStatement, isAt_cons] using hword
    obtain ⟨b, hb, rfl⟩ := hstatement hfirst (by omega) hf hnext
    obtain ⟨word, vs, rfl, -⟩ := statement_start hfirst
    obtain ⟨span, f, rfl, -⟩ := map_token_eq_cons hf
    cases rounds with
    | nil => simp at hrounds
    | cons l rounds =>
      obtain ⟨bs, hbs, rfl⟩ := ih (by omega) hg rounds (by simp at hrounds; omega)
      refine ⟨b :: bs, ?_, rfl⟩
      rw [List.append_assoc]
      exact hloop.go l rounds hb hbs

end Loops

/-! ## Blocks and programs -/

theorem block_sound (levels : Nat) : Sound (block levels) Block.erase Grammar.Block levels := by
  induction levels with
  | zero =>
    intro ls b rest hrun
    rw [block_zero, nestingTooDeep, get_bind] at hrun
    exact absurd hrun throw_ok.1
  | succ levels ih =>
    intro ls b rest hrun
    obtain ⟨first, last, mid, ss, rfl, hstatements, rfl⟩ := blockOf_ok.1 hrun
    obtain ⟨front, h, rfl, hh, hphrase, -⟩ := (blockStatements_loop _).sound
      (statementOf_sound (expression_sound levels) ih) hstatements
    refine ⟨⟨.opening .curly, first⟩ :: front ++ [⟨.closing .curly, last⟩], h + 1, by simp, by omega,
      ?_⟩
    simpa [Block.erase] using Grammar.Block.intro hphrase

theorem block_complete (levels : Nat) :
    Complete (block levels) Block.erase Grammar.Block levels (fun _ => True) := by
  induction levels with
  | zero =>
    rintro ts _ b ⟨_⟩ hh
    omega
  | succ levels ih =>
    rintro ts _ b ⟨hphrase⟩ hh front rest hts -
    obtain ⟨first, last, mid, rfl, hmid⟩ := map_token_eq_bracketed hts
    obtain ⟨ss, hss, rfl⟩ := (blockStatements_loop _).complete
      (statementOf_complete (expression_complete levels) ih) hphrase (by omega) hmid
      ⟨last, rest, rfl⟩ (by simp [EndsStatement, isAt_cons])
      (mid ++ ⟨.closing .curly, last⟩ :: rest) (by simp)
    refine ⟨⟨ss, ⟨first.start, last.stop⟩⟩, ?_, by simp [Block.erase]⟩
    simp only [List.cons_append, List.append_assoc, List.nil_append]
    exact blockOf_ok.2 ⟨first, last, _, ss, rfl, hss, rfl⟩

theorem statement_sound (levels : Nat) :
    Sound (statement levels) Stmt.erase (Statement Grammar.Block) levels :=
  statementOf_sound (expression_sound levels) (block_sound levels)

theorem statement_complete (levels : Nat) :
    Complete (statement levels) Stmt.erase (Statement Grammar.Block) levels EndsStatement :=
  statementOf_complete (expression_complete levels) (block_complete levels)

theorem program_sound {levels : Nat} {ls rest : List Lexeme} {P : UzScript.Program}
    (hrun : program levels ls = .ok P rest) :
    ∃ front h, ls = front ++ rest ∧ h ≤ levels ∧
      Grammar.Program (front.map Lexeme.token) h P.erase ∧ EndsProgram rest := by
  simp only [program, programOf, remaining_bind, currentSpan_bind, bind_ok,
    pure_ok] at hrun
  obtain ⟨ss, _, hstatements, rfl, rfl⟩ := hrun
  obtain ⟨front, h, rfl, hh, hphrase, hend⟩ :=
    (programStatements_loop _).sound (statement_sound levels) hstatements
  refine ⟨front, h, rfl, hh, ?_, ?_⟩
  · rw [Program.erase, Stmt.eraseAll_eq_map]
    exact .intro hphrase
  · rcases hend (Nat.le_refl _) with hends | hnil
    · exact hends
    · exact .inl hnil

theorem program_complete {levels : Nat} {ts : List Token} {h : Nat} {P : UzScript.Program}
    (hphrase : Grammar.Program ts h P) (hh : h ≤ levels) {front rest : List Lexeme}
    (hts : front.map Lexeme.token = ts) (hend : EndsProgram rest) :
    ∃ Q, program levels (front ++ rest) = .ok Q rest ∧ Q.erase = P := by
  obtain ⟨hphrase⟩ := hphrase
  have hrest : EndsStatement rest := by
    obtain rfl | ⟨span, more, rfl⟩ := hend <;> rfl
  obtain ⟨ss, hss, rfl⟩ := (programStatements_loop _).complete (statement_complete levels) hphrase hh
    hts hend hrest (front ++ rest) (by simp)
  refine ⟨⟨ss, ⟨0, (spanAt rest).stop⟩⟩, ?_, by simp [Program.erase]⟩
  simp only [program, programOf, remaining_bind, currentSpan_bind, bind_ok,
    pure_ok]
  exact ⟨ss, rest, hss, rfl, rfl⟩

end UzScript.Parser

namespace UzScript

theorem parse_ok {ls : List Lexeme} {P : Program} :
    parse ls = .ok P ↔ ∃ rest, Parser.program nestingLimit ls = .ok P rest := by
  unfold parse
  cases hrun : Parser.program nestingLimit ls with
  | ok Q rest => simp
  | error fault rest => simp

theorem map_token_mk (ts : List Token) : (ts.map (Lexeme.mk · .zero)).map Lexeme.token = ts := by
  rw [List.map_map]
  exact List.map_id ts

/-- All derivations of the same tokens give the same program, however deep they nest. -/
theorem Grammar.Program.unique {ts : List Token} {h k : Nat} {P Q : UzScript.Program}
    (hP : Grammar.Program ts h P) (hQ : Grammar.Program ts k Q) : P = Q := by
  obtain ⟨P', hP', rfl⟩ := Parser.program_complete hP (Nat.le_max_left h k) (map_token_mk ts)
    (.inl rfl)
  obtain ⟨Q', hQ', rfl⟩ := Parser.program_complete hQ (Nat.le_max_right h k) (map_token_mk ts)
    (.inl rfl)
  rw [hP'] at hQ'
  cases hQ'
  rfl

theorem parse_derivation {lexemes : List Lexeme} {stop : Span} {P : Program}
    (hfree : ∀ l ∈ lexemes, l.token ≠ .endOfFile)
    (hparse : parse (lexemes ++ [⟨.endOfFile, stop⟩]) = .ok P) :
    ∃ h, h ≤ nestingLimit ∧ Grammar.Program (lexemes.map Lexeme.token) h P.erase := by
  obtain ⟨rest, hrun⟩ := parse_ok.1 hparse
  obtain ⟨front, h, hsplit, hh, hphrase, hend⟩ := Parser.program_sound hrun
  have hmapped := congrArg (List.map Lexeme.token) hsplit
  rw [List.map_append, List.map_append] at hmapped
  obtain rfl | ⟨span, more, rfl⟩ := hend
  · rw [List.map_nil, List.append_nil] at hmapped
    exact absurd (by simp [← hmapped]) hphrase.no_end
  · have hlexemes : Token.endOfFile ∉ lexemes.map Lexeme.token := by simpa using hfree
    obtain ⟨hfront, -, -⟩ := (List.append_cons_inj_of_notMem hlexemes List.not_mem_nil).1 hmapped
    exact ⟨h, hh, hfront ▸ hphrase⟩

theorem parse_of_derivation {lexemes : List Lexeme} {stop : Span} {P : Program} {h : Nat}
    (hh : h ≤ nestingLimit) (hphrase : Grammar.Program (lexemes.map Lexeme.token) h P) :
    ∃ Q, parse (lexemes ++ [⟨.endOfFile, stop⟩]) = .ok Q ∧ Q.erase = P := by
  obtain ⟨Q, hrun, hQ⟩ := Parser.program_complete hphrase hh rfl (.inr ⟨stop, [], rfl⟩)
  exact ⟨Q, parse_ok.2 ⟨_, hrun⟩, hQ⟩

/-- The parser accepts exactly the grammar within the limit on nesting, and what it gives is the one
program that the tokens stand for. -/
theorem parse_ok_iff_derivation (lexemes : List Lexeme) (stop : Span)
    (hfree : ∀ l ∈ lexemes, l.token ≠ .endOfFile) :
    (∀ P : Program, (∃ Q, parse (lexemes ++ [⟨.endOfFile, stop⟩]) = .ok Q ∧ Q.erase = P) ↔
      ∃ h, h ≤ nestingLimit ∧ Grammar.Program (lexemes.map Lexeme.token) h P) ∧
    ∀ (P Q : Program) (h k : Nat), Grammar.Program (lexemes.map Lexeme.token) h P →
      Grammar.Program (lexemes.map Lexeme.token) k Q → P = Q := by
  refine ⟨fun P => ⟨?_, ?_⟩, fun P Q h k hP hQ => hP.unique hQ⟩
  · rintro ⟨Q, hparse, rfl⟩
    exact parse_derivation hfree hparse
  · rintro ⟨h, hh, hphrase⟩
    exact parse_of_derivation hh hphrase

/-- The tokens of `chop (1 - 0) * 1;`. -/
def groupedPrint : List Token :=
  [.keyword .print, .opening .round, .integer .one, .operator .subtract, .integer .zero,
    .closing .round, .operator .multiply, .integer .one, .semicolon]

theorem parse_ok_iff_derivation_grouped :
    (∀ l ∈ groupedPrint.map (Lexeme.mk · .zero), l.token ≠ .endOfFile) ∧
      ∃ h, h ≤ nestingLimit ∧ Grammar.Program groupedPrint h
        ⟨[.print (.binary .multiply
          (.binary .subtract (.integer .one .zero) (.integer .zero .zero) .zero)
          (.integer .one .zero) .zero) .zero], .zero⟩ := by
  have hfree : ∀ l ∈ groupedPrint.map (Lexeme.mk · .zero), l.token ≠ .endOfFile := by decide
  exact ⟨hfree, ((parse_ok_iff_derivation _ .zero hfree).1 _).1 ⟨_, rfl, rfl⟩⟩

end UzScript
