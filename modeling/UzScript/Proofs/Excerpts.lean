import UzScript.Proofs.FaultPlaces
import UzScript.Proofs.NodePlaces
import UzScript.Proofs.Relocation

/-! # Excerpts of a source

The text at the place of a node is tiled by the lexemes of the node, as they tile the source. Standing
alone it is read as these lexemes, only that their places are counted from its own start, and what a
parser makes of them does not depend on where they stand or on what follows. So the text of a
statement parses to the statement, and the text of an operand, when it is printed, to the operand. -/

set_option autoImplicit false

namespace UzScript

open String (utf8Len)

/-! ## Parts of a tiled text -/

namespace Tiled

variable {next : Option Char} {n : Nat} {cs : List Char} {l : Lexeme}

theorem drop {front more : List Lexeme} (h : Tiled next n cs (front ++ l :: more)) :
    ∃ before rest, cs = before ++ rest ∧ l.span.start = n + utf8Len before ∧
      Tiled next (n + utf8Len before) rest (l :: more) := by
  generalize hls : front ++ l :: more = ls at h
  induction h generalizing front with
  | none => simp at hls
  | @space offset c cs ls blank _ ih =>
    obtain ⟨before, rest, rfl, hstart, htiled⟩ := ih hls
    have hlength : offset + utf8Len (c :: before) = offset + c.utf8Size + utf8Len before := by
      rw [String.utf8Len_cons]
      omega
    exact ⟨c :: before, rest, rfl, by rw [hlength, hstart], by rwa [hlength]⟩
  | @word offset t word cs ls spelled ends htail ih =>
    cases front with
    | nil =>
      cases hls
      exact ⟨[], word ++ cs, rfl, rfl, .word spelled ends htail⟩
    | cons first front =>
      obtain ⟨-, hmore⟩ := List.cons.inj hls
      obtain ⟨before, rest, rfl, hstart, htiled⟩ := ih hmore
      have hlength : offset + utf8Len (word ++ before) = offset + utf8Len word + utf8Len before := by
        rw [String.utf8Len_append]
        omega
      exact ⟨word ++ before, rest, by simp, by rw [hlength, hstart], by rwa [hlength]⟩

theorem take {front more : List Lexeme} (h : Tiled next n cs (front ++ l :: more)) :
    ∃ text after, cs = text ++ after ∧ l.span.stop = n + utf8Len text ∧
      Tiled (after.head?.or next) n text (front ++ [l]) := by
  generalize hls : front ++ l :: more = ls at h
  induction h generalizing front with
  | none => simp at hls
  | @space offset c cs ls blank _ ih =>
    obtain ⟨text, after, rfl, hstop, htiled⟩ := ih hls
    refine ⟨c :: text, after, rfl, ?_, .space blank htiled⟩
    rw [hstop, String.utf8Len_cons]
    omega
  | @word offset t word cs ls spelled ends _ ih =>
    cases front with
    | nil =>
      cases hls
      exact ⟨word, cs, rfl, rfl, .single offset spelled ends⟩
    | cons first front =>
      obtain ⟨rfl, hmore⟩ := List.cons.inj hls
      obtain ⟨text, after, rfl, hstop, htiled⟩ := ih hmore
      rw [List.head?_append, Option.or_assoc] at ends
      refine ⟨word ++ text, after, by simp, ?_, .word spelled ends htiled⟩
      rw [hstop, String.utf8Len_append]
      omega

theorem unshift {k : Nat} {ls : List Lexeme} (h : Tiled next (n + k) cs ls) :
    ∃ ls', Tiled next n cs ls' ∧ ls'.map (Lexeme.shift k) = ls := by
  generalize hm : n + k = m at h
  induction h generalizing n with
  | none => exact ⟨[], .none n, rfl⟩
  | @space offset c cs ls blank _ ih =>
    obtain ⟨ls', htiled, hls'⟩ := ih (n := n + c.utf8Size) (by omega)
    exact ⟨ls', .space blank htiled, hls'⟩
  | @word offset t word cs ls spelled ends _ ih =>
    obtain ⟨ls', htiled, hls'⟩ := ih (n := n + utf8Len word) (by omega)
    refine ⟨_, .word spelled ends htiled, ?_⟩
    rw [List.map_cons, hls', Lexeme.shift, Span.shift, hm, Nat.add_right_comm, hm]

end Tiled

/-- The lexemes at a span tile the text there, counted from the start of the span. -/
theorem tiled_slice {source : String} {front used back : List Lexeme} {span : Span}
    (h : Tiled none 0 source.toList (front ++ used ++ back)) (haround : span.Around used) :
    ∃ used', Tiled none 0 (span.slice source).toList used' ∧
      used'.map (Lexeme.shift span.start) = used := by
  obtain ⟨⟨l, more, hfirst, -, hstart⟩, ⟨before, l', hlast, -, hstop⟩⟩ := haround
  have hdrop : Tiled none 0 source.toList (front ++ l :: (more ++ back)) := by
    simpa [hfirst] using h
  obtain ⟨lead, rest, hsource, hlead, hrest⟩ := hdrop.drop
  rw [← List.cons_append, ← hfirst, hlast, List.append_assoc] at hrest
  obtain ⟨text, after, rfl, hend, htext⟩ := hrest.take
  rw [← hlast] at htext
  have hspan : span = ⟨utf8Len lead, utf8Len lead + utf8Len text⟩ := by
    rw [Span.ext_iff]
    dsimp only
    omega
  have hslice : span.slice source = String.ofList text := by
    rw [hspan]
    exact Span.slice_of_split (hsource.trans (List.append_assoc _ _ _).symm)
  obtain ⟨used', htiled, hused'⟩ := (htext.ending closes_none).unshift
  refine ⟨used', ?_, ?_⟩
  · rwa [hslice, String.toList_ofList]
  · rw [hspan]
    exact hused'

theorem exists_split {words used back : List Lexeme} {last : Lexeme} {span : Span}
    (hsuffix : used ++ back <:+ words ++ [last]) (haround : span.Around used)
    (hlast : last.token = .endOfFile) : ∃ front more, words = front ++ used ++ more := by
  obtain ⟨front, hfront⟩ := hsuffix
  obtain ⟨before, l, hused, hl, -⟩ := haround.last
  rcases List.eq_nil_or_concat back with rfl | ⟨more, l', rfl⟩
  · rw [hused, List.append_nil, ← List.append_assoc] at hfront
    obtain ⟨-, heq⟩ := List.append_inj' hfront rfl
    cases heq
    exact absurd hlast hl
  · rw [← List.append_assoc, List.concat_eq_append, ← List.append_assoc] at hfront
    obtain ⟨hwords, -⟩ := List.append_inj' hfront rfl
    exact ⟨front, more, hwords.symm⟩

/-! ## Statements and operands on their own -/

theorem closes_semicolon : Closes (some ';') := by
  rintro _ ⟨⟩
  decide +kernel

theorem parse_of_statement {ls : List Lexeme} {stop : Span} {s : Stmt}
    (hrun : Parser.statement nestingLimit ls = .ok s [⟨.endOfFile, stop⟩]) :
    parse ls = .ok ⟨[s], ⟨0, stop.stop⟩⟩ := by
  have hloop := Parser.programStatements_loop (Parser.statement nestingLimit)
  obtain ⟨word, span, more, rfl, -⟩ := (Parser.statement_sound nestingLimit).keyword hrun
  exact parse_of_statements (hloop.go ⟨.keyword word, span⟩ more hrun
    (Parser.programStatements_end _ more stop))

theorem Parser.comparison_operand {operand : Parser Expr} {ls rest : List Lexeme} {e : Expr}
    (hrun : operand ls = .ok e rest) (hrest : ContinueNothing rest) :
    comparison operand ls = .ok e rest := by
  have hadditive : additive operand ls = .ok e rest :=
    operandChain_end (operandChain_end hrun (hrest.operatorAt _)) (hrest.operatorAt _)
  exact comparison_ok.2 (.inl ⟨hadditive, hrest.operatorAt _⟩)

theorem map_shift_comm (n k : Nat) (ls : List Lexeme) :
    (ls.map (Lexeme.shift n)).map (Lexeme.shift k) =
      (ls.map (Lexeme.shift k)).map (Lexeme.shift n) := by
  simp only [List.map_map, List.map_inj_left, Function.comp_apply, Lexeme.shift, Span.shift,
    Nat.add_right_comm, implies_true]

theorem tiled_printed {text : String} {ls : List Lexeme} (h : Tiled none 0 text.toList ls) :
    Tiled none 0 ("chop " ++ text ++ ";").toList
      (⟨.keyword .print, ⟨0, 4⟩⟩ :: (ls.map (Lexeme.shift 5) ++
        [⟨.semicolon, ⟨("chop " ++ text ++ ";").utf8ByteSize - 1,
          ("chop " ++ text ++ ";").utf8ByteSize⟩⟩])) := by
  have hchars : ("chop " ++ text ++ ";").toList =
      ['c', 'h', 'o', 'p'] ++ ' ' :: (text.toList ++ [';']) := by simp
  have hsize : ("chop " ++ text ++ ";").utf8ByteSize = 5 + utf8Len text.toList + 1 := by
    rw [String.utf8ByteSize_append, String.utf8ByteSize_append, utf8ByteSize_eq text]
    rfl
  have htext : Tiled ([';'].head?.or none) 5 text.toList (ls.map (Lexeme.shift 5)) :=
    Nat.zero_add 5 ▸ (h.ending closes_semicolon).shift 5
  have hsemicolon : Tiled none (5 + utf8Len text.toList) [';']
      [⟨.semicolon, ⟨5 + utf8Len text.toList, 5 + utf8Len text.toList + 1⟩⟩] :=
    .single _ ⟨trivial, rfl⟩ trivial
  have hspace : (Token.keyword .print).EndsBefore (some ' ') := by
    rintro _ ⟨⟩
    decide +kernel
  rw [hchars, hsize]
  exact .word ⟨trivial, rfl⟩ hspace (.space rfl (htext.append hsemicolon))

theorem parse_printed {ls : List Lexeme} {e : Expr} {last stop : Span}
    (hvalue : Parser.expression nestingLimit (ls ++ [⟨.semicolon, last⟩, ⟨.endOfFile, stop⟩]) =
      .ok e [⟨.semicolon, last⟩, ⟨.endOfFile, stop⟩]) :
    parse (⟨.keyword .print, ⟨0, 4⟩⟩ :: (ls ++ [⟨.semicolon, last⟩]) ++ [⟨.endOfFile, stop⟩]) =
      .ok ⟨[.print e ⟨0, last.stop⟩], ⟨0, stop.stop⟩⟩ := by
  have hstatement : Parser.statement nestingLimit (⟨.keyword .print, ⟨0, 4⟩⟩ ::
      (ls ++ [⟨.semicolon, last⟩, ⟨.endOfFile, stop⟩])) =
        .ok (.print e ⟨0, last.stop⟩) [⟨.endOfFile, stop⟩] :=
    Parser.statementOf_ok.2 (.print (Parser.printing_ok.2 ⟨⟨0, 4⟩, last, _, e, rfl, hvalue, rfl⟩))
  rw [List.cons_append, List.append_assoc]
  exact parse_of_statement hstatement

section Source

variable {source : String} {lexemes : List Lexeme} (htokens : tokenize source = .ok lexemes)

include htokens

theorem location_of_parse {P : Program} (hparse : parse lexemes = .ok P) :
    P.location = ⟨0, source.utf8ByteSize⟩ := by
  obtain ⟨words, htiled, rfl⟩ := tiled_of_tokenize htokens
  obtain ⟨ss, -, rfl⟩ := statements_of_parse (free_of_tiled htiled) hparse
  rfl

theorem tiled_of_around {used back : List Lexeme} {span : Span} (hsuffix : used ++ back <:+ lexemes)
    (haround : span.Around used) :
    ∃ used', Tiled none 0 (span.slice source).toList used' ∧
      used'.map (Lexeme.shift span.start) = used := by
  obtain ⟨words, htiled, rfl⟩ := tiled_of_tokenize htokens
  obtain ⟨front, more, rfl⟩ := exists_split hsuffix haround rfl
  exact tiled_slice htiled haround

theorem tiled_of_readBy {α : Type} {p : Parser α} {a : α} {span : Span}
    (hread : ReadBy lexemes p a span) :
    ∃ used used' back, Tiled none 0 (span.slice source).toList used' ∧
      used'.map (Lexeme.shift span.start) = used ∧ p (used ++ back) = .ok a back := by
  obtain ⟨used, back, hsuffix, hrun, haround⟩ := hread
  obtain ⟨used', hslice, hused'⟩ := tiled_of_around htokens hsuffix haround
  exact ⟨used, used', back, hslice, hused', hrun⟩

theorem parse_excerpt_statement {s : Stmt} (hreads : (Node.statement s).Reads lexemes) :
    ∃ excerpt s', tokenize (s.location.slice source) = .ok excerpt ∧
      parse excerpt = .ok ⟨[s'], ⟨0, (s.location.slice source).utf8ByteSize⟩⟩ ∧
        s'.shift s.location.start = s := by
  obtain ⟨levels, hlevels, hread⟩ := hreads
  obtain ⟨used, used', back, htiled, hused', hrun⟩ := tiled_of_readBy htokens hread
  let size := (s.location.slice source).utf8ByteSize
  let M : Relocation :=
    ⟨0, s.location.start, back, [⟨.endOfFile, ⟨size, size⟩⟩], .endOfFile _⟩
  have hbeside : M.Beside (used ++ back) (used' ++ [⟨.endOfFile, ⟨size, size⟩⟩]) :=
    .of_map ((List.map_id used).trans hused'.symm)
  obtain ⟨s', rest, hrest, hrun', hsame⟩ :=
    Parser.statement_moves hlevels hbeside hrun (Nat.le_refl _)
  obtain rfl := hrest.eq_ending (Nat.le_refl _)
  refine ⟨_, s', tokenize_of_tiled htiled, parse_of_statement hrun', ?_⟩
  exact hsame.symm.trans s.shift_zero

theorem parse_excerpt_operand {e : Expr} (hreads : (Node.expression e).Reads lexemes)
    (hoperand : e.operator? = none) :
    ∃ excerpt e', tokenize ("chop " ++ e.location.slice source ++ ";") = .ok excerpt ∧
      parse excerpt = .ok ⟨[.print e' ⟨0, ("chop " ++ e.location.slice source ++ ";").utf8ByteSize⟩],
        ⟨0, ("chop " ++ e.location.slice source ++ ";").utf8ByteSize⟩⟩ ∧
        e'.shift e.location.start = e.shift 5 := by
  obtain ⟨levels, hlevels, hread⟩ := hreads hoperand
  obtain ⟨used, used', back, htiled, rfl, hrun⟩ := tiled_of_readBy htokens hread
  have hprinted := tiled_printed htiled
  generalize e.location.slice source = text at hprinted
  let stop : Span := ⟨("chop " ++ text ++ ";").utf8ByteSize, ("chop " ++ text ++ ";").utf8ByteSize⟩
  let last : Span := ⟨stop.start - 1, stop.stop⟩
  let M : Relocation := ⟨5, e.location.start, back, [⟨.semicolon, last⟩, ⟨.endOfFile, stop⟩],
    .semicolon _ _⟩
  have hbeside : M.Beside (used'.map (Lexeme.shift e.location.start) ++ back)
      (used'.map (Lexeme.shift 5) ++ [⟨.semicolon, last⟩, ⟨.endOfFile, stop⟩]) :=
    .of_map (map_shift_comm _ _ _)
  obtain ⟨e', rest, hrest, hrun', hsame⟩ := Parser.primary_moves (Parser.expression_sound levels)
    (Parser.expression_moves (Nat.le_pred_of_lt hlevels)) hbeside hrun (Nat.le_refl _)
  obtain rfl := hrest.eq_ending (Nat.le_refl _)
  exact ⟨_, e', tokenize_of_tiled hprinted,
    parse_printed (Parser.comparison_operand hrun' (.semicolon _ _)), hsame.symm⟩

end Source

/-- The nodes of a program are in their places. The program takes the whole source. Every other node
starts where a token starts and stops where one stops, not before it. Children lie in the place of
their parent, in order and apart from each other. The text at the place of a statement parses to this
one statement, counted from the start of the text. The text at the place of an expression that is no
operation, printed, parses to the expression, which then comes five bytes after the start. -/
theorem nodes_faithful {source : String} {lexemes : List Lexeme} {P : Program}
    (htokens : tokenize source = .ok lexemes) (hparse : parse lexemes = .ok P) :
    P.location = ⟨0, source.utf8ByteSize⟩ ∧
    ∀ node, (Node.program P).Within node →
      (node ≠ .program P → node.span.On lexemes) ∧ node.span.start ≤ node.span.stop ∧
      (∀ child ∈ node.children, node.span.Contains child.span) ∧
      node.children.Pairwise (fun child next => child.span.stop ≤ next.span.start) ∧
      (∀ s, node = .statement s →
        ∃ excerpt s', tokenize (s.location.slice source) = .ok excerpt ∧
          parse excerpt = .ok ⟨[s'], ⟨0, (s.location.slice source).utf8ByteSize⟩⟩ ∧
            s'.shift s.location.start = s) ∧
      ∀ e, node = .expression e → e.operator? = none →
        ∃ excerpt e', tokenize ("chop " ++ e.location.slice source ++ ";") = .ok excerpt ∧
          parse excerpt =
            .ok ⟨[.print e' ⟨0, ("chop " ++ e.location.slice source ++ ";").utf8ByteSize⟩],
              ⟨0, ("chop " ++ e.location.slice source ++ ";").utf8ByteSize⟩⟩ ∧
            e'.shift e.location.start = e.shift 5 := by
  have hordered := ordered_of_tokenize htokens
  have hplaced := placed_of_parse hordered hparse
  have hlocation := location_of_parse htokens hparse
  refine ⟨hlocation, fun node hnode => ?_⟩
  cases hnode with
  | self =>
    have hspan : (Node.program P).span = ⟨0, source.utf8ByteSize⟩ := hlocation
    rw [hspan]
    refine ⟨fun hne => absurd rfl hne, Nat.zero_le _, fun child hchild => ⟨Nat.zero_le _, ?_⟩,
      hplaced.apart hordered.apart, nofun, nofun⟩
    obtain ⟨l, hl, -, hstop⟩ := (hplaced.forall_mem child hchild).1.stop
    exact hstop ▸ (inside_of_tokenize htokens l hl).stop_le
  | child mem within =>
    obtain ⟨on, forward, contains, apart, reads⟩ := (hplaced.forall_mem _ mem).2 node within
    refine ⟨fun _ => on, forward, contains, apart, ?_, ?_⟩
    · rintro s rfl
      exact parse_excerpt_statement htokens reads
    · rintro e rfl hoperand
      exact parse_excerpt_operand htokens reads hoperand

theorem nodes_faithful_nested :
    ∃ excerpt s', tokenize "chop (1);" = .ok excerpt ∧
      parse excerpt = .ok ⟨[s'], ⟨0, 9⟩⟩ ∧
        s'.shift 11 = .print (.integer .one ⟨17, 18⟩) ⟨11, 20⟩ := by
  let inner : Stmt := .print (.integer .one ⟨17, 18⟩) ⟨11, 20⟩
  let outer : Stmt := .branch (.integer .one ⟨6, 7⟩) ⟨[inner], ⟨9, 22⟩⟩ none ⟨0, 22⟩
  have htokens : tokenize "agar (1) \x7b chop (1); \x7d" = .ok
      [⟨.keyword .branch, ⟨0, 4⟩⟩, ⟨.opening .round, ⟨5, 6⟩⟩, ⟨.integer .one, ⟨6, 7⟩⟩,
        ⟨.closing .round, ⟨7, 8⟩⟩, ⟨.opening .curly, ⟨9, 10⟩⟩, ⟨.keyword .print, ⟨11, 15⟩⟩,
        ⟨.opening .round, ⟨16, 17⟩⟩, ⟨.integer .one, ⟨17, 18⟩⟩, ⟨.closing .round, ⟨18, 19⟩⟩,
        ⟨.semicolon, ⟨19, 20⟩⟩, ⟨.closing .curly, ⟨21, 22⟩⟩, ⟨.endOfFile, ⟨22, 22⟩⟩] := by
    decide +kernel
  obtain ⟨-, hnodes⟩ := nodes_faithful (P := ⟨[outer], ⟨0, 22⟩⟩) htokens rfl
  have hwithin : (Node.program ⟨[outer], ⟨0, 22⟩⟩).Within (.statement inner) :=
    .child (.head _) (.child (.tail _ (.head _)) (.child (.head _) (.self _)))
  have hslice : inner.location.slice "agar (1) \x7b chop (1); \x7d" = "chop (1);" := by
    decide +kernel
  have hexcerpt := (hnodes _ hwithin).2.2.2.2.1 inner rfl
  rw [hslice] at hexcerpt
  exact hexcerpt

end UzScript
