import UzScript.Token.Lexer

/-! # Reading tokens that were written out

A token can be written out when its text is read as that token. A written text is a sequence of
texts of tokens with space between them, where no token is continued by what comes next. Reading a
written text gives back its tokens. -/

set_option autoImplicit false

namespace UzScript

/-- A name starts like a name, goes on like one, and is no keyword. -/
structure IsName (name : String) : Prop where
  chars : ∃ c cs, name.toList = c :: cs ∧ isNameStart c = true ∧ ∀ d ∈ cs, isNamePart d = true
  noKeyword : Keyword.ofWord? name = none

/-- The text of the token is read as a token of its kind. -/
def Token.Writable : Token → Prop
  | .ident name => IsName name
  | .integer value => 0 ≤ value.val
  | .text value => '"' ∉ value.toList
  | .endOfFile => False
  | _ => True

/-- The token does not go on with the character that comes next. -/
def Token.EndsBefore (token : Token) (next : Option Char) : Prop :=
  match token with
  | .ident _ | .keyword _ => ∀ c ∈ next, isNamePart c = false
  | .integer _ => ∀ c ∈ next, c.isDigit = false
  | .assign | .operator .less | .operator .greater => next ≠ some '='
  | _ => True

def Closes (next : Option Char) : Prop := ∀ c ∈ next, isNamePart c = false ∧ c ≠ '='

/-- Texts of tokens with space between them. -/
inductive Written : List Char → List Token → Prop
  | done : Written [] []
  | space {c : Char} {cs : List Char} {ts : List Token} (blank : isSpace c = true)
      (more : Written cs ts) : Written (c :: cs) ts
  | token {t : Token} {cs : List Char} {ts : List Token} (writable : t.Writable)
      (ends : t.EndsBefore cs.head?) (more : Written cs ts) :
      Written (t.spelling.toList ++ cs) (t :: ts)

/-! ## Classes of characters -/

theorem isNamePart_of_isNameStart {c : Char} (h : isNameStart c = true) : isNamePart c = true := by
  simp only [isNameStart, isNamePart, Bool.or_eq_true] at h ⊢
  exact h.imp_left .inl

theorem toNat_of_isDigit {c : Char} (h : c.isDigit = true) : 48 ≤ c.toNat ∧ c.toNat ≤ 57 := by
  simp only [Char.isDigit, Bool.and_eq_true, decide_eq_true_eq, ge_iff_le, UInt32.le_iff_toNat_le] at h
  exact h

theorem isNameStart_of_isDigit {c : Char} (h : c.isDigit = true) : isNameStart c = false := by
  have hc := toNat_of_isDigit h
  have hunder : c ≠ '_' := by
    rintro rfl
    exact absurd hc (by decide)
  have hsmall : c.toNat < 128 := by omega
  have halpha : c.isAlpha = false := by
    change (decide (65 ≤ c.toNat ∧ c.toNat ≤ 90) ||
      (decide (97 ≤ c.toNat) && decide (c.toNat ≤ 122))) = false
    simp only [Bool.or_eq_false_iff, Bool.and_eq_false_iff, decide_eq_false_iff_not]
    omega
  simp [isNameStart, Text.isAlphabetic, hsmall, halpha, hunder]

theorem isNamePart_of_isDigit {c : Char} (h : c.isDigit = true) : isNamePart c = true := by
  have hc := toNat_of_isDigit h
  have hsmall : c.toNat < 128 := by omega
  simp [isNamePart, Text.isNumeric, hsmall, h]

theorem Token.endsBefore_of_closes (t : Token) {next : Option Char} (h : Closes next) :
    t.EndsBefore next := by
  have hequals : next ≠ some '=' := fun heq => (h '=' heq).2 rfl
  cases t with
  | ident | keyword => exact fun c hc => (h c hc).1
  | integer =>
    intro c hc
    cases hdigit : c.isDigit with
    | false => rfl
    | true => rw [← (h c hc).1, isNamePart_of_isDigit hdigit]
  | operator op => cases op <;> first | exact hequals | trivial
  | assign => exact hequals
  | text | opening | closing | comma | semicolon | endOfFile => trivial

theorem symbol?_eq_none {c : Char} (h : isNamePart c = true) (next : Option Char) :
    Word.symbol? c next = none := by
  revert h
  unfold Word.symbol?
  split <;> dsimp only <;> split <;> intro h <;> first | rfl | exact absurd h (by decide)

theorem ne_quote_of_isNamePart {c : Char} (h : isNamePart c = true) : c ≠ '"' := by
  rintro rfl
  exact absurd h (by decide)

theorem isSpace_of_isNamePart {c : Char} (h : isNamePart c = true) : isSpace c = false := by
  cases hspace : isSpace c with
  | false => rfl
  | true =>
    simp only [isSpace, Bool.or_eq_true, decide_eq_true_eq] at hspace
    rcases hspace with (((rfl | rfl) | rfl) | rfl) | rfl <;> exact absurd h (by decide)

/-! ## Single words -/

theorem takeWhile_placed {q : Char → Bool} {front back : List PlacedChar}
    (hfront : ∀ p ∈ front, q p.char = true) (hback : ∀ c ∈ (back.map PlacedChar.char).head?, q c = false) :
    (front ++ back).takeWhile (fun p => q p.char) = front := by
  rw [List.takeWhile_append_of_pos hfront]
  cases back with
  | nil => simp
  | cons p back =>
    have hp : q p.char = false := hback p.char (by simp)
    simp [hp]

namespace Word

theorem read_name {p : PlacedChar} {ps qs : List PlacedChar} (hp : isNameStart p.char = true)
    (hps : ∀ x ∈ ps, isNamePart x.char = true)
    (hend : ∀ c ∈ (qs.map PlacedChar.char).head?, isNamePart c = false) :
    read p (ps ++ qs) = name (p :: ps) := by
  have hpart := isNamePart_of_isNameStart hp
  have hdigit : p.char.isDigit = false := by
    cases hd : p.char.isDigit with
    | false => rfl
    | true => rw [isNameStart_of_isDigit hd] at hp; cases hp
  rw [read, if_neg (ne_quote_of_isNamePart hpart), symbol?_eq_none hpart]
  simp only [hdigit, Bool.false_eq_true, if_false, hp, if_true, takeWhile_placed hps hend]

theorem read_digits {p : PlacedChar} {ps qs : List PlacedChar} (hp : p.char.isDigit = true)
    (hps : ∀ x ∈ ps, x.char.isDigit = true)
    (hend : ∀ c ∈ (qs.map PlacedChar.char).head?, c.isDigit = false) :
    read p (ps ++ qs) = digits (p :: ps) := by
  have hpart := isNamePart_of_isDigit hp
  rw [read, if_neg (ne_quote_of_isNamePart hpart), symbol?_eq_none hpart]
  simp only [hp, if_true, takeWhile_placed hps hend]

theorem read_quoted {p q : PlacedChar} {ps qs : List PlacedChar} (hp : p.char = '"')
    (hps : ∀ x ∈ ps, (x.char != '"') = true) (hq : q.char = '"') :
    read p (ps ++ q :: qs) = .token (.text (PlacedChar.text ps)) (ps.length + 2) := by
  have hend : ∀ c ∈ ((q :: qs).map PlacedChar.char).head?, (c != '"') = false := by simp [hq]
  have hdrop : (ps ++ q :: qs).dropWhile (fun x => x.char != '"') = q :: qs := by
    rw [List.dropWhile_append_of_pos hps]
    simp [hq]
  rw [read, if_pos hp, quoted, takeWhile_placed (q := (· != '"')) hps hend, hdrop]

theorem read_symbol {p : PlacedChar} {ps : List PlacedChar} {word : Word}
    (h : symbol? p.char (ps.head?.map PlacedChar.char) = some word) : read p ps = word := by
  have hquote : p.char ≠ '"' := by
    intro hp
    rw [hp] at h
    cases h
  rw [read, if_neg hquote, h]

theorem read_spelled_name {text : String} {c : Char} {cs : List Char} (htext : text.toList = c :: cs)
    (hc : isNameStart c = true) (hcs : ∀ d ∈ cs, isNamePart d = true) {p : PlacedChar}
    {ps : List PlacedChar} {after : List Char}
    (hchars : (p :: ps).map PlacedChar.char = text.toList ++ after)
    (hend : ∀ d ∈ after.head?, isNamePart d = false) :
    ∃ run, read p ps = name run ∧ PlacedChar.text run = text ∧ run.length = text.toList.length := by
  rw [htext, List.map_cons, List.cons_append, List.cons.injEq] at hchars
  obtain ⟨rfl, hps⟩ := hchars
  obtain ⟨front, back, rfl, rfl, rfl⟩ := List.map_eq_append_iff.1 hps
  refine ⟨p :: front, read_name hc (fun x hx => hcs _ (List.mem_map_of_mem hx)) hend, ?_, ?_⟩
  · rw [PlacedChar.text, List.map_cons, ← htext, String.ofList_toList]
  · simp [htext]

theorem keyword_chars (word : Keyword) : ∃ c cs, word.spelling.toList = c :: cs ∧
    isNameStart c = true ∧ ∀ d ∈ cs, isNamePart d = true := by
  cases word <;> exact ⟨_, _, rfl, by decide, List.all_eq_true.1 (by decide)⟩

theorem spelling_integer {value : Integer} (h : 0 ≤ value.val) :
    (Token.integer value).spelling.toList = Nat.toDigits 10 value.val.toNat := by
  change (toString value.val).toList = _
  rw [Int.toString_eq_repr, Int.repr_eq_if, if_pos h, Nat.toList_repr]

theorem read_spelled_integer {value : Integer} (h : 0 ≤ value.val) {p : PlacedChar}
    {ps : List PlacedChar} {after : List Char}
    (hchars : (p :: ps).map PlacedChar.char = (Token.integer value).spelling.toList ++ after)
    (hend : ∀ d ∈ after.head?, d.isDigit = false) :
    read p ps = .token (.integer value) (Token.integer value).spelling.toList.length := by
  rw [spelling_integer h] at hchars ⊢
  have hdigits : ∀ d ∈ Nat.toDigits 10 value.val.toNat, d.isDigit = true :=
    fun d hd => Nat.isDigit_of_mem_toDigits (by decide) (by decide) hd
  obtain ⟨front, back, hsplit, hfront, rfl⟩ := List.map_eq_append_iff.1 hchars
  cases front with
  | nil => exact absurd hfront.symm Nat.toDigits_ne_nil
  | cons q front =>
    rw [List.cons_append, List.cons.injEq] at hsplit
    obtain ⟨rfl, rfl⟩ := hsplit
    rw [← hfront] at hdigits ⊢
    rw [read_digits (hdigits _ (by simp)) (fun x hx => hdigits _ (by simp [List.mem_map_of_mem hx]))
      hend, digits, hfront, Nat.ofDigitChars_ten_toDigits, Int.toNat_of_nonneg h, Integer.ofInt?_val]
    simp [← hfront]

theorem read_spelled_text {value : String} (h : '"' ∉ value.toList) {p : PlacedChar}
    {ps : List PlacedChar} {after : List Char}
    (hchars : (p :: ps).map PlacedChar.char = (Token.text value).spelling.toList ++ after) :
    read p ps = .token (.text value) (Token.text value).spelling.toList.length := by
  have hspelling : (Token.text value).spelling.toList = '"' :: value.toList ++ ['"'] := by
    simp [Token.spelling]
  rw [hspelling] at hchars ⊢
  simp only [List.cons_append, List.append_assoc, List.map_cons, List.cons.injEq,
    List.nil_append] at hchars
  obtain ⟨hp, hps⟩ := hchars
  obtain ⟨front, back, rfl, hfront, hback⟩ := List.map_eq_append_iff.1 hps
  obtain ⟨q, back, rfl, hq, -⟩ := List.map_eq_cons_iff.1 hback
  have hquotes : ∀ x ∈ front, (x.char != '"') = true := by
    intro x hx
    rw [bne_iff_ne]
    rintro heq
    exact h (hfront ▸ heq ▸ List.mem_map_of_mem hx)
  rw [read_quoted hp hquotes hq, PlacedChar.text, hfront, String.ofList_toList]
  simp [← hfront]

/-- Operators, brackets and separators are told by their first two characters. -/
def isSymbol : Token → Bool
  | .operator _ | .opening _ | .closing _ | .assign | .comma | .semicolon => true
  | _ => false

theorem symbol?_spelling {t : Token} (hsymbol : isSymbol t = true) {after : List Char}
    (hends : t.EndsBefore after.head?) : ∃ c cs, t.spelling.toList = c :: cs ∧
      symbol? c (cs ++ after).head? = some (.token t (cs.length + 1)) := by
  cases t with
  | ident | integer | text | keyword | endOfFile => cases hsymbol
  | operator op =>
    cases op with
    | less => exact ⟨'<', [], rfl, by simp [symbol?, show after.head? ≠ some '=' from hends]⟩
    | greater => exact ⟨'>', [], rfl, by simp [symbol?, show after.head? ≠ some '=' from hends]⟩
    | _ => exact ⟨_, _, rfl, rfl⟩
  | opening bracket => cases bracket <;> exact ⟨_, _, rfl, rfl⟩
  | closing bracket => cases bracket <;> exact ⟨_, _, rfl, rfl⟩
  | assign => exact ⟨'=', [], rfl, by simp [symbol?, show after.head? ≠ some '=' from hends]⟩
  | comma | semicolon => exact ⟨_, _, rfl, rfl⟩

theorem read_written {t : Token} (hw : t.Writable) {p : PlacedChar} {ps : List PlacedChar}
    {after : List Char} (hchars : (p :: ps).map PlacedChar.char = t.spelling.toList ++ after)
    (hends : t.EndsBefore after.head?) : read p ps = .token t t.spelling.toList.length := by
  cases t with
  | ident text =>
    obtain ⟨c, cs, htext, hc, hcs⟩ := hw.chars
    obtain ⟨run, hread, hrun, hlength⟩ := read_spelled_name htext hc hcs hchars hends
    rw [hread, name, hrun, hw.noKeyword]
    exact congrArg _ hlength
  | keyword word =>
    obtain ⟨c, cs, htext, hc, hcs⟩ := keyword_chars word
    obtain ⟨run, hread, hrun, hlength⟩ := read_spelled_name htext hc hcs hchars hends
    rw [hread, name, hrun, Keyword.ofWord?_eq_some_iff.2 rfl]
    exact congrArg _ hlength
  | integer value => exact read_spelled_integer hw hchars hends
  | text value => exact read_spelled_text hw hchars
  | endOfFile => exact hw.elim
  | _ =>
    obtain ⟨c, cs, hspelling, hsymbol⟩ := symbol?_spelling rfl hends
    rw [hspelling] at hchars ⊢
    rw [List.map_cons, List.cons_append, List.cons.injEq] at hchars
    obtain ⟨rfl, hps⟩ := hchars
    apply read_symbol
    rw [← List.head?_map, hps, hsymbol, List.length_cons]

theorem isSpace_spelling {t : Token} (hw : t.Writable) :
    ∃ c cs, t.spelling.toList = c :: cs ∧ isSpace c = false := by
  cases t with
  | ident text =>
    obtain ⟨c, cs, htext, hc, -⟩ := hw.chars
    exact ⟨c, cs, htext, isSpace_of_isNamePart (isNamePart_of_isNameStart hc)⟩
  | keyword word => cases word <;> exact ⟨_, _, rfl, by decide⟩
  | integer value =>
    rw [spelling_integer hw]
    cases hdigits : Nat.toDigits 10 value.val.toNat with
    | nil => exact absurd hdigits Nat.toDigits_ne_nil
    | cons c cs =>
      have hc : c.isDigit = true :=
        Nat.isDigit_of_mem_toDigits (by decide) (by decide) (hdigits ▸ List.mem_cons_self)
      exact ⟨c, cs, rfl, isSpace_of_isNamePart (isNamePart_of_isDigit hc)⟩
  | text value => exact ⟨'"', value.toList ++ ['"'], by simp [Token.spelling], by decide⟩
  | endOfFile => exact hw.elim
  | operator op => cases op <;> exact ⟨_, _, rfl, by decide⟩
  | opening bracket | closing bracket => cases bracket <;> exact ⟨_, _, rfl, by decide⟩
  | assign | comma | semicolon => exact ⟨_, _, rfl, by decide⟩

/-! ## Only tokens that can be written are read -/

theorem isSymbol_of_symbol? {c : Char} {next : Option Char} {t : Token} {n : Nat}
    (h : symbol? c next = some (.token t n)) : isSymbol t = true := by
  unfold symbol? at h
  split at h <;> grind [isSymbol]

theorem writable_of_isSymbol {t : Token} (h : isSymbol t = true) : t.Writable := by
  cases t with
  | ident | integer | text | keyword | endOfFile => cases h
  | _ => trivial

theorem writable_of_quoted {rest : List PlacedChar} {t : Token} {n : Nat}
    (h : quoted rest = .token t n) : t.Writable := by
  unfold quoted at h
  dsimp only at h
  split at h
  · cases h
  · obtain ⟨rfl, -⟩ := Word.token.inj h
    intro hquote
    rw [PlacedChar.text, String.toList_ofList] at hquote
    obtain ⟨x, hx, hchar⟩ := List.mem_map.1 hquote
    have hne : (x.char != '"') = true := List.all_eq_true.1 List.all_takeWhile x hx
    exact bne_iff_ne.1 hne hchar

theorem writable_of_digits {run : List PlacedChar} {t : Token} {n : Nat}
    (h : digits run = .token t n) : t.Writable := by
  unfold digits at h
  split at h
  · next value hvalue =>
    obtain ⟨rfl, -⟩ := Word.token.inj h
    change 0 ≤ value.val
    rw [Integer.ofInt?_eq_some_iff.1 hvalue]
    exact Int.natCast_nonneg _
  · cases h

theorem writable_of_name {p : PlacedChar} {ps : List PlacedChar} (hp : isNameStart p.char = true)
    (hps : ∀ x ∈ ps, isNamePart x.char = true) {t : Token} {n : Nat}
    (h : name (p :: ps) = .token t n) : t.Writable := by
  unfold name at h
  split at h
  · obtain ⟨rfl, -⟩ := Word.token.inj h
    trivial
  · next hkeyword =>
    obtain ⟨rfl, -⟩ := Word.token.inj h
    refine ⟨⟨p.char, ps.map PlacedChar.char, String.toList_ofList, hp, ?_⟩, hkeyword⟩
    rintro d hd
    obtain ⟨x, hx, rfl⟩ := List.mem_map.1 hd
    exact hps x hx

theorem writable_of_read {p : PlacedChar} {ps : List PlacedChar} {t : Token} {n : Nat}
    (h : read p ps = .token t n) : t.Writable := by
  unfold read at h
  split at h
  · exact writable_of_quoted h
  · split at h
    · next hsymbol => exact writable_of_isSymbol (isSymbol_of_symbol? (h ▸ hsymbol))
    · split at h
      · exact writable_of_digits h
      · split at h
        · next hstart => exact writable_of_name hstart (List.all_eq_true.1 List.all_takeWhile) h
        · cases h

end Word

namespace Cursor

/-! ## Reading all tokens -/

theorem readAll_token {cursor after : Cursor} {lexeme : Lexeme}
    (h : cursor.next = (.ok lexeme, after)) (hend : lexeme.token ≠ .endOfFile) :
    cursor.readAll = (lexeme :: after.readAll.1, after.readAll.2) := by
  rw [readAll]
  split
  · next hn => cases h.symm.trans hn
  · next hn =>
    cases h.symm.trans hn
    rw [dif_neg hend]

theorem readAll_end {cursor after : Cursor} {lexeme : Lexeme}
    (h : cursor.next = (.ok lexeme, after)) (hend : lexeme.token = .endOfFile) :
    cursor.readAll = ([lexeme], none) := by
  rw [readAll]
  split
  · next hn => cases h.symm.trans hn
  · next hn =>
    cases h.symm.trans hn
    rw [dif_pos hend]

theorem readAll_fault {cursor after : Cursor} {fault : LexFault}
    (h : cursor.next = (.error fault, after)) : cursor.readAll = ([], some fault) := by
  rw [readAll]
  split
  · next hn =>
    cases h.symm.trans hn
    rfl
  · next hn => cases h.symm.trans hn

theorem readAll_congr {cursor other : Cursor} (h : cursor.next = other.next) :
    cursor.readAll = other.readAll := by
  obtain ⟨⟨result, after⟩, hnext⟩ : ∃ read, other.next = read := ⟨_, rfl⟩
  cases result with
  | error fault => rw [readAll_fault hnext, readAll_fault (h.trans hnext)]
  | ok lexeme =>
    by_cases hend : lexeme.token = .endOfFile
    · rw [readAll_end hnext hend, readAll_end (h.trans hnext) hend]
    · rw [readAll_token hnext hend, readAll_token (h.trans hnext) hend]

theorem next_space {cursor : Cursor} {p : PlacedChar} {ps : List PlacedChar}
    (hrest : cursor.rest = p :: ps) (hspace : isSpace p.char = true) :
    cursor.next = cursor.step.next := by
  have hskip : cursor.skipSpace = cursor.step.skipSpace := by
    have hrun : cursor.rest.takeWhile (isSpace ·.char) = p :: ps.takeWhile (isSpace ·.char) := by
      rw [hrest, List.takeWhile_cons, if_pos hspace]
    rw [skipSpace, hrun, List.length_cons, advance, skipSpace, rest_step, hrest, List.drop_one,
      List.tail_cons]
  rw [next, hskip, next]

theorem next_token {cursor : Cursor} {p : PlacedChar} {ps : List PlacedChar} {t : Token} {n : Nat}
    (hrest : cursor.rest = p :: ps) (hspace : isSpace p.char = false)
    (hword : Word.read p ps = .token t n) :
    cursor.next =
      (.ok ⟨t, ⟨cursor.offset, (cursor.advance n).offset⟩⟩, cursor.advance n) := by
  have hskip : cursor.skipSpace = cursor := by
    rw [skipSpace, hrest, List.takeWhile_cons, hspace]
    rfl
  rw [next, hskip, readWord, hrest]
  dsimp only
  rw [hword]

theorem readAll_written {cs : List Char} {ts : List Token} (hwritten : Written cs ts) :
    ∀ cursor : Cursor, cursor.rest.map PlacedChar.char = cs →
      ∃ lexemes stop, cursor.readAll = (lexemes ++ [⟨.endOfFile, stop⟩], none) ∧
        lexemes.map Lexeme.token = ts := by
  induction hwritten with
  | done =>
    intro cursor hchars
    have hrest : cursor.rest = [] := List.map_eq_nil_iff.1 hchars
    have hnext : cursor.next = (.ok ⟨.endOfFile, ⟨cursor.stop, cursor.stop⟩⟩, cursor) := by
      simp [next, skipSpace, hrest, advance, readWord]
    exact ⟨[], _, readAll_end hnext rfl, rfl⟩
  | space blank _ ih =>
    intro cursor hchars
    obtain ⟨p, ps, hrest, rfl, hps⟩ := List.map_eq_cons_iff.1 hchars
    obtain ⟨lexemes, stop, hread, htokens⟩ := ih cursor.step (by simp [hrest, hps])
    exact ⟨lexemes, stop, (readAll_congr (next_space hrest blank)).trans hread, htokens⟩
  | @token t cs ts writable ends _ ih =>
    intro cursor hchars
    obtain ⟨c, spelling, hspelling, hspace⟩ := Word.isSpace_spelling writable
    obtain ⟨p, ps, hrest, rfl, -⟩ := List.map_eq_cons_iff.1
      (hchars.trans (by rw [hspelling, List.cons_append]))
    rw [hrest] at hchars
    have hword := Word.read_written writable hchars ends
    have hnext := next_token hrest hspace hword
    obtain ⟨lexemes, stop, hread, htokens⟩ := ih (cursor.advance t.spelling.toList.length)
      (by rw [rest_advance, hrest, List.map_drop, hchars, List.drop_left])
    have hend : t ≠ .endOfFile := by
      rintro rfl
      exact writable
    have hall := readAll_token hnext hend
    rw [hread] at hall
    exact ⟨_ :: lexemes, stop, hall, congrArg (t :: ·) htokens⟩

end Cursor

theorem placed_chars (offset : Nat) (cs : List Char) :
    (placed offset cs).map PlacedChar.char = cs := by
  induction cs generalizing offset with
  | nil => rfl
  | cons c cs ih => rw [placed, List.map_cons, ih]

theorem tokenize_written {source : String} {ts : List Token}
    (hwritten : Written source.toList ts) :
    ∃ lexemes stop, tokenize source = .ok (lexemes ++ [⟨.endOfFile, stop⟩]) ∧
      lexemes.map Lexeme.token = ts := by
  obtain ⟨lexemes, stop, hread, htokens⟩ :=
    Cursor.readAll_written hwritten (Cursor.ofText source) (placed_chars 0 _)
  refine ⟨lexemes, stop, ?_, htokens⟩
  rw [tokenize, hread]

namespace Cursor

theorem writable_of_next {cursor after : Cursor} {lexeme : Lexeme}
    (h : cursor.next = (.ok lexeme, after)) (hend : lexeme.token ≠ .endOfFile) :
    lexeme.token.Writable := by
  unfold next readWord at h
  split at h
  · cases h
    exact absurd rfl hend
  · split at h
    · next hword =>
      cases h
      exact Word.writable_of_read hword
    · cases h
    · cases h

theorem writable_of_readAll (cursor : Cursor) (h : cursor.readAll.2 = none) :
    ∃ front stop, cursor.readAll.1 = front ++ [⟨.endOfFile, stop⟩] ∧
      ∀ l ∈ front, l.token.Writable := by
  fun_induction readAll cursor with
  | case1 => cases h
  | case2 cursor lexeme after hnext hend => exact ⟨[], lexeme.span, by rw [← hend]; rfl, by simp⟩
  | case3 cursor lexeme after hnext hend more fault hmore ih =>
    rw [hmore] at ih
    obtain ⟨front, stop, hfront, hwritable⟩ := ih h
    refine ⟨lexeme :: front, stop, by rw [List.cons_append, ← hfront], ?_⟩
    exact List.forall_mem_cons.2 ⟨writable_of_next hnext hend, hwritable⟩

end Cursor

theorem writable_of_tokenize {source : String} {lexemes : List Lexeme}
    (h : tokenize source = .ok lexemes) :
    ∃ front stop, lexemes = front ++ [⟨.endOfFile, stop⟩] ∧ ∀ l ∈ front, l.token.Writable := by
  unfold tokenize at h
  split at h
  · next hread =>
    cases h
    have hall := Cursor.writable_of_readAll (Cursor.ofText source)
    rw [hread] at hall
    exact hall rfl
  · cases h

end UzScript
