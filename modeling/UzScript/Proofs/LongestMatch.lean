import Mathlib.Data.List.TakeWhile
import Mathlib.Data.Nat.Find
import UzScript.Proofs.Tiling

/-! # Reading by longest match

The lexical grammar says which texts are words. Reading skips the space in front, and then takes the
longest word that the rest of the source starts with, whatever was read before. Where no word is, or
the word is an integer out of range, the fault is the one that the grammar calls for. -/

set_option autoImplicit false

namespace UzScript

open String (utf8Len)

/-! ## The lexical grammar -/

def symbolTexts : List String :=
  ["+", "-", "*", "/", "(", ")", "\x7b", "\x7d", "[", "]", ",", ";", "=", "==", "!=", "<", "<=", ">",
    ">="]

/-- The texts of words. -/
inductive Lexical : List Char → Prop
  | symbol {text : String} (listed : text ∈ symbolTexts) : Lexical text.toList
  | digits {run : List Char} (nonempty : run ≠ []) (digits : ∀ c ∈ run, c.isDigit = true) :
      Lexical run
  | quoted {body : List Char} (closed : '"' ∉ body) : Lexical ('"' :: body ++ ['"'])
  | name {c : Char} {cs : List Char} (start : isNameStart c = true)
      (parts : ∀ d ∈ cs, isNamePart d = true) : Lexical (c :: cs)

/-- The word is the longest one that the text starts with. -/
structure Longest (word text : List Char) : Prop where
  isStart : word <+: text
  lexical : Lexical word
  longest : ∀ other, other <+: text → Lexical other → other.length ≤ word.length

/-- What the grammar says of a text that starts at a byte offset, right after space: the lexeme or
the fault, and where reading goes on. -/
inductive Munch (start : Nat) : List Char → Except LexFault Lexeme × Cursor → Prop
  | ended : Munch start [] (.ok ⟨.endOfFile, ⟨start, start⟩⟩, .standing start [])
  | token {t : Token} {word rest : List Char} (longest : Longest word (word ++ rest))
      (spelled : t.Spelled (String.ofList word)) :
      Munch start (word ++ rest) (.ok ⟨t, ⟨start, start + utf8Len word⟩⟩,
        .standing (start + utf8Len word) rest)
  | integerTooLarge {run rest : List Char} (longest : Longest run (run ++ rest))
      (digits : ∀ c ∈ run, c.isDigit = true)
      (large : Integer.greatest < (Nat.ofDigitChars 10 run 0 : Int)) :
      Munch start (run ++ rest) (.error ⟨.integerTooLarge, ⟨start, start + utf8Len run⟩⟩,
        .standing (start + utf8Len run) rest)
  | unclosedText {cs : List Char} (unclosed : '"' ∉ cs) :
      Munch start ('"' :: cs) (.error ⟨.unclosedText, ⟨start, start + utf8Len ('"' :: cs)⟩⟩,
        .standing (start + utf8Len ('"' :: cs)) [])
  | unknownCharacter {c : Char} {cs : List Char} (noQuote : c ≠ '"')
      (noWord : ∀ word, word <+: c :: cs → ¬ Lexical word) :
      Munch start (c :: cs) (.error ⟨.unknownCharacter c, ⟨start, start + c.utf8Size⟩⟩,
        .standing start (c :: cs))

theorem Lexical.ne_nil {word : List Char} (h : Lexical word) : word ≠ [] := by
  cases h with
  | symbol listed =>
    have hsymbols : ∀ text ∈ symbolTexts, text.toList ≠ [] := by decide
    exact hsymbols _ listed
  | digits nonempty _ => exact nonempty
  | quoted _ => exact List.cons_ne_nil _ _
  | name _ _ => exact List.cons_ne_nil _ _

/-! ## Words and tokens -/

namespace Token.Spelled

variable {t : Token} {word : List Char}

theorem endsBefore_none (t : Token) : t.EndsBefore none := by
  apply t.endsBefore_of_closes
  intro c hc
  cases hc

theorem unique {t' : Token} (h : t.Spelled (String.ofList word))
    (h' : t'.Spelled (String.ofList word)) : t = t' := by
  obtain ⟨c, cs, rfl, -⟩ := h.first
  have hchars : (placed 0 (c :: cs)).map PlacedChar.char = c :: cs ++ [] := by
    rw [placed_chars, List.append_nil]
  have hread := Word.read_spelled h hchars (endsBefore_none t)
  have hread' := Word.read_spelled h' hchars (endsBefore_none t')
  exact (Word.token.inj (hread.symm.trans hread')).1

theorem keyword_iff (h : t.Spelled (String.ofList word)) :
    (∃ k, t = .keyword k) ↔ String.ofList word ∈ Keyword.all.map Keyword.spelling := by
  constructor
  · rintro ⟨k, rfl⟩
    rw [h.2]
    exact List.mem_map_of_mem k.mem_all
  · intro hmem
    obtain ⟨k, -, hk⟩ := List.mem_map.1 hmem
    have hkeyword : (Token.keyword k).Spelled (String.ofList word) := ⟨trivial, hk.symm⟩
    exact ⟨k, h.unique hkeyword⟩

end Token.Spelled

theorem spelled_of_symbolTexts {text : String} (h : text ∈ symbolTexts) :
    ∃ t : Token, t.Spelled text := by
  have hsymbols : ∀ text ∈ symbolTexts, ∃ t ∈ [Token.operator .add, .operator .subtract,
      .operator .multiply, .operator .divide, .operator .equal, .operator .notEqual,
      .operator .less, .operator .lessOrEqual, .operator .greater, .operator .greaterOrEqual,
      .opening .round, .opening .curly, .opening .square, .closing .round, .closing .curly,
      .closing .square, .assign, .comma, .semicolon], Word.isSymbol t = true ∧ t.spelling = text := by
    decide
  obtain ⟨t, -, hsymbol, hspelling⟩ := hsymbols text h
  refine ⟨t, ?_⟩
  rw [← String.ofList_toList (s := text)]
  exact Word.spelled_of_isSymbol hsymbol (congrArg String.toList hspelling)

theorem Lexical.spelled {word : List Char} (h : Lexical word) :
    (∃ t : Token, t.Spelled (String.ofList word)) ∨
      (∀ c ∈ word, c.isDigit = true) ∧ Integer.greatest < (Nat.ofDigitChars 10 word 0 : Int) := by
  cases h with
  | symbol listed =>
    rw [String.ofList_toList]
    exact .inl (spelled_of_symbolTexts listed)
  | digits nonempty digits =>
    by_cases hlarge : Integer.greatest < (Nat.ofDigitChars 10 word 0 : Int)
    · exact .inr ⟨digits, hlarge⟩
    · have hfits : Integer.Fits (Nat.ofDigitChars 10 word 0 : Int) := by
        unfold Integer.Fits Integer.least
        omega
      refine .inl ⟨.integer ⟨_, hfits⟩, by simpa using nonempty, ?_, ?_⟩
      · rwa [String.toList_ofList]
      · rw [String.toList_ofList]
  | @quoted body closed =>
    refine .inl ⟨.text (String.ofList body), ?_, ?_⟩
    · change '"' ∉ (String.ofList body).toList
      rwa [String.toList_ofList]
    · apply String.toList_injective
      simp [Token.spelling]
  | @name c cs start parts =>
    cases hkeyword : Keyword.ofWord? (String.ofList (c :: cs)) with
    | some k => exact .inl ⟨.keyword k, trivial, (Keyword.ofWord?_eq_some_iff.1 hkeyword).symm⟩
    | none =>
      have hname : IsName (String.ofList (c :: cs)) :=
        ⟨⟨c, cs, String.toList_ofList, start, parts⟩, hkeyword⟩
      exact .inl ⟨.ident _, hname, rfl⟩

namespace Longest

variable {word rest : List Char}

theorem not_lexical {d : Char} (h : Longest word (word ++ rest)) (hd : rest.head? = some d) :
    ¬ Lexical (word ++ [d]) := by
  intro hlexical
  obtain ⟨more, rfl⟩ := List.head?_eq_some_iff.1 hd
  have hstart : word ++ [d] <+: word ++ d :: more := ⟨more, by simp⟩
  have hle := h.longest _ hstart hlexical
  rw [List.length_append, List.length_singleton] at hle
  omega

theorem name_ends {c : Char} {cs : List Char} (h : Longest (c :: cs) (c :: cs ++ rest))
    (hc : isNameStart c = true) (hcs : ∀ d ∈ cs, isNamePart d = true) :
    ∀ d ∈ rest.head?, isNamePart d = false := by
  intro d hd
  cases hpart : isNamePart d with
  | false => rfl
  | true =>
    refine absurd (.name hc ?_) (h.not_lexical hd)
    exact List.forall_mem_append.2 ⟨hcs, List.forall_mem_singleton.2 hpart⟩

theorem digits_end (h : Longest word (word ++ rest)) (hdigits : ∀ c ∈ word, c.isDigit = true) :
    ∀ d ∈ rest.head?, d.isDigit = false := by
  intro d hd
  cases hdigit : d.isDigit with
  | false => rfl
  | true =>
    refine absurd (.digits (by simp) ?_) (h.not_lexical hd)
    exact List.forall_mem_append.2 ⟨hdigits, List.forall_mem_singleton.2 hdigit⟩

theorem endsBefore {t : Token} (h : Longest word (word ++ rest))
    (hspelled : t.Spelled (String.ofList word)) : t.EndsBefore rest.head? := by
  have hword (htext : String.ofList word = t.spelling) : word = t.spelling.toList := by
    rw [← htext, String.toList_ofList]
  have hequals (text : String) (htext : word ++ ['='] = text.toList)
      (hlisted : text ∈ symbolTexts) : rest.head? ≠ some '=' := by
    intro hnext
    exact h.not_lexical hnext (htext ▸ .symbol hlisted)
  cases t with
  | ident name =>
    obtain ⟨c, cs, hchars, hc, hcs⟩ := hspelled.1.chars
    obtain rfl : word = c :: cs := (hword hspelled.2).trans hchars
    exact h.name_ends hc hcs
  | keyword k =>
    obtain ⟨c, cs, hchars, hc, hcs⟩ := Word.keyword_chars k
    obtain rfl : word = c :: cs := (hword hspelled.2).trans hchars
    exact h.name_ends hc hcs
  | integer value =>
    have hdigits := hspelled.2.1
    rw [String.toList_ofList] at hdigits
    exact h.digits_end hdigits
  | assign =>
    exact hequals "==" (by rw [hword hspelled.2]; rfl) (by decide)
  | operator op =>
    cases op with
    | less => exact hequals "<=" (by rw [hword hspelled.2]; rfl) (by decide)
    | greater => exact hequals ">=" (by rw [hword hspelled.2]; rfl) (by decide)
    | _ => trivial
  | text | opening | closing | comma | semicolon | endOfFile => trivial

end Longest

/-! ## The grammar covers every text -/

open Classical in
theorem exists_longest {word text : List Char} (hstart : word <+: text) (h : Lexical word) :
    ∃ longest, Longest longest text := by
  let IsWord (n : Nat) : Prop := Lexical (text.take n)
  have hword : IsWord word.length := by
    change Lexical (text.take word.length)
    rwa [← List.prefix_iff_eq_take.1 hstart]
  let n := Nat.findGreatest IsWord text.length
  have hn : IsWord n := Nat.findGreatest_spec hstart.length_le hword
  refine ⟨text.take n, List.take_prefix n text, hn, fun other hother hlexical => ?_⟩
  have hisWord : IsWord other.length := by
    change Lexical (text.take other.length)
    rwa [← List.prefix_iff_eq_take.1 hother]
  rw [List.length_take, Nat.min_eq_left (Nat.findGreatest_le text.length)]
  exact Nat.le_findGreatest hother.length_le hisWord

theorem Munch.total (start : Nat) (text : List Char) : ∃ result, Munch start text result := by
  by_cases hword : ∃ word, word <+: text ∧ Lexical word
  · obtain ⟨word, hstart, hlexical⟩ := hword
    obtain ⟨longest, hlongest⟩ := exists_longest hstart hlexical
    obtain ⟨rest, rfl⟩ := hlongest.isStart
    rcases hlongest.lexical.spelled with ⟨t, hspelled⟩ | ⟨hdigits, hlarge⟩
    · exact ⟨_, .token hlongest hspelled⟩
    · exact ⟨_, .integerTooLarge hlongest hdigits hlarge⟩
  · have hnone : ∀ word, word <+: text → ¬ Lexical word := fun word hstart hlexical =>
      hword ⟨word, hstart, hlexical⟩
    cases text with
    | nil => exact ⟨_, .ended⟩
    | cons c cs =>
      by_cases hquote : c = '"'
      · subst hquote
        refine ⟨_, .unclosedText fun hmem => ?_⟩
        obtain ⟨body, rest, rfl, hbody⟩ := List.eq_append_cons_of_mem hmem
        exact hnone _ ⟨rest, by simp⟩ (.quoted hbody)
      · exact ⟨_, .unknownCharacter hquote hnone⟩

/-! ## Reading follows the grammar -/

theorem placed_append (n : Nat) (front back : List Char) :
    placed n (front ++ back) = placed n front ++ placed (n + utf8Len front) back := by
  induction front generalizing n with
  | nil => rfl
  | cons c front ih =>
    rw [List.cons_append, placed, ih, placed, List.cons_append, String.utf8Len_cons]
    congr 3
    omega

theorem length_placed (n : Nat) (cs : List Char) : (placed n cs).length = cs.length := by
  rw [← List.length_map PlacedChar.char, placed_chars]

theorem forall_mem_placed {q : Char → Bool} {cs : List Char} (n : Nat)
    (h : ∀ c ∈ cs, q c = true) : ∀ p ∈ placed n cs, q p.char = true := by
  intro p hp
  apply h
  rw [← placed_chars n cs]
  exact List.mem_map_of_mem hp

namespace Word

theorem mem_symbolTexts {t : Token} (h : isSymbol t = true) : t.spelling ∈ symbolTexts := by
  cases t with
  | ident | integer | text | keyword | endOfFile => cases h
  | operator op => cases op <;> decide
  | opening bracket => cases bracket <;> decide
  | closing bracket => cases bracket <;> decide
  | assign | comma | semicolon => decide

theorem symbol?_of_noWord {c : Char} {cs : List Char}
    (hnone : ∀ word, word <+: c :: cs → ¬ Lexical word) : symbol? c cs.head? = none := by
  cases hsymbol : symbol? c cs.head? with
  | none => rfl
  | some word =>
    cases word with
    | fault cause n =>
      unfold symbol? at hsymbol
      split at hsymbol <;> grind
    | token t n =>
      have hlexical := Lexical.symbol (mem_symbolTexts (isSymbol_of_symbol? hsymbol))
      rcases spelled_of_symbol hsymbol with ⟨-, hword, -⟩ | ⟨-, hnext, hword, -⟩
      · rw [hword] at hlexical
        exact absurd hlexical (hnone _ ⟨cs, rfl⟩)
      · obtain ⟨more, rfl⟩ := List.head?_eq_some_iff.1 hnext
        rw [hword] at hlexical
        exact absurd hlexical (hnone _ ⟨more, rfl⟩)

variable {p : PlacedChar} {ps : List PlacedChar}

theorem read_unknown (hquote : p.char ≠ '"')
    (hnone : ∀ word, word <+: p.char :: ps.map PlacedChar.char → ¬ Lexical word) :
    read p ps = .fault (.unknownCharacter p.char) 0 := by
  have hsingle : ¬ Lexical [p.char] := hnone _ ⟨_, rfl⟩
  have hdigit : ¬ p.char.isDigit = true := fun h => hsingle (.digits (by simp) (by simpa using h))
  have hstart : ¬ isNameStart p.char = true := fun h => hsingle (.name h (by simp))
  have hsymbol := symbol?_of_noWord hnone
  rw [List.head?_map] at hsymbol
  rw [read, if_neg hquote, hsymbol]
  simp only [if_neg hdigit, if_neg hstart]

theorem read_unclosed (hp : p.char = '"') (hps : '"' ∉ ps.map PlacedChar.char) :
    read p ps = .fault .unclosedText (ps.length + 1) := by
  have hall : ∀ x ∈ ps, (x.char != '"') = true := by
    intro x hx
    rw [bne_iff_ne]
    intro hchar
    exact hps (hchar ▸ List.mem_map_of_mem hx)
  have hdrop : ps.dropWhile (fun x => x.char != '"') = [] := List.dropWhile_eq_nil_iff.2 hall
  have htake : ps.takeWhile (fun x => x.char != '"') = ps := List.takeWhile_eq_self_iff.2 hall
  rw [read, if_pos hp, quoted, hdrop, htake]

theorem read_tooLarge {c : Char} {cs rest : List Char} (n : Nat)
    (hdigits : ∀ d ∈ c :: cs, d.isDigit = true) (hends : ∀ d ∈ rest.head?, d.isDigit = false)
    (hlarge : Integer.greatest < (Nat.ofDigitChars 10 (c :: cs) 0 : Int)) :
    read ⟨n, c⟩ (placed (n + c.utf8Size) (cs ++ rest)) =
      .fault .integerTooLarge (c :: cs).length := by
  obtain ⟨hc, hcs⟩ := List.forall_mem_cons.1 hdigits
  have hchars : (PlacedChar.mk n c :: placed (n + c.utf8Size) cs).map PlacedChar.char = c :: cs :=
    placed_chars n (c :: cs)
  have hnone : Integer.ofInt? (Nat.ofDigitChars 10 (c :: cs) 0) = none := by
    rw [Integer.ofInt?_eq_none_iff]
    intro hfits
    exact absurd hfits.2 (by omega)
  rw [placed_append, read_digits hc (forall_mem_placed _ hcs) (by rwa [placed_chars]), digits,
    hchars, hnone, List.length_cons, length_placed, List.length_cons]

end Word

namespace Cursor

theorem next_standing {blanks text : List Char} (n : Nat)
    (hblanks : ∀ c ∈ blanks, isSpace c = true) (htext : ∀ c ∈ text.head?, isSpace c = false) :
    (standing n (blanks ++ text)).next = (standing (n + utf8Len blanks) text).readWord := by
  have hspace : (placed n (blanks ++ text)).takeWhile (isSpace ·.char) = placed n blanks := by
    rw [placed_append]
    apply takeWhile_placed (forall_mem_placed n hblanks)
    rwa [placed_chars]
  rw [next, skipSpace, standing, hspace, length_placed, ← standing, advance_standing]

theorem rest_standing (n : Nat) (c : Char) (cs : List Char) :
    (standing n (c :: cs)).rest = ⟨n, c⟩ :: placed (n + c.utf8Size) cs := rfl

theorem readWord_token {t : Token} {c : Char} {cs word rest : List Char} (n : Nat)
    (htext : c :: cs = word ++ rest)
    (hread : Word.read ⟨n, c⟩ (placed (n + c.utf8Size) cs) = .token t word.length) :
    (standing n (word ++ rest)).readWord =
      (.ok ⟨t, ⟨n, n + utf8Len word⟩⟩, standing (n + utf8Len word) rest) := by
  rw [readWord, ← htext, rest_standing]
  dsimp only
  rw [hread]
  dsimp only
  rw [htext, advance_standing, offset_standing, offset_standing]

theorem readWord_passed {cause : LexCause} {c : Char} {cs word rest : List Char} (n : Nat)
    (hknown : ∀ d, cause ≠ .unknownCharacter d) (htext : c :: cs = word ++ rest)
    (hread : Word.read ⟨n, c⟩ (placed (n + c.utf8Size) cs) = .fault cause word.length) :
    (standing n (word ++ rest)).readWord =
      (.error ⟨cause, ⟨n, n + utf8Len word⟩⟩, standing (n + utf8Len word) rest) := by
  rw [readWord, ← htext, rest_standing]
  dsimp only
  rw [hread]
  cases cause with
  | unknownCharacter d => exact absurd rfl (hknown d)
  | _ =>
    dsimp only
    rw [htext, advance_standing, offset_standing, offset_standing]

theorem readWord_of_munch {start : Nat} {text : List Char} {result : Except LexFault Lexeme × Cursor}
    (h : Munch start text result) : (standing start text).readWord = result := by
  cases h with
  | ended => rfl
  | @token t word rest longest spelled =>
    have hends := longest.endsBefore spelled
    obtain ⟨c, cs, rfl, -⟩ := spelled.first
    exact readWord_token start rfl
      (Word.read_spelled spelled (placed_chars start (c :: cs ++ rest)) hends)
  | @integerTooLarge run rest longest digits large =>
    have hends := longest.digits_end digits
    cases run with
    | nil => exact absurd rfl longest.lexical.ne_nil
    | cons c cs =>
      exact readWord_passed start (by simp) rfl (Word.read_tooLarge start digits hends large)
  | @unclosedText cs unclosed =>
    have hread : Word.read ⟨start, '"'⟩ (placed (start + '"'.utf8Size) cs) =
        .fault .unclosedText ('"' :: cs).length := by
      rw [Word.read_unclosed rfl (by rwa [placed_chars]), length_placed, List.length_cons]
    have htext : '"' :: cs = '"' :: cs ++ [] := (List.append_nil _).symm
    have hpassed := readWord_passed start (by simp) htext hread
    rwa [List.append_nil] at hpassed
  | @unknownCharacter c cs noQuote noWord =>
    have hread : Word.read ⟨start, c⟩ (placed (start + c.utf8Size) cs) =
        .fault (.unknownCharacter c) 0 := by
      apply Word.read_unknown noQuote
      rwa [placed_chars]
    rw [readWord, rest_standing]
    dsimp only
    rw [hread]
    rfl

theorem readWord_eq_iff {start : Nat} {text : List Char}
    {result : Except LexFault Lexeme × Cursor} :
    (standing start text).readWord = result ↔ Munch start text result := by
  constructor
  · intro hread
    obtain ⟨other, hother⟩ := Munch.total start text
    rwa [← hread, readWord_of_munch hother]
  · exact readWord_of_munch

/-! ## Every cursor that reading reaches -/

/-- The cursors that reading a source passes, also those after a fault. -/
inductive Reached (source : String) : Cursor → Prop
  | start : Reached source (ofText source)
  | next {cursor : Cursor} (before : Reached source cursor) : Reached source cursor.next.2

end Cursor

theorem Munch.standing {start : Nat} {text : List Char} {result : Except LexFault Lexeme × Cursor}
    (h : Munch start text result) :
    ∃ front back, text = front ++ back ∧
      result.2 = .standing (start + utf8Len front) back := by
  cases h with
  | ended => exact ⟨[], [], rfl, rfl⟩
  | token | integerTooLarge => exact ⟨_, _, rfl, rfl⟩
  | unclosedText => exact ⟨_, [], (List.append_nil _).symm, rfl⟩
  | unknownCharacter => exact ⟨[], _, rfl, rfl⟩

theorem exists_blanks (cs : List Char) :
    ∃ blanks text, cs = blanks ++ text ∧ (∀ c ∈ blanks, isSpace c = true) ∧
      ∀ c ∈ text.head?, isSpace c = false := by
  refine ⟨cs.takeWhile isSpace, cs.dropWhile isSpace, List.takeWhile_append_dropWhile.symm,
    fun c => List.mem_takeWhile_imp, fun c hc => ?_⟩
  have hhead := List.head?_dropWhile_not isSpace cs
  rw [Option.mem_def.1 hc] at hhead
  simpa using hhead

theorem Cursor.Reached.standing {source : String} {cursor : Cursor} (h : cursor.Reached source) :
    ∃ before rest, source.toList = before ++ rest ∧ cursor = .standing (utf8Len before) rest := by
  induction h with
  | start => exact ⟨[], source.toList, rfl, rfl⟩
  | next _ ih =>
    obtain ⟨before, rest, hsource, rfl⟩ := ih
    obtain ⟨blanks, text, rfl, hblanks, htext⟩ := exists_blanks rest
    rw [next_standing _ hblanks htext]
    have hmunch := readWord_eq_iff.1
      (Eq.refl (Cursor.standing (utf8Len before + utf8Len blanks) text).readWord)
    obtain ⟨front, back, rfl, hafter⟩ := hmunch.standing
    refine ⟨before ++ blanks ++ front, back, by simp [hsource], ?_⟩
    rw [hafter, String.utf8Len_append, String.utf8Len_append]

/-- At every cursor that reading reaches, it skips the longest run of space and then takes the longest
word of what is left, or gives the fault that the grammar calls for, and nothing else. A word is a
keyword exactly when it is the spelling of one. -/
theorem next_longest_match {source : String} {cursor : Cursor} (h : cursor.Reached source) :
    ∃ before blanks text, source.toList = before ++ blanks ++ text ∧
      (∀ c ∈ blanks, isSpace c = true) ∧ (∀ c ∈ text.head?, isSpace c = false) ∧
      cursor = .standing (utf8Len before) (blanks ++ text) ∧
      (∀ result, cursor.next = result ↔ Munch (utf8Len (before ++ blanks)) text result) ∧
      ∀ (t : Token) (word : List Char), t.Spelled (String.ofList word) →
        ((∃ k, t = .keyword k) ↔ String.ofList word ∈ Keyword.all.map Keyword.spelling) := by
  obtain ⟨before, rest, hsource, rfl⟩ := h.standing
  obtain ⟨blanks, text, rfl, hblanks, htext⟩ := exists_blanks rest
  refine ⟨before, blanks, text, by rw [hsource, List.append_assoc], hblanks, htext, rfl, ?_,
    fun _ _ => Token.Spelled.keyword_iff⟩
  intro result
  rw [Cursor.next_standing _ hblanks htext, Cursor.readWord_eq_iff, String.utf8Len_append]

theorem next_longest_match_unequal :
    ((Cursor.ofText "x9 !==").next.2).Reached "x9 !==" ∧
      ∃ start text, Munch start text
        (.ok ⟨.operator .notEqual, ⟨3, 5⟩⟩, .standing 5 ['=']) := by
  have hreached : ((Cursor.ofText "x9 !==").next.2).Reached "x9 !==" := .next .start
  have hnext : ((Cursor.ofText "x9 !==").next.2).next =
      (.ok ⟨.operator .notEqual, ⟨3, 5⟩⟩, .standing 5 ['=']) := by rfl
  obtain ⟨_, _, _, -, -, -, -, hmunch, -⟩ := next_longest_match hreached
  exact ⟨hreached, _, _, (hmunch _).1 hnext⟩

theorem Lexical.closed {cs : List Char} (h : Lexical ('"' :: cs)) : '"' ∈ cs := by
  generalize hword : '"' :: cs = word at h
  cases h with
  | symbol listed =>
    have hsymbols : ∀ text ∈ symbolTexts, text.toList.head? ≠ some '"' := by decide
    exact absurd (hword ▸ rfl) (hsymbols _ listed)
  | digits _ digits =>
    subst hword
    exact absurd (digits '"' List.mem_cons_self) (by decide)
  | quoted _ =>
    obtain ⟨-, rfl⟩ := List.cons.inj hword
    simp
  | name start _ =>
    obtain ⟨rfl, -⟩ := List.cons.inj hword
    exact absurd start (by decide)

/-- No word stands at a quote that is not closed, and the quote is still no unknown character. -/
theorem unclosed_quote_starts_no_word :
    (∀ word, word <+: "\"".toList → ¬ Lexical word) ∧
      (Cursor.ofText "\"").next = (.error ⟨.unclosedText, ⟨0, 1⟩⟩, .standing 1 []) := by
  refine ⟨?_, rfl⟩
  intro word hstart hlexical
  have hquote : "\"".toList = ['"'] := rfl
  rw [hquote, List.prefix_cons_iff] at hstart
  rcases hstart with rfl | ⟨cs, rfl, hcs⟩
  · exact hlexical.ne_nil rfl
  · obtain rfl := List.prefix_nil.1 hcs
    exact absurd hlexical.closed List.not_mem_nil

end UzScript
