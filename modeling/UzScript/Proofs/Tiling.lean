import Mathlib.Data.String.Basic
import UzScript.Proofs.WrittenTokens

/-! # Tokens tile their source

A text is tiled by lexemes when it consists of their texts, each at the span of its lexeme, and of
space. What is read of a source is a tiling, and every tiling is read back as it is. Nothing of a
source is lost, then: outside the spans stands only space, and the text at a span spells its
token. -/

set_option autoImplicit false

namespace UzScript

open String (utf8Len)

/-! ## The text at a span -/

namespace Span

def slice (span : Span) (source : String) : String :=
  String.Pos.Raw.extract source ⟨span.start⟩ ⟨span.stop⟩

/-- The ends of the span come in order, and lie between characters of the source. -/
structure Inside (span : Span) (source : String) : Prop where
  ordered : span.start ≤ span.stop
  start_valid : String.Pos.Raw.IsValid source ⟨span.start⟩
  stop_valid : String.Pos.Raw.IsValid source ⟨span.stop⟩

theorem Inside.stop_le {span : Span} {source : String} (h : span.Inside source) :
    span.stop ≤ source.utf8ByteSize :=
  h.stop_valid.le_rawEndPos

theorem isValid_of_split {source : String} {before after : List Char}
    (h : source.toList = before ++ after) : String.Pos.Raw.IsValid source ⟨utf8Len before⟩ := by
  rw [String.Pos.Raw.isValid_iff_exists_append]
  refine ⟨String.ofList before, String.ofList after, ?_, (String.rawEndPos_ofList before).symm⟩
  rw [← String.ofList_append, ← h, String.ofList_toList]

section Split

variable {source : String} {before text after : List Char}

theorem inside_of_split (h : source.toList = before ++ text ++ after) :
    Inside ⟨utf8Len before, utf8Len before + utf8Len text⟩ source := by
  have hstop := isValid_of_split h
  rw [String.utf8Len_append] at hstop
  exact ⟨Nat.le_add_right _ _, isValid_of_split (h.trans (List.append_assoc _ _ _)), hstop⟩

theorem slice_of_split (h : source.toList = before ++ text ++ after) :
    slice ⟨utf8Len before, utf8Len before + utf8Len text⟩ source = String.ofList text := by
  have hsource : source = String.ofList (before ++ text ++ after) := by
    rw [← h, String.ofList_toList]
  rw [hsource]
  exact String.extract_of_valid before text after

end Split

end Span

theorem utf8ByteSize_eq (source : String) : source.utf8ByteSize = utf8Len source.toList := by
  rw [← String.utf8ByteSize_ofList, String.ofList_toList]

/-! ## Texts of tokens -/

/-- The text is one that the token can be written as. An integer may have leading zeros. -/
def Token.Spelled : Token → String → Prop
  | .integer value, word => word ≠ "" ∧ (∀ c ∈ word.toList, c.isDigit = true) ∧
      (Nat.ofDigitChars 10 word.toList 0 : Int) = value.val
  | token, word => token.Writable ∧ word = token.spelling

theorem Token.Spelled.ne_endOfFile {t : Token} {text : String} (h : t.Spelled text) :
    t ≠ .endOfFile := by
  rintro rfl
  exact h.1

theorem Token.Spelled.first {t : Token} {word : List Char} (h : t.Spelled (String.ofList word)) :
    ∃ c cs, word = c :: cs ∧ isSpace c = false := by
  cases t with
  | integer value =>
    obtain ⟨hne, hdigits, -⟩ := h
    rw [String.toList_ofList] at hdigits
    cases word with
    | nil => exact absurd rfl hne
    | cons c cs =>
      have hc := hdigits c List.mem_cons_self
      exact ⟨c, cs, rfl, isSpace_of_isNamePart (isNamePart_of_isDigit hc)⟩
  | _ =>
    obtain ⟨hw, htext⟩ := h
    have hword := congrArg String.toList htext
    rw [String.toList_ofList] at hword
    obtain ⟨c, cs, hspelling, hc⟩ := Word.isSpace_spelling hw
    exact ⟨c, cs, hword.trans hspelling, hc⟩

namespace Word

theorem read_spelled {t : Token} {p : PlacedChar} {ps : List PlacedChar} {word after : List Char}
    (hspelled : t.Spelled (String.ofList word))
    (hchars : (p :: ps).map PlacedChar.char = word ++ after) (hends : t.EndsBefore after.head?) :
    read p ps = .token t word.length := by
  cases t with
  | integer value =>
    obtain ⟨hne, hdigits, hvalue⟩ := hspelled
    rw [String.toList_ofList] at hdigits hvalue
    obtain ⟨front, back, hsplit, rfl, rfl⟩ := List.map_eq_append_iff.1 hchars
    cases front with
    | nil => exact absurd rfl hne
    | cons q front =>
      rw [List.cons_append, List.cons.injEq] at hsplit
      obtain ⟨rfl, rfl⟩ := hsplit
      have hq : p.char.isDigit = true := hdigits _ List.mem_cons_self
      have hfront : ∀ x ∈ front, x.char.isDigit = true :=
        fun x hx => hdigits _ (List.mem_cons_of_mem _ (List.mem_map_of_mem hx))
      rw [read_digits hq hfront hends, digits, hvalue, Integer.ofInt?_val, List.length_map]
  | _ =>
    obtain ⟨hw, htext⟩ := hspelled
    have hword := congrArg String.toList htext
    rw [String.toList_ofList] at hword
    rw [hword] at hchars ⊢
    exact read_written hw hchars hends

theorem head_dropWhile_placed {q : Char → Bool} (ps : List PlacedChar) :
    ∀ c ∈ ((ps.dropWhile (fun x => q x.char)).map PlacedChar.char).head?, q c = false := by
  intro c hc
  rw [List.head?_map] at hc
  obtain ⟨x, hx, rfl⟩ := Option.map_eq_some_iff.1 hc
  have hhead := List.head?_dropWhile_not (fun x : PlacedChar => q x.char) ps
  rwa [hx] at hhead

theorem mem_takeWhile_placed {q : Char → Bool} (ps : List PlacedChar) :
    ∀ c ∈ (ps.takeWhile (fun x => q x.char)).map PlacedChar.char, q c = true := by
  intro c hc
  obtain ⟨x, hx, rfl⟩ := List.mem_map.1 hc
  exact List.all_eq_true.1 List.all_takeWhile x hx

theorem split_placed (q : Char → Bool) (p : PlacedChar) (ps : List PlacedChar) :
    (p :: ps).map PlacedChar.char =
      (p :: ps.takeWhile (fun x => q x.char)).map PlacedChar.char ++
        (ps.dropWhile (fun x => q x.char)).map PlacedChar.char := by
  rw [← List.map_append, List.cons_append, List.takeWhile_append_dropWhile]

section Spelled

variable {p : PlacedChar} {ps : List PlacedChar} {t : Token} {n : Nat}

theorem spelled_of_quoted (hp : p.char = '"') (h : quoted ps = .token t n) :
    ∃ word after, (p :: ps).map PlacedChar.char = word ++ after ∧ word.length = n ∧
      t.Spelled (String.ofList word) ∧ t.EndsBefore after.head? := by
  have hw := writable_of_quoted h
  unfold quoted at h
  dsimp only at h
  split at h
  · cases h
  · next q rest hdrop =>
    obtain ⟨rfl, rfl⟩ := Word.token.inj h
    have hq : q.char = '"' := by
      have hhead := head_dropWhile_placed (q := (· != '"')) ps
      rw [hdrop] at hhead
      simpa using hhead
    have hchars := split_placed (· != '"') p ps
    rw [hdrop] at hchars
    refine ⟨(p :: ps.takeWhile (·.char != '"')).map PlacedChar.char ++ ['"'],
      rest.map PlacedChar.char, ?_, by simp, ⟨hw, ?_⟩, trivial⟩
    · rw [hchars, List.map_cons, List.map_cons, hq, List.append_assoc]
      rfl
    · apply String.toList_injective
      simp [Token.spelling, PlacedChar.text, hp]

theorem spelled_of_symbol {c : Char} {next : Option Char} (h : symbol? c next = some (.token t n)) :
    (n = 1 ∧ t.spelling.toList = [c] ∧ t.EndsBefore next) ∨
      (n = 2 ∧ next = some '=' ∧ t.spelling.toList = [c, '='] ∧ ∀ after, t.EndsBefore after) := by
  unfold symbol? at h
  dsimp only at h
  split at h <;> try (cases h; exact .inl ⟨rfl, rfl, trivial⟩)
  all_goals try split at h
  all_goals cases h
  all_goals simp_all [Token.EndsBefore, Token.spelling, Operator.symbol]

theorem spelled_of_isSymbol {word : List Char} (h : isSymbol t = true)
    (hword : t.spelling.toList = word) : t.Spelled (String.ofList word) := by
  have hw := writable_of_isSymbol h
  rw [← hword, String.ofList_toList]
  cases t with
  | integer value => cases h
  | _ => exact ⟨hw, rfl⟩

theorem spelled_of_digits (hp : p.char.isDigit = true)
    (h : digits (p :: ps.takeWhile (·.char.isDigit)) = .token t n) :
    ∃ word after, (p :: ps).map PlacedChar.char = word ++ after ∧ word.length = n ∧
      t.Spelled (String.ofList word) ∧ t.EndsBefore after.head? := by
  unfold digits at h
  split at h
  · next value hvalue =>
    obtain ⟨rfl, rfl⟩ := Word.token.inj h
    refine ⟨_, _, split_placed Char.isDigit p ps, by simp, ⟨by simp, ?_, ?_⟩,
      head_dropWhile_placed ps⟩
    · rw [String.toList_ofList, List.map_cons]
      exact List.forall_mem_cons.2 ⟨hp, mem_takeWhile_placed ps⟩
    · rw [String.toList_ofList]
      exact (Integer.ofInt?_eq_some_iff.1 hvalue).symm
  · cases h

theorem spelled_of_name (hp : isNameStart p.char = true)
    (h : name (p :: ps.takeWhile (isNamePart ·.char)) = .token t n) :
    ∃ word after, (p :: ps).map PlacedChar.char = word ++ after ∧ word.length = n ∧
      t.Spelled (String.ofList word) ∧ t.EndsBefore after.head? := by
  have hw := writable_of_name hp (List.all_eq_true.1 List.all_takeWhile) h
  have hchars := split_placed isNamePart p ps
  have hends := head_dropWhile_placed (q := isNamePart) ps
  unfold name at h
  split at h
  · next word hword =>
    obtain ⟨rfl, rfl⟩ := Word.token.inj h
    exact ⟨_, _, hchars, by simp, ⟨hw, (Keyword.ofWord?_eq_some_iff.1 hword).symm⟩, hends⟩
  · obtain ⟨rfl, rfl⟩ := Word.token.inj h
    exact ⟨_, _, hchars, by simp, ⟨hw, rfl⟩, hends⟩

theorem spelled_of_read (h : read p ps = .token t n) :
    ∃ word after, (p :: ps).map PlacedChar.char = word ++ after ∧ word.length = n ∧
      t.Spelled (String.ofList word) ∧ t.EndsBefore after.head? := by
  unfold read at h
  split at h
  · next hquote => exact spelled_of_quoted hquote h
  · split at h
    · next hsymbol =>
      subst h
      have hkind := isSymbol_of_symbol? hsymbol
      rcases spelled_of_symbol hsymbol with ⟨rfl, hword, hends⟩ | ⟨rfl, hnext, hword, hends⟩
      · refine ⟨[p.char], ps.map PlacedChar.char, rfl, rfl, spelled_of_isSymbol hkind hword, ?_⟩
        rwa [List.head?_map]
      · cases ps with
        | nil => cases hnext
        | cons q ps =>
          have hq : q.char = '=' := by simpa using hnext
          refine ⟨[p.char, '='], ps.map PlacedChar.char, ?_, rfl, spelled_of_isSymbol hkind hword,
            hends _⟩
          rw [List.map_cons, List.map_cons, hq]
          rfl
    · split at h
      · next hdigit => exact spelled_of_digits hdigit h
      · split at h
        · next hstart => exact spelled_of_name hstart h
        · cases h

end Spelled

/-! ## Texts at fault -/

/-- The text is at fault, when the other text comes after it. -/
inductive Torn : List Char → List Char → LexCause → Prop
  | unknownCharacter (c : Char) (after : List Char) : Torn [c] after (.unknownCharacter c)
  | unclosedText {cs : List Char} (unclosed : '"' ∉ cs) : Torn ('"' :: cs) [] .unclosedText
  | integerTooLarge {run after : List Char} (nonempty : run ≠ [])
      (digits : ∀ c ∈ run, c.isDigit = true) (maximal : ∀ c ∈ after.head?, c.isDigit = false)
      (large : Integer.greatest < (Nat.ofDigitChars 10 run 0 : Int)) :
      Torn run after .integerTooLarge

section Torn

variable {p : PlacedChar} {ps : List PlacedChar} {cause : LexCause} {n : Nat}

theorem torn_of_quoted (hp : p.char = '"') (h : quoted ps = .fault cause n) :
    cause = .unclosedText ∧ Torn ((p :: ps).map PlacedChar.char) [] cause ∧ n = ps.length + 1 := by
  unfold quoted at h
  dsimp only at h
  split at h
  · next hdrop =>
    obtain ⟨rfl, rfl⟩ := Word.fault.inj h
    have hsplit := List.takeWhile_append_dropWhile (p := fun x : PlacedChar => x.char != '"') (l := ps)
    rw [hdrop, List.append_nil] at hsplit
    have hmem := mem_takeWhile_placed (q := (· != '"')) ps
    rw [hsplit] at hmem ⊢
    rw [List.map_cons, hp]
    exact ⟨rfl, .unclosedText fun hc => bne_iff_ne.1 (hmem _ hc) rfl, rfl⟩
  · cases h

theorem torn_of_digits (hp : p.char.isDigit = true)
    (h : digits (p :: ps.takeWhile (·.char.isDigit)) = .fault cause n) :
    cause = .integerTooLarge ∧
      Torn ((p :: ps.takeWhile (·.char.isDigit)).map PlacedChar.char)
        ((ps.dropWhile (·.char.isDigit)).map PlacedChar.char) cause ∧
      n = (p :: ps.takeWhile (·.char.isDigit)).length := by
  unfold digits at h
  split at h
  · cases h
  · next hnone =>
    obtain ⟨rfl, rfl⟩ := Word.fault.inj h
    have hfits := Integer.ofInt?_eq_none_iff.1 hnone
    refine ⟨rfl, .integerTooLarge (by simp) ?_ (head_dropWhile_placed ps) ?_, rfl⟩
    · rw [List.map_cons]
      exact List.forall_mem_cons.2 ⟨hp, mem_takeWhile_placed ps⟩
    · unfold Integer.Fits Integer.least at hfits
      omega

/-- A character that starts no word is not passed, any other text at fault is. -/
theorem torn_of_read (h : read p ps = .fault cause n) :
    ∃ text after, (p :: ps).map PlacedChar.char = text ++ after ∧ Torn text after cause ∧
      (cause = .unknownCharacter p.char ∧ text = [p.char] ∨
        (∀ c, cause ≠ .unknownCharacter c) ∧ n = text.length) := by
  unfold read at h
  split at h
  · next hquote =>
    obtain ⟨rfl, htorn, rfl⟩ := torn_of_quoted hquote h
    exact ⟨_, [], (List.append_nil _).symm, htorn, .inr ⟨by simp, by simp⟩⟩
  · split at h
    · next hsymbol =>
      subst h
      unfold symbol? at hsymbol
      split at hsymbol <;> grind
    · split at h
      · next hdigit =>
        obtain ⟨rfl, htorn, rfl⟩ := torn_of_digits hdigit h
        exact ⟨_, _, split_placed Char.isDigit p ps, htorn, .inr ⟨by simp, by simp⟩⟩
      · split at h
        · unfold name at h
          split at h <;> cases h
        · obtain ⟨rfl, rfl⟩ := Word.fault.inj h
          exact ⟨[p.char], _, rfl, .unknownCharacter p.char _, .inl ⟨rfl, rfl⟩⟩

end Torn

end Word

namespace Cursor

/-! ## Cursors in a text -/

def standing (offset : Nat) (cs : List Char) : Cursor := ⟨placed offset cs, offset⟩

theorem offset_standing (n : Nat) (cs : List Char) : (standing n cs).offset = n := by
  cases cs <;> rfl

theorem advance_standing (n : Nat) (front back : List Char) :
    (standing n (front ++ back)).advance front.length = standing (n + utf8Len front) back := by
  induction front generalizing n with
  | nil => rfl
  | cons c front ih =>
    have hstep : (standing n (c :: front ++ back)).step =
        standing (n + c.utf8Size) (front ++ back) := rfl
    have hlength : n + c.utf8Size + utf8Len front = n + utf8Len (c :: front) := by
      rw [String.utf8Len_cons]
      omega
    rw [List.length_cons, advance, hstep, ih, hlength]

theorem readAll_standing_nil (n : Nat) :
    (standing n []).readAll = ([⟨.endOfFile, ⟨n, n⟩⟩], none) := by
  have hnext : (standing n []).next = (.ok ⟨.endOfFile, ⟨n, n⟩⟩, standing n []) := rfl
  exact readAll_end hnext rfl

theorem readAll_standing_space {c : Char} (hc : isSpace c = true) (n : Nat) (cs : List Char) :
    (standing n (c :: cs)).readAll = (standing (n + c.utf8Size) cs).readAll :=
  readAll_congr (next_space rfl hc)

theorem readAll_standing_word {t : Token} {word after : List Char} (n : Nat)
    (hspelled : t.Spelled (String.ofList word)) (hends : t.EndsBefore after.head?) :
    (standing n (word ++ after)).readAll =
      (⟨t, ⟨n, n + utf8Len word⟩⟩ :: (standing (n + utf8Len word) after).readAll.1,
        (standing (n + utf8Len word) after).readAll.2) := by
  obtain ⟨c, cs, rfl, hc⟩ := hspelled.first
  have hrest : (standing n (c :: cs ++ after)).rest =
      ⟨n, c⟩ :: placed (n + c.utf8Size) (cs ++ after) := rfl
  have hread := Word.read_spelled hspelled (placed_chars n (c :: cs ++ after)) hends
  have hnext := next_token hrest hc hread
  rw [advance_standing, offset_standing, offset_standing] at hnext
  exact readAll_token hnext hspelled.ne_endOfFile

theorem readAll_standing_fault {c : Char} {cs : List Char} {cause : LexCause} {k : Nat} (n : Nat)
    (hc : isSpace c = false)
    (hread : Word.read ⟨n, c⟩ (placed (n + c.utf8Size) cs) = .fault cause k) :
    ∃ text after, c :: cs = text ++ after ∧ Word.Torn text after cause ∧
      (standing n (c :: cs)).readAll = ([], some ⟨cause, ⟨n, n + utf8Len text⟩⟩) := by
  obtain ⟨text, after, hchars, htorn, hpassed⟩ := Word.torn_of_read hread
  rw [List.map_cons, placed_chars] at hchars
  refine ⟨text, after, hchars, htorn, ?_⟩
  have hskip : (standing n (c :: cs)).skipSpace = standing n (c :: cs) := by
    simp [skipSpace, standing, placed, hc, advance]
  have hadvance := advance_standing n text after
  rw [← hchars] at hadvance
  have hnext : ∃ last, (standing n (c :: cs)).next =
      (.error ⟨cause, ⟨n, n + utf8Len text⟩⟩, last) := by
    have hrest : (standing n (c :: cs)).rest = ⟨n, c⟩ :: placed (n + c.utf8Size) cs := rfl
    rw [next, hskip, readWord, hrest]
    dsimp only
    rw [hread]
    rcases hpassed with ⟨rfl, rfl⟩ | ⟨hknown, rfl⟩
    · exact ⟨standing n (c :: cs), by simp [PlacedChar.stop]⟩
    · cases cause with
      | unknownCharacter d => exact absurd rfl (hknown d)
      | _ =>
        dsimp only
        rw [hadvance, offset_standing, offset_standing]
        exact ⟨_, rfl⟩
  obtain ⟨last, hnext⟩ := hnext
  exact readAll_fault hnext

end Cursor

/-! ## Tilings -/

/-- From a byte offset on, the text consists of the texts of the lexemes and of space. No token goes
on with what comes next. -/
inductive Tiled (next : Option Char) : Nat → List Char → List Lexeme → Prop
  | none (offset : Nat) : Tiled next offset [] []
  | space {offset : Nat} {c : Char} {cs : List Char} {ls : List Lexeme} (blank : isSpace c = true)
      (more : Tiled next (offset + c.utf8Size) cs ls) : Tiled next offset (c :: cs) ls
  | word {offset : Nat} {t : Token} {word cs : List Char} {ls : List Lexeme}
      (spelled : t.Spelled (String.ofList word)) (ends : t.EndsBefore (cs.head?.or next))
      (more : Tiled next (offset + utf8Len word) cs ls) :
      Tiled next offset (word ++ cs) (⟨t, ⟨offset, offset + utf8Len word⟩⟩ :: ls)

namespace Tiled

variable {next : Option Char} {n : Nat} {cs : List Char} {ls : List Lexeme}

theorem readAll {rest : List Char} (h : Tiled rest.head? n cs ls) :
    (Cursor.standing n (cs ++ rest)).readAll =
      (ls ++ (Cursor.standing (n + utf8Len cs) rest).readAll.1,
        (Cursor.standing (n + utf8Len cs) rest).readAll.2) := by
  induction h with
  | none offset => rfl
  | @space offset c cs ls blank _ ih =>
    have hlength : offset + utf8Len (c :: cs) = offset + c.utf8Size + utf8Len cs := by
      rw [String.utf8Len_cons]
      omega
    rw [List.cons_append, Cursor.readAll_standing_space blank, ih, hlength]
  | @word offset t word cs ls spelled ends _ ih =>
    rw [← List.head?_append] at ends
    rw [List.append_assoc, Cursor.readAll_standing_word offset spelled ends, ih,
      String.utf8Len_append, ← Nat.add_assoc]
    rfl

theorem single {t : Token} {word : List Char} (n : Nat) (hspelled : t.Spelled (String.ofList word))
    (hends : t.EndsBefore next) : Tiled next n word [⟨t, ⟨n, n + utf8Len word⟩⟩] := by
  have hword : Tiled next n (word ++ []) [⟨t, ⟨n, n + utf8Len word⟩⟩] :=
    .word hspelled hends (.none _)
  rwa [List.append_nil] at hword

theorem append {cs' : List Char} {ls' : List Lexeme} (h : Tiled (cs'.head?.or next) n cs ls)
    (h' : Tiled next (n + utf8Len cs) cs' ls') : Tiled next n (cs ++ cs') (ls ++ ls') := by
  induction h with
  | none offset => exact h'
  | @space offset c cs ls blank _ ih =>
    refine .space blank (ih ?_)
    rw [String.utf8Len_cons, Nat.add_comm (utf8Len cs), ← Nat.add_assoc] at h'
    exact h'
  | @word offset t word cs ls spelled ends _ ih =>
    rw [String.utf8Len_append, ← Nat.add_assoc] at h'
    rw [← Option.or_assoc, ← List.head?_append] at ends
    rw [List.append_assoc]
    exact .word spelled ends (ih h')

/-- What comes next does not matter as long as it continues no token. -/
theorem ending {next' : Option Char} (h : Tiled next n cs ls) (hnext' : Closes next') :
    Tiled next' n cs ls := by
  induction h with
  | none offset => exact .none offset
  | space blank _ ih => exact .space blank ih
  | @word offset t word cs ls spelled ends _ ih =>
    refine .word spelled ?_ ih
    cases cs with
    | nil => exact t.endsBefore_of_closes hnext'
    | cons c cs => exact ends

end Tiled

/-- Reading goes through a tiled text, up to the end of the source or to a text at fault. -/
def Cursor.ReadsTiled (n : Nat) (cs : List Char) : Prop :=
  (∃ ls, Tiled none n cs ls ∧ (standing n cs).readAll =
      (ls ++ [⟨.endOfFile, ⟨n + utf8Len cs, n + utf8Len cs⟩⟩], none)) ∨
    ∃ front text after ls cause, cs = front ++ text ++ after ∧
      Tiled (text ++ after).head? n front ls ∧ Word.Torn text after cause ∧
      (standing n cs).readAll =
        (ls, some ⟨cause, ⟨n + utf8Len front, n + utf8Len front + utf8Len text⟩⟩)

namespace Cursor.ReadsTiled

theorem after_tiled {n : Nat} {cs rest : List Char} {ls : List Lexeme}
    (htiled : Tiled rest.head? n cs ls) (h : ReadsTiled (n + utf8Len cs) rest) :
    ReadsTiled n (cs ++ rest) := by
  have hread := htiled.readAll
  rcases h with ⟨more, hmore, hrest⟩ | ⟨front, text, after, more, cause, rfl, hfront, htorn, hrest⟩
  · rw [hrest] at hread
    refine .inl ⟨ls ++ more, .append ?_ hmore, ?_⟩
    · rwa [Option.or_none]
    · rw [hread, String.utf8Len_append, Nat.add_assoc, List.append_assoc]
  · rw [hrest] at hread
    refine .inr ⟨cs ++ front, text, after, ls ++ more, cause, by simp, .append ?_ hfront, htorn, ?_⟩
    · rwa [← List.head?_append, ← List.append_assoc]
    · rw [hread, String.utf8Len_append, ← Nat.add_assoc]

theorem all (cs : List Char) (n : Nat) : ReadsTiled n cs := by
  induction hlength : cs.length using Nat.strong_induction_on generalizing cs n with
  | h length ih =>
    subst hlength
    cases cs with
    | nil => exact .inl ⟨[], .none n, readAll_standing_nil n⟩
    | cons c cs =>
      cases hspace : isSpace c with
      | true =>
        have htiled : Tiled cs.head? n [c] [] := .space hspace (.none _)
        exact after_tiled htiled (ih cs.length (by simp) cs _ rfl)
      | false =>
        cases hread : Word.read ⟨n, c⟩ (placed (n + c.utf8Size) cs) with
        | token t k =>
          obtain ⟨word, rest, hchars, -, hspelled, hends⟩ := Word.spelled_of_read hread
          rw [List.map_cons, placed_chars] at hchars
          obtain ⟨d, ds, rfl, -⟩ := hspelled.first
          rw [hchars]
          refine after_tiled (.single n hspelled hends) (ih rest.length ?_ rest _ rfl)
          rw [hchars, List.length_append, List.length_cons]
          omega
        | fault cause k =>
          obtain ⟨text, after, hchars, htorn, hfault⟩ := readAll_standing_fault n hspace hread
          exact .inr ⟨[], text, after, [], cause, hchars, .none n, htorn, hfault⟩

end Cursor.ReadsTiled

/-! ## Nothing is lost -/

theorem utf8Size_of_isSpace {c : Char} (h : isSpace c = true) : c.utf8Size = 1 := by
  simp only [isSpace, Bool.or_eq_true, decide_eq_true_eq] at h
  rcases h with (((rfl | rfl) | rfl) | rfl) | rfl <;> rfl

namespace Tiled

variable {next : Option Char} {n : Nat} {cs : List Char} {ls : List Lexeme}

theorem spelled (h : Tiled next n cs ls) : ∀ l ∈ ls, ∃ before word after,
    cs = before ++ word ++ after ∧ l.span = ⟨n + utf8Len before, n + utf8Len before + utf8Len word⟩ ∧
      l.token.Spelled (String.ofList word) := by
  induction h with
  | none => exact fun l hl => by cases hl
  | @space offset c cs ls blank _ ih =>
    intro l hl
    obtain ⟨before, word, after, rfl, hspan, hspelled⟩ := ih l hl
    refine ⟨c :: before, word, after, rfl, ?_, hspelled⟩
    rw [hspan, String.utf8Len_cons, Nat.add_comm (utf8Len before), ← Nat.add_assoc]
  | @word offset t word cs ls hword ends _ ih =>
    intro l hl
    rcases List.mem_cons.1 hl with rfl | hl
    · exact ⟨[], word, cs, rfl, rfl, hword⟩
    · obtain ⟨before, word', after, rfl, hspan, hspelled⟩ := ih l hl
      refine ⟨word ++ before, word', after, by simp, ?_, hspelled⟩
      rw [hspan, String.utf8Len_append, ← Nat.add_assoc]

theorem placed {source : String} (h : Tiled next 0 source.toList ls) :
    ∀ l ∈ ls, l.span.start < l.span.stop ∧ l.span.Inside source ∧
      l.token.Spelled (l.span.slice source) := by
  intro l hl
  obtain ⟨before, word, after, hsplit, hspan, hspelled⟩ := h.spelled l hl
  rw [Nat.zero_add] at hspan
  obtain ⟨c, cs, hword, -⟩ := hspelled.first
  have hpositive : 0 < utf8Len word := by
    rw [hword, String.utf8Len_cons]
    have hc := c.utf8Size_pos
    omega
  rw [hspan, Span.slice_of_split hsplit]
  exact ⟨by simpa using hpositive, Span.inside_of_split hsplit, hspelled⟩

theorem ordered (h : Tiled next n cs ls) :
    ls.Pairwise fun l l' => l.span.stop ≤ l'.span.start := by
  induction h with
  | none => exact .nil
  | space _ _ ih => exact ih
  | word _ _ more ih =>
    refine .cons (fun l hl => ?_) ih
    obtain ⟨before, word', after, -, hspan, -⟩ := more.spelled l hl
    rw [hspan]
    exact Nat.le_add_right _ _

theorem space_of_gap (h : Tiled next n cs ls) {i : Nat} (hi : n ≤ i) (hlast : i < n + utf8Len cs)
    (hgap : ∀ l ∈ ls, ¬ (l.span.start ≤ i ∧ i < l.span.stop)) :
    ∃ before c after, cs = before ++ [c] ++ after ∧ isSpace c = true ∧ i = n + utf8Len before := by
  induction h with
  | none offset =>
    rw [String.utf8Len_nil] at hlast
    omega
  | @space offset c cs ls blank more ih =>
    have hsize := utf8Size_of_isSpace blank
    by_cases hfirst : i = offset
    · exact ⟨[], c, cs, rfl, blank, hfirst⟩
    · rw [String.utf8Len_cons] at hlast
      obtain ⟨before, d, after, rfl, hd, hbefore⟩ := ih (by omega) (by omega) hgap
      refine ⟨c :: before, d, after, rfl, hd, ?_⟩
      rw [String.utf8Len_cons]
      omega
  | @word offset t word cs ls hword ends more ih =>
    obtain ⟨hfirst, hothers⟩ := List.forall_mem_cons.1 hgap
    dsimp only at hfirst
    rw [String.utf8Len_append] at hlast
    obtain ⟨before, d, after, rfl, hd, hbefore⟩ := ih (by omega) (by omega) hothers
    refine ⟨word ++ before, d, after, by simp, hd, ?_⟩
    rw [String.utf8Len_append]
    omega

end Tiled

theorem tiled_of_tokenize {source : String} {lexemes : List Lexeme}
    (h : tokenize source = .ok lexemes) :
    ∃ ls, Tiled none 0 source.toList ls ∧
      lexemes = ls ++ [⟨.endOfFile, ⟨source.utf8ByteSize, source.utf8ByteSize⟩⟩] := by
  unfold tokenize at h
  split at h
  · next hread =>
    cases h
    rcases Cursor.ReadsTiled.all source.toList 0 with ⟨ls, htiled, hall⟩ | ⟨_, _, _, _, _, -, -, -, hall⟩
    · refine ⟨ls, htiled, ?_⟩
      rw [utf8ByteSize_eq, ← Nat.zero_add (utf8Len _)]
      exact congrArg Prod.fst (hread.symm.trans hall)
    · cases hread.symm.trans hall
  · cases h

theorem tokenize_of_tiled {source : String} {ls : List Lexeme}
    (h : Tiled none 0 source.toList ls) :
    tokenize source = .ok (ls ++ [⟨.endOfFile, ⟨source.utf8ByteSize, source.utf8ByteSize⟩⟩]) := by
  have hread : (Cursor.ofText source).readAll =
      (ls ++ [⟨.endOfFile, ⟨source.utf8ByteSize, source.utf8ByteSize⟩⟩], none) := by
    have hend : Tiled ([] : List Char).head? 0 source.toList ls := h
    have hall := hend.readAll
    rw [List.append_nil, Cursor.readAll_standing_nil, Nat.zero_add, ← utf8ByteSize_eq] at hall
    exact hall
  rw [tokenize, hread]

/-- The last token of a source is its end, and no other. All other tokens stand at spans that are
not empty, in order, inside the source and between its characters; the text at each span spells the
token; and a byte at no span is a space. -/
theorem tokenize_lossless {source : String} {lexemes : List Lexeme}
    (h : tokenize source = .ok lexemes) :
    ∃ words, lexemes = words ++ [⟨.endOfFile, ⟨source.utf8ByteSize, source.utf8ByteSize⟩⟩] ∧
      (∀ l ∈ words, l.token ≠ .endOfFile ∧ l.span.start < l.span.stop ∧ l.span.Inside source ∧
        l.span.stop ≤ source.utf8ByteSize ∧ l.token.Spelled (l.span.slice source)) ∧
      words.Pairwise (fun l l' => l.span.stop ≤ l'.span.start) ∧
      ∀ i, i < source.utf8ByteSize →
        (∀ l ∈ words, ¬ (l.span.start ≤ i ∧ i < l.span.stop)) →
          ∃ c, isSpace c = true ∧ Span.Inside ⟨i, i + 1⟩ source ∧
            Span.slice ⟨i, i + 1⟩ source = String.singleton c := by
  obtain ⟨words, htiled, rfl⟩ := tiled_of_tokenize h
  refine ⟨words, rfl, ?_, htiled.ordered, ?_⟩
  · intro l hl
    obtain ⟨hne, hinside, hspelled⟩ := htiled.placed l hl
    exact ⟨hspelled.ne_endOfFile, hne, hinside, hinside.stop_le, hspelled⟩
  · intro i hi hgap
    rw [utf8ByteSize_eq] at hi
    obtain ⟨before, c, after, hsplit, hc, hbefore⟩ :=
      htiled.space_of_gap (Nat.zero_le i) (by omega) hgap
    have hone : utf8Len [c] = 1 := by
      rw [String.utf8Len_cons, utf8Size_of_isSpace hc, String.utf8Len_nil]
    have hinside := Span.inside_of_split hsplit
    have hslice := Span.slice_of_split hsplit
    rw [Nat.zero_add] at hbefore
    rw [hone, ← hbefore] at hinside hslice
    exact ⟨c, hc, hinside, hslice⟩

theorem tokenize_lossless_wide :
    tokenize " soni ў=007; " = .ok ([⟨.keyword .declare, ⟨1, 5⟩⟩, ⟨.ident "ў", ⟨6, 8⟩⟩,
        ⟨.assign, ⟨8, 9⟩⟩, ⟨.integer ⟨7, by decide⟩, ⟨9, 12⟩⟩, ⟨.semicolon, ⟨12, 13⟩⟩] ++
        [⟨.endOfFile, ⟨14, 14⟩⟩]) ∧
      (Token.integer ⟨7, by decide⟩).Spelled (Span.slice ⟨9, 12⟩ " soni ў=007; ") ∧
      ∃ c, isSpace c = true ∧ Span.Inside ⟨13, 14⟩ " soni ў=007; " ∧
        Span.slice ⟨13, 14⟩ " soni ў=007; " = String.singleton c := by
  have htokens : tokenize " soni ў=007; " = .ok ([⟨.keyword .declare, ⟨1, 5⟩⟩, ⟨.ident "ў", ⟨6, 8⟩⟩,
      ⟨.assign, ⟨8, 9⟩⟩, ⟨.integer ⟨7, by decide⟩, ⟨9, 12⟩⟩, ⟨.semicolon, ⟨12, 13⟩⟩] ++
      [⟨.endOfFile, ⟨14, 14⟩⟩]) := by decide +kernel
  obtain ⟨words, hwords, hall, -, hgaps⟩ := tokenize_lossless htokens
  obtain rfl := List.append_inj_left' hwords rfl
  exact ⟨htokens, (hall ⟨.integer ⟨7, by decide⟩, ⟨9, 12⟩⟩ (by simp)).2.2.2.2,
    hgaps 13 (by decide +kernel) (by decide)⟩

end UzScript
