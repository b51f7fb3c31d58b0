import UzScript.Proofs.Tiling

/-! # Tokens with space between them

Tokens are written out one after the other, with space between them. However much space there is,
and whatever tokens come to be neighbours, the text is read back as these tokens, each of them at the
span of its own text. -/

set_option autoImplicit false

namespace UzScript

open String (utf8Len)

structure SpacedToken where
  token : Token
  gap : String

namespace SpacedToken

def text : List SpacedToken → String
  | [] => ""
  | w :: ws => w.token.spelling ++ w.gap ++ text ws

def lexemes (offset : Nat) : List SpacedToken → List Lexeme
  | [] => []
  | w :: ws =>
    ⟨w.token, ⟨offset, offset + w.token.spelling.utf8ByteSize⟩⟩ ::
      lexemes (offset + w.token.spelling.utf8ByteSize + w.gap.utf8ByteSize) ws

/-- The tokens can be written, the gaps are space, and there is space between any two tokens. After
the last one there may be none. -/
structure Apart (ws : List SpacedToken) : Prop where
  writable : ∀ w ∈ ws, w.token.Writable
  space : ∀ w ∈ ws, ∀ c ∈ w.gap.toList, isSpace c = true
  between : ∀ w ∈ ws.dropLast, w.gap ≠ ""

theorem Apart.tail {w : SpacedToken} {ws : List SpacedToken} (h : Apart (w :: ws)) : Apart ws := by
  refine ⟨fun x hx => h.writable x (List.mem_cons_of_mem _ hx),
    fun x hx => h.space x (List.mem_cons_of_mem _ hx), fun x hx => ?_⟩
  cases ws with
  | nil => cases hx
  | cons w' ws =>
    apply h.between
    rw [List.dropLast_cons_cons]
    exact List.mem_cons_of_mem _ hx

theorem map_token_lexemes (n : Nat) (ws : List SpacedToken) :
    (lexemes n ws).map Lexeme.token = ws.map SpacedToken.token := by
  induction ws generalizing n with
  | nil => rfl
  | cons w ws ih => rw [lexemes, List.map_cons, ih, List.map_cons]

theorem toList_text_cons (w : SpacedToken) (ws : List SpacedToken) :
    (text (w :: ws)).toList = w.token.spelling.toList ++ (w.gap.toList ++ (text ws).toList) := by
  rw [text, String.toList_append, String.toList_append, List.append_assoc]

theorem exists_split_of_mem_lexemes {n : Nat} {ws : List SpacedToken} {l : Lexeme}
    (hl : l ∈ lexemes n ws) :
    ∃ before after, (text ws).toList = before ++ l.token.spelling.toList ++ after ∧
      l.span = ⟨n + utf8Len before, n + utf8Len before + utf8Len l.token.spelling.toList⟩ := by
  induction ws generalizing n with
  | nil => cases hl
  | cons w ws ih =>
    rw [toList_text_cons]
    rcases List.mem_cons.1 hl with rfl | hmore
    · exact ⟨[], w.gap.toList ++ (text ws).toList, rfl, by rw [utf8ByteSize_eq]; rfl⟩
    · obtain ⟨before, after, htext, hspan⟩ := ih hmore
      refine ⟨w.token.spelling.toList ++ w.gap.toList ++ before, after, ?_, ?_⟩
      · rw [htext]
        simp only [List.append_assoc]
      · rw [hspan, utf8ByteSize_eq, utf8ByteSize_eq, String.utf8Len_append, String.utf8Len_append]
        simp only [Nat.add_assoc]

end SpacedToken

/-! ## Reading them back -/

theorem closes_of_isSpace {c : Char} (hc : isSpace c = true) : Closes (some c) := by
  rintro _ ⟨⟩
  cases hpart : isNamePart c with
  | true =>
    rw [isSpace_of_isNamePart hpart] at hc
    cases hc
  | false =>
    refine ⟨rfl, ?_⟩
    rintro rfl
    exact absurd hc (by decide)

theorem Token.Writable.spelled {t : Token} (h : t.Writable) : t.Spelled t.spelling := by
  cases t with
  | integer value =>
    have hdigits : (Token.integer value).spelling.toList = Nat.toDigits 10 value.val.toNat :=
      Word.spelling_integer h
    refine ⟨?_, ?_, ?_⟩
    · rw [Ne, ← String.toList_eq_nil_iff, hdigits]
      exact Nat.toDigits_ne_nil
    · rw [hdigits]
      exact fun c hc => Nat.isDigit_of_mem_toDigits (by decide) (by decide) hc
    · rw [hdigits, Nat.ofDigitChars_ten_toDigits]
      exact Int.toNat_of_nonneg h
  | _ => exact ⟨h, rfl⟩

theorem Tiled.blanks {next : Option Char} {n : Nat} {cs space : List Char} {ls : List Lexeme}
    (hspace : ∀ c ∈ space, isSpace c = true) (h : Tiled next (n + utf8Len space) cs ls) :
    Tiled next n (space ++ cs) ls := by
  induction space generalizing n with
  | nil => exact h
  | cons c space ih =>
    obtain ⟨hc, hothers⟩ := List.forall_mem_cons.1 hspace
    rw [String.utf8Len_cons, Nat.add_comm (utf8Len space), ← Nat.add_assoc] at h
    exact .space hc (ih hothers h)

theorem tiled_spaced (n : Nat) {ws : List SpacedToken} (h : SpacedToken.Apart ws) :
    Tiled none n (SpacedToken.text ws).toList (SpacedToken.lexemes n ws) := by
  induction ws generalizing n with
  | nil => exact .none n
  | cons w ws ih =>
    have hspelled := (h.writable w List.mem_cons_self).spelled
    have hgap := h.space w List.mem_cons_self
    have hends : Closes ((w.gap.toList ++ (SpacedToken.text ws).toList).head?.or none) := by
      rw [Option.or_none]
      cases hchars : w.gap.toList with
      | cons c cs =>
        rw [hchars] at hgap
        exact closes_of_isSpace (hgap c List.mem_cons_self)
      | nil =>
        cases ws with
        | nil => exact fun _ hc => by cases hc
        | cons w' ws =>
          have hne : w.gap ≠ "" := h.between w List.mem_cons_self
          exact absurd (String.toList_eq_nil_iff.1 hchars) hne
    rw [SpacedToken.toList_text_cons, SpacedToken.lexemes, utf8ByteSize_eq, utf8ByteSize_eq]
    refine .word ?_ (w.token.endsBefore_of_closes hends) (.blanks hgap (ih _ h.tail))
    rwa [String.ofList_toList]

/-- Tokens that are written out with space between them, and perhaps before and after them, are read
back: the same tokens in the same order, each at the span of its text, and then the end. -/
theorem tokenize_spaced {lead : String} {ws : List SpacedToken}
    (hlead : ∀ c ∈ lead.toList, isSpace c = true) (hws : SpacedToken.Apart ws) :
    let source := lead ++ SpacedToken.text ws
    let words := SpacedToken.lexemes lead.utf8ByteSize ws
    tokenize source =
        .ok (words ++ [⟨.endOfFile, ⟨source.utf8ByteSize, source.utf8ByteSize⟩⟩]) ∧
      words.map Lexeme.token = ws.map SpacedToken.token ∧
      ∀ l ∈ words, l.span.Inside source ∧ l.span.slice source = l.token.spelling := by
  intro source words
  have hsource : source.toList = lead.toList ++ (SpacedToken.text ws).toList :=
    String.toList_append
  refine ⟨?_, SpacedToken.map_token_lexemes _ ws, fun l hl => ?_⟩
  · apply tokenize_of_tiled
    rw [hsource]
    apply Tiled.blanks hlead
    rw [Nat.zero_add, ← utf8ByteSize_eq]
    exact tiled_spaced _ hws
  · obtain ⟨before, after, htext, hspan⟩ := SpacedToken.exists_split_of_mem_lexemes hl
    have hsplit : source.toList =
        (lead.toList ++ before) ++ l.token.spelling.toList ++ after := by
      rw [hsource, htext]
      simp only [List.append_assoc]
    rw [utf8ByteSize_eq, ← String.utf8Len_append] at hspan
    rw [hspan]
    refine ⟨Span.inside_of_split hsplit, ?_⟩
    rw [Span.slice_of_split hsplit, String.ofList_toList]

/-- A string that holds a keyword and a line feed, a letter of two bytes, and an equals sign between
two operators that end in one. -/
theorem tokenize_spaced_neighbours :
    tokenize "\t\"chop\n\" ў \x0c<= = \r\n>= 7" =
      .ok [⟨.text "chop\n", ⟨1, 8⟩⟩, ⟨.ident "ў", ⟨9, 11⟩⟩, ⟨.operator .lessOrEqual, ⟨13, 15⟩⟩,
        ⟨.assign, ⟨16, 17⟩⟩, ⟨.operator .greaterOrEqual, ⟨20, 22⟩⟩,
        ⟨.integer ⟨7, by decide⟩, ⟨23, 24⟩⟩, ⟨.endOfFile, ⟨24, 24⟩⟩] := by
  let ws : List SpacedToken :=
    [⟨.text "chop\n", " "⟩, ⟨.ident "ў", " \x0c"⟩, ⟨.operator .lessOrEqual, " "⟩, ⟨.assign, " \r\n"⟩,
      ⟨.operator .greaterOrEqual, " "⟩, ⟨.integer ⟨7, by decide⟩, ""⟩]
  have hname : IsName "ў" := ⟨⟨'ў', [], rfl, by decide +kernel, by simp⟩, by decide +kernel⟩
  have hws : SpacedToken.Apart ws := by
    refine ⟨?_, ?_, ?_⟩
    · simp [ws, Token.Writable, hname]
    · simp [ws, isSpace]
    · simp [ws]
  have hlead : ∀ c ∈ "\t".toList, isSpace c = true := by simp [isSpace]
  exact (tokenize_spaced hlead hws).1

end UzScript
