import UzScript.Proofs.LongestMatch

/-! # Reading on, also after faults

A cursor is read again and again, whatever each reading gives. One reading goes on where the last one
stopped, so no text is left out and none is read twice, until the end of the text or a character that
starts no word is met. From there every reading gives the same. -/

set_option autoImplicit false

namespace UzScript

open String (utf8Len)

/-- What one reading gives. -/
abbrev Reading := Except LexFault Lexeme

namespace Reading

def span : Reading → Span
  | .ok lexeme => lexeme.span
  | .error fault => fault.span

def IsUnknown : Reading → Prop
  | .ok _ => False
  | .error fault => ∃ c, fault.cause = .unknownCharacter c

/-- The end of the text was met, or a character that starts no word. -/
def IsFinal : Reading → Prop
  | .ok lexeme => lexeme.token = .endOfFile
  | .error fault => ∃ c, fault.cause = .unknownCharacter c

end Reading

/-- The text at the span is space. -/
structure Blank (source : String) (span : Span) : Prop where
  inside : span.Inside source
  space : ∀ c ∈ (span.slice source).toList, isSpace c = true

namespace Cursor

def afterReads : Nat → Cursor → Cursor
  | 0, cursor => cursor
  | n + 1, cursor => afterReads n cursor.next.2

theorem afterReads_succ (n : Nat) (cursor : Cursor) :
    cursor.afterReads (n + 1) = (cursor.afterReads n).next.2 := by
  induction n generalizing cursor with
  | zero => rfl
  | succ n ih => exact ih cursor.next.2

/-- What the source gives when it is read after `i` readings. -/
def reading (source : String) (i : Nat) : Reading := ((ofText source).afterReads i).next.1

theorem reached_afterReads {source : String} {cursor : Cursor} (h : cursor.Reached source)
    (n : Nat) : (cursor.afterReads n).Reached source := by
  induction n generalizing cursor with
  | zero => exact h
  | succ n ih => exact ih (.next h)

end Cursor

/-! ## One reading -/

namespace Munch

variable {start : Nat} {text : List Char} {result : Reading × Cursor}

theorem start_eq (h : Munch start text result) : result.1.span.start = start := by
  cases h <;> rfl

theorem passed (h : Munch start text result) (hknown : ¬ result.1.IsUnknown) :
    ∃ back, result.2 = .standing result.1.span.stop back := by
  cases h with
  | ended | token | integerTooLarge | unclosedText => exact ⟨_, rfl⟩
  | unknownCharacter => exact absurd ⟨_, rfl⟩ hknown

theorem stays (h : Munch start text result) (hfinal : result.1.IsFinal) :
    result.2 = .standing start text := by
  cases h with
  | ended | unknownCharacter => rfl
  | token _ spelled => exact absurd hfinal spelled.ne_endOfFile
  | integerTooLarge | unclosedText =>
    obtain ⟨c, hc⟩ := hfinal
    cases hc

theorem length_lt (h : Munch start text result) (hfinal : ¬ result.1.IsFinal) :
    result.2.rest.length < text.length := by
  have hstanding : ∀ (n : Nat) (cs : List Char), (Cursor.standing n cs).rest.length = cs.length :=
    length_placed
  cases h with
  | ended => exact absurd rfl hfinal
  | unknownCharacter => exact absurd ⟨_, rfl⟩ hfinal
  | unclosedText => exact Nat.succ_pos _
  | token longest _ | integerTooLarge longest _ _ =>
    have hword := List.length_pos_iff.2 longest.lexical.ne_nil
    rw [hstanding, List.length_append]
    omega

theorem end_of_text (h : Munch start text result) {span : Span}
    (hend : result.1 = .ok ⟨.endOfFile, span⟩) : text = [] := by
  cases h with
  | ended => rfl
  | token _ spelled =>
    have htoken := congrArg Lexeme.token (Except.ok.inj hend)
    exact absurd htoken spelled.ne_endOfFile
  | integerTooLarge | unclosedText | unknownCharacter => cases hend

theorem rest_of_unclosed (h : Munch start text result)
    (hcause : ∃ span, result.1 = .error ⟨.unclosedText, span⟩) :
    result.2 = .standing (start + utf8Len text) [] := by
  obtain ⟨span, hspan⟩ := hcause
  cases h with
  | unclosedText => rfl
  | ended | token | integerTooLarge | unknownCharacter => cases hspan

end Munch

namespace Cursor

variable {source : String} {cursor : Cursor}

theorem Reached.munch (h : cursor.Reached source) :
    ∃ before blanks text, source.toList = before ++ blanks ++ text ∧
      (∀ c ∈ blanks, isSpace c = true) ∧ (∀ c ∈ text.head?, isSpace c = false) ∧
      cursor = .standing (utf8Len before) (blanks ++ text) ∧
      Munch (utf8Len (before ++ blanks)) text cursor.next := by
  obtain ⟨before, rest, hsource, rfl⟩ := h.standing
  obtain ⟨blanks, text, rfl, hblanks, htext⟩ := exists_blanks rest
  refine ⟨before, blanks, text, by rw [hsource, List.append_assoc], hblanks, htext, rfl, ?_⟩
  rw [next_standing _ hblanks htext, String.utf8Len_append]
  exact readWord_eq_iff.1 rfl

theorem Reached.space_before (h : cursor.Reached source) :
    Blank source ⟨cursor.offset, (Reading.span cursor.next.1).start⟩ := by
  obtain ⟨before, blanks, text, hsource, hblanks, -, hcursor, hmunch⟩ := h.munch
  rw [hmunch.start_eq, hcursor, offset_standing, String.utf8Len_append]
  refine ⟨Span.inside_of_split hsource, ?_⟩
  rwa [Span.slice_of_split hsource, String.toList_ofList]

theorem Reached.offset_next (h : cursor.Reached source)
    (hknown : ¬ Reading.IsUnknown cursor.next.1) :
    cursor.next.2.offset = (Reading.span cursor.next.1).stop := by
  obtain ⟨before, blanks, text, -, -, -, -, hmunch⟩ := h.munch
  obtain ⟨back, hcursor⟩ := hmunch.passed hknown
  rw [hcursor, offset_standing]

theorem Reached.next_again (h : cursor.Reached source) (hfinal : Reading.IsFinal cursor.next.1) :
    cursor.next.2.next = cursor.next := by
  obtain ⟨before, blanks, text, -, -, htext, -, hmunch⟩ := h.munch
  have hagain : (Cursor.standing (utf8Len (before ++ blanks)) text).next =
      (Cursor.standing (utf8Len (before ++ blanks)) text).readWord :=
    next_standing _ (List.forall_mem_nil _) htext
  rw [hmunch.stays hfinal, hagain]
  exact readWord_eq_iff.2 hmunch

theorem Reached.next_unclosed (h : cursor.Reached source)
    (hcause : ∃ span, cursor.next.1 = .error ⟨.unclosedText, span⟩) :
    cursor.next.2.next.1 = .ok ⟨.endOfFile, ⟨source.utf8ByteSize, source.utf8ByteSize⟩⟩ := by
  obtain ⟨before, blanks, text, hsource, -, -, -, hmunch⟩ := h.munch
  rw [hmunch.rest_of_unclosed hcause, utf8ByteSize_eq, hsource, ← String.utf8Len_append]
  rfl

theorem Reached.end_at_size (h : cursor.Reached source) {span : Span}
    (hend : cursor.next.1 = .ok ⟨.endOfFile, span⟩) :
    span = ⟨source.utf8ByteSize, source.utf8ByteSize⟩ := by
  obtain ⟨before, blanks, text, hsource, -, -, -, hmunch⟩ := h.munch
  obtain rfl := hmunch.end_of_text hend
  have hread := readWord_eq_iff.2 hmunch
  rw [← hread] at hend
  rw [utf8ByteSize_eq, hsource, List.append_nil]
  exact (congrArg Lexeme.span (Except.ok.inj hend)).symm

/-! ## All readings -/

/-- As every other reading passes a character, the final one comes in time. -/
theorem Reached.exists_final (h : cursor.Reached source) :
    ∃ i, i ≤ cursor.rest.length ∧ Reading.IsFinal (cursor.afterReads i).next.1 := by
  generalize hlength : cursor.rest.length = length
  induction length using Nat.strong_induction_on generalizing cursor with
  | h length ih =>
    by_cases hfinal : Reading.IsFinal cursor.next.1
    · exact ⟨0, Nat.zero_le _, hfinal⟩
    · obtain ⟨before, blanks, text, -, -, -, hcursor, hmunch⟩ := h.munch
      have hlt := hmunch.length_lt hfinal
      have hle : text.length ≤ cursor.rest.length := by
        rw [hcursor, Cursor.standing, length_placed, List.length_append]
        omega
      obtain ⟨i, hi, hlast⟩ := ih _ (by omega) (.next h) rfl
      exact ⟨i + 1, by omega, hlast⟩

theorem Reached.afterReads_final (h : cursor.Reached source)
    (hfinal : Reading.IsFinal cursor.next.1) (n : Nat) : (cursor.afterReads n).next = cursor.next := by
  induction n with
  | zero => rfl
  | succ n ih => rw [afterReads_succ, ih, h.next_again hfinal]

theorem Reached.readAll_ok (h : cursor.Reached source) (hread : cursor.readAll.2 = none) (i : Nat) :
    ∃ lexeme, (cursor.afterReads i).next.1 = .ok lexeme := by
  fun_induction readAll cursor generalizing i with
  | case1 cursor fault after hnext => cases hread
  | case2 cursor lexeme after hnext hend =>
    have hfinal : Reading.IsFinal cursor.next.1 := by
      rw [hnext]
      exact hend
    exact ⟨lexeme, by rw [h.afterReads_final hfinal, hnext]⟩
  | case3 cursor lexeme after hnext hend more fault hmore ih =>
    rw [hmore] at ih
    have hafter : after.Reached source := by
      have hreached := Reached.next h
      rwa [hnext] at hreached
    cases i with
    | zero => exact ⟨lexeme, congrArg Prod.fst hnext⟩
    | succ i =>
      rw [afterReads, hnext]
      exact ih hafter hread i

theorem readAll_fault_first {fault : LexFault} (hread : cursor.readAll.2 = some fault) :
    ∃ i, (cursor.afterReads i).next.1 = .error fault ∧
      ∀ j < i, ∃ lexeme, (cursor.afterReads j).next.1 = .ok lexeme := by
  fun_induction readAll cursor with
  | case1 cursor fault' after hnext =>
    obtain rfl := Option.some.inj hread
    exact ⟨0, congrArg Prod.fst hnext, by simp⟩
  | case2 => cases hread
  | case3 cursor lexeme after hnext hend more fault' hmore ih =>
    rw [hmore] at ih
    obtain ⟨i, hi, hbefore⟩ := ih hread
    refine ⟨i + 1, by rwa [afterReads, hnext], ?_⟩
    intro j hj
    cases j with
    | zero => exact ⟨lexeme, congrArg Prod.fst hnext⟩
    | succ j =>
      rw [afterReads, hnext]
      exact hbefore j (by omega)

end Cursor

open Cursor (reading)

theorem reading_of_tokenize {source : String} {lexemes : List Lexeme}
    (h : tokenize source = .ok lexemes) (i : Nat) : ∃ lexeme, reading source i = .ok lexeme := by
  unfold tokenize at h
  split at h
  · next hread => exact Cursor.Reached.start.readAll_ok (congrArg Prod.snd hread) i
  · cases h

theorem reading_of_tokenize_error {source : String} {fault : LexFault}
    (h : tokenize source = .error fault) :
    ∃ i, reading source i = .error fault ∧ ∀ j < i, ∃ lexeme, reading source j = .ok lexeme := by
  unfold tokenize at h
  split at h
  · cases h
  · next hread =>
    obtain rfl := Except.error.inj h
    exact Cursor.readAll_fault_first (congrArg Prod.snd hread)

theorem tokenize_ok_iff {source : String} :
    (∃ lexemes, tokenize source = .ok lexemes) ↔ ∀ i, ∃ lexeme, reading source i = .ok lexeme := by
  constructor
  · rintro ⟨lexemes, hread⟩
    exact reading_of_tokenize hread
  · intro hall
    cases hread : tokenize source with
    | ok lexemes => exact ⟨lexemes, rfl⟩
    | error fault =>
      obtain ⟨i, hi, -⟩ := reading_of_tokenize_error hread
      obtain ⟨lexeme, hlexeme⟩ := hall i
      rw [hi] at hlexeme
      cases hlexeme

theorem tokenize_error_iff {source : String} {fault : LexFault} :
    tokenize source = .error fault ↔
      ∃ i, reading source i = .error fault ∧ ∀ j < i, ∃ lexeme, reading source j = .ok lexeme := by
  refine ⟨reading_of_tokenize_error, ?_⟩
  rintro ⟨i, hi, hbefore⟩
  cases hread : tokenize source with
  | ok lexemes =>
    obtain ⟨lexeme, hlexeme⟩ := reading_of_tokenize hread i
    rw [hi] at hlexeme
    cases hlexeme
  | error fault' =>
    obtain ⟨i', hi', hbefore'⟩ := reading_of_tokenize_error hread
    have hle : ¬ i < i' := by
      intro hlt
      obtain ⟨lexeme, hlexeme⟩ := hbefore' i hlt
      rw [hi] at hlexeme
      cases hlexeme
    have hge : ¬ i' < i := by
      intro hlt
      obtain ⟨lexeme, hlexeme⟩ := hbefore i' hlt
      rw [hi'] at hlexeme
      cases hlexeme
    obtain rfl : i = i' := by omega
    rw [hi] at hi'
    obtain rfl := Except.error.inj hi'
    rfl

/-- A source that is read on and on, past its faults. The first reading starts after nothing but
space, and so does each reading, seen from the span of the one before, unless that one met a character
that starts no word. Such a character, and the end of the text, are met again by every later reading,
while the cursor stays, and one of the two is met within one reading more than there are characters.
The end is at the end of the source, and comes next after a string that is not closed. The source has
tokens exactly when no reading gives a fault, and otherwise it has the first fault. -/
theorem readings_of_source (source : String) :
    Blank source ⟨0, (reading source 0).span.start⟩ ∧
    (∀ i, ¬ (reading source i).IsUnknown →
      Blank source ⟨(reading source i).span.stop, (reading source (i + 1)).span.start⟩) ∧
    (∀ i, (reading source i).IsFinal → reading source (i + 1) = reading source i ∧
      (Cursor.ofText source).afterReads (i + 2) = (Cursor.ofText source).afterReads (i + 1)) ∧
    (∀ i span, reading source i = .error ⟨.unclosedText, span⟩ →
      reading source (i + 1) = .ok ⟨.endOfFile, ⟨source.utf8ByteSize, source.utf8ByteSize⟩⟩) ∧
    (∀ i span, reading source i = .ok ⟨.endOfFile, span⟩ →
      span = ⟨source.utf8ByteSize, source.utf8ByteSize⟩) ∧
    (∃ i, i < source.length + 1 ∧ (reading source i).IsFinal) ∧
    ((∃ lexemes, tokenize source = .ok lexemes) ↔ ∀ i, ∃ lexeme, reading source i = .ok lexeme) ∧
    ∀ fault, tokenize source = .error fault ↔
      ∃ i, reading source i = .error fault ∧ ∀ j < i, ∃ lexeme, reading source j = .ok lexeme := by
  let cursor := fun i => (Cursor.ofText source).afterReads i
  have hreached : ∀ i, (cursor i).Reached source := Cursor.reached_afterReads .start
  have hcursor : ∀ i, cursor (i + 1) = (cursor i).next.2 := fun i => Cursor.afterReads_succ i _
  have hreading : ∀ i, reading source (i + 1) = (cursor i).next.2.next.1 := by
    intro i
    rw [← hcursor]
    rfl
  refine ⟨?_, ?_, ?_, ?_, ?_, ?_, tokenize_ok_iff, fun fault => tokenize_error_iff⟩
  · have hoffset : (cursor 0).offset = 0 := Cursor.offset_standing 0 source.toList
    have hblank := (hreached 0).space_before
    rwa [hoffset] at hblank
  · intro i hknown
    have hblank := (hreached (i + 1)).space_before
    rwa [hcursor, (hreached i).offset_next hknown, ← hreading] at hblank
  · intro i hfinal
    have hagain := (hreached i).next_again hfinal
    have hstays : cursor (i + 2) = cursor (i + 1) := by rw [hcursor (i + 1), hcursor i, hagain]
    rw [hreading, hagain]
    exact ⟨rfl, hstays⟩
  · intro i span hcause
    rw [hreading]
    exact (hreached i).next_unclosed ⟨span, hcause⟩
  · intro i span hend
    exact (hreached i).end_at_size hend
  · obtain ⟨i, hi, hfinal⟩ := (hreached 0).exists_final
    have hlength : (cursor 0).rest.length = source.length :=
      (length_placed 0 source.toList).trans String.length_toList
    exact ⟨i, by omega, hfinal⟩

end UzScript
