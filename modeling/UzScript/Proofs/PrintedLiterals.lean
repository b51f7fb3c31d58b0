import UzScript.Proofs.ExactArithmetic
import UzScript.Proofs.Excerpts
import UzScript.Proofs.LongestMatch
import UzScript.Proofs.Positions
import UzScript.Proofs.SpacedTokens

/-! # Literals print as themselves

A script that prints one literal prints its text: a quoted text without the quotes, and digits without
the zeros in front of them. Digits whose value is no integer of the language are refused before
anything is printed. -/

set_option autoImplicit false

namespace UzScript

open String (utf8Len)

/-! ## Decimal digits -/

/-- The text is one decimal digit or more. -/
structure IsDigits (text : String) : Prop where
  nonempty : text ≠ ""
  digits : ∀ c ∈ text.toList, c.isDigit = true

def digitsValue (text : String) : Nat := Nat.ofDigitChars 10 text.toList 0

/-- The digits without the zeros in front of them. Of zeros alone, one stays. -/
def withoutLeadingZeros (text : String) : String :=
  match text.toList.dropWhile (· = '0') with
  | [] => "0"
  | c :: cs => String.ofList (c :: cs)

theorem digit_lt_ten {c : Char} (h : c.isDigit = true) : c.toNat - '0'.toNat < 10 := by
  obtain ⟨-, hhigh⟩ := toNat_of_isDigit h
  have hzero : '0'.toNat = 48 := rfl
  omega

theorem digitChar_of_isDigit {c : Char} (h : c.isDigit = true) :
    (c.toNat - '0'.toNat).digitChar = c := by
  obtain ⟨hlow, -⟩ := toNat_of_isDigit h
  have hzero : '0'.toNat = 48 := rfl
  apply Char.toNat_inj.1
  rw [Nat.toNat_digitChar_of_lt_ten (digit_lt_ten h)]
  omega

theorem utf8Len_of_digits {cs : List Char} (h : ∀ c ∈ cs, c.isDigit = true) :
    utf8Len cs = cs.length := by
  induction cs with
  | nil => rfl
  | cons c cs ih =>
    obtain ⟨hc, hcs⟩ := List.forall_mem_cons.1 h
    have hsize : c.utf8Size = 1 := by
      rw [Char.utf8Size_eq_one_iff, UInt32.le_iff_toNat_le]
      exact Nat.le_trans (toNat_of_isDigit hc).2 (by decide)
    rw [String.utf8Len_cons, ih hcs, hsize, List.length_cons]

/-- Further digits are written after the digits of what came before them, unless that is zero. -/
theorem toDigits_ofDigitChars {n : Nat} (hn : 0 < n) {cs : List Char}
    (hcs : ∀ c ∈ cs, c.isDigit = true) :
    Nat.toDigits 10 (Nat.ofDigitChars 10 cs n) = Nat.toDigits 10 n ++ cs := by
  induction cs generalizing n with
  | nil => exact (List.append_nil _).symm
  | cons c cs ih =>
    obtain ⟨hc, hrest⟩ := List.forall_mem_cons.1 hcs
    have hdigit : Nat.toDigits 10 (c.toNat - '0'.toNat) = [c] := by
      rw [Nat.toDigits_of_lt_base (digit_lt_ten hc), digitChar_of_isDigit hc]
    rw [Nat.ofDigitChars_cons, ih (by omega) hrest,
      ← Nat.toDigits_append_toDigits (by decide) hn (digit_lt_ten hc), hdigit, List.append_assoc]
    rfl

theorem ofDigitChars_dropWhile_zero (cs : List Char) :
    Nat.ofDigitChars 10 cs 0 = Nat.ofDigitChars 10 (cs.dropWhile (· = '0')) 0 := by
  induction cs with
  | nil => rfl
  | cons c cs ih =>
    by_cases hc : c = '0'
    · rw [List.dropWhile_cons_of_pos (by simpa using hc), ← ih, hc]
      rfl
    · rw [List.dropWhile_cons_of_neg (by simpa using hc)]

theorem toString_digitsValue {text : String} (h : IsDigits text) :
    toString (digitsValue text) = withoutLeadingZeros text := by
  rw [digitsValue, ofDigitChars_dropWhile_zero, withoutLeadingZeros]
  cases hdrop : text.toList.dropWhile (· = '0') with
  | nil => rfl
  | cons c cs =>
    have hhead : c ≠ '0' := by
      have hnot := List.head?_dropWhile_not (fun c : Char => decide (c = '0')) text.toList
      simpa [hdrop] using hnot
    have hall : ∀ d ∈ c :: cs, d.isDigit = true := by
      intro d hd
      apply h.digits
      rw [← hdrop] at hd
      exact (List.dropWhile_suffix _).subset hd
    obtain ⟨hc, hcs⟩ := List.forall_mem_cons.1 hall
    have hpositive : 0 < c.toNat - '0'.toNat := by
      rw [Nat.pos_iff_ne_zero]
      intro hzero
      have hchar := digitChar_of_isDigit hc
      rw [hzero] at hchar
      exact hhead hchar.symm
    rw [Nat.toString_eq_ofList_toDigits, Nat.ofDigitChars_cons, Nat.mul_zero, Nat.zero_add,
      toDigits_ofDigitChars hpositive hcs, Nat.toDigits_of_lt_base (digit_lt_ten hc),
      digitChar_of_isDigit hc]
    rfl

/-! ## Scripts that print one expression -/

theorem Machine.run_print {e : Expr} {v : Value} (location whole : Span)
    (heval : ∀ invoke, Eval.expr invoke e .initial = .ok v .initial) :
    Machine.initial.run ⟨[.print e location], whole⟩ = (.ok (), ⟨.initial, #[v.print]⟩) := by
  have hstmt : ∀ invoke, Eval.stmt invoke (.print e location) .initial =
      .ok .done ⟨.initial, #[v.print]⟩ := by
    intro invoke
    rw [Eval.stmt, bind_of_ok (heval invoke)]
    rfl
  have hall : Machine.execute [.print e location] .initial = .ok .done ⟨.initial, #[v.print]⟩ := by
    change Eval.stmts _ [.print e location] .initial = _
    rw [Eval.stmts, bind_of_ok (hstmt _)]
    rfl
  rw [Machine.run, hall]

theorem run_printed {text : String} {ls : List Lexeme} {e : Expr} {v : Value} (path : String)
    (htiled : Tiled none 0 text.toList ls)
    (hexpr : ∀ last stop, Parser.expression nestingLimit
      (ls.map (Lexeme.shift 5) ++ [⟨.semicolon, last⟩, ⟨.endOfFile, stop⟩]) =
        .ok e [⟨.semicolon, last⟩, ⟨.endOfFile, stop⟩])
    (heval : ∀ invoke, Eval.expr invoke e .initial = .ok v .initial) :
    Script.run ⟨path, "chop " ++ text ++ ";"⟩ = (.ok (), #[v.print]) := by
  let script : Script := ⟨path, "chop " ++ text ++ ";"⟩
  have htokens : tokenize script.source = _ := tokenize_of_tiled (tiled_printed htiled)
  have hprogram := Script.program_ok.2 ⟨_, htokens, parse_printed (hexpr _ _)⟩
  rw [Script.run_of_program hprogram, Machine.run_print _ _ heval]
  rfl

/-- The value of digits that is not too large, as an integer of the language. -/
def digitsInteger (text : String) (hfits : (digitsValue text : Int) ≤ Integer.greatest) : Integer :=
  ⟨digitsValue text, by unfold Integer.greatest at hfits; omega⟩

theorem toString_neg {n : Nat} (hn : 0 < n) : toString (-(n : Int)) = "-" ++ toString n := by
  obtain ⟨k, rfl⟩ : ∃ k, n = k + 1 := ⟨n - 1, by omega⟩
  rfl

theorem eval_operation {op : Operator} {a b i : Integer} (happly : op.apply a b = .ok i)
    (invoke : Eval.Invoke) (m : Machine) (left right location : Span) :
    Eval.expr invoke (.binary op (.integer a left) (.integer b right) location) m =
      .ok (.integer i) m := by
  have hoperation : Eval.operation op a b location m = .ok i m := by
    rw [Eval.operation, happly]
    rfl
  exact bind_of_ok hoperation

section Digits

variable {text : String} (h : IsDigits text)

include h

theorem IsDigits.spelled (hfits : (digitsValue text : Int) ≤ Integer.greatest) :
    (Token.integer (digitsInteger text hfits)).Spelled (String.ofList text.toList) := by
  rw [String.ofList_toList]
  exact ⟨h.nonempty, h.digits, rfl⟩

theorem IsDigits.tiled (n : Nat) (hfits : (digitsValue text : Int) ≤ Integer.greatest) :
    Tiled none n text.toList
      [⟨.integer (digitsInteger text hfits), ⟨n, n + utf8Len text.toList⟩⟩] :=
  .single n (h.spelled hfits) (Token.Spelled.endsBefore_none _)

theorem run_integer (path : String) (hfits : (digitsValue text : Int) ≤ Integer.greatest) :
    Script.run ⟨path, "chop " ++ text ++ ";"⟩ = (.ok (), #[withoutLeadingZeros text]) := by
  rw [← toString_digitsValue h]
  exact run_printed path (h.tiled 0 hfits) (fun _ _ => rfl) (fun _ => rfl)

theorem run_negated (path : String) (hfits : (digitsValue text : Int) ≤ Integer.greatest)
    (hpositive : 0 < digitsValue text) :
    Script.run ⟨path, "chop " ++ ("0 - " ++ text) ++ ";"⟩ =
      (.ok (), #["-" ++ withoutLeadingZeros text]) := by
  let difference : Integer := ⟨-digitsValue text, by unfold Integer.greatest at hfits; omega⟩
  have happly : Operator.subtract.apply .zero (digitsInteger text hfits) = .ok difference :=
    Operator.apply_of_gives (Int.zero_sub _).symm
  have hzero : (Token.integer .zero).Spelled (String.ofList ['0']) :=
    ⟨by decide, List.all_eq_true.1 rfl, rfl⟩
  have hminus : (Token.operator .subtract).Spelled (String.ofList ['-']) := ⟨trivial, rfl⟩
  have hends : (Token.integer .zero).EndsBefore (some ' ') :=
    Token.endsBefore_of_closes _ (closes_of_isSpace rfl)
  have htiled : Tiled none 0 (['0'] ++ ' ' :: (['-'] ++ ' ' :: text.toList)) _ :=
    .word hzero hends (.space rfl (.word hminus trivial (.space rfl (h.tiled 4 hfits))))
  have hchars : ("0 - " ++ text).toList = ['0'] ++ ' ' :: (['-'] ++ ' ' :: text.toList) := by simp
  rw [← hchars] at htiled
  rw [← toString_digitsValue h, ← toString_neg hpositive]
  exact run_printed path htiled (fun _ _ => rfl) fun invoke => eval_operation happly invoke _ _ _ _

theorem readAll_tooLarge (n : Nat) (hlarge : Integer.greatest < digitsValue text) :
    (Cursor.standing n (text.toList ++ [';'])).readAll =
      ([], some ⟨.integerTooLarge, ⟨n, n + text.length⟩⟩) := by
  obtain ⟨c, cs, hdigits⟩ : ∃ c cs, text.toList = c :: cs :=
    List.exists_cons_of_ne_nil (mt String.toList_eq_nil_iff.1 h.nonempty)
  have hall : ∀ d ∈ c :: cs, d.isDigit = true := hdigits ▸ h.digits
  have hnospace : isSpace c = false :=
    isSpace_of_isNamePart (isNamePart_of_isDigit (hall c List.mem_cons_self))
  rw [digitsValue, hdigits] at hlarge
  rw [← String.length_toList, hdigits, ← utf8Len_of_digits hall]
  have hfault : Word.read ⟨n, c⟩ (placed (n + c.utf8Size) (cs ++ [';'])) =
      .fault .integerTooLarge (c :: cs).length := Word.read_tooLarge n hall (by simp) hlarge
  have hnext : (Cursor.standing n ([] ++ (c :: cs ++ [';']))).next =
      (Cursor.standing n (c :: cs ++ [';'])).readWord :=
    Cursor.next_standing n (by simp) (by simpa using hnospace)
  exact Cursor.readAll_fault (hnext.trans (Cursor.readWord_passed n (by simp) rfl hfault))

theorem tokenize_tooLarge (hlarge : Integer.greatest < digitsValue text) :
    tokenize ("chop " ++ text ++ ";") = .error ⟨.integerTooLarge, ⟨5, 5 + text.length⟩⟩ := by
  have hchars : ("chop " ++ text ++ ";").toList =
      ['c', 'h', 'o', 'p'] ++ [' '] ++ (text.toList ++ [';']) := by simp
  have hspace : (Token.keyword .print).EndsBefore (some ' ') :=
    Token.endsBefore_of_closes _ (closes_of_isSpace rfl)
  have hkeyword : Tiled (text.toList ++ [';']).head? 0 (['c', 'h', 'o', 'p'] ++ [' '])
      [⟨.keyword .print, ⟨0, 4⟩⟩] := .word ⟨trivial, rfl⟩ hspace (.space rfl (.none _))
  have hread : (Cursor.ofText ("chop " ++ text ++ ";")).readAll =
      ([⟨.keyword .print, ⟨0, 4⟩⟩], some ⟨.integerTooLarge, ⟨5, 5 + text.length⟩⟩) := by
    change (Cursor.standing 0 ("chop " ++ text ++ ";").toList).readAll = _
    have hlength : 0 + utf8Len (['c', 'h', 'o', 'p'] ++ [' ']) = 5 := rfl
    rw [hchars, hkeyword.readAll, hlength, readAll_tooLarge h 5 hlarge]
    rfl
  rw [tokenize, hread]

theorem run_tooLarge (path : String) (hlarge : Integer.greatest < digitsValue text) :
    Script.run ⟨path, "chop " ++ text ++ ";"⟩ =
      (.error (.lexical ⟨path, "chop " ++ text ++ ";"⟩
        ⟨.integerTooLarge, ⟨5, 5 + text.length⟩⟩), #[]) := by
  rw [Script.run, Machine.runScript, Script.program, Script.lexemes, tokenize_tooLarge h hlarge]
  rfl

end Digits

theorem run_text {text : String} (path : String) (h : '"' ∉ text.toList) :
    Script.run ⟨path, "chop " ++ ("\"" ++ text ++ "\"") ++ ";"⟩ = (.ok (), #[text]) := by
  have hspelled : (Token.text text).Spelled
      (String.ofList ("\"" ++ text ++ "\"").toList) := by
    rw [String.ofList_toList]
    exact ⟨h, rfl⟩
  exact run_printed path (.single 0 hspelled trivial) (fun _ _ => rfl) (fun _ => rfl)

/-- Digits print as their value, which is written without zeros in front, as long as it is an integer
of the language; above that they are refused where they stand, and nothing is printed. Subtracted
from zero they print after a minus sign. A quoted text prints as it is. -/
theorem literals_print_as_themselves (path : String) :
    (∀ digits : String, IsDigits digits →
      toString (digitsValue digits) = withoutLeadingZeros digits ∧
      (digitsValue digits ≤ 2 ^ 63 - 1 →
        Script.run ⟨path, "chop " ++ digits ++ ";"⟩ = (.ok (), #[withoutLeadingZeros digits])) ∧
      (2 ^ 63 - 1 < digitsValue digits →
        Script.run ⟨path, "chop " ++ digits ++ ";"⟩ =
          (.error (.lexical ⟨path, "chop " ++ digits ++ ";"⟩
            ⟨.integerTooLarge, ⟨5, 5 + digits.length⟩⟩), #[])) ∧
      (0 < digitsValue digits → digitsValue digits ≤ 2 ^ 63 - 1 →
        Script.run ⟨path, "chop 0 - " ++ digits ++ ";"⟩ =
          (.ok (), #["-" ++ withoutLeadingZeros digits]))) ∧
    ∀ text : String, '"' ∉ text.toList →
      Script.run ⟨path, "chop \"" ++ text ++ "\";"⟩ = (.ok (), #[text]) := by
  have hgreatest : Integer.greatest = 2 ^ 63 - 1 := rfl
  refine ⟨fun digits h => ⟨toString_digitsValue h, fun hfits => ?_, fun hlarge => ?_,
    fun hpositive hfits => ?_⟩, fun text h => ?_⟩
  · exact run_integer h path (by omega)
  · exact run_tooLarge h path (by omega)
  · have hsource : "chop 0 - " ++ digits ++ ";" = "chop " ++ ("0 - " ++ digits) ++ ";" :=
      String.toList_injective (by simp)
    rw [hsource]
    exact run_negated h path (by omega) hpositive
  · have hsource : "chop \"" ++ text ++ "\";" = "chop " ++ ("\"" ++ text ++ "\"") ++ ";" :=
      String.toList_injective (by simp)
    rw [hsource]
    exact run_text path h

/-- Leading zeros, the least digits that are too large, the least integer but one, and a text that
looks like a statement. -/
theorem literals_print_as_themselves_bounds :
    Script.run ⟨"a.uz", "chop 007;"⟩ = (.ok (), #["7"]) ∧
      Script.run ⟨"a.uz", "chop 9223372036854775808;"⟩ =
        (.error (.lexical ⟨"a.uz", "chop 9223372036854775808;"⟩ ⟨.integerTooLarge, ⟨5, 24⟩⟩), #[]) ∧
      Script.run ⟨"a.uz", "chop 0 - 9223372036854775807;"⟩ = (.ok (), #["-9223372036854775807"]) ∧
      Script.run ⟨"a.uz", "chop \"chop 1;\n\";"⟩ = (.ok (), #["chop 1;\n"]) := by
  obtain ⟨hdigits, htexts⟩ := literals_print_as_themselves "a.uz"
  have hzeros : IsDigits "007" := ⟨by decide, List.all_eq_true.1 rfl⟩
  have hlarge : IsDigits "9223372036854775808" := ⟨by decide, List.all_eq_true.1 rfl⟩
  have hgreatest : IsDigits "9223372036854775807" := ⟨by decide, List.all_eq_true.1 rfl⟩
  exact ⟨(hdigits _ hzeros).2.1 (by decide), (hdigits _ hlarge).2.2.1 (by decide),
    (hdigits _ hgreatest).2.2.2 (by decide) (by decide), htexts "chop 1;\n" (by decide)⟩

end UzScript
