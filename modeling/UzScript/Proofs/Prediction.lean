import Mathlib.Computability.Language
import Mathlib.Order.CompletePartialOrder
import UzScript.Proofs.ProgramRecognition

/-! # What the next token decides

A parser is predictive when the lexemes that it takes and the one after them decide what it does.
What a predictive parser takes is a word of its language; and where it stops at a token, each token
that it names instead could stand there, followed by more, to make a word of its language. Parsers
are compared in pairs here, the second with as many levels as the first or more, so that the second
takes or refuses all that the first does. -/

set_option autoImplicit false

open Computability

namespace UzScript

def ParseCause.found? : ParseCause → Option Token
  | .expectedIdent found | .unexpectedToken found _ => some found
  | .missingToken | .nestingTooDeep => none

def ParseCause.expectations : ParseCause → List Expectation
  | .expectedIdent _ => [.anyIdent]
  | .unexpectedToken _ expected => expected
  | .missingToken | .nestingTooDeep => []

def Expectation.Admits : Expectation → Token → Prop
  | .exactly token, t => t = token
  | .anyInteger, t => ∃ value, t = .integer value
  | .anyText, t => ∃ value, t = .text value
  | .anyIdent, t => ∃ name, t = .ident name

namespace Grammar

def words {α : Type} (phrase : Phrase α) : Language Token := {ts | ∃ h a, phrase ts h a}

def just (t : Token) : Language Token := {[t]}

/-- The language has a word, so that what comes before it can be completed. -/
class Completable (L : Language Token) : Prop where
  word : ∃ ts, ts ∈ L

instance : Completable 1 := ⟨[], rfl⟩

instance (t : Token) : Completable (just t) := ⟨[t], rfl⟩

instance (L M : Language Token) [hL : Completable L] [hM : Completable M] : Completable (L * M) := by
  obtain ⟨ts, hts⟩ := hL.word
  obtain ⟨us, hus⟩ := hM.word
  exact ⟨ts ++ us, Language.append_mem_mul hts hus⟩

instance (L : Language Token) : Completable (L∗) := ⟨[], Language.nil_mem_kstar L⟩

instance (L M : Language Token) [hL : Completable L] : Completable (L + M) := by
  obtain ⟨ts, hts⟩ := hL.word
  exact ⟨ts, .inl hts⟩

end Grammar

namespace Parser

open Grammar

variable {α β : Type}

/-- How the result of a parser comes about, and that another parser does the same on all lexemes
that agree up to the one after those that were taken. -/
inductive Accounted (q : Parser α) (L : Language Token) (ls : List Lexeme) :
    EStateM.Result ParseFault (List Lexeme) α → Prop
  | ok {front rest : List Lexeme} {a : α} (split : ls = front ++ rest)
      (free : ∀ l ∈ front, l.token ≠ .endOfFile) (taken : front.map Lexeme.token ∈ L)
      (again : ∀ rest', rest'.head? = rest.head? → q (front ++ rest') = .ok a rest') :
      Accounted q L ls (.ok a rest)
  | found {front post : List Lexeme} {t : Token} {fault : ParseFault}
      (split : ls = front ++ ⟨t, fault.span⟩ :: post) (free : ∀ l ∈ front, l.token ≠ .endOfFile)
      (cause : fault.cause.found? = some t) (named : fault.cause.expectations ≠ [])
      (viable : ∀ x ∈ fault.cause.expectations, ∀ u, x.Admits u →
        ∃ us, front.map Lexeme.token ++ u :: us ∈ L)
      (again : ∀ post', q (front ++ ⟨t, fault.span⟩ :: post') =
        .error fault (⟨t, fault.span⟩ :: post')) :
      Accounted q L ls (.error fault (⟨t, fault.span⟩ :: post))
  | missing {fault : ParseFault} (free : ∀ l ∈ ls, l.token ≠ .endOfFile)
      (cause : fault.cause = .missingToken) : Accounted q L ls (.error fault [])
  | nesting {front rest : List Lexeme} {fault : ParseFault} (split : ls = front ++ rest)
      (free : ∀ l ∈ front, l.token ≠ .endOfFile) (cause : fault.cause = .nestingTooDeep)
      (span : fault.span = spanAt rest) : Accounted q L ls (.error fault rest)

/-- Every run of the first parser is accounted for by the second one. -/
def Predicts (p q : Parser α) (L : Language Token) : Prop := ∀ ls, Accounted q L ls (p ls)

theorem head?_append_congr {rest rest' : List Lexeme} (h : rest'.head? = rest.head?)
    (front : List Lexeme) : (front ++ rest').head? = (front ++ rest).head? := by
  rw [List.head?_append, List.head?_append, h]

theorem head?_append_cons (front post post' : List Lexeme) (l : Lexeme) :
    (front ++ l :: post').head? = (front ++ l :: post).head? := by
  rw [List.head?_append, List.head?_append, List.head?_cons, List.head?_cons]

theorem isAt_congr {ls ls' : List Lexeme} (h : ls'.head? = ls.head?) (token : Token) :
    isAt token ls' = isAt token ls := by
  rw [isAt, h, isAt]

namespace Accounted

variable {p q q' : Parser α} {L M : Language Token} {ls : List Lexeme}
  {r : EStateM.Result ParseFault (List Lexeme) α}

theorem mono (h : Accounted q L ls r) (hLM : L ≤ M) : Accounted q M ls r := by
  cases h with
  | ok split free taken again => exact .ok split free (hLM taken) again
  | found split free cause named viable again =>
    refine .found split free cause named (fun x hx u hu => ?_) again
    obtain ⟨us, hus⟩ := viable x hx u hu
    exact ⟨us, hLM hus⟩
  | missing free cause => exact .missing free cause
  | nesting split free cause span => exact .nesting split free cause span

/-- The other parser is only run on lexemes with the same first one. -/
theorem congr (h : Accounted q L ls r) (hq : ∀ ls', ls'.head? = ls.head? → q' ls' = q ls') :
    Accounted q' L ls r := by
  cases h with
  | ok split free taken again =>
    subst split
    exact .ok rfl free taken fun rest' h => (hq _ (head?_append_congr h _)).trans (again rest' h)
  | found split free cause named viable again =>
    subst split
    refine .found rfl free cause named viable fun post' => ?_
    exact (hq _ (head?_append_cons _ _ post' _)).trans (again post')
  | missing free cause => exact .missing free cause
  | nesting split free cause span => exact .nesting split free cause span

theorem pure (a : α) (ls : List Lexeme) :
    Accounted (Pure.pure a : Parser α) 1 ls ((Pure.pure a : Parser α) ls) :=
  .ok (List.nil_append ls).symm (fun _ hl => by cases hl) rfl fun _ _ => rfl

theorem after {g : α → Parser β} {front mid : List Lexeme} {a : α}
    {r : EStateM.Result ParseFault (List Lexeme) β} (free : ∀ l ∈ front, l.token ≠ .endOfFile)
    (taken : front.map Lexeme.token ∈ L)
    (again : ∀ mid', mid'.head? = mid.head? → q (front ++ mid') = .ok a mid')
    (hmore : Accounted (g a) M mid r) : Accounted (q >>= g) (L * M) (front ++ mid) r := by
  cases hmore with
  | @ok front' rest b split' free' taken' again' =>
    subst split'
    refine .ok (List.append_assoc _ _ _).symm ?_ ?_ fun rest' h => ?_
    · exact List.forall_mem_append.2 ⟨free, free'⟩
    · rw [List.map_append]
      exact Language.append_mem_mul taken taken'
    · rw [List.append_assoc, bind_of_ok (again _ (head?_append_congr h front')), again' rest' h]
  | @found front' post t fault split' free' cause named viable again' =>
    subst split'
    refine .found (List.append_assoc _ _ _).symm ?_ cause named (fun x hx u hu => ?_) fun post' => ?_
    · exact List.forall_mem_append.2 ⟨free, free'⟩
    · obtain ⟨us, hus⟩ := viable x hx u hu
      refine ⟨us, ?_⟩
      rw [List.map_append, List.append_assoc]
      exact Language.append_mem_mul taken hus
    · rw [List.append_assoc, bind_of_ok (again _ (head?_append_cons front' post post' _)),
        again' post']
  | missing free' cause => exact .missing (List.forall_mem_append.2 ⟨free, free'⟩) cause
  | @nesting front' rest fault split' free' cause span =>
    subst split'
    exact .nesting (List.append_assoc _ _ _).symm (List.forall_mem_append.2 ⟨free, free'⟩) cause span

/-- A fault stands whatever was to follow, as long as that can be completed to a word. -/
theorem before {g : α → Parser β} [hM : Completable M] {fault : ParseFault} {rest : List Lexeme}
    (h : Accounted q L ls (.error fault rest)) : Accounted (q >>= g) (L * M) ls (.error fault rest) := by
  cases h with
  | found split free cause named viable again =>
    refine .found split free cause named (fun x hx u hu => ?_) fun post' => bind_of_error (again post')
    obtain ⟨us, hus⟩ := viable x hx u hu
    obtain ⟨vs, hvs⟩ := hM.word
    refine ⟨us ++ vs, ?_⟩
    rw [← List.cons_append, ← List.append_assoc]
    exact Language.append_mem_mul hus hvs
  | missing free cause => exact .missing free cause
  | nesting split free cause span => exact .nesting split free cause span

theorem bind {f g : α → Parser β} [Completable M] (hp : Accounted q L ls (p ls))
    (hf : ∀ a mid, p ls = .ok a mid → Accounted (g a) M mid (f a mid)) :
    Accounted (q >>= g) (L * M) ls ((p >>= f) ls) := by
  cases hrun : p ls with
  | ok a mid =>
    rw [bind_of_ok hrun]
    rw [hrun] at hp
    cases hp with
    | ok split free taken again =>
      subst split
      exact after free taken again (hf a mid hrun)
  | error fault rest =>
    rw [bind_of_error hrun]
    rw [hrun] at hp
    exact hp.before

theorem map {f : α → β} (hp : Accounted q L ls (p ls)) :
    Accounted (q >>= fun a => Pure.pure (f a)) L ls ((p >>= fun a => Pure.pure (f a)) ls) := by
  have hbind := hp.bind (M := 1) (g := fun a => Pure.pure (f a)) fun a mid _ => pure (f a) mid
  rwa [mul_one] at hbind

theorem recast {p' : Parser α} (h : Accounted q L ls (p ls)) (hp : p' ls = p ls)
    (hq : ∀ ls', ls'.head? = ls.head? → q' ls' = q ls') : Accounted q' L ls (p' ls) := by
  rw [hp]
  exact h.congr hq

theorem recast_cons {p' : Parser α} {l : Lexeme} {rest : List Lexeme}
    (h : Accounted q L (l :: rest) (p (l :: rest))) (hp : p' (l :: rest) = p (l :: rest))
    (hq : ∀ rest', q' (l :: rest') = q (l :: rest')) :
    Accounted q' L (l :: rest) (p' (l :: rest)) := by
  refine h.recast hp fun ls' hls' => ?_
  obtain ⟨rest', rfl⟩ := List.head?_eq_some_iff.1 hls'
  exact hq rest'

theorem ifAt {t : Token} {p' : Parser α}
    (hat : ∀ span rest, ls = ⟨t, span⟩ :: rest → Accounted q L ls (p ls))
    (hnot : Accounted q' L ls (p' ls)) :
    Accounted (get >>= fun ls => if isAt t ls = true then q else q') L ls
      ((get >>= fun ls => if isAt t ls = true then p else p') ls) := by
  cases h : isAt t ls with
  | true =>
    obtain ⟨span, rest, hls⟩ := isAt_eq_true h
    refine (hat span rest hls).recast (by rw [get_bind, h]; rfl) fun ls' hls' => ?_
    rw [get_bind, isAt_congr hls', h]
    rfl
  | false =>
    refine hnot.recast (by rw [get_bind, h]; rfl) fun ls' hls' => ?_
    rw [get_bind, isAt_congr hls', h]
    rfl

theorem take {l : Lexeme} {rest : List Lexeme} {a : α} (hne : l.token ≠ .endOfFile)
    (hL : [l.token] ∈ L) (hq : ∀ rest', q (l :: rest') = .ok a rest') :
    Accounted q L (l :: rest) (.ok a rest) := by
  have hfree : ∀ l' ∈ [l], l'.token ≠ .endOfFile := by simpa using hne
  exact .ok rfl hfree hL fun rest' _ => hq rest'

theorem refuse {t : Token} {span : Span} {post : List Lexeme} {cause : ParseCause}
    (hfound : cause.found? = some t) (hnamed : cause.expectations ≠ [])
    (hviable : ∀ x ∈ cause.expectations, ∀ u, x.Admits u → ∃ us, u :: us ∈ L)
    (hq : ∀ post', q (⟨t, span⟩ :: post') = .error ⟨cause, span⟩ (⟨t, span⟩ :: post')) :
    Accounted q L (⟨t, span⟩ :: post) (.error ⟨cause, span⟩ (⟨t, span⟩ :: post)) := by
  have hfree : ∀ l ∈ ([] : List Lexeme), l.token ≠ .endOfFile := by simp
  change Accounted q L _ (.error ⟨cause, span⟩ (⟨t, (Fault.mk cause span).span⟩ :: post))
  exact .found rfl hfree hfound hnamed hviable hq

theorem nestingTooDeep (q : Parser α) (L : Language Token) (ls : List Lexeme) :
    Accounted q L ls (Parser.nestingTooDeep ls) :=
  .nesting (List.nil_append ls).symm (fun _ hl => by cases hl) rfl rfl

theorem of_found {fault : ParseFault} {rest : List Lexeme} {t : Token}
    (h : Accounted q L ls (.error fault rest)) (hfound : fault.cause.found? = some t) :
    ∃ front post, ls = front ++ rest ∧ rest = ⟨t, fault.span⟩ :: post ∧
      fault.cause.expectations ≠ [] ∧
      (∀ x ∈ fault.cause.expectations, ∀ u, x.Admits u →
        ∃ us, front.map Lexeme.token ++ u :: us ∈ L) ∧
      ∀ post', q (front ++ ⟨t, fault.span⟩ :: post') = .error fault (⟨t, fault.span⟩ :: post') := by
  cases h with
  | found split _ cause named viable again =>
    rw [hfound] at cause
    cases cause
    exact ⟨_, _, split, rfl, named, viable, again⟩
  | missing _ cause =>
    rw [cause] at hfound
    cases hfound
  | nesting _ _ cause _ =>
    rw [cause] at hfound
    cases hfound

theorem loop {rounds rounds' : List Lexeme → Parser α} {f g : α → Parser β} [Completable M]
    (hrounds : Accounted (get >>= rounds') L ls (rounds ls ls))
    (hf : ∀ a mid, rounds ls ls = .ok a mid → Accounted (g a) M mid (f a mid)) :
    Accounted (get >>= fun ls => rounds' ls >>= g) (L * M) ls
      ((get >>= fun ls => rounds ls >>= f) ls) :=
  Accounted.bind (p := get >>= rounds) hrounds hf

end Accounted

theorem step_accounted {l : Lexeme} (hne : l.token ≠ .endOfFile) (rest : List Lexeme) :
    Accounted step (just l.token) (l :: rest) (step (l :: rest)) :=
  .take hne rfl fun _ => rfl

theorem expectAmong_predicts {expected : List Expectation} {token : Token} {L : Language Token}
    (hne : token ≠ .endOfFile) (hL : [token] ∈ L) (hnamed : expected ≠ [])
    (hviable : ∀ x ∈ expected, ∀ u, x.Admits u → ∃ us, u :: us ∈ L) :
    Predicts (expectAmong expected token) (expectAmong expected token) L := by
  intro ls
  cases ls with
  | nil => exact .missing (by simp) rfl
  | cons l rest =>
    obtain ⟨found, span⟩ := l
    by_cases h : found = token
    · subst h
      have hrun (rest' : List Lexeme) :
          expectAmong expected found (⟨found, span⟩ :: rest') = .ok span rest' :=
        expectAmong_ok.2 rfl
      rw [hrun]
      exact .take hne hL hrun
    · have hrun (post' : List Lexeme) : expectAmong expected token (⟨found, span⟩ :: post') =
          .error ⟨.unexpectedToken found expected, span⟩ (⟨found, span⟩ :: post') := by
        rw [expectAmong_cons, if_neg h]
      rw [hrun]
      exact .refuse rfl hnamed hviable hrun

theorem expect_predicts (token : Token) (hne : token ≠ .endOfFile) :
    Predicts (expect token) (expect token) (just token) := by
  have hL : [token] ∈ just token := rfl
  refine expectAmong_predicts hne hL (by simp) fun x hx u hu => ?_
  rw [List.mem_singleton.1 hx] at hu
  exact ⟨[], congrArg (fun t => [t]) hu⟩

theorem ident_predicts : Predicts ident ident (words Parameter) := by
  intro ls
  cases ls with
  | nil => exact .missing (by simp) rfl
  | cons l rest =>
    obtain ⟨found, span⟩ := l
    by_cases h : ∃ name, found = .ident name
    · obtain ⟨name, rfl⟩ := h
      exact .take (by simp) ⟨0, _, .intro name⟩ fun _ => rfl
    · have hrun (post' : List Lexeme) : ident (⟨found, span⟩ :: post') =
          .error ⟨.expectedIdent found, span⟩ (⟨found, span⟩ :: post') := by
        cases found with
        | ident name => exact absurd ⟨name, rfl⟩ h
        | _ => rfl
      rw [hrun]
      refine .refuse rfl (List.cons_ne_nil _ _) (fun x hx u hu => ?_) hrun
      rw [List.mem_singleton.1 hx] at hu
      obtain ⟨name, rfl⟩ := hu
      exact ⟨[], 0, _, .intro name⟩

instance : Completable (words Parameter) := ⟨[.ident ""], 0, _, .intro ""⟩

/-! ## Loops -/

/-- What comes after `p` only counts for what `p` can leave. -/
theorem bind_congr_run {p : Parser α} {f g : α → Parser β} {ls : List Lexeme}
    (h : ∀ a mid, p ls = .ok a mid → f a mid = g a mid) : (p >>= f) ls = (p >>= g) ls := by
  cases hrun : p ls with
  | ok a mid => rw [bind_of_ok hrun, bind_of_ok hrun, h a mid hrun]
  | error fault rest => rw [bind_of_error hrun, bind_of_error hrun]

theorem bind_congr_left {p p' : Parser α} {ls : List Lexeme} (h : p ls = p' ls) (f : α → Parser β) :
    (p >>= f) ls = (p' >>= f) ls := by
  change EStateM.bind p f ls = EStateM.bind p' f ls
  unfold EStateM.bind
  rw [h]

/-- A loop that goes on, in each round, only with fewer lexemes than it got. -/
structure Rounds {σ : Type} (loop : List Lexeme → σ → Parser β)
    (body : (σ → Parser β) → σ → Parser β) : Prop where
  exhausted (more : σ → Parser β) (s : σ) : loop [] s [] = body more s []
  round (l : Lexeme) (rounds : List Lexeme) (s : σ) (ls : List Lexeme) :
    loop (l :: rounds) s ls = body (loop rounds) s ls
  guarded {more more' : σ → Parser β} (s : σ) {ls : List Lexeme}
    (h : ∀ s' mid, mid.length < ls.length → more s' mid = more' s' mid) :
    body more s ls = body more' s ls

/-- As many rounds as lexemes are enough, and further rounds change nothing. -/
theorem Rounds.enough {σ : Type} {loop : List Lexeme → σ → Parser β}
    {body : (σ → Parser β) → σ → Parser β} (hloop : Rounds loop body) (rounds rounds' : List Lexeme)
    (s : σ) {ls : List Lexeme} (h : ls.length ≤ rounds.length) (h' : ls.length ≤ rounds'.length) :
    loop rounds s ls = loop rounds' s ls := by
  induction rounds generalizing rounds' s ls with
  | nil =>
    rw [List.eq_nil_of_length_eq_zero (Nat.le_zero.1 h)]
    cases rounds' with
    | nil => rfl
    | cons l rounds' => rw [hloop.round, hloop.exhausted]
  | cons l rounds ih =>
    cases rounds' with
    | nil => rw [List.eq_nil_of_length_eq_zero (Nat.le_zero.1 h'), hloop.round, ← hloop.exhausted]
    | cons l' rounds' =>
      rw [hloop.round, hloop.round]
      simp only [List.length_cons] at h h'
      refine hloop.guarded s fun s' mid hmid => ih rounds' s' (by omega) (by omega)

theorem Rounds.unroll {σ : Type} {loop : List Lexeme → σ → Parser β}
    {body : (σ → Parser β) → σ → Parser β} (hloop : Rounds loop body) (s : σ) (ls : List Lexeme) :
    loop ls s ls = body (fun s' => get >>= (loop · s')) s ls := by
  cases ls with
  | nil => exact hloop.exhausted _ s
  | cons l ls =>
    rw [hloop.round]
    refine hloop.guarded s fun s' mid hmid => ?_
    rw [get_bind]
    exact hloop.enough ls mid s' (Nat.le_of_lt_succ hmid) (Nat.le_refl _)

/-- The parser never leaves more lexemes than it gets. -/
def Shrinks (p : Parser α) : Prop :=
  ∀ ⦃ls : List Lexeme⦄ ⦃a : α⦄ ⦃rest : List Lexeme⦄, p ls = .ok a rest → rest.length ≤ ls.length

theorem Sound.shrinks {p : Parser α} {erase : α → α} {phrase : Phrase α} {limit : Nat}
    (h : Sound p erase phrase limit) : Shrinks p :=
  fun _ _ _ hrun => h.length_le hrun

section Items

variable {item item' : Parser α} {I : Language Token}

def itemRound (item : Parser α) (more : Unit → Parser (List α)) (_ : Unit) : Parser (List α) := do
  if isAt .comma (← get) then
    step
    let first ← item
    return first :: (← more ())
  else return []

theorem furtherItems_rounds (hitem : Shrinks item) :
    Rounds (fun rounds _ => furtherItems item rounds) (itemRound item) where
  exhausted _ _ := rfl
  round _ _ _ _ := rfl
  guarded {more more'} _ ls h := by
    rw [itemRound, itemRound, get_bind, get_bind]
    cases hcomma : isAt .comma ls with
    | false => rfl
    | true =>
      obtain ⟨span, ls, rfl⟩ := isAt_eq_true hcomma
      simp only [if_true, step_bind, List.tail_cons]
      refine bind_congr_run fun a mid hrun => bind_congr_left (h () mid ?_) _
      exact Nat.lt_succ_of_le (hitem hrun)

theorem furtherItems_predicts [Completable I] (hitem : Predicts item item' I) (hs : Shrinks item)
    (hs' : Shrinks item') :
    Predicts (get >>= furtherItems item) (get >>= furtherItems item') ((just .comma * I)∗) := by
  intro ls
  induction hn : ls.length using Nat.strong_induction_on generalizing ls with
  | _ n ih =>
    subst hn
    refine Accounted.recast ?_ ((furtherItems_rounds hs).unroll () ls) fun ls' _ =>
      (furtherItems_rounds hs').unroll () ls'
    refine .ifAt (fun span rest hls => ?_) ((Accounted.pure [] ls).mono one_le_kstar)
    subst hls
    have hround := Accounted.bind (step_accounted (l := ⟨.comma, span⟩) (by simp) rest)
      fun _ mid hmid => Accounted.bind (hitem mid) fun first mid' hmid' =>
        Accounted.map (f := (first :: ·)) (ih mid'.length (by
          cases hmid
          exact Nat.lt_succ_of_le (hs hmid')) mid' rfl)
    refine hround.mono ?_
    rw [← mul_assoc]
    exact mul_kstar_le_kstar

def listing (I : Language Token) : Language Token := 1 + I * (just .comma * I)∗

instance (I : Language Token) : Completable (listing I) := inferInstanceAs (Completable (1 + _))

/-- After an item both a comma, with one more item, and the closing token can come. -/
theorem lastToken_predicts {closing : Token} [hI : Completable I] (hclosing : closing ≠ .endOfFile) :
    Predicts (expectAmong [.exactly .comma, .exactly closing] closing)
      (expectAmong [.exactly .comma, .exactly closing] closing)
      ((just .comma * I)∗ * just closing) := by
  have hclose : [closing] ∈ (just .comma * I)∗ * just closing :=
    ⟨[], Language.nil_mem_kstar _, [closing], rfl, rfl⟩
  refine expectAmong_predicts hclosing hclose (List.cons_ne_nil _ _) fun x hx u hu => ?_
  rcases List.mem_pair.1 hx with rfl | rfl
  · obtain ⟨ts, hts⟩ := hI.word
    have hfurther : [.comma] ++ ts ∈ (just .comma * I)∗ :=
      (le_kstar : _ ≤ (just .comma * I)∗) (Language.append_mem_mul rfl hts)
    rw [show u = .comma from hu]
    exact ⟨ts ++ [closing], [.comma] ++ ts, hfurther, [closing], rfl, rfl⟩
  · rw [show u = closing from hu]
    exact ⟨[], hclose⟩

theorem delimited_predicts {opening closing : Token} [Completable I]
    (hopening : opening ≠ .endOfFile) (hclosing : closing ≠ .endOfFile)
    (hitem : Predicts item item' I) (hs : Shrinks item) (hs' : Shrinks item') :
    Predicts (delimited opening closing item) (delimited opening closing item')
      (just opening * (listing I * just closing)) := by
  intro ls
  refine .bind (expect_predicts opening hopening ls) fun first mid _ => ?_
  refine .ifAt (fun span rest hmid => ?_) ?_
  · -- nothing but the closing token can follow here, so that no expectation is reported
    subst hmid
    have hrun (rest' : List Lexeme) :
        expectAmong [.exactly .comma, .exactly closing] closing (⟨closing, span⟩ :: rest') =
          .ok span rest' :=
      expectAmong_ok.2 rfl
    have hmem : [closing] ∈ listing I * just closing := ⟨[], .inl rfl, [closing], rfl, rfl⟩
    have hlast : Accounted _ _ (⟨closing, span⟩ :: rest) (.ok span rest) :=
      .take hclosing hmem hrun
    rw [← hrun] at hlast
    exact hlast.map (f := fun last => (([] : List α), Span.mk first.start last.stop))
  · have hlast := lastToken_predicts (I := I) hclosing
    have hitems := Accounted.bind (hitem mid) fun head mid' _ =>
      Accounted.loop (furtherItems_predicts hitem hs hs' mid') fun tail mid'' _ =>
        Accounted.map (f := fun last : Span => (head :: tail, Span.mk first.start last.stop))
          (hlast mid'')
    refine hitems.mono ?_
    calc I * ((just .comma * I)∗ * ((just .comma * I)∗ * just closing))
        = I * (just .comma * I)∗ * just closing := by
          rw [← mul_assoc (_∗), kstar_mul_kstar, mul_assoc]
      _ ≤ listing I * just closing := mul_le_mul_left le_add_self _

end Items

end Parser

end UzScript
