import Abacus.Proofs.Reads
import Abacus.Proofs.Spelling

/-!
# Texts put together

Where two texts are put together, the tokens of both are the tokens of the whole, unless a
number runs over the seam. Those of the second text stand further on, by as many characters as
the first text has. The mark for the end of the first text is lost, so this module begins with
what is known of that mark.

A text that has no tokens fails at the first character that belongs to none, so of several texts
the first to fail decides.

## Main results

* `Lexer.Spells.eq_endAt`, `Lexer.Spells.eq_nil_of_endMark`: there is one mark for the end, it
  is the last token, and it stands behind the last character.
* `Lexer.Spells.moved`: a text that begins at another position spells tokens that are moved.
* `Lexer.Spells.append`, `Lexer.Spells.merge`: what two texts spell that are put together, without
  a number over the seam and with one.
* `Lexer.Spells.exists_initial`: what spells some of the tokens, from the first on.
* `Lexer.scan_eq_error_iff`: the lexer fails exactly at the first character that it does not
  know.
* `tokenize_append`: the tokens of two texts put together, from those of both.
* `Lexer.Spells.closed`: what a text spells with a closing parenthesis in place of its end.
* `Lexer.Spells.grouped`, `Lexer.tokenize_grouped`: what a text spells with a group put into it.
-/

namespace Abacus

/-- The token, further on by as many characters. -/
def Token.moved (d : Nat) (t : Token) : Token :=
  { t with position := t.position + d }

namespace Lexer

variable {p : Nat} {cs cs' : List Char} {us ts ts' : List Token} {t : Token}

/-! ### The mark for the end -/

/-- What is spelled is terminated. -/
theorem Spells.terminated (h : Spells p cs ts) : Terminated ts := by
  obtain ⟨us, rfl, -⟩ := h.exists_ends
  simp [Terminated, Token.endAt]

/-- The one mark for the end stands behind the last character. -/
theorem Spells.eq_endAt (h : Spells p cs ts) (ht : t ∈ ts) (hk : t.kind = .endMark) :
    t = Token.endAt (p + cs.length) := by
  obtain ⟨us, rfl, hus⟩ := h.exists_ends
  rcases List.mem_append.mp ht with ht | ht
  · exact absurd hk (hus t ht)
  · exact List.mem_singleton.mp ht

/-- Nothing stands behind the mark for the end. -/
theorem Spells.eq_nil_of_endMark (h : Spells p cs (us ++ t :: ts)) (hk : t.kind = .endMark) :
    ts = [] := by
  obtain ⟨vs, heq, hvs⟩ := h.exists_ends
  rcases List.eq_nil_or_concat ts with rfl | ⟨ts, e, rfl⟩
  · rfl
  · rw [List.concat_eq_append, ← List.cons_append, ← List.append_assoc] at heq
    have hinit := List.append_inj_left' heq rfl
    exact absurd hk (hvs t (hinit ▸ List.mem_append_right us List.mem_cons_self))

/-- Without characters there is only the mark for the end. -/
theorem Spells.eq_of_nil (h : Spells p [] ts) : ts = [Token.endAt p] := by
  have hscan := h.scan_eq
  rw [scan_nil] at hscan
  exact (Except.ok.inj hscan).symm

/-- What spells no token but the mark for the end is blank. -/
theorem Spells.eq_space_of_endMark (h : Spells p cs (t :: ts)) (hk : t.kind = .endMark) :
    ∀ c ∈ cs, c = ' ' := by
  generalize hall : t :: ts = all at h
  induction h with
  | done => exact fun _ hc => absurd hc List.not_mem_nil
  | space _ ih =>
      rintro c (- | ⟨_, hc⟩)
      · rfl
      · exact ih hall c hc
  | symbol hk' _ _ =>
      obtain ⟨rfl, -⟩ := List.cons.inj hall
      exact absurd hk (ne_of_ofSymbol? hk').2
  | number _ _ _ _ _ =>
      obtain ⟨rfl, -⟩ := List.cons.inj hall
      cases hk

/-- What is not blank spells another token first. -/
theorem Spells.kind_head?_ne (h : Spells p cs ts) (hne : ∃ c ∈ cs, c ≠ ' ') :
    ts.head?.map Token.kind ≠ some .endMark := by
  intro hhead
  obtain ⟨t, ht, hk⟩ := Option.map_eq_some_iff.mp hhead
  obtain ⟨ts, rfl⟩ := List.head?_eq_some_iff.mp ht
  obtain ⟨c, hc, hspace⟩ := hne
  exact hspace (h.eq_space_of_endMark hk c hc)

/-- No token begins behind the text. -/
theorem Spells.position_le (h : Spells p cs ts) (ht : t ∈ ts) : t.position ≤ p + cs.length := by
  obtain ⟨before, after, hcut⟩ := h.exists_cut ht
  rw [hcut.position_eq, hcut.eq_append, List.length_append]
  omega

/-! ### Put together, and taken apart -/

/-- What holds of the last character holds of it without some of those in front. -/
theorem forall_mem_getLast?_of_append {vs : List Char} {q : Char → Prop} (us : List Char)
    (h : ∀ c ∈ (us ++ vs).getLast?, q c) : ∀ c ∈ vs.getLast?, q c := by
  intro c hc
  refine h c ?_
  rw [List.getLast?_append, Option.mem_def.mp hc, Option.some_or]
  rfl

/-- If a digit is last, it is last without a character in front that is none. -/
theorem exists_mem_getLast?_of_cons {c : Char} (h : ∃ d ∈ (c :: cs).getLast?, d.isDigit = true)
    (hc : c.isDigit = false) : ∃ d ∈ cs.getLast?, d.isDigit = true := by
  obtain ⟨d, hd, hdigit⟩ := h
  cases cs with
  | nil =>
      obtain rfl : c = d := Option.some.inj hd
      rw [hc] at hdigit
      cases hdigit
  | cons c' cs => exact ⟨d, by rwa [List.getLast?_cons_cons] at hd, hdigit⟩

/-- What a text spells does not depend on where it begins, but for the positions. -/
theorem Spells.moved (h : Spells p cs ts) (d : Nat) :
    Spells (p + d) cs (ts.map (Token.moved d)) := by
  induction h with
  | done => exact .done
  | space _ ih =>
      rw [Nat.add_right_comm] at ih
      exact .space ih
  | symbol hk _ ih =>
      rw [Nat.add_right_comm] at ih
      exact .symbol hk ih
  | number hne hds hcs _ ih =>
      rw [Nat.add_right_comm] at ih
      exact .number hne hds hcs ih

/-- **Two texts spell their tokens one after the other** when they are put together, unless the
first ends with a digit and the second begins with one. -/
theorem Spells.append (h : Spells p cs ts) (h' : Spells (p + cs.length) cs' ts')
    (hseam : (∀ c ∈ cs.getLast?, c.isDigit = false) ∨ ∀ c ∈ cs'.head?, c.isDigit = false) :
    Spells p (cs ++ cs') (ts.dropLast ++ ts') := by
  induction h with
  | done => exact h'
  | @space p cs ts _ ih =>
      rw [List.length_cons, Nat.add_comm cs.length, ← Nat.add_assoc] at h'
      exact .space (ih h' (hseam.imp_left (forall_mem_getLast?_of_append [' '])))
  | @symbol p c cs k ts hk hspell ih =>
      rw [List.length_cons, Nat.add_comm cs.length, ← Nat.add_assoc] at h'
      rw [List.dropLast_cons_of_ne_nil hspell.terminated.ne_nil]
      exact .symbol hk (ih h' (hseam.imp_left (forall_mem_getLast?_of_append [c])))
  | @number p ds cs ts hne hds hcs hspell ih =>
      rw [List.length_append, ← Nat.add_assoc] at h'
      rw [List.dropLast_cons_of_ne_nil hspell.terminated.ne_nil, List.append_assoc]
      refine .number hne hds ?_ (ih h' (hseam.imp_left (forall_mem_getLast?_of_append ds)))
      cases cs with
      | cons c cs => exact hcs
      | nil =>
          -- The digits run up to the seam, so it is the second text that begins with none.
          refine hseam.resolve_left fun hlast => ?_
          rw [List.append_nil] at hlast
          have hdigit := hds _ (List.getLast_mem hne)
          rw [hlast _ (List.getLast?_eq_some_getLast hne)] at hdigit
          cases hdigit

/-- Characters that begin with a digit spell a number first, of all the digits that follow. -/
theorem Spells.exists_number (h : Spells p cs ts) (hhead : ∃ c ∈ cs.head?, c.isDigit = true) :
    ∃ ds cs' ts', cs = ds ++ cs' ∧ ts = ⟨.number, String.ofList ds, p⟩ :: ts' ∧
      (∀ c ∈ ds, c.isDigit = true) ∧ (∀ c ∈ cs'.head?, c.isDigit = false) ∧
        Spells (p + ds.length) cs' ts' := by
  obtain ⟨c, hc, hdigit⟩ := hhead
  cases h with
  | done => cases hc
  | space _ =>
      cases hc
      cases hdigit
  | symbol hk _ =>
      cases hc
      rw [isDigit_of_ofSymbol? hk] at hdigit
      cases hdigit
  | @number _ ds cs' ts' _ hds hcs hspell => exact ⟨ds, cs', ts', rfl, rfl, hds, hcs, hspell⟩

/-- **A number that runs over the seam is one number**: where the first text ends with a digit
and the second begins with one, the last number of the first and the first number of the second
are merged. -/
theorem Spells.merge (h : Spells p cs ts) (h' : Spells (p + cs.length) cs' ts')
    (hlast : ∃ c ∈ cs.getLast?, c.isDigit = true) (hhead : ∃ c ∈ cs'.head?, c.isDigit = true) :
    ∃ us t t' ws, ts = us ++ [t, Token.endAt (p + cs.length)] ∧ ts' = t' :: ws ∧
      t.kind = .number ∧ t'.kind = .number ∧
        Spells p (cs ++ cs') (us ++ ⟨.number, t.text ++ t'.text, t.position⟩ :: ws) := by
  induction h with
  | done =>
      obtain ⟨c, hc, -⟩ := hlast
      cases hc
  | @space p cs ts _ ih =>
      have hlen : p + (' ' :: cs).length = p + 1 + cs.length := by
        rw [List.length_cons]
        omega
      rw [hlen] at h' ⊢
      obtain ⟨us, t, t', ws, rfl, rfl, ht, ht', hspell⟩ :=
        ih h' (exists_mem_getLast?_of_cons hlast rfl)
      exact ⟨us, t, t', ws, rfl, rfl, ht, ht', .space hspell⟩
  | @symbol p c cs k ts hk _ ih =>
      have hlen : p + (c :: cs).length = p + 1 + cs.length := by
        rw [List.length_cons]
        omega
      rw [hlen] at h' ⊢
      obtain ⟨us, t, t', ws, rfl, rfl, ht, ht', hspell⟩ :=
        ih h' (exists_mem_getLast?_of_cons hlast (isDigit_of_ofSymbol? hk))
      exact ⟨⟨k, c.toString, p⟩ :: us, t, t', ws, rfl, rfl, ht, ht', .symbol hk hspell⟩
  | @number p ds cs ts hne hds hcs hspell ih =>
      rw [List.length_append, ← Nat.add_assoc] at h' ⊢
      cases cs with
      | nil =>
          obtain rfl := hspell.eq_of_nil
          obtain ⟨ds', cs', ws, rfl, rfl, hds', hcs', hspell'⟩ := h'.exists_number hhead
          refine ⟨[], _, _, ws, rfl, rfl, rfl, rfl, ?_⟩
          have hmerged : Spells p ((ds ++ ds') ++ cs')
              (⟨.number, String.ofList (ds ++ ds'), p⟩ :: ws) := by
            refine .number (by simp [hne]) ?_ hcs' ?_
            · intro c hc
              exact (List.mem_append.mp hc).elim (hds c) (hds' c)
            · rwa [List.length_append, ← Nat.add_assoc]
          simpa using hmerged
      | cons c cs =>
          rw [List.getLast?_append, List.getLast?_eq_some_getLast (List.cons_ne_nil c cs),
            Option.some_or, ← List.getLast?_eq_some_getLast] at hlast
          obtain ⟨us, t, t', ws, rfl, rfl, ht, ht', hspell'⟩ := ih h' hlast
          refine ⟨⟨.number, String.ofList ds, p⟩ :: us, t, t', ws, rfl, rfl, ht, ht', ?_⟩
          rw [List.append_assoc, List.cons_append]
          exact .number hne hds hcs hspell'

/-- Some of the tokens, from the first on, are spelled by the characters in front of the
others. -/
theorem Spells.exists_initial (h : Spells p cs (us ++ ts)) (hts : ts ≠ []) :
    ∃ ds, ds <+: cs ∧ Spells p ds (us ++ [Token.endAt (p + ds.length)]) := by
  generalize hall : us ++ ts = all at h
  induction h generalizing us with
  | done =>
      obtain rfl : us = [] := by
        rcases List.append_eq_singleton_iff.mp hall with ⟨rfl, -⟩ | ⟨-, hnil⟩
        · rfl
        · exact absurd hnil hts
      exact ⟨[], List.nil_prefix, .done⟩
  | @space p cs _ _ ih =>
      obtain ⟨ds, hds, hspell⟩ := ih hall
      refine ⟨' ' :: ds, List.cons_prefix_cons.mpr ⟨rfl, hds⟩, .space ?_⟩
      rwa [List.length_cons, Nat.add_comm ds.length, ← Nat.add_assoc]
  | @symbol p c cs k _ hk _ ih =>
      cases us with
      | nil => exact ⟨[], List.nil_prefix, .done⟩
      | cons t us =>
          obtain ⟨rfl, htail⟩ := List.cons.inj hall
          obtain ⟨ds, hds, hspell⟩ := ih htail
          refine ⟨c :: ds, List.cons_prefix_cons.mpr ⟨rfl, hds⟩, .symbol hk ?_⟩
          rwa [List.length_cons, Nat.add_comm ds.length, ← Nat.add_assoc]
  | @number p ds cs _ hne hdigits hcs _ ih =>
      cases us with
      | nil => exact ⟨[], List.nil_prefix, .done⟩
      | cons t us =>
          obtain ⟨rfl, htail⟩ := List.cons.inj hall
          obtain ⟨ds', hds', hspell⟩ := ih htail
          refine ⟨ds ++ ds', (List.prefix_append_right_inj ds).mpr hds', .number hne hdigits ?_ ?_⟩
          · intro c hc
            obtain ⟨ds', rfl⟩ := List.head?_eq_some_iff.mp hc
            obtain ⟨rest, rfl⟩ := hds'
            exact hcs c rfl
          · rwa [List.length_append, ← Nat.add_assoc]

/-! ### The first character that is not known -/

/-- There is one first character that is not known, at most. -/
theorem eq_of_not_known {known known' rest rest' : List Char} {c c' : Char}
    (h : known ++ c :: rest = known' ++ c' :: rest') (hknown : ∀ d ∈ known, Known d)
    (hknown' : ∀ d ∈ known', Known d) (hc : ¬Known c) (hc' : ¬Known c') :
    known = known' ∧ c = c' := by
  rcases List.append_eq_append_iff.mp h with ⟨ds, rfl, heq⟩ | ⟨ds, rfl, heq⟩
  · cases ds with
    | nil => exact ⟨(List.append_nil _).symm, (List.cons.inj heq).1⟩
    | cons d ds =>
        obtain ⟨rfl, -⟩ := List.cons.inj heq
        exact absurd (hknown' c (by simp)) hc
  · cases ds with
    | nil => exact ⟨List.append_nil _, (List.cons.inj heq).1.symm⟩
    | cons d ds =>
        obtain ⟨rfl, -⟩ := List.cons.inj heq
        exact absurd (hknown c' (by simp)) hc'

/-- **The lexer fails where the first character stands that it does not know**, and nowhere
else. -/
theorem scan_eq_error_iff {e : LexError} :
    scan p cs = .error e ↔
      ∃ known rest, cs = known ++ e.symbol :: rest ∧ (∀ c ∈ known, Known c) ∧
        ¬Known e.symbol ∧ e.position = p + known.length := by
  constructor
  · exact exists_of_scan_eq_error
  · rintro ⟨known, rest, rfl, hknown, hnot, hpos⟩
    cases hscan : scan p (known ++ e.symbol :: rest) with
    | ok ts => exact absurd ((spells_of_scan hscan).known e.symbol (by simp)) hnot
    | error e' =>
        obtain ⟨known', rest', heq, hknown', hnot', hpos'⟩ := exists_of_scan_eq_error hscan
        obtain ⟨rfl, hsymbol⟩ := eq_of_not_known heq hknown hknown' hnot hnot'
        have herror : e' = e := by
          cases e
          cases e'
          simp_all
        rw [herror]

/-- The error points into the text. -/
theorem position_lt_of_scan {e : LexError} (h : scan p cs = .error e) :
    e.position < p + cs.length := by
  obtain ⟨known, rest, rfl, -, -, hpos⟩ := exists_of_scan_eq_error h
  rw [hpos]
  simp

/-- A text that fails does so whatever stands behind it. -/
theorem scan_append_of_error {e : LexError} (h : scan p cs = .error e) (cs' : List Char) :
    scan p (cs ++ cs') = .error e := by
  obtain ⟨known, rest, rfl, hknown, hnot, hpos⟩ := scan_eq_error_iff.mp h
  exact scan_eq_error_iff.mpr ⟨known, rest ++ cs', by simp, hknown, hnot, hpos⟩

/-- Behind characters that are known it fails in the same way, further on. -/
theorem scan_append_of_known {e : LexError} (hcs : ∀ c ∈ cs, Known c)
    (h : scan 0 cs' = .error e) :
    scan p (cs ++ cs') = .error ⟨e.symbol, e.position + (p + cs.length)⟩ := by
  obtain ⟨known, rest, rfl, hknown, hnot, hpos⟩ := scan_eq_error_iff.mp h
  refine scan_eq_error_iff.mpr ⟨cs ++ known, rest, by simp, ?_, hnot, ?_⟩
  · intro c hc
    rcases List.mem_append.mp hc with hc | hc
    · exact hcs c hc
    · exact hknown c hc
  · simp only [List.length_append]
    omega

end Lexer

/-! ### Two texts -/

/-- A number runs over the seam between two texts: the first ends with a digit, and the second
begins with one. -/
def DigitSeam (a b : String) : Prop :=
  (∃ c ∈ a.toList.getLast?, c.isDigit = true) ∧ ∃ c ∈ b.toList.head?, c.isDigit = true

/-- Where no number runs over the seam, one of the texts has no digit there. -/
theorem isDigit_of_not_digitSeam {a b : String} (h : ¬DigitSeam a b) :
    (∀ c ∈ a.toList.getLast?, c.isDigit = false) ∨ ∀ c ∈ b.toList.head?, c.isDigit = false := by
  by_cases hlast : ∃ c ∈ a.toList.getLast?, c.isDigit = true
  · refine .inr fun c hc => ?_
    rw [Bool.eq_false_iff]
    exact fun hdigit => h ⟨hlast, c, hc, hdigit⟩
  · refine .inl fun c hc => ?_
    rw [Bool.eq_false_iff]
    exact fun hdigit => hlast ⟨c, hc, hdigit⟩

/-- **The tokens of a text are those of its parts.** Of two texts put together the first to fail
decides, and an error of the second is found further on. Otherwise the tokens of the second, moved
on by the length of the first, follow those of the first, whose mark for the end is lost; and
where a number runs over the seam, its two parts are one number. -/
theorem tokenize_append (a b : String) :
    (∀ e, tokenize a = .error e → tokenize (a ++ b) = .error e) ∧
    (∀ as e, tokenize a = .ok as → tokenize b = .error e →
      tokenize (a ++ b) = .error ⟨e.symbol, a.length + e.position⟩) ∧
    (∀ as bs, tokenize a = .ok as → tokenize b = .ok bs → ¬DigitSeam a b →
      ∃ us, as = us ++ [Token.endAt a.length] ∧
        tokenize (a ++ b) = .ok (us ++ bs.map (Token.moved a.length))) ∧
    ∀ as bs, tokenize a = .ok as → tokenize b = .ok bs → DigitSeam a b →
      ∃ us t t' ws, as = us ++ [t, Token.endAt a.length] ∧ bs = t' :: ws ∧
        t.kind = .number ∧ t'.kind = .number ∧
          tokenize (a ++ b) =
            .ok (us ++ ⟨.number, t.text ++ t'.text, t.position⟩ ::
              ws.map (Token.moved a.length)) := by
  have hsource : ∀ x, tokenize (a ++ b) = x ↔ Lexer.scan 0 (a.toList ++ b.toList) = x := by
    intro x
    rw [tokenize, String.toList_append]
  refine ⟨?_, ?_, ?_, ?_⟩
  · intro e ha
    exact (hsource _).mpr (Lexer.scan_append_of_error ha b.toList)
  · intro as e ha hb
    have hscan := Lexer.scan_append_of_known (p := 0) (Lexer.spells_of_scan ha).known hb
    rw [Nat.zero_add, String.length_toList, Nat.add_comm] at hscan
    exact (hsource _).mpr hscan
  · intro as bs ha hb hseam
    have hspell : Lexer.Spells 0 a.toList as := Lexer.spells_of_scan ha
    have hmoved := (Lexer.spells_of_scan hb).moved a.toList.length
    have hall := hspell.append hmoved (isDigit_of_not_digitSeam hseam)
    obtain ⟨us, rfl, -⟩ := hspell.exists_ends
    rw [List.dropLast_concat, String.length_toList] at hall
    rw [Nat.zero_add, String.length_toList]
    exact ⟨us, rfl, (hsource _).mpr hall.scan_eq⟩
  · intro as bs ha hb hseam
    have hmoved := (Lexer.spells_of_scan hb).moved a.toList.length
    obtain ⟨us, t, t', ws, rfl, hbs, ht, ht', hall⟩ :=
      (Lexer.spells_of_scan ha).merge hmoved hseam.1 hseam.2
    obtain ⟨t', ws, rfl, rfl, rfl⟩ := List.map_eq_cons_iff.mp hbs
    rw [String.length_toList] at hall
    rw [Nat.zero_add, String.length_toList]
    exact ⟨us, t, t', ws, rfl, rfl, ht, ht', (hsource _).mpr hall.scan_eq⟩

/-- The digits on both sides of a seam are one number, which stands where the first of them did. -/
theorem tokenize_append_digits :
    tokenize "1+2" = .ok [⟨.number, "1", 0⟩, ⟨.operator .add, "+", 1⟩, ⟨.number, "2", 2⟩,
        Token.endAt 3] ∧
      tokenize "3*4" = .ok [⟨.number, "3", 0⟩, ⟨.operator .mul, "*", 1⟩, ⟨.number, "4", 2⟩,
        Token.endAt 3] ∧
      tokenize ("1+2" ++ "3*4") = .ok [⟨.number, "1", 0⟩, ⟨.operator .add, "+", 1⟩,
        ⟨.number, "23", 2⟩, ⟨.operator .mul, "*", 4⟩, ⟨.number, "4", 5⟩, Token.endAt 6] := by
  have ha : tokenize "1+2" = .ok [⟨.number, "1", 0⟩, ⟨.operator .add, "+", 1⟩,
      ⟨.number, "2", 2⟩, Token.endAt 3] :=
    (@Lexer.Spells.number 0 ['1'] ['+', '2'] _ (by simp) (by simp) (by simp) (.symbol rfl
      (@Lexer.Spells.number 2 ['2'] [] _ (by simp) (by simp) (by simp) .done))).scan_eq
  have hb : tokenize "3*4" = .ok [⟨.number, "3", 0⟩, ⟨.operator .mul, "*", 1⟩,
      ⟨.number, "4", 2⟩, Token.endAt 3] :=
    (@Lexer.Spells.number 0 ['3'] ['*', '4'] _ (by simp) (by simp) (by simp) (.symbol rfl
      (@Lexer.Spells.number 2 ['4'] [] _ (by simp) (by simp) (by simp) .done))).scan_eq
  have hseam : DigitSeam "1+2" "3*4" := ⟨⟨'2', rfl, rfl⟩, ⟨'3', rfl, rfl⟩⟩
  obtain ⟨us, t, t', ws, hus, hws, -, -, hall⟩ :=
    (tokenize_append "1+2" "3*4").2.2.2 _ _ ha hb hseam
  have hcut : ([⟨.number, "1", 0⟩, ⟨.operator .add, "+", 1⟩] : List Token) ++
      [⟨.number, "2", 2⟩, Token.endAt 3] = us ++ [t, Token.endAt 3] := hus
  obtain ⟨rfl, hlast⟩ := List.append_inj' hcut rfl
  obtain rfl := (List.cons.inj hlast).1
  obtain ⟨rfl, rfl⟩ := List.cons.inj hws
  exact ⟨ha, hb, hall⟩

namespace Lexer

/-! ### Parentheses put into a text -/

/-- The tokens `us` of a text of `d` characters as a group that is opened at `n`. -/
def groupAt (n d : Nat) (us : List Token) : List Token :=
  ⟨.leftParen, "(", n⟩ :: (us.map (Token.moved (n + 1)) ++ [⟨.rightParen, ")", n + 1 + d⟩])

/-- A closing parenthesis behind a text takes the place of its mark for the end, and what stands
behind the parenthesis spells what it does anyway, further on. -/
theorem Spells.closed {us bs : List Token} {s b : List Char} {e : Token}
    (hs : Spells p s (us ++ [e])) (hb : Spells 0 b bs) :
    Spells p (s ++ ')' :: b)
      (us ++ ⟨.rightParen, ")", p + s.length⟩ :: bs.map (Token.moved (p + s.length + 1))) := by
  have hmoved := hb.moved (p + s.length + 1)
  rw [Nat.zero_add] at hmoved
  have hclose : Spells (p + s.length) (')' :: b)
      (⟨.rightParen, ")", p + s.length⟩ :: bs.map (Token.moved (p + s.length + 1))) :=
    .symbol rfl hmoved
  have hall := hs.append hclose (.inr (by simp))
  rwa [List.dropLast_concat] at hall

/-- A text in parentheses, put between two others, spells a group. Those in front spell what
they do anyway, and those behind spell it further on. -/
theorem Spells.grouped {as us bs : List Token} {a s b : List Char} {e e' : Token}
    (ha : Spells 0 a (as ++ [e])) (hs : Spells 0 s (us ++ [e'])) (hb : Spells 0 b bs) :
    Spells 0 (a ++ '(' :: (s ++ ')' :: b))
      (as ++ (groupAt a.length s.length us ++ bs.map (Token.moved (a.length + s.length + 2)))) := by
  have hinner := hs.moved (a.length + 1)
  rw [Nat.zero_add, List.map_append, List.map_singleton] at hinner
  have hbody := hinner.closed hb
  have hpos : a.length + 1 + s.length + 1 = a.length + s.length + 2 := by omega
  rw [hpos] at hbody
  have hgroup : Spells (0 + a.length) ('(' :: (s ++ ')' :: b))
      (groupAt a.length s.length us ++ bs.map (Token.moved (a.length + s.length + 2))) := by
    rw [Nat.zero_add, groupAt, List.cons_append, List.append_assoc, List.singleton_append]
    exact .symbol rfl hbody
  have hall := ha.append hgroup (.inr (by simp))
  rwa [List.dropLast_concat] at hall

end Lexer

/-- The text of `s` as a group between `a` and `b`. -/
def grouped (a s b : String) : String :=
  a ++ "(" ++ s ++ ")" ++ b

namespace Lexer

variable {a s b : String} {e : LexError}

/-- The characters of the whole. -/
theorem toList_grouped (a s b : String) :
    (grouped a s b).toList = a.toList ++ '(' :: (s.toList ++ ')' :: b.toList) := by
  simp [grouped]

/-- When the text in front fails, the whole does. -/
theorem tokenize_grouped_of_error (ha : tokenize a = .error e) (s b : String) :
    tokenize (grouped a s b) = .error e := by
  rw [tokenize, toList_grouped]
  exact scan_append_of_error ha _

/-- When only the text behind fails, the whole does so further on. -/
theorem tokenize_grouped_of_ok {as ss : List Token} (ha : tokenize a = .ok as)
    (hs : tokenize s = .ok ss) (hb : tokenize b = .error e) :
    tokenize (grouped a s b) = .error ⟨e.symbol, e.position + (a.length + s.length + 2)⟩ := by
  have hknown : ∀ c ∈ a.toList ++ '(' :: (s.toList ++ [')']), Known c := by
    intro c hc
    simp only [List.mem_append, List.mem_cons, List.not_mem_nil, or_false] at hc
    rcases hc with hc | rfl | hc | rfl
    · exact (spells_of_scan ha).known c hc
    · exact .inr (.inr (by simp))
    · exact (spells_of_scan hs).known c hc
    · exact .inr (.inr (by simp))
  have hscan := scan_append_of_known (p := 0) hknown hb
  have hlen : 0 + (a.toList ++ '(' :: (s.toList ++ [')'])).length = a.length + s.length + 2 := by
    simp only [List.length_append, List.length_cons, List.length_nil, String.length_toList]
    omega
  rw [hlen] at hscan
  rw [tokenize, toList_grouped, ← hscan]
  simp

/-- When none of them fails, the group stands between the tokens of the two texts. -/
theorem tokenize_grouped {as us bs : List Token} {t t' : Token} (ha : tokenize a = .ok (as ++ [t]))
    (hs : tokenize s = .ok (us ++ [t'])) (hb : tokenize b = .ok bs) :
    tokenize (grouped a s b) = .ok (as ++ (groupAt a.length s.length us ++
      bs.map (Token.moved (a.length + s.length + 2)))) := by
  rw [tokenize, toList_grouped, ← String.length_toList, ← String.length_toList]
  exact ((spells_of_scan ha).grouped (spells_of_scan hs) (spells_of_scan hb)).scan_eq

end Lexer

end Abacus
