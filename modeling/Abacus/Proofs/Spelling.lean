import Abacus.Proofs.Checked
import Abacus.Token.Lexer

/-!
# How characters spell tokens

`Lexer.scan` reads characters from left to right; this module says what tokens the
characters spell. `Spells p cs ts` holds when the characters `cs`, the first of them at the
position `p`, are those of the tokens `ts` in order, with any number of spaces in front of
each, no two neighbouring digits in different numbers, and the mark for the end behind the
last character. Characters spell one sequence of tokens at most, and the lexer finds it.

Positions count characters, so a token and the characters in front of it and behind it
determine each other. `Spells.exists_cut` cuts a token out of its source once, and what
there is to say about a single token is read off that cut.

## Main results

* `Lexer.scan_eq_ok_iff`: the lexer has tokens exactly when the characters spell them.
* `Lexer.exists_of_scan_eq_error`: it fails at the first character that belongs to no token.
* `tokenize_faithful`: both together, for the text of an expression: exactly when there are
  tokens, and all that they say about the text.
-/

namespace Abacus

/-- The text of a token is one that its kind is written with. -/
def Token.WellSpelled (t : Token) : Prop :=
  match t.kind with
  | .operator op => t.text = op.symbol.toString
  | .leftParen => t.text = "("
  | .rightParen => t.text = ")"
  | .number => t.text ≠ "" ∧ ∀ c ∈ t.text.toList, c.isDigit = true
  | .endMark => t.text = ""

namespace Lexer

/-- A character that may stand in an expression: a space, a digit or a symbol. -/
def Known (c : Char) : Prop :=
  c = ' ' ∨ c.isDigit = true ∨ c ∈ ['(', ')', '*', '/', '+', '-']

instance (c : Char) : Decidable (Known c) :=
  inferInstanceAs (Decidable (_ ∨ _))

/-- The symbols are the six characters that make a token of their own. -/
theorem isSome_ofSymbol?_iff {c : Char} :
    (Token.Kind.ofSymbol? c).isSome = true ↔ c ∈ ['(', ')', '*', '/', '+', '-'] := by
  constructor
  · unfold Token.Kind.ofSymbol?
    split <;> simp
  · intro h
    simp only [List.mem_cons, List.not_mem_nil, or_false] at h
    rcases h with rfl | rfl | rfl | rfl | rfl | rfl <;> rfl

/-- The token of a symbol is spelled as its kind is. -/
theorem wellSpelled_of_ofSymbol? {c : Char} {k : Token.Kind} (p : Nat)
    (h : Token.Kind.ofSymbol? c = some k) : Token.WellSpelled ⟨k, c.toString, p⟩ := by
  unfold Token.Kind.ofSymbol? at h
  split at h <;> cases h <;> rfl

/-- The characters `cs` from the position `p` on spell the tokens. -/
inductive Spells : Nat → List Char → List Token → Prop
  | done {p : Nat} : Spells p [] [Token.endAt p]
  | space {p : Nat} {cs : List Char} {ts : List Token} :
      Spells (p + 1) cs ts → Spells p (' ' :: cs) ts
  | symbol {p : Nat} {c : Char} {cs : List Char} {k : Token.Kind} {ts : List Token} :
      Token.Kind.ofSymbol? c = some k → Spells (p + 1) cs ts →
      Spells p (c :: cs) (⟨k, c.toString, p⟩ :: ts)
  | number {p : Nat} {ds cs : List Char} {ts : List Token} :
      ds ≠ [] → (∀ c ∈ ds, c.isDigit = true) → (∀ c ∈ cs.head?, c.isDigit = false) →
      Spells (p + ds.length) cs ts →
      Spells p (ds ++ cs) (⟨.number, String.ofList ds, p⟩ :: ts)

/-- Spaces in front of what is spelled spell nothing. -/
theorem Spells.spaces {p n : Nat} {cs : List Char} {ts : List Token}
    (h : Spells (p + n) cs ts) : Spells p (List.replicate n ' ' ++ cs) ts := by
  induction n generalizing p with
  | zero => exact h
  | succ n ih =>
      have hnext : p + 1 + n = p + (n + 1) := by omega
      exact .space (ih (hnext ▸ h))

/-! ### The lexer finds what is spelled -/

/-- A run of digits that no further digit follows is one number. -/
theorem scan_digits {ds : List Char} (p : Nat) (cs : List Char) (hne : ds ≠ [])
    (hds : ∀ c ∈ ds, c.isDigit = true) (hcs : ∀ c ∈ cs.head?, c.isDigit = false) :
    scan p (ds ++ cs) =
      (scan (p + ds.length) cs).map (⟨.number, String.ofList ds, p⟩ :: ·) := by
  obtain ⟨d, ds, rfl⟩ := List.exists_cons_of_ne_nil hne
  have htail : ∀ c ∈ ds, c.isDigit = true := fun c hc => hds c (List.mem_cons_of_mem d hc)
  have htake : cs.takeWhile Char.isDigit = [] := by
    cases cs with
    | nil => rfl
    | cons c cs => rw [List.takeWhile_cons, if_neg (by simp [hcs c rfl])]
  have hdrop : cs.dropWhile Char.isDigit = cs := by
    cases cs with
    | nil => rfl
    | cons c cs => rw [List.dropWhile_cons, if_neg (by simp [hcs c rfl])]
  rw [List.cons_append, scan_digit p _ (hds d List.mem_cons_self),
    List.takeWhile_append_of_pos htail, List.dropWhile_append_of_pos htail, htake, hdrop,
    List.append_nil]

/-- What is spelled, the lexer finds. -/
theorem Spells.scan_eq {p : Nat} {cs : List Char} {ts : List Token} (h : Spells p cs ts) :
    scan p cs = .ok ts := by
  induction h with
  | done => exact scan_nil _
  | space _ ih => rw [scan_space, ih]
  | symbol hk _ ih => rw [scan_symbol _ _ hk, ih, Except.map]
  | number hne hds hcs _ ih => rw [scan_digits _ _ hne hds hcs, ih, Except.map]

/-- The characters in front of the first digit that is missing are digits. -/
theorem isDigit_of_mem_takeWhile {c : Char} {cs : List Char}
    (h : c ∈ cs.takeWhile Char.isDigit) : c.isDigit = true :=
  List.all_eq_true.mp (List.all_takeWhile (p := Char.isDigit) (l := cs)) c h

/-- No digit follows the longest run of digits. -/
theorem isDigit_head?_dropWhile {cs : List Char} :
    ∀ c ∈ (cs.dropWhile Char.isDigit).head?, c.isDigit = false := by
  intro c hc
  have h := List.head?_dropWhile_not Char.isDigit cs
  rw [Option.mem_def.mp hc] at h
  simpa using h

/-- What the lexer finds is spelled. Each character decides for itself, but for the digits
that continue a number, which are taken together. -/
theorem spells_of_scan {p : Nat} {cs : List Char} {ts : List Token}
    (h : scan p cs = .ok ts) : Spells p cs ts := by
  induction p, cs using scan.induct generalizing ts with
  | case1 p =>
      rw [scan_nil] at h
      cases h
      exact .done
  | case2 p cs ih =>
      rw [scan_space] at h
      exact .space (ih h)
  | case3 p c cs hs hd digits =>
      rename_i ih
      rw [scan_digit p cs hd, map_eq_ok_iff] at h
      obtain ⟨ts, hts, rfl⟩ := h
      have hds : ∀ d ∈ c :: cs.takeWhile Char.isDigit, d.isDigit = true := by
        rintro d (- | ⟨_, hmem⟩)
        · exact hd
        · exact isDigit_of_mem_takeWhile hmem
      have hspell := Spells.number (List.cons_ne_nil c _) hds isDigit_head?_dropWhile (ih hts)
      rwa [List.cons_append, List.takeWhile_append_dropWhile] at hspell
  | case4 p c cs hs hd k hk ih =>
      rw [scan_symbol p cs hk, map_eq_ok_iff] at h
      obtain ⟨ts, hts, rfl⟩ := h
      exact .symbol hk (ih hts)
  | case5 p c cs hs hd hk =>
      rw [scan_unknown p cs hs (by simpa using hd) hk] at h
      cases h

/-- **The lexer has the tokens that are spelled**, and no others. -/
theorem scan_eq_ok_iff {p : Nat} {cs : List Char} {ts : List Token} :
    scan p cs = .ok ts ↔ Spells p cs ts :=
  ⟨spells_of_scan, Spells.scan_eq⟩

/-- Only known characters spell anything. -/
theorem Spells.known {p : Nat} {cs : List Char} {ts : List Token} (h : Spells p cs ts) :
    ∀ c ∈ cs, Known c := by
  induction h with
  | done => exact fun _ hc => absurd hc List.not_mem_nil
  | space _ ih =>
      rintro c (- | ⟨_, hc⟩)
      · exact .inl rfl
      · exact ih c hc
  | symbol hk _ ih =>
      rintro c (- | ⟨_, hc⟩)
      · exact .inr (.inr (isSome_ofSymbol?_iff.mp (by rw [hk]; rfl)))
      · exact ih c hc
  | number _ hds _ _ ih =>
      intro c hc
      rcases List.mem_append.mp hc with hc | hc
      · exact .inr (.inl (hds c hc))
      · exact ih c hc

/-- **The lexer fails at the first character that it does not know**, and says which and
where. -/
theorem exists_of_scan_eq_error {p : Nat} {cs : List Char} {e : LexError}
    (h : scan p cs = .error e) :
    ∃ known rest, cs = known ++ e.symbol :: rest ∧ (∀ c ∈ known, Known c) ∧
      ¬Known e.symbol ∧ e.position = p + known.length := by
  induction p, cs using scan.induct generalizing e with
  | case1 p =>
      rw [scan_nil] at h
      cases h
  | case2 p cs ih =>
      rw [scan_space] at h
      obtain ⟨known, rest, rfl, hknown, hnot, hpos⟩ := ih h
      have hlength : e.position = p + (' ' :: known).length := by
        rw [hpos, List.length_cons]
        omega
      refine ⟨' ' :: known, rest, rfl, ?_, hnot, hlength⟩
      rintro c (- | ⟨_, hc⟩)
      · exact .inl rfl
      · exact hknown c hc
  | case3 p c cs hs hd digits =>
      rename_i ih
      rw [scan_digit p cs hd, map_eq_error_iff] at h
      obtain ⟨known, rest, hcs, hknown, hnot, hpos⟩ := ih h
      refine ⟨c :: cs.takeWhile Char.isDigit ++ known, rest, ?_, ?_, hnot, ?_⟩
      · rw [List.append_assoc, ← hcs, List.cons_append, List.takeWhile_append_dropWhile]
      · intro d hmem
        rcases List.mem_append.mp hmem with (- | ⟨_, hmem⟩) | hmem
        · exact .inr (.inl hd)
        · exact .inr (.inl (isDigit_of_mem_takeWhile hmem))
        · exact hknown d hmem
      · rw [hpos, List.length_append]
        exact Nat.add_assoc _ _ _
  | case4 p c cs hs hd k hk ih =>
      rw [scan_symbol p cs hk, map_eq_error_iff] at h
      obtain ⟨known, rest, rfl, hknown, hnot, hpos⟩ := ih h
      have hlength : e.position = p + (c :: known).length := by
        rw [hpos, List.length_cons]
        omega
      refine ⟨c :: known, rest, rfl, ?_, hnot, hlength⟩
      rintro d (- | ⟨_, hd⟩)
      · exact .inr (.inr (isSome_ofSymbol?_iff.mp (by rw [hk]; rfl)))
      · exact hknown d hd
  | case5 p c cs hs hd hk =>
      rw [scan_unknown p cs hs (by simpa using hd) hk] at h
      cases h
      refine ⟨[], cs, rfl, fun _ hc => absurd hc List.not_mem_nil, ?_, rfl⟩
      rintro (hc | hc | hc)
      · exact hs hc
      · exact hd hc
      · rw [← isSome_ofSymbol?_iff, hk] at hc
        cases hc

/-! ### A token and its source -/

/-- The token stands between the characters `before` and `after`, its position counts from
`p`, its text is one of its kind, a mark for the end is last, and a number cannot be
extended to either side. -/
structure Cut (p : Nat) (cs : List Char) (t : Token) (before after : List Char) : Prop where
  eq_append : cs = before ++ (t.text.toList ++ after)
  position_eq : t.position = p + before.length
  wellSpelled : t.WellSpelled
  last : t.kind = .endMark → after = []
  maximal : t.kind = .number →
    (∀ c ∈ before.getLast?, c.isDigit = false) ∧ ∀ c ∈ after.head?, c.isDigit = false

/-- A symbol is no digit. -/
theorem isDigit_of_ofSymbol? {c : Char} {k : Token.Kind}
    (h : Token.Kind.ofSymbol? c = some k) : c.isDigit = false := by
  cases hd : c.isDigit with
  | false => rfl
  | true =>
      rw [Token.Kind.ofSymbol?_of_isDigit hd] at h
      cases h

/-- A symbol makes neither a number nor a mark for the end. -/
theorem ne_of_ofSymbol? {c : Char} {k : Token.Kind} (h : Token.Kind.ofSymbol? c = some k) :
    k ≠ .number ∧ k ≠ .endMark := by
  unfold Token.Kind.ofSymbol? at h
  split at h <;> cases h <;> simp

/-- A number begins with a digit. -/
theorem exists_cons_of_number {t : Token} (h : t.WellSpelled) (hk : t.kind = .number) :
    ∃ c cs, t.text.toList = c :: cs ∧ c.isDigit = true := by
  rw [Token.WellSpelled, hk] at h
  obtain ⟨c, cs, hcs⟩ := List.exists_cons_of_ne_nil
    fun hnil => h.1 (String.toList_eq_nil_iff.mp hnil)
  exact ⟨c, cs, hcs, h.2 c (by rw [hcs]; exact List.mem_cons_self)⟩

/-- More characters in front move a token on. They do not make a number longer, if they end
with no digit or none follows them. -/
theorem Cut.append {p : Nat} {ds cs before after : List Char} {t : Token}
    (h : Cut (p + ds.length) cs t before after)
    (hds : (∀ c ∈ ds.getLast?, c.isDigit = false) ∨ ∀ c ∈ cs.head?, c.isDigit = false) :
    Cut p (ds ++ cs) t (ds ++ before) after where
  eq_append := by rw [h.eq_append, List.append_assoc]
  position_eq := by rw [h.position_eq, List.length_append, Nat.add_assoc]
  wellSpelled := h.wellSpelled
  last := h.last
  maximal hk := by
    refine ⟨?_, (h.maximal hk).2⟩
    intro c hc
    rw [List.getLast?_append] at hc
    cases hb : before.getLast? with
    | some b =>
        rw [hb] at hc
        exact (h.maximal hk).1 c (hb.trans hc)
    | none =>
        rw [hb, Option.none_or] at hc
        rcases hds with hds | hcs
        · exact hds c hc
        · obtain ⟨d, ds', htext, hd⟩ := exists_cons_of_number h.wellSpelled hk
          have hcs' := hcs d (by
            rw [h.eq_append, List.getLast?_eq_none_iff.mp hb, htext]
            rfl)
          rw [hd] at hcs'
          cases hcs'

/-- **Every token is cut out of its source.** -/
theorem Spells.exists_cut {p : Nat} {cs : List Char} {ts : List Token} {t : Token}
    (h : Spells p cs ts) (ht : t ∈ ts) : ∃ before after, Cut p cs t before after := by
  induction h with
  | @done p =>
      obtain rfl := List.mem_singleton.mp ht
      refine ⟨[], [], rfl, rfl, rfl, fun _ => rfl, ?_⟩
      intro h
      cases h
  | @space p cs ts _ ih =>
      obtain ⟨before, after, hcut⟩ := ih ht
      have hcut : Cut (p + [' '].length) cs t before after := hcut
      exact ⟨' ' :: before, after, hcut.append (.inl (by simp))⟩
  | @symbol p c cs k ts hk _ ih =>
      rcases List.mem_cons.mp ht with rfl | ht
      · obtain ⟨hnum, hend⟩ := ne_of_ofSymbol? hk
        exact ⟨[], cs, by simp, rfl, wellSpelled_of_ofSymbol? p hk, fun h => absurd h hend,
          fun h => absurd h hnum⟩
      · obtain ⟨before, after, hcut⟩ := ih ht
        have hcut : Cut (p + [c].length) cs t before after := hcut
        exact ⟨c :: before, after, hcut.append (.inl (by simpa using isDigit_of_ofSymbol? hk))⟩
  | @number p ds cs ts hne hds hcs _ ih =>
      rcases List.mem_cons.mp ht with rfl | ht
      · have hspell : Token.WellSpelled ⟨.number, String.ofList ds, p⟩ := by
          refine ⟨?_, by simpa using hds⟩
          intro h
          rw [← String.toList_eq_nil_iff, String.toList_ofList] at h
          exact hne h
        refine ⟨[], cs, by simp, rfl, hspell, ?_, fun _ => ⟨by simp, hcs⟩⟩
        intro h
        cases h
      · obtain ⟨before, after, hcut⟩ := ih ht
        exact ⟨ds ++ before, after, hcut.append (.inr hcs)⟩

/-- The mark for the end stands behind the last character, and nowhere else. -/
theorem Spells.exists_ends {p : Nat} {cs : List Char} {ts : List Token}
    (h : Spells p cs ts) :
    ∃ us, ts = us ++ [Token.endAt (p + cs.length)] ∧ ∀ t ∈ us, t.kind ≠ .endMark := by
  induction h with
  | done => exact ⟨[], rfl, fun _ ht => absurd ht List.not_mem_nil⟩
  | @space p cs ts _ ih =>
      obtain ⟨us, rfl, hus⟩ := ih
      have hlength : p + 1 + cs.length = p + (' ' :: cs).length := by
        rw [List.length_cons]
        omega
      exact ⟨us, by rw [hlength], hus⟩
  | @symbol p c cs k ts hk _ ih =>
      obtain ⟨us, rfl, hus⟩ := ih
      have hlength : p + 1 + cs.length = p + (c :: cs).length := by
        rw [List.length_cons]
        omega
      refine ⟨⟨k, c.toString, p⟩ :: us, ?_, List.forall_mem_cons.mpr ⟨(ne_of_ofSymbol? hk).2, hus⟩⟩
      rw [List.cons_append, hlength]
  | @number p ds cs ts _ _ _ _ ih =>
      obtain ⟨us, rfl, hus⟩ := ih
      refine ⟨⟨.number, String.ofList ds, p⟩ :: us, ?_, List.forall_mem_cons.mpr ⟨by simp, hus⟩⟩
      rw [List.cons_append, List.length_append, Nat.add_assoc]

/-- Every token but the mark for the end takes up at least one character. -/
theorem position_lt_endOffset {t : Token} (h : t.WellSpelled) (hk : t.kind ≠ .endMark) :
    t.position < t.endOffset := by
  have hlen : 0 < t.text.length := by
    rw [Nat.pos_iff_ne_zero, ne_eq, String.length_eq_zero_iff]
    intro hnil
    rw [Token.WellSpelled] at h
    split at h <;> simp_all
  rw [Token.endOffset]
  omega

/-- No token begins in front of the characters that spell it. -/
theorem Spells.le_position {p : Nat} {cs : List Char} {ts : List Token} {t : Token}
    (h : Spells p cs ts) (ht : t ∈ ts) : p ≤ t.position := by
  obtain ⟨before, after, hcut⟩ := h.exists_cut ht
  have := hcut.position_eq
  omega

/-- Each token takes up characters and ends in front of the tokens behind it. -/
theorem Spells.pairwise {p : Nat} {cs : List Char} {ts : List Token} (h : Spells p cs ts) :
    ts.Pairwise fun t t' => t.position < t.endOffset ∧ t.endOffset ≤ t'.position := by
  induction h with
  | done => exact List.pairwise_singleton _ _
  | space _ ih => exact ih
  | symbol hk hspell ih =>
      refine List.pairwise_cons.mpr ⟨?_, ih⟩
      intro t ht
      refine ⟨by simp [Token.endOffset], ?_⟩
      simpa [Token.endOffset] using hspell.le_position ht
  | @number p ds cs ts hne _ _ hspell ih =>
      have hpos := List.length_pos_iff.mpr hne
      refine List.pairwise_cons.mpr ⟨?_, ih⟩
      intro t ht
      refine ⟨by simpa [Token.endOffset], ?_⟩
      simpa [Token.endOffset] using hspell.le_position ht

/-- What no token covers is a space. -/
theorem Spells.eq_space {p : Nat} {cs : List Char} {ts : List Token} (h : Spells p cs ts)
    {i : Nat} {c : Char} (hc : cs[i]? = some c)
    (hgap : ∀ t ∈ ts, ¬(t.position ≤ p + i ∧ p + i < t.endOffset)) : c = ' ' := by
  induction h generalizing i with
  | done => cases hc
  | @space p cs ts _ ih =>
      cases i with
      | zero => exact (Option.some.inj hc).symm
      | succ i =>
          refine ih hc ?_
          intro t ht
          rw [Nat.add_right_comm]
          exact hgap t ht
  | @symbol p c' cs k ts hk _ ih =>
      cases i with
      | zero =>
          exact absurd ⟨Nat.le_refl p, by simp [Token.endOffset]⟩ (hgap _ List.mem_cons_self)
      | succ i =>
          refine ih hc ?_
          intro t ht
          rw [Nat.add_right_comm]
          exact hgap t (List.mem_cons_of_mem _ ht)
  | @number p ds cs ts _ _ _ _ ih =>
      by_cases hi : i < ds.length
      · refine absurd ⟨Nat.le_add_right p i, ?_⟩ (hgap _ List.mem_cons_self)
        simpa [Token.endOffset] using hi
      · rw [List.getElem?_append_right (Nat.le_of_not_lt hi)] at hc
        refine ih hc ?_
        intro t ht
        rw [Nat.add_assoc, Nat.add_sub_cancel' (Nat.le_of_not_lt hi)]
        exact hgap t (List.mem_cons_of_mem _ ht)

/-- What the tokens of an expression say about its characters. -/
structure Faithful (source : List Char) (ts : List Token) : Prop where
  /-- The mark for the end is the last token and no other, behind the last character. -/
  ends : ∃ us, ts = us ++ [Token.endAt source.length] ∧ ∀ t ∈ us, t.kind ≠ .endMark
  /-- Every other token has a text, which is the characters from its position on. -/
  cut : ∀ t ∈ ts, t.kind ≠ .endMark →
    t.text ≠ "" ∧ (source.drop t.position).take t.text.length = t.text.toList
  /-- The text is one that the kind is written with. -/
  wellSpelled : ∀ t ∈ ts, t.WellSpelled
  /-- Tokens follow each other as their characters do, and share none. -/
  ordered : ts.Pairwise fun t t' => t.position < t.endOffset ∧ t.endOffset ≤ t'.position
  /-- What no token covers is a space. -/
  gaps : ∀ i c, source[i]? = some c →
    (∀ t ∈ ts, ¬(t.position ≤ i ∧ i < t.endOffset)) → c = ' '
  /-- No digit stands directly behind a number, and none directly in front. -/
  maximal : ∀ t ∈ ts, t.kind = .number →
    (∀ c, source[t.endOffset]? = some c → c.isDigit = false) ∧
      ∀ i c, i + 1 = t.position → source[i]? = some c → c.isDigit = false

/-- Tokens that are spelled are faithful to what spells them. -/
theorem Spells.faithful {cs : List Char} {ts : List Token} (h : Spells 0 cs ts) :
    Faithful cs ts where
  ends := by simpa using h.exists_ends
  cut t ht hk := by
    obtain ⟨before, after, hcut⟩ := h.exists_cut ht
    have hlt := position_lt_endOffset hcut.wellSpelled hk
    constructor
    · intro hnil
      simp [Token.endOffset, hnil] at hlt
    · rw [hcut.eq_append, hcut.position_eq, Nat.zero_add, List.drop_left, ← String.length_toList,
        List.take_left]
  wellSpelled t ht := by
    obtain ⟨before, after, hcut⟩ := h.exists_cut ht
    exact hcut.wellSpelled
  ordered := h.pairwise
  gaps i c hc hgap := by
    refine h.eq_space hc ?_
    intro t ht
    rw [Nat.zero_add]
    exact hgap t ht
  maximal t ht hk := by
    obtain ⟨before, after, hcut⟩ := h.exists_cut ht
    obtain ⟨hbefore, hafter⟩ := hcut.maximal hk
    have hpos : t.position = before.length := by rw [hcut.position_eq, Nat.zero_add]
    constructor
    · intro c hc
      refine hafter c ?_
      rw [hcut.eq_append, Token.endOffset, hpos, ← String.length_toList,
        List.getElem?_append_right (Nat.le_add_right _ _), Nat.add_sub_cancel_left,
        List.getElem?_append_right (Nat.le_refl _), Nat.sub_self] at hc
      rw [List.head?_eq_getElem?]
      exact hc
    · intro i c hi hc
      refine hbefore c ?_
      rw [hcut.eq_append, List.getElem?_append_left (by omega)] at hc
      rw [List.getLast?_eq_getElem?, ← hpos, ← hi]
      exact hc

end Lexer

/-- **The tokens of a text are faithful to it.** There are none exactly when the text has a
character that belongs to no token; the error then names the first of these and its place,
counted in characters. Otherwise the tokens cut the text up: the mark for the end stands
behind it, every other token is some of its characters, in order and none of them twice, no
number can be extended, and what is left out are spaces. -/
theorem tokenize_faithful (source : String) :
    ((∃ e, tokenize source = .error e) ↔ ∃ c ∈ source.toList, ¬Lexer.Known c) ∧
    (∀ e, tokenize source = .error e →
      source.toList[e.position]? = some e.symbol ∧ ¬Lexer.Known e.symbol ∧
        ∀ i c, i < e.position → source.toList[i]? = some c → Lexer.Known c) ∧
    ∀ ts, tokenize source = .ok ts → Lexer.Faithful source.toList ts := by
  refine ⟨⟨?_, ?_⟩, ?_, fun ts hts => (Lexer.spells_of_scan hts).faithful⟩
  · rintro ⟨e, he⟩
    obtain ⟨known, rest, hcs, -, hnot, -⟩ := Lexer.exists_of_scan_eq_error he
    exact ⟨e.symbol, by rw [hcs]; simp, hnot⟩
  · rintro ⟨c, hc, hnot⟩
    cases hscan : tokenize source with
    | error e => exact ⟨e, rfl⟩
    | ok ts => exact absurd ((Lexer.spells_of_scan hscan).known c hc) hnot
  · intro e he
    obtain ⟨known, rest, hcs, hknown, hnot, hpos⟩ := Lexer.exists_of_scan_eq_error he
    rw [Nat.zero_add] at hpos
    refine ⟨by rw [hcs, hpos]; simp, hnot, ?_⟩
    intro i c hi hc
    refine hknown c ?_
    rw [hcs, List.getElem?_append_left (by omega)] at hc
    exact List.mem_of_getElem? hc

end Abacus
