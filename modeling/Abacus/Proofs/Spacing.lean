import Abacus.Proofs.Seam
import Mathlib.Data.List.Chain

/-!
# Tokens written at their positions

Tokens say where they stand, so they can be written down again: each at its position, with
spaces wherever none of them stands, up to the mark for the end. That makes sense as long as no
token begins before the one in front of it has ended, and as two neighbouring numbers have a
space between them, which would be one number otherwise. Tokens of that sort are `Spaced`.

The lexer reads them back, positions included, and the tokens that it finds in any text are
spaced and are that text when they are written. So spaced tokens and the texts that have tokens
at all are the same thing.

## Main results

* `Lexer.Spaced.exists_spells`: spaced tokens are spelled by some characters.
* `Lexer.Faithful.eq_written`: characters to which tokens are faithful are what they are written
  as.
* `tokenize_eq_ok_iff_written`: a text has the tokens exactly when they are spaced and written as
  the text.
* `tokenize_written`: what follows for a round trip, for the tokens of any text, and for two
  sequences that are written alike.
-/

namespace Abacus

namespace Token

/-- The token may stand directly in front of the other one: it has ended there, and between two
numbers there is a gap. -/
def Precedes (t t' : Token) : Prop :=
  t.endOffset ≤ t'.position ∧
    (t.kind = .number → t'.kind = .number → t.endOffset < t'.position)

instance (t t' : Token) : Decidable (t.Precedes t') :=
  inferInstanceAs (Decidable (_ ∧ _))

/-- The place lies within the text of the token. -/
def Covers (t : Token) (i : Nat) : Prop :=
  t.position ≤ i ∧ i < t.endOffset

instance (t : Token) (i : Nat) : Decidable (t.Covers i) :=
  inferInstanceAs (Decidable (_ ∧ _))

end Token

namespace Lexer

/-- Tokens that can be written at their positions: one mark for the end, which is last, every
token with a text of its kind, and each ended where the next one begins. -/
structure Spaced (ts : List Token) : Prop where
  ends : ∃ us p, ts = us ++ [Token.endAt p] ∧ ∀ t ∈ us, t.kind ≠ .endMark
  wellSpelled : ∀ t ∈ ts, t.WellSpelled
  chain : ts.IsChain Token.Precedes

/-- The character that tokens have at a place: that of the token which covers it, or a space. -/
def charAt (ts : List Token) (i : Nat) : Char :=
  match ts.find? (·.Covers i) with
  | some t => t.text.toList.getD (i - t.position) ' '
  | none => ' '

/-- The text of tokens: each is written at its position, the last position ends it, and all else
is spaces. -/
def written (ts : List Token) : String :=
  String.ofList ((List.range ((ts.getLast?.map Token.position).getD 0)).map (charAt ts))

/-! ### Spaced tokens are spelled -/

variable {p : Nat} {cs : List Char} {us ts : List Token} {t : Token}

/-- The first of spaced tokens is the mark for the end and the only one, or it may stand in front
of the others, which are spaced. -/
theorem Spaced.uncons (h : Spaced (t :: ts)) :
    t = Token.endAt t.position ∧ ts = [] ∨
      t.kind ≠ .endMark ∧ Spaced ts ∧ ∀ t' ∈ ts.head?, t.Precedes t' := by
  obtain ⟨us, p, heq, hus⟩ := h.ends
  obtain ⟨hhead, htail⟩ := List.isChain_cons.mp h.chain
  cases us with
  | nil =>
      obtain ⟨rfl, rfl⟩ := List.cons.inj heq
      exact .inl ⟨rfl, rfl⟩
  | cons u us =>
      obtain ⟨rfl, rfl⟩ := List.cons.inj heq
      obtain ⟨hk, hus⟩ := List.forall_mem_cons.mp hus
      exact .inr ⟨hk, ⟨⟨us, p, rfl, hus⟩, fun t' ht' => h.wellSpelled t' (.tail t ht'), htail⟩,
        hhead⟩

/-- A token is spelled by its own text, in front of what spells the others. -/
theorem Spells.cons (hspelled : t.WellSpelled) (hk : t.kind ≠ .endMark)
    (hdigit : t.kind = .number → ∀ c ∈ cs.head?, c.isDigit = false)
    (h : Spells t.endOffset cs ts) : Spells t.position (t.text.toList ++ cs) (t :: ts) := by
  obtain ⟨kind, text, position⟩ := t
  have hsymbol : ∀ c : Char, Token.Kind.ofSymbol? c = some kind → text = c.toString →
      Spells position (text.toList ++ cs) (⟨kind, text, position⟩ :: ts) := by
    rintro c hc rfl
    have hchars : c.toString.toList = [c] := by simp
    rw [hchars, List.singleton_append]
    exact .symbol hc (by simpa [Token.endOffset] using h)
  cases kind with
  | operator op => exact hsymbol op.symbol (Token.Kind.ofSymbol?_symbol op) hspelled
  | leftParen => exact hsymbol '(' rfl hspelled
  | rightParen => exact hsymbol ')' rfl hspelled
  | number =>
      obtain ⟨hne, hdigits⟩ := hspelled
      rw [Token.endOffset, ← String.length_toList] at h
      have hnumber := Spells.number (fun hnil => hne (String.toList_eq_nil_iff.mp hnil)) hdigits
        (hdigit rfl) h
      rwa [String.ofList_toList] at hnumber
  | endMark => exact absurd rfl hk

/-- Behind a gap no digit comes first, and neither does one where no number does. -/
theorem Spells.isDigit_head? (h : Spells p cs ts)
    (hgap : ∀ t ∈ ts.head?, t.kind = .number → p < t.position) :
    ∀ c ∈ cs.head?, c.isDigit = false := by
  intro c hc
  rw [Bool.eq_false_iff]
  intro hdigit
  obtain ⟨ds, cs', ts', rfl, rfl, -⟩ := h.exists_number ⟨c, hc, hdigit⟩
  exact absurd (hgap _ rfl rfl) (Nat.lt_irrefl p)

/-- **Spaced tokens are spelled**, from any place that is not behind the first of them. Each
token is spelled by its text and the gap in front of it by spaces. -/
theorem Spaced.exists_spells (h : Spaced ts) (hp : ∀ t ∈ ts.head?, p ≤ t.position) :
    ∃ cs, Spells p cs ts := by
  induction ts generalizing p with
  | nil =>
      obtain ⟨us, q, heq, -⟩ := h.ends
      simp at heq
  | cons t ts ih =>
      obtain ⟨n, hn⟩ := Nat.exists_eq_add_of_le (hp t rfl)
      suffices hspell : ∃ cs, Spells t.position cs (t :: ts) by
        obtain ⟨cs, hcs⟩ := hspell
        exact ⟨_, .spaces (hn ▸ hcs)⟩
      rcases h.uncons with ⟨ht, rfl⟩ | ⟨hk, hts, hhead⟩
      · exact ⟨[], by rw [ht]; exact .done⟩
      · obtain ⟨cs, hcs⟩ := ih hts fun t' ht' => (hhead t' ht').1
        refine ⟨_, .cons (h.wellSpelled t List.mem_cons_self) hk (fun hnumber => ?_) hcs⟩
        exact hcs.isDigit_head? fun t' ht' => (hhead t' ht').2 hnumber

/-! ### What is spelled is spaced -/

/-- Characters that spell a number without a gap in front of it begin with a digit. -/
theorem Spells.exists_isDigit (h : Spells t.position cs ts) (ht : t ∈ ts.head?)
    (hk : t.kind = .number) : ∃ c ∈ cs.head?, c.isDigit = true := by
  generalize hp : t.position = p at h
  cases h with
  | done =>
      cases ht
      cases hk
  | space hspell =>
      have hle := hspell.le_position (List.mem_of_mem_head? ht)
      omega
  | symbol hsymbol _ =>
      cases ht
      exact absurd hk (ne_of_ofSymbol? hsymbol).1
  | @number _ ds cs _ hne hds _ _ =>
      obtain ⟨d, ds, rfl⟩ := List.exists_cons_of_ne_nil hne
      exact ⟨d, rfl, hds d List.mem_cons_self⟩

/-- Each token has ended where the next one begins, and a number is not followed by digits. -/
theorem Spells.isChain (h : Spells p cs ts) : ts.IsChain Token.Precedes := by
  induction h with
  | done => exact .singleton _
  | space _ ih => exact ih
  | @symbol p c cs k ts hk hspell ih =>
      refine List.isChain_cons.mpr ⟨fun t ht => ⟨?_, fun hnumber => ?_⟩, ih⟩
      · simpa [Token.endOffset] using hspell.le_position (List.mem_of_mem_head? ht)
      · exact absurd hnumber (ne_of_ofSymbol? hk).1
  | @number p ds cs ts hne hds hcs hspell ih =>
      refine List.isChain_cons.mpr ⟨fun t ht => ?_, ih⟩
      have hle : p + ds.length ≤ t.position := hspell.le_position (List.mem_of_mem_head? ht)
      have hend : Token.endOffset ⟨.number, String.ofList ds, p⟩ = p + ds.length := by
        simp [Token.endOffset]
      rw [Token.Precedes, hend]
      refine ⟨hle, fun _ hnumber => Nat.lt_of_le_of_ne hle fun heq => ?_⟩
      obtain ⟨c, hc, hdigit⟩ := (heq ▸ hspell).exists_isDigit ht hnumber
      rw [hcs c hc] at hdigit
      cases hdigit

/-- What is spelled is spaced. -/
theorem Spells.spaced (h : Spells p cs ts) : Spaced ts where
  ends := by
    obtain ⟨us, hts, hus⟩ := h.exists_ends
    exact ⟨us, _, hts, hus⟩
  wellSpelled t ht := by
    obtain ⟨before, after, hcut⟩ := h.exists_cut ht
    exact hcut.wellSpelled
  chain := h.isChain

/-! ### What tokens are written as -/

/-- **Tokens are written as the characters that they are faithful to.** At a place that a token
covers there is the character of its text, and at any other place a space. -/
theorem Faithful.eq_written (h : Faithful cs ts) : cs = (written ts).toList := by
  obtain ⟨us, hts, -⟩ := h.ends
  have hlen : (ts.getLast?.map Token.position).getD 0 = cs.length := by
    rw [hts, List.getLast?_concat]
    rfl
  rw [written, String.toList_ofList, hlen]
  refine List.ext_getElem (by simp) fun i hi _ => ?_
  rw [List.getElem_map, List.getElem_range, charAt]
  split
  · rename_i t hfind
    obtain ⟨hfirst, hend⟩ : t.Covers i := by simpa using List.find?_some hfind
    have hmem := List.mem_of_find?_eq_some hfind
    have hk : t.kind ≠ .endMark := by
      intro hk
      have hempty := h.wellSpelled t hmem
      rw [Token.WellSpelled, hk] at hempty
      simp only [Token.endOffset, hempty, String.length_empty] at hend
      omega
    obtain ⟨-, htext⟩ := h.cut t hmem hk
    rw [Token.endOffset] at hend
    rw [← htext, List.getD_eq_getElem?_getD, List.getElem?_take_of_lt (by omega),
      List.getElem?_drop, Nat.add_sub_cancel' hfirst, List.getElem?_eq_getElem hi, Option.getD_some]
  · rename_i hfind
    refine h.gaps i cs[i] (List.getElem?_eq_getElem hi) fun t ht hcovers => ?_
    have hnot := List.find?_eq_none.mp hfind t ht
    exact hnot (decide_eq_true hcovers)

end Lexer

open Lexer (Spaced written)

/-- **A text has the tokens that it is written from.** The tokens of a text are spaced and are
written as the text, and spaced tokens are those of the text that they are written as. -/
theorem tokenize_eq_ok_iff_written {s : String} {ts : List Token} :
    tokenize s = .ok ts ↔ Spaced ts ∧ s = written ts := by
  constructor
  · intro h
    have hspell : Lexer.Spells 0 s.toList ts := Lexer.spells_of_scan h
    exact ⟨hspell.spaced, String.toList_inj.mp hspell.faithful.eq_written⟩
  · rintro ⟨h, rfl⟩
    obtain ⟨cs, hspell⟩ := h.exists_spells (p := 0) fun _ _ => Nat.zero_le _
    rw [tokenize, ← hspell.faithful.eq_written]
    exact hspell.scan_eq

/-- **Tokens and texts.** Spaced tokens are read back from the text that they are written as, with
their positions. They are the tokens of some text, and nothing else is. No two sequences of them
are written alike. -/
theorem tokenize_written :
    (∀ ts, Spaced ts → tokenize (written ts) = .ok ts) ∧
    (∀ ts, Spaced ts ↔ ∃ s, tokenize s = .ok ts) ∧
    ∀ ts ts', Spaced ts → Spaced ts' → written ts = written ts' → ts = ts' := by
  have hround : ∀ ts, Spaced ts → tokenize (written ts) = .ok ts :=
    fun ts h => tokenize_eq_ok_iff_written.mpr ⟨h, rfl⟩
  refine ⟨hround, fun ts => ⟨fun h => ⟨_, hround ts h⟩, ?_⟩, ?_⟩
  · rintro ⟨s, hs⟩
    exact (tokenize_eq_ok_iff_written.mp hs).1
  · intro ts ts' h h' heq
    have htok := hround ts h
    rw [heq, hround ts' h'] at htok
    exact (Except.ok.inj htok).symm

/-- Two numbers with a gap between them, the second with a parenthesis directly behind it, are
read back from the text `  007 0)  `. -/
theorem tokenize_written_gaps :
    written [⟨.number, "007", 2⟩, ⟨.number, "0", 6⟩, ⟨.rightParen, ")", 7⟩, Token.endAt 10] =
        "  007 0)  " ∧
      tokenize "  007 0)  " =
        .ok [⟨.number, "007", 2⟩, ⟨.number, "0", 6⟩, ⟨.rightParen, ")", 7⟩, Token.endAt 10] := by
  have htext : written [⟨.number, "007", 2⟩, ⟨.number, "0", 6⟩, ⟨.rightParen, ")", 7⟩,
      Token.endAt 10] = "  007 0)  " := rfl
  have hspaced : Spaced [⟨.number, "007", 2⟩, ⟨.number, "0", 6⟩, ⟨.rightParen, ")", 7⟩,
      Token.endAt 10] := {
    ends := ⟨[⟨.number, "007", 2⟩, ⟨.number, "0", 6⟩, ⟨.rightParen, ")", 7⟩], 10, rfl, by decide⟩
    wellSpelled := by simp [Token.WellSpelled, Token.endAt]
    chain := by decide }
  exact ⟨htext, htext ▸ tokenize_written.1 _ hspaced⟩

end Abacus
