import Abacus.Proofs.Spelling
import Abacus.Token.Items

/-!
# The lexer as a scanner and a loop over its items

The lexer counts characters on its way. A scanner and `collect` divide that work: the scanner
only says which bytes it has found, and the characters in between are counted afterwards. Here
it is shown that they come to the same.

What a scanner does is not prescribed by a definition of it. It takes the longest match from the
front, again and again; spaces match without being a lexeme; and an item that is an error starts
with the first character that begins no match, whatever it extends to and whatever is yielded
behind it. `Yields` is that and no more, so any scanner will do. `items` is one.

Behind an item the two offsets of a tally stay at its start. They are brought forward, over the
item and the spaces behind it, when the next item is there. So the invariant of the loop is about
two stretches of characters: those in front of the last item, which both offsets count, and those
taken since.

## Main results

* `Longest.scan_eq`, `scan_spaces`, `scan_of_not_matches`: the lexer takes the longest match, too.
* `Yields.follow_eq`: the invariant of the loop, and what the loop comes to.
* `Yields.collect_eq`: the items of a text come to the tokens of the text.
* `collect_faithful`: what the tokens say about the text, or the error, and that there is one of
  the two: no text is cut inside a character.
-/

namespace Abacus.Lexer

/-- The texts that are a lexeme. -/
def Lexeme.Matches : Lexeme → List Char → Prop
  | star, cs => cs = ['*']
  | slash, cs => cs = ['/']
  | plus, cs => cs = ['+']
  | minus, cs => cs = ['-']
  | leftParen, cs => cs = ['(']
  | rightParen, cs => cs = [')']
  | digits, cs => cs ≠ [] ∧ ∀ c ∈ cs, c.isDigit = true

/-- What a scanner takes at once: the text of a lexeme, or spaces, which are no lexeme. -/
def Matches : Option Lexeme → List Char → Prop
  | some l, cs => l.Matches cs
  | none, cs => cs ≠ [] ∧ ∀ c ∈ cs, c = ' '

/-- The longest match at the beginning of `text ++ rest` is `text`. -/
structure Longest (l : Option Lexeme) (text rest : List Char) : Prop where
  matched : Matches l text
  longest : ∀ l' text', text' <+: text ++ rest → Matches l' text' → text'.length ≤ text.length

/-- A scanner yields the items on the characters that stand at a byte offset. -/
inductive Yields : Nat → List Char → List Item → Prop
  | done {b : Nat} : Yields b [] []
  | skip {b : Nat} {text rest : List Char} {is : List Item} :
      Longest none text rest → Yields (b + bytes text) rest is → Yields b (text ++ rest) is
  | found {b : Nat} {l : Lexeme} {text rest : List Char} {is : List Item} :
      Longest (some l) text rest → Yields (b + bytes text) rest is →
      Yields b (text ++ rest) (⟨b, b + bytes text, some l⟩ :: is)
  | error {b : Nat} {c : Char} {text rest : List Char} {is : List Item} :
      (∀ l text', text' <+: c :: (text ++ rest) → ¬Matches l text') →
      Yields b (c :: (text ++ rest)) (⟨b, b + bytes (c :: text), none⟩ :: is)

variable {b : Nat} {l : Lexeme} {text rest cs : List Char} {is : List Item}

/-! ### What a scanner takes and the lexer -/

/-- No further digit follows the longest run of digits. -/
theorem Longest.isDigit_head? (h : Longest (some .digits) text rest) :
    ∀ c ∈ rest.head?, c.isDigit = false := by
  rintro c hc
  obtain ⟨rest, rfl⟩ := List.head?_eq_some_iff.mp hc
  obtain ⟨-, hdigits⟩ := h.matched
  cases hd : c.isDigit with
  | false => rfl
  | true =>
      have hmatch : Matches (some .digits) (text ++ [c]) := by
        refine ⟨by simp, fun d hd' => ?_⟩
        rcases List.mem_append.mp hd' with hd' | hd'
        · exact hdigits d hd'
        · rwa [List.mem_singleton.mp hd']
      have hle := h.longest _ _ ⟨rest, by simp⟩ hmatch
      rw [List.length_append, List.length_singleton] at hle
      omega

/-- The lexer makes a token of a lexeme, too. -/
theorem Longest.scan_eq (h : Longest (some l) text rest) (p : Nat) :
    scan p (text ++ rest) =
      (scan (p + text.length) rest).map (⟨l.kind, String.ofList text, p⟩ :: ·) := by
  have hmatch := h.matched
  cases l with
  | digits => exact scan_digits p rest hmatch.1 hmatch.2 h.isDigit_head?
  | star | slash | plus | minus | leftParen | rightParen =>
      obtain rfl : text = [_] := hmatch
      exact scan_symbol p rest rfl

/-- The lexer skips spaces, too. -/
theorem scan_spaces (h : ∀ c ∈ text, c = ' ') (p : Nat) :
    scan p (text ++ rest) = scan (p + text.length) rest := by
  induction text generalizing p with
  | nil => rfl
  | cons c text ih =>
      obtain ⟨rfl, htext⟩ := List.forall_mem_cons.mp h
      rw [List.cons_append, scan_space, ih htext, List.length_cons, Nat.add_right_comm,
        Nat.add_assoc]

/-- A symbol alone is a lexeme. -/
theorem Lexeme.matches_of_ofSymbol? {c : Char} (h : ofSymbol? c = some l) : l.Matches [c] := by
  unfold ofSymbol? at h
  split at h <;> cases h <;> rfl

/-- A character that a scanner takes nothing from is unknown to the lexer. -/
theorem scan_of_not_matches {c : Char} (h : ∀ l text, text <+: c :: cs → ¬Matches l text)
    (p : Nat) : scan p (c :: cs) = .error ⟨c, p⟩ := by
  have hfirst : ∀ l, ¬Matches l [c] := fun l => h l [c] ⟨cs, rfl⟩
  have hspace : c ≠ ' ' := fun hc => hfirst none ⟨by simp, by simpa using hc⟩
  have hdigit : c.isDigit = false := by
    rw [Bool.eq_false_iff]
    exact fun hc => hfirst (some .digits) ⟨by simp, by simpa using hc⟩
  refine scan_unknown p cs hspace hdigit ?_
  rw [← Lexeme.map_kind_ofSymbol?]
  cases hc : Lexeme.ofSymbol? c with
  | none => rfl
  | some l => exact absurd (Lexeme.matches_of_ofSymbol? hc) (hfirst (some l))

/-! ### Following the items -/

/-- The tally at the start of an item: both offsets are those of the characters in front. -/
def Tally.at (before : List Char) (tokens : List Token) : Tally :=
  ⟨bytes before, before.length, tokens⟩

section Follow

variable {source : String} {before last after : List Char} {ts : List Token}

/-- The bytes of some characters of a text are a slice of it. -/
theorem slice?_eq (h : source.toList = before ++ (text ++ after)) :
    Text.slice? source (bytes before) (bytes (before ++ text)) = some (String.ofList text) := by
  refine Text.slice?_eq_some_iff.mpr ⟨String.ofList before, String.ofList after, ?_, rfl, ?_⟩
  · rw [String.append_assoc, ← String.ofList_append, ← String.ofList_append, ← h,
      String.ofList_toList]
  · rw [← String.ofList_append, bytes]

/-- The tally moves to where an item starts. A lexeme makes its token there; an item without one
is the error of its first character. -/
theorem Tally.next_eq (h : source.toList = before ++ (last ++ (text ++ rest)))
    (lexeme : Option Lexeme) :
    next source (.at before ts)
        ⟨bytes (before ++ last), bytes (before ++ last ++ text), lexeme⟩ =
      match lexeme with
      | some l => pure (.at (before ++ last)
          (ts ++ [⟨l.kind, String.ofList text, (before ++ last).length⟩]))
      | none => throw ⟨text.head?.getD '\x00', (before ++ last).length⟩ := by
  have hlast := slice?_eq h
  have htext := slice?_eq ((List.append_assoc before last _).symm ▸ h)
  have hlength : before.length + (String.ofList last).length = (before ++ last).length := by
    rw [List.length_append, String.length_ofList]
  have hhead : (String.ofList text).toList.head? = text.head? := by rw [String.toList_ofList]
  simp only [next, Tally.at, hlast, htext]
  rw [← hlength, ← hhead]
  cases lexeme <;> rfl

/-- The mark for the end stands behind all characters. -/
theorem Tally.finish_eq (h : source.toList = before ++ last) :
    finish source (.at before ts) = pure (ts ++ [Token.endAt (before ++ last).length]) := by
  have hlast := @slice?_eq last source before [] (by rwa [List.append_nil])
  rw [← h] at hlast
  have hsize : source.utf8ByteSize = bytes source.toList := by rw [bytes, String.ofList_toList]
  simp only [finish, Tally.at, hsize, hlast]
  rw [List.length_append, ← @String.length_ofList last]
  rfl

/-- **Items of a scanner are followed to what the lexer comes to.** The tally stands at the start
of the last item, so what was taken last is passed on the way to the next one. -/
theorem Yields.follow_eq (h : Yields b cs is) (hb : b = bytes (before ++ last))
    (hsource : source.toList = before ++ (last ++ cs)) :
    Tally.follow source (.at before ts) is =
      some ((scan (before ++ last).length cs).map (ts ++ ·)) := by
  induction h generalizing before last ts with
  | done =>
      rw [List.append_nil] at hsource
      rw [Tally.follow, List.foldlM_nil, pure_bind, Tally.finish_eq hsource, scan_nil]
      rfl
  | @skip b text rest is hlong _ ih =>
      rw [← List.append_assoc last, ← List.append_assoc before] at hsource
      rw [scan_spaces hlong.matched.2, ← List.length_append, List.append_assoc]
      refine ih ?_ ?_
      · rw [hb, ← bytes_append, List.append_assoc]
      · rw [hsource, List.append_assoc]
  | @found b l text rest is hlong _ ih =>
      subst hb
      rw [← bytes_append, Tally.follow, List.foldlM_cons, Tally.next_eq hsource, pure_bind]
      refine (ih (bytes_append _ _).symm ?_).trans ?_
      · rw [hsource, List.append_assoc]
      · rw [hlong.scan_eq, ← List.length_append]
        cases scan (before ++ last ++ text).length rest <;> simp [Except.map]
  | @error b c text rest is hnone =>
      subst hb
      rw [scan_of_not_matches hnone, ← bytes_append, Tally.follow, List.foldlM_cons,
        @Tally.next_eq (c :: text) rest source before last ts hsource none]
      rfl

end Follow

/-- **The items of a text come to the tokens of the text**, or to its error. -/
theorem Yields.collect_eq {source : String} (h : Yields 0 source.toList is) :
    collect source is = some (tokenize source) := by
  have hall := @Yields.follow_eq 0 source.toList is source [] [] [] h rfl rfl
  rw [collect, tokenize, Tally.start]
  exact hall.trans (congrArg some (congrFun Except.map_id _))

/-! ### A scanner -/

/-- The first character of what is taken at once decides what it is. -/
theorem Matches.first {l : Option Lexeme} {c : Char} (h : Matches l (c :: text)) :
    (l = none ∧ c = ' ') ∨ (l = some .digits ∧ c.isDigit = true) ∨
      (text = [] ∧ ∃ l', l = some l' ∧ Lexeme.ofSymbol? c = some l') := by
  rcases l with _ | l
  · exact .inl ⟨rfl, h.2 c List.mem_cons_self⟩
  · cases l with
    | digits => exact .inr (.inl ⟨rfl, h.2 c List.mem_cons_self⟩)
    | star | slash | plus | minus | leftParen | rightParen =>
        obtain ⟨rfl, rfl⟩ := List.cons.inj h
        exact .inr (.inr ⟨rfl, _, rfl, rfl⟩)

/-- What is taken at once is never nothing, so a scanner always gets on. -/
theorem Matches.ne_nil {l : Option Lexeme} (h : Matches l text) : text ≠ [] := by
  rintro rfl
  rcases l with _ | _ | _ <;> first | exact h.1 rfl | cases h

/-- The characters of one kind at the beginning, all of them, are the longest match, when no other
match begins as they do. -/
theorem longest_run {p : Char → Bool} {l : Option Lexeme} {c : Char} (hc : p c = true)
    (hrun : ∀ text, Matches l text ↔ text ≠ [] ∧ ∀ d ∈ text, p d = true)
    (hother : ∀ l' text, l' ≠ l → Matches l' (c :: text) → text = []) :
    Longest l (c :: cs.takeWhile p) (cs.dropWhile p) where
  matched := (hrun _).mpr ⟨by simp, List.forall_mem_cons.mpr ⟨hc, fun d hd =>
    List.all_eq_true.mp List.all_takeWhile d hd⟩⟩
  longest l' text' hpre hmatch := by
    rw [List.cons_append, List.takeWhile_append_dropWhile] at hpre
    obtain rfl | ⟨text, rfl, rest, rfl⟩ := List.prefix_cons_iff.mp hpre
    · exact absurd rfl hmatch.ne_nil
    by_cases hl : l' = l
    · subst hl
      have hall := ((hrun _).mp hmatch).2
      rw [List.takeWhile_append_of_pos fun d hd => hall d (List.mem_cons_of_mem c hd)]
      simp
    · rw [hother l' text hl hmatch]
      simp

/-- All spaces at the beginning are one match. -/
theorem longest_spaces (cs : List Char) :
    Longest none (' ' :: cs.takeWhile (· = ' ')) (cs.dropWhile (· = ' ')) := by
  refine longest_run rfl (fun text => by simp [Matches]) fun l' text hl hmatch => ?_
  rcases hmatch.first with ⟨rfl, -⟩ | ⟨-, hc⟩ | ⟨rfl, -⟩
  · exact absurd rfl hl
  · cases hc
  · rfl

/-- All digits at the beginning are one match. -/
theorem longest_digits {c : Char} (hc : c.isDigit = true) (cs : List Char) :
    Longest (some .digits) (c :: cs.takeWhile Char.isDigit) (cs.dropWhile Char.isDigit) := by
  refine longest_run hc (fun text => Iff.rfl) fun l' text hl hmatch => ?_
  rcases hmatch.first with ⟨-, rfl⟩ | ⟨rfl, -⟩ | ⟨rfl, -⟩
  · cases hc
  · exact absurd rfl hl
  · rfl

/-- A symbol at the beginning is a match by itself. -/
theorem longest_symbol {c : Char} (h : Lexeme.ofSymbol? c = some l) (cs : List Char) :
    Longest (some l) [c] cs where
  matched := Lexeme.matches_of_ofSymbol? h
  longest l' text' hpre hmatch := by
    obtain rfl | ⟨text, rfl, -⟩ := List.prefix_cons_iff.mp hpre
    · exact Nat.zero_le _
    rcases hmatch.first with ⟨-, rfl⟩ | ⟨-, hc⟩ | ⟨rfl, -⟩
    · cases h
    · have hnone := Token.Kind.ofSymbol?_of_isDigit hc
      rw [← Lexeme.map_kind_ofSymbol?, h] at hnone
      cases hnone
    · exact Nat.le_refl _

/-- **A scanner there is**: `items` yields the items of all characters. -/
theorem yields_items (b : Nat) (cs : List Char) : Yields b cs (items b cs) := by
  induction b, cs using items.induct with
  | case1 b =>
      rw [items]
      exact .done
  | case2 b cs ih =>
      rw [items, if_pos rfl]
      have hyields := Yields.skip (longest_spaces cs) ih
      rwa [List.cons_append, List.takeWhile_append_dropWhile] at hyields
  | case3 b c cs hs hd stop ih =>
      rw [items, if_neg hs, if_pos hd]
      have hyields := Yields.found (longest_digits hd cs) ih
      rwa [List.cons_append, List.takeWhile_append_dropWhile] at hyields
  | case4 b c cs hs hd l hl ih =>
      rw [items, if_neg hs, if_neg hd, hl]
      exact .found (longest_symbol hl cs) ih
  | case5 b c cs hs hd hl =>
      rw [items, if_neg hs, if_neg hd, hl]
      refine @Yields.error b c [] cs [] fun l text hpre hmatch => ?_
      obtain rfl | ⟨text, rfl, -⟩ := List.prefix_cons_iff.mp hpre
      · exact hmatch.ne_nil rfl
      rcases hmatch.first with ⟨-, hc⟩ | ⟨-, hc⟩ | ⟨-, l', -, hc⟩
      · exact hs hc
      · exact hd hc
      · rw [hl] at hc
        cases hc

/-- **The tokens of a text's items are faithful to the text.** Whatever scanner yields the items,
they come to tokens or to an error, the ones that the lexer comes to. It is an error exactly when
the text has a character that belongs to no token; it then names the first of these and its place,
counted in characters. Otherwise the tokens cut the text up: the mark for the end stands behind it,
every other token is some of its characters, in order and none of them twice, no number can be
extended, and what is left out are spaces. -/
theorem collect_faithful {source : String} (h : Yields 0 source.toList is) :
    ∃ outcome, collect source is = some outcome ∧ tokenize source = outcome ∧
      ((∃ e, outcome = .error e) ↔ ∃ c ∈ source.toList, ¬Known c) ∧
      (∀ e, outcome = .error e →
        source.toList[e.position]? = some e.symbol ∧ ¬Known e.symbol ∧
          ∀ i c, i < e.position → source.toList[i]? = some c → Known c) ∧
      ∀ ts, outcome = .ok ts → Faithful source.toList ts :=
  ⟨tokenize source, h.collect_eq, rfl, tokenize_faithful source⟩

/-- The first character that belongs to no token takes up two bytes; a text without such characters
may end with a space, and the mark for the end stands behind it. -/
theorem collect_faithful_accent :
    (Yields 0 "12 +é".toList [⟨0, 2, some .digits⟩, ⟨3, 4, some .plus⟩, ⟨4, 6, none⟩] ∧
      collect "12 +é" [⟨0, 2, some .digits⟩, ⟨3, 4, some .plus⟩, ⟨4, 6, none⟩] =
        some (.error ⟨'é', 4⟩)) ∧
    Yields 0 "(7) ".toList [⟨0, 1, some .leftParen⟩, ⟨1, 2, some .digits⟩,
        ⟨2, 3, some .rightParen⟩] ∧
      collect "(7) " [⟨0, 1, some .leftParen⟩, ⟨1, 2, some .digits⟩, ⟨2, 3, some .rightParen⟩] =
        some (.ok [⟨.leftParen, "(", 0⟩, ⟨.number, "7", 1⟩, ⟨.rightParen, ")", 2⟩,
          Token.endAt 4]) ∧
      Faithful "(7) ".toList [⟨.leftParen, "(", 0⟩, ⟨.number, "7", 1⟩, ⟨.rightParen, ")", 2⟩,
        Token.endAt 4] := by
  have hitems : items 0 "12 +é".toList =
      [⟨0, 2, some .digits⟩, ⟨3, 4, some .plus⟩, ⟨4, 6, none⟩] := by decide +kernel
  have hitems' : items 0 "(7) ".toList =
      [⟨0, 1, some .leftParen⟩, ⟨1, 2, some .digits⟩, ⟨2, 3, some .rightParen⟩] := by
    decide +kernel
  have hyields := hitems ▸ yields_items 0 "12 +é".toList
  have hyields' := hitems' ▸ yields_items 0 "(7) ".toList
  refine ⟨⟨hyields, ?_⟩, hyields', ?_⟩
  · obtain ⟨_, hcollect, -, hiff, hfirst, -⟩ := collect_faithful hyields
    have hunknown : ¬Known 'é' := by simp [Known]
    have hknown : ∀ c ∈ "12 +".toList, Known c := by simp [Known]
    obtain ⟨⟨symbol, position⟩, rfl⟩ := hiff.mpr ⟨'é', by simp, hunknown⟩
    obtain ⟨hat, hnot, hbefore⟩ := hfirst _ rfl
    -- Every character in front is known, so the error is not there, and it is not behind, either.
    have hle : position ≤ 4 := Nat.le_of_not_lt fun hlt => hunknown (hbefore 4 'é' hlt rfl)
    have hge : 4 ≤ position := Nat.le_of_not_lt fun hlt =>
      have hfront : "12 +".toList[position]? = some symbol :=
        (List.getElem?_append_left hlt).symm.trans hat
      hnot (hknown symbol (List.mem_of_getElem? hfront))
    obtain rfl := Nat.le_antisymm hle hge
    obtain rfl : 'é' = symbol := Option.some.inj hat
    exact hcollect
  · have htokens : tokenize "(7) " = .ok [⟨.leftParen, "(", 0⟩, ⟨.number, "7", 1⟩,
        ⟨.rightParen, ")", 2⟩, Token.endAt 4] :=
      (Spells.symbol rfl (@Spells.number 1 ['7'] [')', ' '] _ (by simp) (by simp) (by simp)
        (.symbol rfl (.space .done)))).scan_eq
    obtain ⟨_, hcollect, hsame, -, -, hfaithful⟩ := collect_faithful hyields'
    obtain rfl := hsame.symm.trans htokens
    exact ⟨hcollect, hfaithful _ rfl⟩

end Abacus.Lexer
