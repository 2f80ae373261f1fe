import Abacus.Proofs.Spelling
import Abacus.Proofs.Success

/-!
# Expressions written as text

An expression tree has digits at its leaves and operators inside. It can be written as text
in many ways: a pair of parentheses may stand around any subtree, and spaces around any
token. A `Layout` is one of these ways. It fixes the text and, with it, the offset at which
each literal and each operator of the tree is written, which is what errors blame.

Parentheses are needed in three places: around a sum that is an operand of a product, around
a sum that is the right operand of a sum, and around a product that is the right operand of
a product. `Layout.Grouped` asks for these and leaves all others open.

## Main results

* `Layout.exists_grouped`: every tree has a grouped layout.
* `Layout.located`: a layout's tree knows where its literals and operators are written.
* `Layout.exists_derives`: the text of a grouped layout spells the tokens of a derivation
  tree, which has the value of the layout's tree, or fails as that does.
* `Layout.calculate_text`: **the value of the text is the value of the tree**.
-/

namespace Abacus

/-- The digits of a literal, with any number of leading zeros. -/
structure Digits where
  chars : List Char
  ne_nil : chars ≠ []
  isDigit : ∀ c ∈ chars, c.isDigit = true

namespace Digits

/-- The number that the digits stand for. -/
def value (ds : Digits) : Nat :=
  Nat.ofDigitChars 10 ds.chars 0

/-- The digits as a text. -/
def text (ds : Digits) : String :=
  String.ofList ds.chars

/-- Digits are the numeral of their value. -/
theorem int?_chars (ds : Digits) : Numeral.int? ds.chars = some (ds.value : Int) := by
  refine Numeral.int?_of_nat? ?_
  rw [Numeral.nat?, if_pos ⟨ds.ne_nil, List.all_eq_true.mpr ds.isDigit⟩, value]

end Digits

/-- An expression tree. Literals and operators come with the offset that they are written
at. -/
inductive Expr
  | literal (position : Nat) (digits : Digits)
  | binary (position : Nat) (op : Operator) (left right : Expr)

namespace Expr

/-- An integer, if it fits 64 bits. -/
def fit (position : Nat) (n : Int) : Except EvalError Int :=
  if Value.Fits n then .ok n else .error ⟨.overflow, position⟩

/-- The result of an operator, or what is wrong with it: a zero divisor, or else an exact
result that does not fit 64 bits. A quotient is truncated toward zero. -/
def combine (position : Nat) : Operator → Int → Int → Except EvalError Int
  | .add, a, b => fit position (a + b)
  | .sub, a, b => fit position (a - b)
  | .mul, a, b => fit position (a * b)
  | .div, a, b => if b = 0 then .error ⟨.divisionByZero, position⟩ else fit position (a.tdiv b)

/-- The value of a tree, left operand, right operand, then the operator; or the first thing
that goes wrong. -/
def eval : Expr → Except EvalError Int
  | literal position digits =>
      if digits.value ≤ 9223372036854775807 then
        .ok digits.value
      else
        .error ⟨.malformedNumber digits.text, position⟩
  | binary position op left right => do
      let a ← left.eval
      let b ← right.eval
      combine position op a b

/-- The tree without its offsets: all of them are zero. -/
def erase : Expr → Expr
  | literal _ digits => literal 0 digits
  | binary _ op left right => binary 0 op left.erase right.erase

/-- The literals and the operators of the tree stand in the source at their offsets. -/
def Located (source : List Char) : Expr → Prop
  | literal position digits => digits.chars <+: source.drop position
  | binary position op left right =>
      source[position]? = some op.symbol ∧ left.Located source ∧ right.Located source

end Expr

/-! ### The ways of writing a tree -/

/-- A way of writing an expression tree as text. -/
inductive Layout
  | literal (digits : Digits)
  | binary (op : Operator) (left right : Layout)
  /-- Parentheses around what is inside. -/
  | group (inner : Layout)
  /-- As many spaces in front of what is inside, and as many behind it. -/
  | spaced (before : Nat) (inner : Layout) (after : Nat)

/-- What may be the left operand of an operator of the level without parentheses, by the
level of its own outermost operator: anything but a sum in a product. -/
def Level.TakesLeft (level : Level) (outer? : Option Level) : Prop :=
  ¬(level = .product ∧ outer? = some .sum)

instance (level : Level) (outer? : Option Level) : Decidable (level.TakesLeft outer?) :=
  inferInstanceAs (Decidable (¬_))

/-- What may be the right operand without parentheses: what has no outermost operator, or a
product in a sum. -/
def Level.TakesRight (level : Level) (outer? : Option Level) : Prop :=
  outer? = none ∨ level = .sum ∧ outer? = some .product

instance (level : Level) (outer? : Option Level) : Decidable (level.TakesRight outer?) :=
  inferInstanceAs (Decidable (_ ∨ _))

namespace Layout

/-- The characters of the text. -/
def chars : Layout → List Char
  | literal digits => digits.chars
  | binary op left right => left.chars ++ op.symbol :: right.chars
  | group inner => '(' :: (inner.chars ++ [')'])
  | spaced before inner after =>
      List.replicate before ' ' ++ (inner.chars ++ List.replicate after ' ')

/-- The text. -/
def text (l : Layout) : String :=
  String.ofList l.chars

/-- The tree that is written, when the first character has the given offset. -/
def expr : Layout → Nat → Expr
  | literal digits, p => .literal p digits
  | binary op left right, p =>
      .binary (p + left.chars.length) op (left.expr p) (right.expr (p + left.chars.length + 1))
  | group inner, p => inner.expr (p + 1)
  | spaced before inner _, p => inner.expr (p + before)

/-- The level of the operator that no parentheses enclose, if there is one. -/
def outer? : Layout → Option Level
  | literal _ | group _ => none
  | binary op _ _ => some op.level
  | spaced _ inner _ => inner.outer?

/-- There are parentheses wherever precedence and grouping from the left need them. -/
def Grouped : Layout → Prop
  | literal _ => True
  | binary op left right =>
      left.Grouped ∧ right.Grouped ∧ op.level.TakesLeft left.outer? ∧
        op.level.TakesRight right.outer?
  | group inner | spaced _ inner _ => inner.Grouped

/-- It can be decided whether a layout is grouped. -/
instance decidableGrouped : (l : Layout) → Decidable l.Grouped
  | literal _ => isTrue trivial
  | binary _ left right =>
      have := decidableGrouped left
      have := decidableGrouped right
      inferInstanceAs (Decidable (_ ∧ _ ∧ _ ∧ _))
  | group inner | spaced _ inner _ => decidableGrouped inner

/-- Every tree can be written, if only with parentheses around all operands. -/
theorem exists_grouped (e : Expr) :
    ∃ l : Layout, l.Grouped ∧ ∀ p, (l.expr p).erase = e.erase := by
  induction e with
  | literal _ digits => exact ⟨.literal digits, trivial, fun _ => rfl⟩
  | binary _ op _ _ ihl ihr =>
      obtain ⟨l, hl, hleft⟩ := ihl
      obtain ⟨r, hr, hright⟩ := ihr
      refine ⟨.binary op (.group l) (.group r), ⟨hl, hr, ?_, .inl rfl⟩, ?_⟩
      · rintro ⟨-, h⟩
        cases h
      · intro p
        simp only [expr, Expr.erase, hleft, hright]

/-- A layout's tree knows where its literals and operators are written, whatever stands
around the layout. -/
theorem located_of_eq {source : List Char} (l : Layout) (before after : List Char) {p : Nat}
    (h : source = before ++ (l.chars ++ after)) (hp : p = before.length) :
    (l.expr p).Located source := by
  induction l generalizing p before after with
  | literal digits =>
      rw [expr, Expr.Located, h, hp, List.drop_left]
      exact List.prefix_append _ _
  | binary op left right ihl ihr =>
      have hsource : source = before ++ (left.chars ++ op.symbol :: (right.chars ++ after)) := by
        rw [h, chars, List.append_assoc, List.cons_append]
      have hsource' : source = (before ++ left.chars ++ [op.symbol]) ++ (right.chars ++ after) := by
        rw [hsource]
        simp
      have hlength : (before ++ left.chars).length = p + left.chars.length := by
        rw [List.length_append, hp]
      refine ⟨?_, ihl before _ hsource hp, ihr _ after hsource' ?_⟩
      · rw [hsource, ← List.append_assoc, ← hlength, List.getElem?_append_right (Nat.le_refl _),
          Nat.sub_self]
        rfl
      · rw [List.length_append, hlength, List.length_singleton]
  | group inner ih =>
      have hsource : source = (before ++ ['(']) ++ (inner.chars ++ ')' :: after) := by
        rw [h, chars]
        simp
      refine ih _ _ hsource ?_
      rw [List.length_append, hp, List.length_singleton]
  | spaced m inner n ih =>
      have hsource : source = (before ++ List.replicate m ' ') ++
          (inner.chars ++ (List.replicate n ' ' ++ after)) := by
        rw [h, chars]
        simp
      refine ih _ _ hsource ?_
      rw [List.length_append, hp, List.length_replicate]

/-- A layout's tree knows where its literals and operators are written. -/
theorem located (l : Layout) : (l.expr 0).Located l.chars := by
  refine located_of_eq l [] [] ?_ rfl
  rw [List.nil_append, List.append_nil]

end Layout

/-! ### The checked steps, over the unbounded integers -/

/-- A number made of digits has their value, and is malformed when that does not fit. -/
theorem Token.map_literal (ds : Digits) (p : Nat) :
    (Token.literal ⟨.number, ds.text, p⟩).map Int64.toInt = (Expr.literal p ds).eval := by
  have hint : Numeral.int? ds.text.toList = some (ds.value : Int) := by
    rw [Digits.text, String.toList_ofList, ds.int?_chars]
  have hfits : ds.value ≤ 9223372036854775807 ↔ Value.Fits ds.value := by
    rw [Value.fits_iff]
    omega
  rw [Expr.eval]
  cases h : Token.literal ⟨.number, ds.text, p⟩ with
  | ok v =>
      obtain hv : ds.value = v.toInt :=
        Option.some.inj (hint.symm.trans (Token.literal_eq_ok_iff.mp h))
      rw [if_pos (hfits.mpr (hv ▸ v.fits_toInt)), hv, Except.map]
  | error e =>
      obtain ⟨hnot, rfl⟩ := Token.literal_eq_error_iff.mp h
      rw [if_neg (mt hfits.mp (hnot _ hint)), Except.map]

/-- The zero divisor is found first, and then the exact result has to fit. -/
theorem Expr.combine_eq (p : Nat) (op : Operator) (a b : Int) :
    combine p op a b =
      if op = .div ∧ b = 0 then .error ⟨.divisionByZero, p⟩ else fit p (op.exact a b) := by
  cases op <;> simp [combine, Operator.exact]

/-- The checked application is the exact one with its two checks. -/
theorem Operator.map_applyAt (op : Operator) (p : Nat) (a b : Value) :
    (op.applyAt p a b).map Int64.toInt = Expr.combine p op a.toInt b.toInt := by
  rw [Expr.combine_eq, Expr.fit]
  cases h : op.applyAt p a b with
  | ok v =>
      obtain ⟨hz, hv⟩ := Operator.applyAt_eq_ok_iff.mp h
      rw [if_neg hz, ← hv, if_pos v.fits_toInt, Except.map]
  | error e =>
      rcases Operator.applyAt_eq_error_iff.mp h with ⟨hz, rfl⟩ | ⟨hz, hfit, rfl⟩
      · rw [if_pos hz, Except.map]
      · rw [if_neg hz, if_neg hfit, Except.map]

/-! ### A layout has a derivation tree -/

/-- The rule that derives what has this outermost operator. -/
def Rule.ofOuter : Option Level → Rule
  | none => .primary
  | some level => .chain level

namespace Layout

variable {l : Layout} {p : Nat}

/-- The layout, written from the offset `p` on, spells the tokens of the derivation tree,
which has the value of the layout's tree or fails as that does. -/
structure Derives {r : Rule} (l : Layout) (p : Nat) (d : Derivation r) : Prop where
  spells {cs : List Char} {ts : List Token} : (∀ c ∈ cs.head?, c.isDigit = false) →
    Lexer.Spells (p + l.chars.length) cs ts → Lexer.Spells p (l.chars ++ cs) (d.tokens ++ ts)
  map_eval : d.eval.map Int64.toInt = (l.expr p).eval

/-- An operand alone is a chain. -/
theorem Derives.first {level : Level} {d : Derivation level.operand} (h : l.Derives p d) :
    l.Derives p (Derivation.first d) :=
  ⟨h.spells, h.map_eval⟩

/-- What may be a left operand without parentheses is a chain of the level. -/
theorem Derives.exists_chain {level : Level} {outer? : Option Level}
    {d : Derivation (Rule.ofOuter outer?)} (h : l.Derives p d) (hleft : level.TakesLeft outer?) :
    ∃ d' : Derivation (.chain level), l.Derives p d' := by
  cases level with
  | sum =>
      rcases outer? with _ | _ | _
      · exact ⟨.first (.first d : Derivation (.chain .product)), h.first.first⟩
      · exact ⟨d, h⟩
      · exact ⟨.first d, h.first⟩
  | product =>
      rcases outer? with _ | _ | _
      · exact ⟨.first d, h.first⟩
      · exact absurd ⟨rfl, rfl⟩ hleft
      · exact ⟨d, h⟩

/-- Whatever is grouped is a chain of sums. -/
theorem Derives.exists_sum {outer? : Option Level} {d : Derivation (Rule.ofOuter outer?)}
    (h : l.Derives p d) : ∃ d' : Derivation (.chain .sum), l.Derives p d' := by
  refine h.exists_chain ?_
  rintro ⟨hs, -⟩
  cases hs

/-- What may be a right operand without parentheses is an operand of the level. -/
theorem Derives.exists_operand {level : Level} {outer? : Option Level}
    {d : Derivation (Rule.ofOuter outer?)} (h : l.Derives p d)
    (hright : level.TakesRight outer?) :
    ∃ d' : Derivation level.operand, l.Derives p d' := by
  rcases hright with rfl | ⟨rfl, rfl⟩
  · cases level with
    | sum => exact ⟨(.first d : Derivation (.chain .product)), h.first⟩
    | product => exact ⟨d, h⟩
  · exact ⟨d, h⟩

/-- Two operands with an operator between them are derived by a node. -/
theorem Derives.binary {op : Operator} {left right : Layout} {dl : Derivation (.chain op.level)}
    {dr : Derivation op.level.operand} (hl : left.Derives p dl)
    (hr : right.Derives (p + left.chars.length + 1) dr) :
    (binary op left right).Derives p
      (.node dl op ⟨.operator op, op.symbol.toString, p + left.chars.length⟩ rfl rfl dr) where
  spells {cs ts} hcs h := by
    have hsymbol := Token.Kind.ofSymbol?_symbol op
    rw [chars, Derivation.tokens, List.append_assoc, List.append_assoc]
    refine hl.spells ?_ (.symbol hsymbol (hr.spells hcs ?_))
    · rintro c ⟨⟩
      exact Lexer.isDigit_of_ofSymbol? hsymbol
    · have hlength : p + left.chars.length + 1 + right.chars.length =
          p + (Layout.binary op left right).chars.length := by
        rw [chars, List.length_append, List.length_cons]
        omega
      rwa [hlength]
  map_eval := by
    rw [expr, Expr.eval, ← hl.map_eval, ← hr.map_eval, Derivation.eval]
    cases dl.eval with
    | error e => rfl
    | ok a =>
        cases dr.eval with
        | error e => rfl
        | ok b => exact op.map_applyAt _ a b

/-- Parentheses around a chain of sums are derived by a group. -/
theorem Derives.group {inner : Layout} {d : Derivation (.chain .sum)}
    (h : inner.Derives (p + 1) d) :
    (group inner).Derives p
      (.group ⟨.leftParen, "(", p⟩ rfl d ⟨.rightParen, ")", p + 1 + inner.chars.length⟩ rfl) where
  spells {cs ts} _ hspell := by
    simp only [chars, Derivation.tokens, List.cons_append, List.append_assoc, List.nil_append]
    refine .symbol rfl (h.spells ?_ (.symbol rfl ?_))
    · rintro c ⟨⟩
      rfl
    · have hlength : p + 1 + inner.chars.length + 1 =
          p + (Layout.group inner).chars.length := by
        rw [chars, List.length_cons, List.length_append, List.length_singleton]
        omega
      rwa [hlength]
  map_eval := h.map_eval

/-- Spaces are not derived at all. -/
theorem Derives.spaced {m n : Nat} {inner : Layout} {r : Rule} {d : Derivation r}
    (h : inner.Derives (p + m) d) : (spaced m inner n).Derives p d where
  spells {cs ts} hcs hspell := by
    rw [chars, List.append_assoc, List.append_assoc]
    refine .spaces (h.spells ?_ (.spaces ?_))
    · cases n with
      | zero => exact hcs
      | succ n =>
          rintro c ⟨⟩
          rfl
    · have hlength : p + m + inner.chars.length + n =
          p + (Layout.spaced m inner n).chars.length := by
        rw [chars, List.length_append, List.length_append, List.length_replicate,
          List.length_replicate]
        omega
      rwa [hlength]
  map_eval := h.map_eval

/-- **A grouped layout has a derivation tree.** Parentheses where they are needed make each
operand one that the grammar allows there. -/
theorem exists_derives (l : Layout) (h : l.Grouped) (p : Nat) :
    ∃ d : Derivation (Rule.ofOuter l.outer?), l.Derives p d := by
  induction l generalizing p with
  | literal digits =>
      refine ⟨(.number ⟨.number, digits.text, p⟩ rfl : Derivation .primary), ?_, ?_⟩
      · intro cs ts hcs hspell
        exact .number digits.ne_nil digits.isDigit hcs hspell
      · exact Token.map_literal digits p
  | binary op left right ihl ihr =>
      obtain ⟨hgl, hgr, hleft, hright⟩ := h
      obtain ⟨_, hl⟩ := ihl hgl p
      obtain ⟨_, hr⟩ := ihr hgr (p + left.chars.length + 1)
      obtain ⟨_, hl⟩ := hl.exists_chain hleft
      obtain ⟨_, hr⟩ := hr.exists_operand hright
      exact ⟨_, hl.binary hr⟩
  | group inner ih =>
      obtain ⟨_, hd⟩ := ih h (p + 1)
      obtain ⟨_, hd⟩ := hd.exists_sum
      exact ⟨_, hd.group⟩
  | spaced m inner n ih =>
      obtain ⟨d, hd⟩ := ih h (p + m)
      exact ⟨d, hd.spaced⟩

/-- **The value of the text is the value of the tree**, and so is the error: the text of a
grouped layout comes to what the post-order evaluation of its tree comes to. -/
theorem calculate_text (l : Layout) (h : l.Grouped) :
    (calculate l.text).map Int64.toInt = (l.expr 0).eval.mapError .evaluation := by
  obtain ⟨_, hd⟩ := l.exists_derives h 0
  obtain ⟨d, hd⟩ := hd.exists_sum
  have htokens : tokenize l.text = .ok (d.tokens ++ [Token.endAt l.chars.length]) := by
    have hspell : Lexer.Spells 0 (l.chars ++ [])
        (d.tokens ++ [Token.endAt (0 + l.chars.length)]) := by
      refine hd.spells ?_ .done
      intro c hc
      cases hc
    rw [List.append_nil, Nat.zero_add] at hspell
    rw [tokenize, text, String.toList_ofList, hspell.scan_eq]
  rw [calculate_of_tokenize htokens, d.evaluate_append rfl (by simp [Terminated, Token.endAt]),
    ← hd.map_eval]
  cases d.eval <;> rfl

/-- The value of `(2-9)/2 + 003*4` takes all four operators and a quotient that is truncated. The
divisor of `8/(2-002) + 9999999999999999999` is found to be zero before the last number is found
to be none. -/
theorem calculate_text_division :
    (∃ l : Layout, l.Grouped ∧ l.text = "(2-9)/2 + 003*4" ∧
      (calculate l.text).map Int64.toInt = .ok 9) ∧
    ∃ l : Layout, l.Grouped ∧ l.text = "8/(2-002) + 9999999999999999999" ∧
      (calculate l.text).map Int64.toInt = .error (.evaluation ⟨.divisionByZero, 1⟩) := by
  let digit (c : Char) (h : c.isDigit = true) : Layout := literal ⟨[c], by simp, by simpa⟩
  constructor
  · let negative := binary .sub (digit '2' rfl) (digit '9' rfl)
    let quotient := binary .div (group negative) (digit '2' rfl)
    let product := binary .mul (literal ⟨['0', '0', '3'], by simp, by simp⟩) (digit '4' rfl)
    let l := binary .add (spaced 0 quotient 1) (spaced 1 product 0)
    have hl : l.Grouped := by decide
    exact ⟨l, hl, rfl, (calculate_text l hl).trans rfl⟩
  · let difference := binary .sub (digit '2' rfl) (literal ⟨['0', '0', '2'], by simp, by simp⟩)
    let quotient := binary .div (digit '8' rfl) (group difference)
    let large : Digits := ⟨List.replicate 19 '9', by simp, by simp⟩
    let l := binary .add (spaced 0 quotient 1) (spaced 1 (literal large) 0)
    have hl : l.Grouped := by decide
    exact ⟨l, hl, rfl, (calculate_text l hl).trans rfl⟩

end Layout

end Abacus
