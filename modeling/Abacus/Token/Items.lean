import Abacus.Text.Slice
import Abacus.Token

/-!
# Tokens of the items that a scanner yields

A scanner looks for lexemes in a text, one behind the other, and yields an item for each: the
lexeme and the bytes where it stands. Spaces yield nothing, and where no lexeme begins there is an
item without one. Tokens stand at characters and not at bytes. So `collect`, which makes tokens of
items, follows the items with two offsets, one in bytes and one in characters. When it comes to an
item it counts the characters between the start of the last item and the start of this one, which
are those of the last lexeme and of the spaces behind it.

`collect` does not care where items come from, and `items` is a scanner for it. An offset inside a
character is no place to cut a text, so `collect` has no outcome on items with such offsets.
-/

namespace Abacus.Lexer

/-- What a scanner looks for. -/
inductive Lexeme
  | star
  | slash
  | plus
  | minus
  | leftParen
  | rightParen
  /-- Digits, as many as there are. -/
  | digits
deriving DecidableEq, Repr

namespace Lexeme

/-- The kind of the tokens that a lexeme makes. -/
def kind : Lexeme → Token.Kind
  | star => .operator .mul
  | slash => .operator .div
  | plus => .operator .add
  | minus => .operator .sub
  | leftParen => .leftParen
  | rightParen => .rightParen
  | digits => .number

/-- The lexeme of one character that a symbol is, if it is one. -/
def ofSymbol? : Char → Option Lexeme
  | '*' => some star
  | '/' => some slash
  | '+' => some plus
  | '-' => some minus
  | '(' => some leftParen
  | ')' => some rightParen
  | _ => none

/-- The symbols are those that make tokens. -/
theorem map_kind_ofSymbol? (c : Char) : (ofSymbol? c).map kind = Token.Kind.ofSymbol? c := by
  unfold ofSymbol?
  split <;> try rfl
  unfold Token.Kind.ofSymbol?
  split <;> first | rfl | contradiction

end Lexeme

/-- What a scanner has found: the bytes from `start` up to `stop` are a lexeme, or else no lexeme
begins where they do. -/
structure Item where
  start : Nat
  stop : Nat
  lexeme : Option Lexeme
deriving DecidableEq, Repr

/-! ### Tokens of items -/

/-- How far items have been followed: where the last one starts, in bytes and in characters, and
the tokens made so far. -/
structure Tally where
  byteOffset : Nat
  charOffset : Nat
  tokens : List Token

namespace Tally

/-- No item has been followed yet. -/
def start : Tally :=
  ⟨0, 0, []⟩

/-- Goes on to the next item, which makes a token or is an error. -/
def next (source : String) (t : Tally) (i : Item) : ExceptT LexError Option Tally := do
  let passed ← Text.slice? source t.byteOffset i.start
  let charOffset := t.charOffset + passed.length
  let text ← Text.slice? source i.start i.stop
  match i.lexeme with
  | some l => return ⟨i.start, charOffset, t.tokens ++ [⟨l.kind, text, charOffset⟩]⟩
  | none => throw ⟨text.toList.head?.getD '\x00', charOffset⟩

/-- Goes on to the end of the text and puts a mark there. -/
def finish (source : String) (t : Tally) : ExceptT LexError Option (List Token) := do
  let passed ← Text.slice? source t.byteOffset source.utf8ByteSize
  return t.tokens ++ [Token.endAt (t.charOffset + passed.length)]

/-- Follows items from where the tally stands to the end of the text, or to the first error. -/
def follow (source : String) (t : Tally) (items : List Item) :
    Option (Except LexError (List Token)) :=
  (items.foldlM (next source) t >>= finish source).run

end Tally

/-- The tokens of the items of a text, or the first error among the items. There is no outcome
where an item does not start or stop at the end of a character, or starts in front of the one
before it. -/
def collect (source : String) (items : List Item) : Option (Except LexError (List Token)) :=
  Tally.start.follow source items

/-! ### A scanner -/

/-- The number of bytes that characters take up. -/
def bytes (cs : List Char) : Nat :=
  (String.ofList cs).utf8ByteSize

/-- The items of the characters that stand at the byte offset `start`, up to the first that is an
error. -/
def items (start : Nat) : List Char → List Item
  | [] => []
  | c :: cs =>
    if c = ' ' then
      items (start + bytes (c :: cs.takeWhile (· = ' '))) (cs.dropWhile (· = ' '))
    else if c.isDigit then
      let stop := start + bytes (c :: cs.takeWhile Char.isDigit)
      ⟨start, stop, some .digits⟩ :: items stop (cs.dropWhile Char.isDigit)
    else
      match Lexeme.ofSymbol? c with
      | some l => ⟨start, start + bytes [c], some l⟩ :: items (start + bytes [c]) cs
      | none => [⟨start, start + bytes [c], none⟩]
termination_by cs => cs.length
decreasing_by
  · simpa using Nat.lt_succ_of_le (List.dropWhile_sublist _).length_le
  · simpa using Nat.lt_succ_of_le (List.dropWhile_sublist _).length_le
  · simp

@[simp] theorem bytes_nil : bytes [] = 0 := rfl

@[simp] theorem bytes_append (cs ds : List Char) : bytes (cs ++ ds) = bytes cs + bytes ds := by
  rw [bytes, String.ofList_append, String.utf8ByteSize_append, bytes, bytes]

end Abacus.Lexer
