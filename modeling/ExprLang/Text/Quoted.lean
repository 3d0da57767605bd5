import ExprLang.Text.CharacterSets

/-!
# Quoted text

A quoted text stands between double quotes.  Inside, the characters of the table below and those
without a form of their own are written as escapes, all others as they are.

| character | escape |
|---|---|
| NUL, tab, newline, carriage return | `\0`, `\t`, `\n`, `\r` |
| double quote, backslash | `\"`, `\\` |
| unprintable, ignorable, or joining the one before | `\u` and the code point in braces |

The code point is written in lowercase hexadecimal without leading zeros.

* `needsCodePoint` — the characters of the last row.
* `escape` — the written form of one character.
* `quote` — the written form of a text.
-/

set_option autoImplicit false

namespace ExprLang.Quoted

/-- The halfwidth sound marks of Katakana.  They join the letter before them, but are as wide as a
letter themselves. -/
def isHalfwidthSoundMark (c : Char) : Bool := c == '\uFF9E' || c == '\uFF9F'

/-- A character of this kind is shown by its code point. -/
def needsCodePoint (c : Char) : Bool :=
  Unprintable.isUnprintable c || DefaultIgnorable.isDefaultIgnorable c
    || (GraphemeExtend.isGraphemeExtend c && !isHalfwidthSoundMark c)

/-- The code point between braces, behind `\u`. -/
def codePoint (c : Char) : List Char :=
  ['\\', 'u', '\x7b'] ++ Nat.toDigits 16 c.toNat ++ ['\x7d']

def escape (c : Char) : List Char :=
  match c with
  | '\x00' => ['\\', '0']
  | '\t' => ['\\', 't']
  | '\n' => ['\\', 'n']
  | '\r' => ['\\', 'r']
  | '\x22' => ['\\', '\x22']
  | '\\' => ['\\', '\\']
  | c => if needsCodePoint c then codePoint c else [c]

def quoteChars (cs : List Char) : List Char :=
  '\x22' :: cs.flatMap escape ++ ['\x22']

def quote (s : String) : String := String.ofList (quoteChars s.toList)

/-! ## Written forms -/

example : quoteChars ['a', '\t', '\\', '\x22'] =
    ['\x22', 'a', '\\', 't', '\\', '\\', '\\', '\x22', '\x22'] := rfl

/-- A letter with an accent of its own stands for itself. -/
example : escape (Char.ofNat 0xE9) = [Char.ofNat 0xE9] := by decide +kernel

/-- An accent alone is shown by its code point. -/
example : escape (Char.ofNat 0x301) = ['\\', 'u', '\x7b', '3', '0', '1', '\x7d'] := by
  decide +kernel

/-- So is the no-break space, which is a separator, but not the space. -/
example : escape (Char.ofNat 0xA0) = ['\\', 'u', '\x7b', 'a', '0', '\x7d'] := by decide +kernel

example : escape ' ' = [' '] := by decide

/-- A filler is a letter that is shown as nothing. -/
example : escape '\u3164' = ['\\', 'u', '\x7b', '3', '1', '6', '4', '\x7d'] := by decide +kernel

example : escape '\uFF9E' = ['\uFF9E'] := by decide +kernel

end ExprLang.Quoted
