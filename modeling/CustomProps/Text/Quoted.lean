import CustomProps.Text.Loose
import CustomProps.Text.Printable

/-!
# Quoted texts

How a text is shown inside a message: between quotes, with the backslash, the quote and the line
controls escaped, and every other unprintable character by its number.  A loose text is shown as it
is, with the numbers of the halves of surrogate pairs in it.
-/

set_option autoImplicit false

namespace CustomProps
namespace Text

/-- The last `width` hexadecimal digits of a number, in lower case. -/
def hexDigits (n : Nat) : (width : Nat) → Text
  | 0 => []
  | width + 1 => hexDigits (n / 16) width ++ [Nat.digitChar (n % 16)]

/-- Single quotes, unless the text holds single quotes and no double ones. -/
def quoteFor (t : Text) : Char := if '\'' ∈ t ∧ '"' ∉ t then '"' else '\''

/-- One character as it stands between two quotes. -/
def quoteChar (quote c : Char) : Text :=
  if c = '\\' ∨ c = quote then ['\\', c]
  else if c = '\n' then ['\\', 'n']
  else if c = '\r' then ['\\', 'r']
  else if c = '\t' then ['\\', 't']
  else if isPrintable c then [c]
  else if c.toNat < 0x100 then '\\' :: 'x' :: hexDigits c.toNat 2
  else if c.toNat < 0x10000 then '\\' :: 'u' :: hexDigits c.toNat 4
  else '\\' :: 'U' :: hexDigits c.toNat 8

/-- The text between quotes. -/
def quoted (t : Text) : Text :=
  quoteFor t :: t.flatMap (quoteChar (quoteFor t)) ++ [quoteFor t]

end Text

/-- A letter as it is shown. -/
def Letter.shown : Letter → Text
  | char c => [c]
  | half n => '\\' :: 'u' :: Text.hexDigits (0xD800 + n.val) 4

/-- A loose text as it is shown. -/
def LooseText.shown (t : LooseText) : Text := t.flatMap Letter.shown

end CustomProps
