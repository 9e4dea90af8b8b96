import CustomProps.Text.Basic

/-!
# Loose texts

The strings of a JSON file may hold half of a surrogate pair on its own, which is no character.  A
loose text is a sequence of characters and such halves.  It keeps strings apart that differ in
nothing else, and it can be the name of a file: the halves from DC80 to DCFF stand for the bytes
that are not part of any character there.
-/

set_option autoImplicit false

namespace CustomProps

/-- A letter of a loose text. -/
inductive Letter where
  | char (c : Char)
  /-- Half of a surrogate pair, the one with the code `0xD800 + n`. -/
  | half (n : Fin 0x800)
deriving DecidableEq, Repr

/-- A text that may hold halves of surrogate pairs. -/
abbrev LooseText := List Letter

namespace Letter

/-- The letter with a given code. -/
def ofCode (code : Nat) : Letter :=
  if h : 0xD800 ≤ code ∧ code < 0xE000 then half ⟨code - 0xD800, by omega⟩
  else char (Char.ofNat code)

/-- The letter as a character, if it is one. -/
def char? : Letter → Option Char
  | char c => some c
  | half _ => none

/-- The bytes that write the letter in the name of a file, if there are any. -/
def bytes? : Letter → Option (List UInt8)
  | char c => some (String.utf8EncodeChar c)
  | half n => if 0x480 ≤ n.val ∧ n.val < 0x500 then some [.ofNat (n.val - 0x400)] else none

end Letter

namespace LooseText

/-- The text without any halves, if there are none. -/
def strict? (t : LooseText) : Option Text := t.mapM Letter.char?

/-- The bytes of the text as the name of a file.  Letters that nothing writes are left out. -/
def bytes (t : LooseText) : List UInt8 := t.flatMap fun letter => letter.bytes?.getD []

end LooseText

namespace Text

/-- A text as a loose one. -/
def loose (t : Text) : LooseText := t.map .char

theorem loose_inj {t u : Text} : t.loose = u.loose ↔ t = u :=
  List.map_inj_right fun _ _ h => Letter.char.inj h

end Text
end CustomProps
