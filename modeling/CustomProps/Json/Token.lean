import CustomProps.Json.Basic

/-!
# Tokens of JSON

A JSON text is a sequence of tokens with blanks between them: space, tab, CR and LF, and no other.
Beyond the standard words, `NaN`, `Infinity` and `-Infinity` are numbers.  A string holds no control
characters.  A number ends where it cannot go on, so `01` is two tokens.
-/

set_option autoImplicit false

namespace CustomProps

/-- A token. -/
inductive JsonToken where
  | openBrace
  | closeBrace
  | openBracket
  | closeBracket
  | colon
  | comma
  | string (t : LooseText)
  /-- A number or one of the words `null`, `true` and `false`. -/
  | scalar (value : Json)

namespace JsonToken

/-! ## Strings -/

/-- The value of a hexadecimal digit. -/
def hexDigit? (c : Char) : Option Nat :=
  if '0' ≤ c ∧ c ≤ '9' then some (c.toNat - '0'.toNat)
  else if 'a' ≤ c ∧ c ≤ 'f' then some (c.toNat - 'a'.toNat + 10)
  else if 'A' ≤ c ∧ c ≤ 'F' then some (c.toNat - 'A'.toNat + 10)
  else none

/-- The number that four hexadecimal digits write. -/
def hexFour? (a b c d : Char) : Option Nat := do
  return (((← hexDigit? a) * 16 + (← hexDigit? b)) * 16 + (← hexDigit? c)) * 16 + (← hexDigit? d)

/-- What a character behind a backslash stands for. -/
def escaped? : Char → Option Char
  | '"' => some '"'
  | '\\' => some '\\'
  | '/' => some '/'
  | 'b' => some '\x08'
  | 'f' => some '\x0C'
  | 'n' => some '\n'
  | 'r' => some '\r'
  | 't' => some '\t'
  | _ => none

/-- Reads the rest of a string, behind its opening quote: the code units, with those of a pair of
surrogates still apart, and what follows the closing quote. -/
def units? : Text → Option (List Nat × Text)
  | [] => none
  | c :: cs =>
    if c = '"' then some ([], cs)
    else if c = '\\' then
      match cs with
      | [] => none
      | 'u' :: a :: b :: c :: d :: rest => do
        let unit ← hexFour? a b c d
        let (units, rest) ← units? rest
        return (unit :: units, rest)
      | e :: rest => do
        let unit ← escaped? e
        let (units, rest) ← units? rest
        return (unit.toNat :: units, rest)
    else if c.toNat < 0x20 then none
    else do
      let (units, rest) ← units? cs
      return (c.toNat :: units, rest)

/-- Joins the surrogates of a pair; half of a pair on its own stays as it is. -/
def joinSurrogates : List Nat → LooseText
  | [] => []
  | [unit] => [.ofCode unit]
  | high :: low :: units =>
    if 0xD800 ≤ high ∧ high < 0xDC00 ∧ 0xDC00 ≤ low ∧ low < 0xE000 then
      .ofCode (0x10000 + (high - 0xD800) * 0x400 + (low - 0xDC00)) :: joinSurrogates units
    else .ofCode high :: joinSurrogates (low :: units)

/-! ## Numbers -/

/-- Is it one of the ten digits? -/
def isDigit (c : Char) : Bool := '0' ≤ c && c ≤ '9'

/-- The number that decimal digits write. -/
def digitsValue (digits : Text) : Nat :=
  digits.foldl (fun n c => n * 10 + (c.toNat - '0'.toNat)) 0

/-- Reads the digits before the point: a zero alone, or digits that do not start with zero. -/
def integerPart? : Text → Option (Text × Text)
  | [] => none
  | c :: cs =>
    if c = '0' then some (['0'], cs)
    else if isDigit c then some (c :: cs.takeWhile isDigit, cs.dropWhile isDigit)
    else none

/-- Reads a point with digits behind it. -/
def fraction? : Text → Option (Text × Text)
  | '.' :: cs =>
    if (cs.takeWhile isDigit).isEmpty then none
    else some (cs.takeWhile isDigit, cs.dropWhile isDigit)
  | _ => none

/-- Reads the sign of an exponent: is it negative? -/
def exponentSign : Text → Bool × Text
  | '-' :: cs => (true, cs)
  | '+' :: cs => (false, cs)
  | cs => (false, cs)

/-- Reads an exponent with its mark. -/
def exponent? : Text → Option (Int × Text)
  | [] => none
  | c :: cs =>
    if c = 'e' ∨ c = 'E' then
      let (negative, cs) := exponentSign cs
      let digits := cs.takeWhile isDigit
      if digits.isEmpty then none
      else
        let size : Int := digitsValue digits
        some (if negative then -size else size, cs.dropWhile isDigit)
    else none

/-- Reads a number behind its sign. -/
def unsigned? (negative : Bool) (t : Text) : Option (JsonNumber × Text) := do
  let (integer, rest) ← integerPart? t
  let sign : Int := if negative then -1 else 1
  match fraction? rest, exponent? ((fraction? rest).elim rest Prod.snd) with
  | none, none => return (.whole (sign * digitsValue integer), rest)
  | some (fraction, rest), none =>
    return (.decimal (sign * digitsValue (integer ++ fraction)) (-fraction.length), rest)
  | none, some (exponent, rest) =>
    return (.decimal (sign * digitsValue integer) exponent, rest)
  | some (fraction, _), some (exponent, rest) =>
    return (.decimal (sign * digitsValue (integer ++ fraction)) (exponent - fraction.length), rest)

/-- Reads a number. -/
def number? : Text → Option (JsonNumber × Text)
  | '-' :: cs => unsigned? true cs
  | cs => unsigned? false cs

/-! ## Tokens -/

/-- The words and what they stand for. -/
def words : List (String × Json) :=
  [ ("null", .null), ("true", .bool true), ("false", .bool false), ("NaN", .number .nan),
    ("Infinity", .number (.infinity false)), ("-Infinity", .number (.infinity true)) ]

/-- Reads a word. -/
def word? (t : Text) : Option (Json × Text) :=
  words.findSome? fun (word, value) =>
    if word.toList.isPrefixOf t then some (value, t.drop word.length) else none

/-- Reads a token at the start of a text. -/
def ofText? : Text → Option (JsonToken × Text)
  | [] => none
  | c :: cs =>
    if c = '{' then some (openBrace, cs)
    else if c = '}' then some (closeBrace, cs)
    else if c = '[' then some (openBracket, cs)
    else if c = ']' then some (closeBracket, cs)
    else if c = ':' then some (colon, cs)
    else if c = ',' then some (comma, cs)
    else if c = '"' then (units? cs).map fun (units, rest) => (string (joinSurrogates units), rest)
    else
      match word? (c :: cs) with
      | some (value, rest) => some (scalar value, rest)
      | none => (number? (c :: cs)).map fun (n, rest) => (scalar (.number n), rest)

/-- May the character stand between tokens? -/
def isBlank (c : Char) : Bool := c == ' ' || c == '\t' || c == '\n' || c == '\r'

/-- The tokens of a text, of which the first `inside` characters belong to the token before.  Where
something is no token the list ends with `none`. -/
def allAfter (inside : Nat) : Text → List (Option JsonToken)
  | [] => []
  | c :: cs =>
    if 0 < inside then allAfter (inside - 1) cs
    else if isBlank c then allAfter 0 cs
    else
      match ofText? (c :: cs) with
      | none => [none]
      | some (token, rest) => some token :: allAfter (cs.length - rest.length) cs

/-- The tokens of a text, up to where something in it is no token. -/
def all (t : Text) : List (Option JsonToken) := allAfter 0 t

end JsonToken
end CustomProps
