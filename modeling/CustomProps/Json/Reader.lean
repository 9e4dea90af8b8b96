import CustomProps.Json.Token

/-!
# Reading JSON

The tokens are taken one by one.  The arrays and objects that are still open are kept on a list, the
innermost first, so the reading of a token is one step.

A reader has its limits: an integer may have so many digits at most, and arrays and objects may be
nested so deep.  The first thing that cannot be read, in the order of the text, ends the reading.
-/

set_option autoImplicit false

namespace CustomProps

/-- How much a reader of JSON takes. -/
structure JsonLimits where
  /-- The greatest number of digits of an integer. -/
  digits : Nat
  /-- The greatest depth of arrays and objects. -/
  depth : Nat
deriving DecidableEq, Repr

/-- Why a text is not read as a JSON value. -/
inductive JsonError where
  /-- It is none. -/
  | notJson
  /-- An integer has too many digits. -/
  | longInteger
  /-- Arrays and objects are nested too deep. -/
  | tooDeep
deriving DecidableEq, Repr

namespace Json

/-- Is the value an integer with more than so many digits? -/
def isLong (digits : Nat) : Json → Bool
  | number (.whole n) => Nat.pow 10 digits ≤ n.natAbs
  | _ => false

/-- An array or object part way through, its items or members in reverse. -/
inductive Frame where
  | array (items : List Json)
  /-- An object that waits for the value of `name`. -/
  | object (members : List (LooseText × Json)) (name : LooseText)

/-- What may come next, and the containers around it. -/
inductive Reader where
  | value (frames : List Frame)
  /-- Behind an opening bracket: a value or the closing bracket. -/
  | firstItem (frames : List Frame)
  /-- Behind an opening brace: a name or the closing brace. -/
  | firstName (frames : List Frame)
  /-- Behind a comma in an object: a name. -/
  | name (members : List (LooseText × Json)) (frames : List Frame)
  /-- Behind a name: a colon. -/
  | colon (members : List (LooseText × Json)) (name : LooseText) (frames : List Frame)
  /-- Behind a value in the container `frame`: a comma or the end of the container. -/
  | more (frame : Frame) (frames : List Frame)
  /-- Nothing: the value is complete. -/
  | done (value : Json)

namespace Reader

/-- The state behind a complete value. -/
def deliver (v : Json) : List Frame → Reader
  | [] => done v
  | .array items :: frames => more (.array (v :: items)) frames
  | .object members key :: frames => more (.object ((key, v) :: members) key) frames

/-- The state behind the opening of an array or object, unless there are too many around it. -/
def enter (limits : JsonLimits) (frames : List Frame) (inside : Reader) : Except JsonError Reader :=
  if limits.depth ≤ frames.length then .error .tooDeep else .ok inside

/-- The state behind the first token of a value. -/
def startValue (limits : JsonLimits) (frames : List Frame) : JsonToken → Except JsonError Reader
  | .scalar v => if v.isLong limits.digits then .error .longInteger else .ok (deliver v frames)
  | .string t => .ok (deliver (.string t) frames)
  | .openBracket => enter limits frames (firstItem frames)
  | .openBrace => enter limits frames (firstName frames)
  | _ => .error .notJson

/-- Takes one token. -/
def step (limits : JsonLimits) : Reader → JsonToken → Except JsonError Reader
  | value frames, token => startValue limits frames token
  | firstItem frames, .closeBracket => .ok (deliver (.array []) frames)
  | firstItem frames, token => startValue limits (.array [] :: frames) token
  | firstName frames, .closeBrace => .ok (deliver (.object []) frames)
  | firstName frames, .string t => .ok (colon [] t frames)
  | name members frames, .string t => .ok (colon members t frames)
  | colon members key frames, .colon => .ok (value (.object members key :: frames))
  | more (.array items) frames, .comma => .ok (value (.array items :: frames))
  | more (.array items) frames, .closeBracket => .ok (deliver (.array items.reverse) frames)
  | more (.object members _) frames, .comma => .ok (name members frames)
  | more (.object members _) frames, .closeBrace =>
    .ok (deliver (ofMembers members.reverse) frames)
  | _, _ => .error .notJson

/-- Takes what may be a token. -/
def stepOrFail (limits : JsonLimits) (reader : Reader) :
    Option JsonToken → Except JsonError Reader
  | some token => reader.step limits token
  | none => .error .notJson

/-- The value that has been read, if it is complete. -/
def result : Reader → Except JsonError Json
  | done v => .ok v
  | _ => .error .notJson

end Reader

/-- Reads a JSON text. -/
def ofText (limits : JsonLimits) (t : Text) : Except JsonError Json := do
  let reader ← (JsonToken.all t).foldlM (Reader.stepOrFail limits) (.value [])
  reader.result

end Json
end CustomProps
