import CustomProps.Text.Loose

/-!
# JSON values

Numbers are kept as they are written: a whole number, or a decimal `mantissa · 10 ^ exponent`,
which is what a fraction or an exponent makes of it even when its value is whole.  Strings are
loose texts, since an escape may write half of a surrogate pair.  The members of an object keep the
order of their first appearance.
-/

set_option autoImplicit false

namespace CustomProps

/-- A number as it is written. -/
inductive JsonNumber where
  | whole (n : Int)
  | decimal (mantissa exponent : Int)
  | nan
  | infinity (negative : Bool)
deriving DecidableEq, Repr

/-- A JSON value. -/
inductive Json where
  | null
  | bool (b : Bool)
  | number (n : JsonNumber)
  | string (t : LooseText)
  | array (items : List Json)
  | object (members : List (LooseText × Json))

namespace Json

/-- Gives a member a value.  A name that is there already keeps its place and loses its value. -/
def setMember (name : LooseText) (value : Json) :
    List (LooseText × Json) → List (LooseText × Json)
  | [] => [(name, value)]
  | (n, v) :: rest =>
    if n = name then (n, value) :: rest else (n, v) :: setMember name value rest

/-- The object of the given members; of several values for one name the last counts. -/
def ofMembers (members : List (LooseText × Json)) : Json :=
  object (members.foldl (fun members (name, value) => setMember name value members) [])

theorem keys_setMember (name : LooseText) (value : Json) (members : List (LooseText × Json)) :
    (setMember name value members).map Prod.fst =
      if name ∈ members.map Prod.fst then members.map Prod.fst
      else members.map Prod.fst ++ [name] := by
  induction members with
  | nil => simp [setMember]
  | cons m rest ih =>
    obtain ⟨n, v⟩ := m
    simp only [setMember]
    by_cases h : n = name
    · simp [h]
    · simp only [if_neg h, List.map_cons, ih, List.mem_cons, Ne.symm h, false_or]
      split <;> simp

end Json
end CustomProps
