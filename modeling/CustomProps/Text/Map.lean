import CustomProps.Text.Basic

/-!
# Maps from names

A map from texts, kept as a list in ascending order of the names with each name once.  Two maps are
equal as lists exactly when they give the same value to every name, so a change of a map can be told
by comparing lists.
-/

set_option autoImplicit false

namespace CustomProps

/-- The entries of a map, by ascending names. -/
abbrev TextMap (β : Type) := List (Text × β)

namespace TextMap

variable {β : Type}

/-- The map without entries. -/
def empty : TextMap β := []

/-- Gives a value to a name, in place of the one that it had. -/
def insert (name : Text) (value : β) : TextMap β → TextMap β
  | [] => [(name, value)]
  | (n, v) :: rest =>
    if name = n then (name, value) :: rest
    else if Text.before name n then (name, value) :: (n, v) :: rest
    else (n, v) :: insert name value rest

/-- Takes away a name. -/
def erase (name : Text) (map : TextMap β) : TextMap β := map.filter fun (n, _) => n != name

/-- The value of a name. -/
def get? (map : TextMap β) (name : Text) : Option β := map.lookup name

/-- Has the name a value? -/
def has (map : TextMap β) (name : Text) : Bool := (map.get? name).isSome

/-- The map in which each name has the last of the values listed for it. -/
def ofList (entries : List (Text × β)) : TextMap β :=
  entries.foldl (fun map (name, value) => map.insert name value) empty

theorem get?_empty (name : Text) : (empty : TextMap β).get? name = none := rfl

theorem get?_cons (n : Text) (v : β) (rest : TextMap β) (name : Text) :
    get? ((n, v) :: rest) name = if name = n then some v else get? rest name := by
  simp only [get?, List.lookup_cons]
  by_cases h : name = n
  · simp [h]
  · simp [h, beq_eq_false_iff_ne.2 h]

theorem get?_insert (map : TextMap β) (name other : Text) (value : β) :
    (map.insert name value).get? other = if other = name then some value else map.get? other := by
  induction map with
  | nil => simp only [insert, get?_cons]
  | cons entry rest ih =>
    obtain ⟨n, v⟩ := entry
    simp only [insert]
    split
    · rename_i hn
      subst hn
      simp only [get?_cons]
      split <;> rfl
    · split
      · simp only [get?_cons]
      · simp only [get?_cons, ih]
        grind

theorem get?_erase (map : TextMap β) (name other : Text) :
    (map.erase name).get? other = if other = name then none else map.get? other := by
  induction map with
  | nil => simp [erase, get?]
  | cons entry rest ih =>
    obtain ⟨n, v⟩ := entry
    simp only [erase] at ih
    by_cases h : n = name
    · subst h
      simp only [erase, List.filter_cons, bne_self_eq_false, Bool.false_eq_true, if_false, ih,
        get?_cons]
      split <;> rfl
    · simp only [erase, List.filter_cons, bne_iff_ne.2 h, if_true, get?_cons, ih]
      grind

end TextMap

/-- The values of custom properties by their names. -/
abbrev Properties := TextMap Text

end CustomProps
