import CustomProps.Scope.PropertyValue
import CustomProps.Text.Map

/-!
# Mappings

A mapping is a set of properties that its owner changes one by one.  Every change raises its
version, except the removal of a property that is not there.
-/

set_option autoImplicit false

namespace CustomProps

/-- Properties that their owner changes one by one. -/
structure Mapping where
  values : TextMap PropertyValue
  version : Nat
deriving DecidableEq, Repr

namespace Mapping

/-- A new mapping over the given values. -/
def ofValues (values : TextMap PropertyValue) : Mapping := ⟨values, 0⟩

/-- Gives a property a value. -/
def set (mapping : Mapping) (name : Text) (value : PropertyValue) : Mapping :=
  ⟨mapping.values.insert name value, mapping.version + 1⟩

/-- Takes a property away, if it is there. -/
def remove (mapping : Mapping) (name : Text) : Mapping :=
  if mapping.values.has name then ⟨mapping.values.erase name, mapping.version + 1⟩ else mapping

/-- Takes all properties away. -/
def clear (mapping : Mapping) : Mapping := ⟨.empty, mapping.version + 1⟩

/-- The value of a property, trimmed, unless it is blank. -/
def get? (mapping : Mapping) (name : Text) : Option Text :=
  (mapping.values.get? name).bind (·.clean?)

theorem version_set (m : Mapping) (name : Text) (value : PropertyValue) :
    (m.set name value).version = m.version + 1 := rfl

theorem version_remove (m : Mapping) (name : Text) :
    (m.remove name).version = m.version + if m.values.has name = true then 1 else 0 := by
  rw [remove]
  split <;> rfl

theorem get?_set (m : Mapping) (name other : Text) (value : PropertyValue) :
    (m.set name value).get? other = if other = name then value.clean? else m.get? other := by
  simp only [get?, set, TextMap.get?_insert]
  split <;> rfl

theorem get?_remove (m : Mapping) (name other : Text) :
    (m.remove name).get? other = if other = name then none else m.get? other := by
  unfold remove
  split
  · simp only [get?, TextMap.get?_erase]
    split <;> rfl
  · rename_i h
    split
    · rename_i ho
      subst ho
      simp only [TextMap.has, Option.isSome_iff_ne_none, ne_eq, Decidable.not_not] at h
      simp [get?, h]
    · rfl

end Mapping

end CustomProps
