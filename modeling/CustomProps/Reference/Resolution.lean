import CustomProps.Reference.Basic

/-!
# Resolving a reference

The root scope is asked first and wins over the fallback.  Without a root value the fallback stays
where it is; without either the reference is unresolved.  A blank root value counts as none, and a
blank name is not asked for.
-/

set_option autoImplicit false

namespace CustomProps

/-- Answers the root value of a custom property. -/
abbrev Lookup := Text → Option Text

/-- What becomes of a reference. -/
inductive Resolution where
  /-- The root value takes the place of the whole reference. -/
  | root (value : Text)
  /-- The fallback text takes the place of the reference. -/
  | fallback
  /-- Nothing is left of the reference. -/
  | unresolved
deriving DecidableEq, Repr

namespace Resolution

/-- Is the reference replaced by a root value? -/
def isRoot : Resolution → Bool
  | root _ => true
  | _ => false

/-- The root value, if there is one. -/
def value? : Resolution → Option Text
  | root value => some value
  | _ => none

end Resolution

namespace Reference

/-- The root value of a reference: that of its name, trimmed, unless the name or the value is
blank. -/
def rootValue? (r : Reference) (value : Text) (lookup : Lookup) : Option Text :=
  if r.name value = [] then none else (lookup (r.name value)).bind Text.nonBlank?

/-- What becomes of a reference under a root scope. -/
def resolve (r : Reference) (value : Text) (lookup : Lookup) : Resolution :=
  match r.rootValue? value lookup with
  | some root => .root root
  | none => if r.hasFallback then .fallback else .unresolved

theorem resolve_isRoot {r : Reference} {value : Text} {lookup : Lookup} :
    (r.resolve value lookup).isRoot = (r.rootValue? value lookup).isSome := by
  unfold resolve
  cases r.rootValue? value lookup with
  | some root => rfl
  | none => dsimp only; split <;> rfl

theorem resolve_root_ne_nil {r : Reference} {value root : Text} {lookup : Lookup}
    (h : r.resolve value lookup = .root root) : root ≠ [] := by
  unfold resolve at h
  split at h
  · rename_i hr
    obtain rfl := Resolution.root.inj h
    unfold rootValue? at hr
    split at hr
    · cases hr
    · obtain ⟨raw, -, hraw⟩ := Option.bind_eq_some_iff.1 hr
      exact (Text.nonBlank?_eq_some_iff.1 hraw).2
  · split at h <;> cases h

end Reference
end CustomProps
