import CustomProps.Proofs.Scope.RootSheet

/-!
# Versions tell scopes apart

A number that rises with every change is of use only if no change goes without it.  This file says
so for each way in which a scope can come to answer differently: a look at the files, and the
changes that the owner of a mapping makes.

* `Scope.refusal?` — why nobody can look at the files for a scope, if so.
* `Scope.looked` — the scope after a look at the files, or as it was where nobody can look.
* `Scope.Advances` — the version has risen, or it is the same and so are the answers.
* `Scope.advances_looked` — a look at the files advances a scope.
* `Scope.advances_set`, `Scope.advances_remove`, `Scope.advances_clear` — so do the changes of a
  mapping.
* `Scope.looked_looked` — a second look at the same files changes nothing.
-/

set_option autoImplicit false

namespace CustomProps
namespace Scope

/-! ## Looking -/

/-- Why nobody can look at the files for the scope: the path of its sheet never reaches the
system. -/
def refusal? : Scope → Option FileError
  | sheet s => s.path.refusal?
  | _ => none

/-- The scope after a look at the files, or as it was where nobody can look. -/
def looked (files : FileSystem) : Scope → Scope
  | sheet s => sheet (s.looked files)
  | scope => scope

theorem refresh_of_refusal? {files : FileSystem} {scope : Scope} {error : FileError}
    (h : scope.refusal? = some error) : scope.refresh files = .error error := by
  cases scope with
  | sheet s =>
    rw [refresh, RootSheet.refresh_of_refusal? h]
    rfl
  | _ => cases h

theorem looked_of_refusal? {files : FileSystem} {scope : Scope} {error : FileError}
    (h : scope.refusal? = some error) : scope.looked files = scope := by
  cases scope with
  | sheet s => rw [looked, RootSheet.looked_of_refusal? h]
  | _ => cases h

/-- A look can be taken wherever nothing is refused. -/
theorem exists_refresh_eq (files : FileSystem) {scope : Scope} (h : scope.refusal? = none) :
    ∃ events, scope.refresh files = .ok (scope.looked files, events) := by
  cases scope with
  | sheet s =>
    obtain ⟨events, hrefresh⟩ := RootSheet.exists_refresh_eq files h
    rw [refresh, hrefresh]
    exact ⟨_, rfl⟩
  | _ => exact ⟨_, rfl⟩

theorem refusal?_looked (files : FileSystem) (scope : Scope) :
    (scope.looked files).refusal? = scope.refusal? := by
  cases scope with
  | sheet s => rw [looked, refusal?, refusal?, RootSheet.path_looked]
  | _ => rfl

/-- A second look at the same files changes nothing. -/
theorem looked_looked (files : FileSystem) (scope : Scope) :
    (scope.looked files).looked files = scope.looked files := by
  cases scope with
  | sheet s => rw [looked, looked, RootSheet.looked_looked]
  | _ => rfl

theorem refusal?_modifyMapping (change : Mapping → Mapping) (scope : Scope) :
    (scope.modifyMapping change).refusal? = scope.refusal? := by
  cases scope <;> rfl

/-! ## Change and version -/

/-- The version has risen, or it is the same and so is every answer. -/
def Advances (earlier later : Scope) : Prop :=
  earlier.version < later.version ∨ earlier.version = later.version ∧ earlier.get? = later.get?

theorem Advances.refl (scope : Scope) : scope.Advances scope := .inr ⟨rfl, rfl⟩

theorem Advances.trans {a b c : Scope} (hab : a.Advances b) (hbc : b.Advances c) :
    a.Advances c := by
  rcases hab with hab | ⟨hab, hget⟩
  · rcases hbc with hbc | ⟨hbc, -⟩
    · exact .inl (Nat.lt_trans hab hbc)
    · exact .inl (hbc ▸ hab)
  · rcases hbc with hbc | ⟨hbc, hget'⟩
    · exact .inl (hab ▸ hbc)
    · exact .inr ⟨hab.trans hbc, hget.trans hget'⟩

theorem Advances.version_le {a b : Scope} (h : a.Advances b) : a.version ≤ b.version := by
  rcases h with h | ⟨h, -⟩
  · exact Nat.le_of_lt h
  · exact Nat.le_of_eq h

/-- A look at the files raises the version unless the properties are the same. -/
theorem advances_looked (files : FileSystem) (scope : Scope) :
    scope.Advances (scope.looked files) := by
  cases scope with
  | sheet s =>
    obtain ⟨hproperties, hversion⟩ | ⟨-, -, hversion⟩ := s.looked_cases files
    · refine .inr ⟨hversion.symm, funext fun name => ?_⟩
      rw [looked, get?, get?, hproperties]
    · exact .inl (Nat.lt_of_lt_of_eq (Nat.lt_succ_self s.version) hversion.symm)
  | _ => exact .refl _

theorem advances_modifyMapping {change : Mapping → Mapping}
    (h : ∀ m, (mapping m).Advances (mapping (change m))) (scope : Scope) :
    scope.Advances (scope.modifyMapping change) := by
  cases scope with
  | empty => exact .refl _
  | mapping m => exact h m
  | answers values => exact .refl _
  | sheet s => exact .refl _

theorem advances_set (name : Text) (value : PropertyValue) (scope : Scope) :
    scope.Advances (scope.modifyMapping (·.set name value)) := by
  refine advances_modifyMapping (fun m => ?_) scope
  exact .inl (Nat.lt_succ_self m.version)

/-- Taking away a property that is not there leaves all as it was, the version too. -/
theorem advances_remove (name : Text) (scope : Scope) :
    scope.Advances (scope.modifyMapping (·.remove name)) := by
  refine advances_modifyMapping (fun m => ?_) scope
  unfold Mapping.remove
  split
  · exact .inl (Nat.lt_succ_self m.version)
  · exact .refl _

theorem advances_clear (scope : Scope) : scope.Advances (scope.modifyMapping (·.clear)) := by
  refine advances_modifyMapping (fun m => ?_) scope
  exact .inl (Nat.lt_succ_self m.version)

end Scope
end CustomProps
