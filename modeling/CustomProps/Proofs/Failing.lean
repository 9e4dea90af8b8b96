import Mathlib.Data.List.Basic

/-!
# What may fail

* `bind_eq_ok_iff` — a computation succeeds when both its parts do.
* `settle` — a value that there is unless something failed.
* `mapM_eq_some_iff`, `mapM_eq_none_iff` — a list is read when all of it can be read.
* `findSome?_ite` — the first failure of a list.
-/

set_option autoImplicit false

namespace CustomProps

variable {ε α β : Type}

theorem bind_eq_ok_iff {m : Except ε α} {next : α → Except ε β} {b : β} :
    m >>= next = .ok b ↔ ∃ a, m = .ok a ∧ next a = .ok b := by
  cases m with
  | error error => exact ⟨nofun, nofun⟩
  | ok a => exact ⟨fun h => ⟨a, rfl, h⟩, fun ⟨_, ha, h⟩ => Except.ok.inj ha ▸ h⟩

/-- The value, unless something failed. -/
def settle (failure : Option ε) (a : α) : Except ε α :=
  match failure with
  | none => .ok a
  | some error => .error error

@[simp]
theorem settle_none (a : α) : settle (none : Option ε) a = .ok a := rfl

@[simp]
theorem settle_some (error : ε) (a : α) : settle (some error) a = .error error := rfl

theorem settle_eq_ok_iff {failure : Option ε} {a b : α} :
    settle failure a = .ok b ↔ failure = none ∧ a = b := by
  cases failure <;> simp

theorem map_settle (failure : Option ε) (a : α) (f : α → β) :
    (settle failure a).map f = settle failure (f a) := by
  cases failure <;> rfl

/-! ## Lists -/

theorem mapM_eq_some_iff {read : α → Option β} {write : β → α}
    (h : ∀ a b, read a = some b ↔ a = write b) {as : List α} {bs : List β} :
    as.mapM read = some bs ↔ as = bs.map write := by
  induction as generalizing bs with
  | nil =>
    rw [List.mapM_nil, eq_comm (a := []), List.map_eq_nil_iff, eq_comm]
    exact ⟨Option.some.inj, congrArg some⟩
  | cons a as ih =>
    rw [List.mapM_cons, eq_comm (b := bs.map write), List.map_eq_cons_iff]
    simp only [Option.bind_eq_bind, Option.bind_eq_some_iff, h, ih]
    constructor
    · rintro ⟨b, rfl, bs', rfl, hbs⟩
      exact ⟨b, bs', (Option.some.inj hbs).symm, rfl, rfl⟩
    · rintro ⟨b, bs', rfl, rfl, rfl⟩
      exact ⟨b, rfl, bs', rfl, rfl⟩

theorem mapM_eq_none_iff {read : α → Option β} {as : List α} :
    as.mapM read = none ↔ ∃ a ∈ as, read a = none := by
  induction as with
  | nil => exact ⟨nofun, nofun⟩
  | cons a as ih =>
    rw [List.mapM_cons, List.exists_mem_cons_iff, ← ih]
    cases read a <;> cases as.mapM read <;> simp

/-- The first failure, where all failures are the same. -/
theorem findSome?_ite {p : α → Prop} [DecidablePred p] (as : List α) (b : β) :
    (as.findSome? fun a => if p a then some b else none) =
      if ∃ a ∈ as, p a then some b else none := by
  induction as with
  | nil => rfl
  | cons a as ih =>
    rw [List.findSome?_cons, ih]
    by_cases h : p a <;> simp [h]

end CustomProps
