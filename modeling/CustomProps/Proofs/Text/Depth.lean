import CustomProps.Text.Basic

/-!
# Parentheses by depth

The depth of a place in a text is the number of parentheses that are open there.

* `Text.closing?` — where the depth first returns to zero.
* `Text.IsBalanced` — the depth never falls below zero and ends at zero.
* `Text.ClosesAll` — a text that closes whatever it opens, such as a balanced one and what stands in
  front of the place where the depth returns to zero.
-/

set_option autoImplicit false

namespace CustomProps
namespace Text

/-! ## Depth -/

/-- The position of the parenthesis that closes the outermost of `depth + 1` open ones. -/
def closing? : (depth : Nat) → Text → Option Nat
  | _, [] => none
  | depth, c :: cs =>
    if c = '(' then (closing? (depth + 1) cs).map (· + 1)
    else if c = ')' then
      match depth with
      | 0 => some 0
      | depth + 1 => (closing? depth cs).map (· + 1)
    else (closing? depth cs).map (· + 1)

/-- The number of open parentheses behind a text, or `none` when it closes one that is not open. -/
def depthAfter? : (depth : Nat) → Text → Option Nat
  | depth, [] => some depth
  | depth, c :: cs =>
    if c = '(' then depthAfter? (depth + 1) cs
    else if c = ')' then
      match depth with
      | 0 => none
      | depth + 1 => depthAfter? depth cs
    else depthAfter? depth cs

/-- Every parenthesis has a partner. -/
def IsBalanced (t : Text) : Prop := depthAfter? 0 t = some 0

instance (t : Text) : Decidable t.IsBalanced := inferInstanceAs (Decidable (_ = _))

/-- Every opening parenthesis of the text is closed in the text. -/
def ClosesAll (t : Text) : Prop := ∀ x y : Text, t = x ++ '(' :: y → ∃ k, closing? 0 y = some k

theorem paren_cases (c : Char) : c = '(' ∨ c = ')' ∨ (c ≠ '(' ∧ c ≠ ')') := by
  by_cases h : c = '('
  · exact .inl h
  · by_cases h' : c = ')'
    · exact .inr (.inl h')
    · exact .inr (.inr ⟨h, h'⟩)

@[simp] theorem closing?_nil (depth : Nat) : closing? depth [] = none := by
  cases depth <;> rfl

@[simp] theorem closing?_open (depth : Nat) (cs : Text) :
    closing? depth ('(' :: cs) = (closing? (depth + 1) cs).map (· + 1) := by
  cases depth <;> rfl

@[simp] theorem closing?_close_zero (cs : Text) : closing? 0 (')' :: cs) = some 0 := rfl

@[simp] theorem closing?_close_succ (depth : Nat) (cs : Text) :
    closing? (depth + 1) (')' :: cs) = (closing? depth cs).map (· + 1) := rfl

theorem closing?_other {c : Char} (h : c ≠ '(' ∧ c ≠ ')') (depth : Nat) (cs : Text) :
    closing? depth (c :: cs) = (closing? depth cs).map (· + 1) := by
  cases depth <;> simp [closing?, h.1, h.2]

@[simp] theorem depthAfter?_nil (depth : Nat) : depthAfter? depth [] = some depth := by
  cases depth <;> rfl

@[simp] theorem depthAfter?_open (depth : Nat) (cs : Text) :
    depthAfter? depth ('(' :: cs) = depthAfter? (depth + 1) cs := by
  cases depth <;> rfl

@[simp] theorem depthAfter?_close_zero (cs : Text) : depthAfter? 0 (')' :: cs) = none := rfl

@[simp] theorem depthAfter?_close_succ (depth : Nat) (cs : Text) :
    depthAfter? (depth + 1) (')' :: cs) = depthAfter? depth cs := rfl

theorem depthAfter?_other {c : Char} (h : c ≠ '(' ∧ c ≠ ')') (depth : Nat) (cs : Text) :
    depthAfter? depth (c :: cs) = depthAfter? depth cs := by
  cases depth <;> simp [depthAfter?, h.1, h.2]

/-! ## Where a parenthesis is closed -/

/-- What follows the closing parenthesis does not matter. -/
theorem closing?_append {depth k : Nat} {t : Text} (h : closing? depth t = some k) (u : Text) :
    closing? depth (t ++ u) = some k := by
  induction t generalizing depth k with
  | nil => simp at h
  | cons c cs ih =>
    rw [List.cons_append]
    rcases paren_cases c with rfl | rfl | hc
    · rw [closing?_open] at h ⊢
      obtain ⟨j, hj, rfl⟩ := Option.map_eq_some_iff.1 h
      rw [ih hj, Option.map_some]
    · cases depth with
      | zero => exact h
      | succ depth =>
        rw [closing?_close_succ] at h ⊢
        obtain ⟨j, hj, rfl⟩ := Option.map_eq_some_iff.1 h
        rw [ih hj, Option.map_some]
    · rw [closing?_other hc] at h ⊢
      obtain ⟨j, hj, rfl⟩ := Option.map_eq_some_iff.1 h
      rw [ih hj, Option.map_some]

/-- A parenthesis that was opened later is closed earlier. -/
theorem closing?_of_deeper {depth k : Nat} {t : Text} (h : closing? (depth + 1) t = some k) :
    ∃ j, closing? depth t = some j ∧ j < k := by
  induction t generalizing depth k with
  | nil => simp at h
  | cons c cs ih =>
    rcases paren_cases c with rfl | rfl | hc
    · rw [closing?_open] at h
      obtain ⟨k, hk, rfl⟩ := Option.map_eq_some_iff.1 h
      obtain ⟨j, hj, hjk⟩ := ih hk
      exact ⟨j + 1, by rw [closing?_open, hj, Option.map_some], by omega⟩
    · rw [closing?_close_succ] at h
      obtain ⟨k, hk, rfl⟩ := Option.map_eq_some_iff.1 h
      cases depth with
      | zero => exact ⟨0, rfl, by omega⟩
      | succ depth =>
        obtain ⟨j, hj, hjk⟩ := ih hk
        exact ⟨j + 1, by rw [closing?_close_succ, hj, Option.map_some], by omega⟩
    · rw [closing?_other hc] at h
      obtain ⟨k, hk, rfl⟩ := Option.map_eq_some_iff.1 h
      obtain ⟨j, hj, hjk⟩ := ih hk
      exact ⟨j + 1, by rw [closing?_other hc, hj, Option.map_some], by omega⟩

theorem closing?_zero_of_deeper {depth k : Nat} {t : Text} (h : closing? depth t = some k) :
    ∃ j, closing? 0 t = some j ∧ j ≤ k := by
  induction depth generalizing k with
  | zero => exact ⟨k, h, Nat.le_refl k⟩
  | succ depth ih =>
    obtain ⟨i, hi, hik⟩ := closing?_of_deeper h
    obtain ⟨j, hj, hji⟩ := ih hi
    exact ⟨j, hj, by omega⟩

/-- A parenthesis that is closed early enough is closed in the front part of a text. -/
theorem closing?_of_append {depth k : Nat} {t u : Text} (h : closing? depth (t ++ u) = some k)
    (hk : k < t.length) : closing? depth t = some k := by
  induction t generalizing depth k with
  | nil => simp at hk
  | cons c cs ih =>
    rw [List.cons_append] at h
    rw [List.length_cons] at hk
    rcases paren_cases c with rfl | rfl | hc
    · rw [closing?_open] at h ⊢
      obtain ⟨j, hj, rfl⟩ := Option.map_eq_some_iff.1 h
      rw [ih hj (by omega), Option.map_some]
    · cases depth with
      | zero => exact h
      | succ depth =>
        rw [closing?_close_succ] at h ⊢
        obtain ⟨j, hj, rfl⟩ := Option.map_eq_some_iff.1 h
        rw [ih hj (by omega), Option.map_some]
    · rw [closing?_other hc] at h ⊢
      obtain ⟨j, hj, rfl⟩ := Option.map_eq_some_iff.1 h
      rw [ih hj (by omega), Option.map_some]

theorem closesAll_nil : ClosesAll [] := by
  intro x y h
  simp at h

theorem ClosesAll.cons {c : Char} {t : Text} (ht : t.ClosesAll)
    (hc : c = '(' → ∃ k, closing? 0 t = some k) : ClosesAll (c :: t) := by
  intro x y h
  cases x with
  | nil =>
    obtain ⟨rfl, rfl⟩ := List.cons.inj h
    exact hc rfl
  | cons d x => exact ht x y (List.cons.inj h).2

theorem ClosesAll.tail {c : Char} {t : Text} (h : ClosesAll (c :: t)) : t.ClosesAll := by
  intro x y hxy
  exact h (c :: x) y (by rw [hxy, List.cons_append])

theorem ClosesAll.of_append {t u : Text} (h : ClosesAll (t ++ u)) : u.ClosesAll := by
  induction t with
  | nil => exact h
  | cons c t ih => exact ih (ClosesAll.tail h)

/-- Up to the closing parenthesis stands a text that closes whatever it opens. -/
theorem closing?_eq_some {depth k : Nat} {t : Text} (h : closing? depth t = some k) :
    ∃ inside rest, t = inside ++ ')' :: rest ∧ inside.length = k ∧ inside.ClosesAll := by
  induction t generalizing depth k with
  | nil => simp at h
  | cons c cs ih =>
    rcases paren_cases c with rfl | rfl | hc
    · rw [closing?_open] at h
      obtain ⟨k, hk, rfl⟩ := Option.map_eq_some_iff.1 h
      obtain ⟨inside, rest, rfl, rfl, hinside⟩ := ih hk
      obtain ⟨i, hi, hik⟩ := closing?_of_deeper hk
      obtain ⟨j, hj, hji⟩ := closing?_zero_of_deeper hi
      exact ⟨'(' :: inside, rest, rfl, rfl,
        hinside.cons fun _ => ⟨j, closing?_of_append hj (by omega)⟩⟩
    · cases depth with
      | zero =>
        rw [closing?_close_zero, Option.some.injEq] at h
        exact ⟨[], cs, rfl, h, closesAll_nil⟩
      | succ depth =>
        rw [closing?_close_succ] at h
        obtain ⟨k, hk, rfl⟩ := Option.map_eq_some_iff.1 h
        obtain ⟨inside, rest, rfl, rfl, hinside⟩ := ih hk
        exact ⟨')' :: inside, rest, rfl, rfl, hinside.cons fun h => by simp at h⟩
    · rw [closing?_other hc] at h
      obtain ⟨k, hk, rfl⟩ := Option.map_eq_some_iff.1 h
      obtain ⟨inside, rest, rfl, rfl, hinside⟩ := ih hk
      exact ⟨c :: inside, rest, rfl, rfl, hinside.cons fun h => absurd h hc.1⟩

/-- A text whose depth ends no higher closes what is open. -/
theorem isSome_closing? {depth low : Nat} {t : Text} {final : Nat}
    (h : depthAfter? (depth + 1 + low) t = some final) (hlow : final ≤ low) :
    (closing? depth t).isSome := by
  induction t generalizing depth with
  | nil =>
    rw [depthAfter?_nil, Option.some.injEq] at h
    omega
  | cons c cs ih =>
    rcases paren_cases c with rfl | rfl | hc
    · rw [depthAfter?_open, show depth + 1 + low + 1 = depth + 1 + 1 + low by omega] at h
      rw [closing?_open, Option.isSome_map, ih h]
    · cases depth with
      | zero => rfl
      | succ depth =>
        rw [show depth + 1 + 1 + low = depth + 1 + low + 1 by omega, depthAfter?_close_succ] at h
        rw [closing?_close_succ, Option.isSome_map, ih h]
    · rw [depthAfter?_other hc] at h
      rw [closing?_other hc, Option.isSome_map, ih h]

theorem depthAfter?_append (depth : Nat) (t u : Text) :
    depthAfter? depth (t ++ u) = (depthAfter? depth t).bind (depthAfter? · u) := by
  induction t generalizing depth with
  | nil => simp
  | cons c cs ih =>
    rw [List.cons_append]
    rcases paren_cases c with rfl | rfl | hc
    · rw [depthAfter?_open, depthAfter?_open, ih]
    · cases depth with
      | zero => rfl
      | succ depth => rw [depthAfter?_close_succ, depthAfter?_close_succ, ih]
    · rw [depthAfter?_other hc, depthAfter?_other hc, ih]

/-- A balanced text closes whatever it opens. -/
theorem IsBalanced.closesAll {t : Text} (h : t.IsBalanced) : t.ClosesAll := by
  rintro x y rfl
  rw [IsBalanced, depthAfter?_append] at h
  obtain ⟨depth, -, h⟩ := Option.bind_eq_some_iff.1 h
  rw [depthAfter?_open, show depth + 1 = 0 + 1 + depth by omega] at h
  exact Option.isSome_iff_exists.1 (isSome_closing? h (Nat.zero_le depth))

end Text

end CustomProps
