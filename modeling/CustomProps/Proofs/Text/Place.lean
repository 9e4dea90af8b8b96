import CustomProps.Text.Lines

/-!
# Places and positions

A place names one position of a text: its line starts behind as many line ends as stand in front of
the position, and its column tells how far into that line the position is.

* `Text.lineStart` — where a line starts.
* `Text.IsPlace` — a place names a position.
* `Text.isPlace_placeOf` — the place of a position names it.
-/

set_option autoImplicit false

namespace CustomProps
namespace Text

/-- The position behind the first so many line ends. -/
def behindEnds : (ends : Nat) → Text → Nat
  | 0, _ => 0
  | _ + 1, [] => 0
  | ends + 1, c :: cs =>
    (if c = '\n' then behindEnds ends cs else behindEnds (ends + 1) cs) + 1

/-- The position at which a line starts. -/
def lineStart (t : Text) (line : Nat) : Nat := behindEnds (line - 1) t

/-- The place names position `i`. -/
structure IsPlace (t : Text) (place : Place) (i : Nat) : Prop where
  line : place.line - 1 = (t.take i).count '\n'
  one_le_line : 1 ≤ place.line
  one_le_column : 1 ≤ place.column
  column : t.lineStart place.line + (place.column - 1) = i

theorem line_foldl_after (t : Text) (place : Place) :
    (t.foldl Place.after place).line = place.line + t.count '\n' := by
  induction t generalizing place with
  | nil => rfl
  | cons c cs ih =>
    rw [List.foldl_cons, ih, Place.after]
    by_cases hc : c = '\n'
    · rw [if_pos hc, hc, List.count_cons_self]
      dsimp only
      omega
    · rw [if_neg hc, List.count_cons_of_ne hc]

theorem one_le_column_foldl_after {place : Place} (h : 1 ≤ place.column) (t : Text) :
    1 ≤ (t.foldl Place.after place).column := by
  induction t generalizing place with
  | nil => exact h
  | cons c cs ih =>
    rw [List.foldl_cons]
    refine ih ?_
    rw [Place.after]
    split
    · exact Nat.le_refl 1
    · exact Nat.le_add_left 1 place.column

/-- The column grows from the last line end on, or from where the reading began. -/
theorem behindEnds_add_column {t : Text} {i : Nat} (h : i ≤ t.length) (place : Place) :
    behindEnds ((t.take i).count '\n') t + ((t.take i).foldl Place.after place).column =
      i + (if (t.take i).count '\n' = 0 then place.column else 1) := by
  induction t generalizing i place with
  | nil =>
    obtain rfl : i = 0 := Nat.le_zero.1 h
    simp [behindEnds]
  | cons c cs ih =>
    cases i with
    | zero => simp [behindEnds]
    | succ i =>
      have hlater := ih (Nat.le_of_succ_le_succ h) (place.after c)
      rw [List.take_succ_cons, List.foldl_cons]
      by_cases hc : c = '\n'
      · subst hc
        rw [List.count_cons_self, behindEnds, if_pos rfl, if_neg (Nat.succ_ne_zero _)]
        rw [Place.after, if_pos rfl] at hlater ⊢
        dsimp only at hlater
        split at hlater <;> omega
      · rw [List.count_cons_of_ne hc]
        rw [Place.after, if_neg hc] at hlater ⊢
        dsimp only at hlater
        cases hcount : (cs.take i).count '\n' with
        | zero =>
          rw [hcount, behindEnds, if_pos rfl] at hlater
          rw [behindEnds, if_pos rfl]
          omega
        | succ ends =>
          rw [hcount, if_neg (Nat.succ_ne_zero ends)] at hlater
          rw [behindEnds, if_neg hc, if_neg (Nat.succ_ne_zero ends)]
          omega

/-- The place of a position names it. -/
theorem isPlace_placeOf {t : Text} {i : Nat} (h : i ≤ t.length) : IsPlace t (t.placeOf i) i := by
  have hline : (t.placeOf i).line = (t.take i).count '\n' + 1 := by
    rw [placeOf, line_foldl_after, Nat.add_comm]
  have hone : 1 ≤ (t.placeOf i).column := one_le_column_foldl_after (Nat.le_refl 1) _
  refine ⟨by omega, by omega, hone, ?_⟩
  have hcolumn : behindEnds ((t.take i).count '\n') t + (t.placeOf i).column = i + 1 := by
    rw [placeOf, behindEnds_add_column h, ite_self]
  rw [lineStart, hline, Nat.add_sub_cancel]
  omega

end Text
end CustomProps
