import CustomProps.Proofs.Text.Blank
import CustomProps.Text.Split

/-!
# Runs of blanks

How many blanks stand in a row, and which, makes no difference to what a text says.  Squeezing
leaves one space of each run, so two texts that differ in their runs alone are squeezed to the same.
It gets along with all that is done to selectors: reversing, trimming and splitting.

* `Text.squeeze` — a text with a space for each run of blanks.
* `Text.squeeze_append_cons` — the runs on both sides of a character that is no blank are squeezed
  apart.
* `Text.squeeze_reverse`, `Text.squeeze_trim`, `Text.splitOn_squeeze` — squeezing before and after.
* `Text.squeeze_eq_iff` — a text without blanks is not squeezed from any other.
-/

set_option autoImplicit false

namespace CustomProps
namespace Text

/-- The text with a single space for each run of blanks. -/
def squeeze : Text → Text
  | [] => []
  | c :: cs =>
    if isBlank c then
      if cs.head?.any isBlank then squeeze cs else ' ' :: squeeze cs
    else c :: squeeze cs

variable {c : Char} {t u : Text}

/-! ## One character -/

theorem squeeze_cons_of_not_isBlank (h : isBlank c = false) (t : Text) :
    squeeze (c :: t) = c :: squeeze t := by
  rw [squeeze, h, if_neg Bool.false_ne_true]

theorem squeeze_cons_of_isBlank (h : isBlank c = true) (t : Text) :
    squeeze (c :: t) = if t.head?.any isBlank then squeeze t else ' ' :: squeeze t := by
  rw [squeeze, if_pos h]

/-- Which blank it is makes no difference. -/
theorem squeeze_cons_blank {d : Char} (hc : isBlank c = true) (hd : isBlank d = true) (t : Text) :
    squeeze (c :: t) = squeeze (d :: t) := by
  rw [squeeze_cons_of_isBlank hc, squeeze_cons_of_isBlank hd]

/-- A blank in front of a blank goes without a trace. -/
theorem squeeze_cons_cons {d : Char} (hc : isBlank c = true) (hd : isBlank d = true) (t : Text) :
    squeeze (c :: d :: t) = squeeze (d :: t) := by
  rw [squeeze_cons_of_isBlank hc, List.head?_cons, Option.any_some, if_pos hd]

theorem any_head?_squeeze (t : Text) : (squeeze t).head?.any isBlank = t.head?.any isBlank := by
  induction t with
  | nil => rfl
  | cons c t ih =>
    by_cases hc : isBlank c = true
    · rw [squeeze_cons_of_isBlank hc]
      split
      · rename_i ht
        rw [ih, ht]
        exact hc.symm
      · exact hc.symm
    · rw [squeeze_cons_of_not_isBlank (Bool.eq_false_iff.2 hc)]
      rfl

/-- What is squeezed to the same is so behind any character. -/
theorem squeeze_cons_congr (h : squeeze t = squeeze u) (c : Char) :
    squeeze (c :: t) = squeeze (c :: u) := by
  have hhead : t.head?.any isBlank = u.head?.any isBlank := by
    rw [← any_head?_squeeze, h, any_head?_squeeze]
  rw [squeeze, squeeze, hhead, h]

theorem squeeze_append_congr (h : squeeze t = squeeze u) (front : Text) :
    squeeze (front ++ t) = squeeze (front ++ u) := by
  induction front with
  | nil => exact h
  | cons c front ih => exact squeeze_cons_congr ih c

theorem squeeze_replicate_append (n : Nat) (t : Text) :
    squeeze (List.replicate (n + 1) ' ' ++ t) = squeeze (' ' :: t) := by
  induction n with
  | zero => rfl
  | succ n ih => rw [List.replicate_succ, List.cons_append, List.replicate_succ, List.cons_append,
      squeeze_cons_cons rfl rfl, ← List.cons_append, ← List.replicate_succ, ih]

/-! ## The characters that are left -/

theorem mem_squeeze_iff (h : isBlank c = false) : c ∈ squeeze t ↔ c ∈ t := by
  induction t with
  | nil => rfl
  | cons d t ih =>
    by_cases hd : isBlank d = true
    · rw [squeeze_cons_of_isBlank hd, List.mem_cons, or_iff_right (ne_of_isBlank hd h).symm]
      split
      · exact ih
      · rw [List.mem_cons, or_iff_right (ne_of_isBlank rfl h).symm, ih]
    · rw [squeeze_cons_of_not_isBlank (Bool.eq_false_iff.2 hd), List.mem_cons, List.mem_cons, ih]

/-- **A text without blanks is squeezed from itself alone.** -/
theorem squeeze_eq_iff (hu : ∀ c ∈ u, isBlank c = false) : squeeze t = u ↔ t = u := by
  induction t generalizing u with
  | nil => rfl
  | cons c t ih =>
    by_cases hc : isBlank c = true
    · have hne : c :: t ≠ u := by
        rintro rfl
        exact ne_of_isBlank hc (hu c List.mem_cons_self) rfl
      refine iff_of_false (fun h => ?_) hne
      rw [squeeze_cons_of_isBlank hc] at h
      split at h
      · -- A blank follows, and `u` has none.
        rename_i ht
        obtain rfl := (ih hu).1 h
        obtain ⟨d, hd, hblank⟩ := (Option.any_eq_true _ _).1 ht
        exact absurd rfl (ne_of_isBlank hblank (hu d (List.mem_of_head? hd)))
      · subst h
        exact absurd rfl (ne_of_isBlank rfl (hu ' ' List.mem_cons_self))
    · rw [squeeze_cons_of_not_isBlank (Bool.eq_false_iff.2 hc)]
      cases u with
      | nil => simp
      | cons d u =>
        rw [List.cons.injEq, List.cons.injEq, ih fun e he => hu e (List.mem_cons_of_mem d he)]

/-- A first character that is no blank stays the first one. -/
theorem head?_squeeze_eq_iff (h : isBlank c = false) :
    (squeeze t).head? = some c ↔ t.head? = some c := by
  cases t with
  | nil => rfl
  | cons d t =>
    by_cases hd : isBlank d = true
    · have hblank : (squeeze (d :: t)).head?.any isBlank = true := by
        rw [any_head?_squeeze]
        exact hd
      refine iff_of_false (fun hhead => ?_) (fun hhead => ?_)
      · rw [hhead, Option.any_some, h] at hblank
        cases hblank
      · exact ne_of_isBlank hd h (Option.some.inj hhead)
    · rw [squeeze_cons_of_not_isBlank (Bool.eq_false_iff.2 hd)]
      rfl

theorem squeeze_eq_nil_iff : squeeze t = [] ↔ t = [] := squeeze_eq_iff (by simp)

/-- Two characters that are no blanks stand side by side just when they did. -/
theorem pair_infix_squeeze_iff {d : Char} (hc : isBlank c = false) (hd : isBlank d = false) :
    [c, d] <:+: squeeze t ↔ [c, d] <:+: t := by
  have hprefix : ∀ (e : Char) (t : Text), [c, d] <+: e :: t ↔ c = e ∧ t.head? = some d := by
    intro e t
    cases t <;> simp [List.cons_prefix_cons, eq_comm]
  induction t with
  | nil => rfl
  | cons e t ih =>
    by_cases he : isBlank e = true
    · rw [squeeze_cons_of_isBlank he, List.infix_cons_iff, hprefix,
        or_iff_right fun h => ne_of_isBlank he hc h.1.symm]
      split
      · exact ih
      · rw [List.infix_cons_iff, hprefix, or_iff_right fun h => ne_of_isBlank rfl hc h.1.symm]
        exact ih
    · rw [squeeze_cons_of_not_isBlank (Bool.eq_false_iff.2 he), List.infix_cons_iff,
        List.infix_cons_iff, hprefix, hprefix, head?_squeeze_eq_iff hd]
      exact or_congr_right ih

/-! ## Two parts -/

/-- **Both sides of a character that is no blank are squeezed apart.** -/
theorem squeeze_append_cons (h : isBlank c = false) (t u : Text) :
    squeeze (t ++ c :: u) = squeeze t ++ c :: squeeze u := by
  induction t with
  | nil => exact squeeze_cons_of_not_isBlank h u
  | cons d t ih =>
    have hhead : (t ++ c :: u).head?.any isBlank = t.head?.any isBlank := by
      cases t with
      | nil => exact h
      | cons e t => rfl
    rw [List.cons_append, squeeze, squeeze, hhead, ih]
    split
    · split <;> rfl
    · rfl

theorem squeeze_concat_blank (h : isBlank c = true) (t : Text) :
    squeeze (t ++ [c]) = if t.getLast?.any isBlank then squeeze t else squeeze t ++ [' '] := by
  induction t with
  | nil =>
    rw [List.nil_append, squeeze_cons_of_isBlank h]
    rfl
  | cons d t ih =>
    cases t with
    | nil =>
      by_cases hd : isBlank d = true
      · rw [List.cons_append, List.nil_append, squeeze_cons_cons hd h, squeeze_cons_blank h hd,
          List.getLast?_singleton, Option.any_some, if_pos hd]
      · rw [List.getLast?_singleton, Option.any_some, if_neg hd, List.cons_append,
          squeeze_cons_of_not_isBlank (Bool.eq_false_iff.2 hd), List.nil_append,
          squeeze_cons_of_isBlank h, squeeze_cons_of_not_isBlank (Bool.eq_false_iff.2 hd)]
        rfl
    | cons e t =>
      have hhead : ((e :: t) ++ [c]).head?.any isBlank = (e :: t).head?.any isBlank := rfl
      rw [List.cons_append, squeeze, hhead, ih, List.getLast?_cons_cons,
        squeeze.eq_def (d :: e :: t)]
      by_cases hlast : (e :: t).getLast?.any isBlank = true
      · rw [if_pos hlast, if_pos hlast]
      · rw [if_neg hlast, if_neg hlast]
        dsimp only
        split
        · split <;> rfl
        · rfl

theorem squeeze_reverse (t : Text) : squeeze t.reverse = (squeeze t).reverse := by
  induction t with
  | nil => rfl
  | cons c t ih =>
    rw [List.reverse_cons]
    by_cases hc : isBlank c = true
    · rw [squeeze_concat_blank hc, squeeze_cons_of_isBlank hc, List.getLast?_reverse, ih]
      split
      · rfl
      · rw [List.reverse_cons]
    · rw [squeeze_append_cons (Bool.eq_false_iff.2 hc), ih,
        squeeze_cons_of_not_isBlank (Bool.eq_false_iff.2 hc), List.reverse_cons]
      rfl

/-! ## Trimming and splitting -/

theorem squeeze_trimLeft (t : Text) : squeeze (trimLeft t) = trimLeft (squeeze t) := by
  induction t with
  | nil => rfl
  | cons c t ih =>
    by_cases hc : isBlank c = true
    · rw [trimLeft, List.dropWhile_cons_of_pos hc, ← trimLeft, ih, squeeze_cons_of_isBlank hc]
      split <;> rfl
    · have hc : isBlank c = false := Bool.eq_false_iff.2 hc
      rw [trimLeft_of_head? (t := c :: t), squeeze_cons_of_not_isBlank hc, trimLeft_of_head?]
      · exact fun d hd => Option.some.inj hd ▸ hc
      · exact fun d hd => Option.some.inj hd ▸ hc

theorem squeeze_trim (t : Text) : squeeze (trim t) = trim (squeeze t) := by
  have hright : ∀ t, squeeze (trimRight t) = trimRight (squeeze t) := by
    intro t
    have hleft := squeeze_trimLeft t.reverse
    rw [trimLeft, trimLeft, squeeze_reverse] at hleft
    rw [trimRight, squeeze_reverse, hleft, trimRight]
  rw [trim, hright, squeeze_trimLeft, trim]

/-- The first piece starts with a blank just when the text does. -/
theorem any_head?_of_splitOn {sep : Char} (hsep : isBlank sep = false) {piece : Text}
    {pieces : List Text} (h : splitOn sep t = piece :: pieces) :
    piece.head?.any isBlank = t.head?.any isBlank := by
  cases t with
  | nil =>
    obtain ⟨rfl, -⟩ := List.cons.inj h
    rfl
  | cons c t =>
    rw [splitOn] at h
    split at h
    · rename_i hc
      obtain ⟨rfl, -⟩ := List.cons.inj h
      rw [hc]
      exact hsep.symm
    · obtain ⟨first, others, hfirst⟩ := List.exists_cons_of_ne_nil (splitOn_ne_nil sep t)
      rw [hfirst] at h
      obtain ⟨rfl, -⟩ := List.cons.inj h
      rfl

theorem splitOn_squeeze {sep : Char} (hsep : isBlank sep = false) (t : Text) :
    splitOn sep (squeeze t) = (splitOn sep t).map squeeze := by
  induction t with
  | nil => rfl
  | cons c t ih =>
    obtain ⟨piece, pieces, hpiece⟩ := List.exists_cons_of_ne_nil (splitOn_ne_nil sep t)
    have hhead := any_head?_of_splitOn hsep hpiece
    by_cases hc : isBlank c = true
    · rw [splitOn, if_neg (ne_of_isBlank hc hsep), hpiece, List.map_cons,
        squeeze_cons_of_isBlank hc, squeeze_cons_of_isBlank hc, hhead]
      rw [hpiece, List.map_cons] at ih
      split
      · exact ih
      · rw [splitOn, if_neg (ne_of_isBlank rfl hsep), ih]
    · rw [squeeze_cons_of_not_isBlank (Bool.eq_false_iff.2 hc), splitOn, splitOn, ih]
      split
      · rfl
      · rw [hpiece, List.map_cons, List.map_cons,
          squeeze_cons_of_not_isBlank (Bool.eq_false_iff.2 hc)]

end Text
end CustomProps
