import CustomProps.Text.Blank
import CustomProps.Text.Word

/-!
# Trimmed texts

Trimming takes characters away at the two ends and adds none, and doing it twice is doing it once.
Blanks stand in no identifier.
-/

set_option autoImplicit false

namespace CustomProps
namespace Text

theorem ne_of_isBlank {c d : Char} (hc : isBlank c = true) (hd : isBlank d = false) : c ≠ d := by
  rintro rfl
  exact absurd (hc.symm.trans hd) Bool.noConfusion

/-- No blank stands in an identifier. -/
theorem not_isIdent_of_isBlank {c : Char} (h : isBlank c = true) : isIdent c = false := by
  have hnone : (blankRanges.all fun range => (List.range' range.1 (range.2 + 1 - range.1)).all
      fun n => !isIdent (Char.ofNat n)) = true := by
    decide +kernel
  obtain ⟨⟨first, last⟩, hrange, hc⟩ := List.any_eq_true.1 h
  rw [Bool.and_eq_true, decide_eq_true_eq, decide_eq_true_eq] at hc
  have hrow := List.all_eq_true.1 (List.all_eq_true.1 hnone _ hrange) c.toNat
    (List.mem_range'_1.2 (by omega))
  rw [Char.ofNat_toNat] at hrow
  exact (Bool.not_eq_true' _).mp hrow

theorem trimLeft_of_head? {t : Text} (h : ∀ c, t.head? = some c → isBlank c = false) :
    trimLeft t = t := by
  cases t with
  | nil => rfl
  | cons c cs => exact List.dropWhile_cons_of_neg (by rw [h c rfl]; exact Bool.false_ne_true)

theorem isBlank_of_head?_trimLeft {t : Text} {c : Char} (h : (trimLeft t).head? = some c) :
    isBlank c = false := by
  have hhead := List.head?_dropWhile_not isBlank t
  rw [trimLeft] at h
  rw [h] at hhead
  exact hhead

theorem isSuffix_trimLeft (t : Text) : trimLeft t <:+ t := List.dropWhile_suffix isBlank

theorem isPrefix_trimRight (t : Text) : trimRight t <+: t := by
  rw [← List.reverse_suffix, trimRight, List.reverse_reverse]
  exact List.dropWhile_suffix isBlank

theorem trimRight_trimRight (t : Text) : trimRight (trimRight t) = trimRight t := by
  have hreverse : trimLeft (trimLeft t.reverse) = trimLeft t.reverse :=
    trimLeft_of_head? fun _ => isBlank_of_head?_trimLeft
  rw [trimRight, trimRight, List.reverse_reverse]
  exact congrArg List.reverse hreverse

/-- In front of what is left of a text without its leading blanks stand blanks. -/
theorem exists_trimLeft (t : Text) :
    ∃ front, t = front ++ trimLeft t ∧ ∀ c ∈ front, isBlank c = true :=
  ⟨t.takeWhile isBlank, List.takeWhile_append_dropWhile.symm,
    List.all_eq_true.1 List.all_takeWhile⟩

/-- Behind what is left of a text without its trailing blanks stand blanks. -/
theorem exists_trimRight (t : Text) :
    ∃ back, t = trimRight t ++ back ∧ ∀ c ∈ back, isBlank c = true := by
  obtain ⟨front, ht, hfront⟩ := exists_trimLeft t.reverse
  refine ⟨front.reverse, ?_, fun c hc => hfront c (List.mem_reverse.1 hc)⟩
  have hreverse := congrArg List.reverse ht
  rw [List.reverse_reverse, List.reverse_append] at hreverse
  exact hreverse

/-- Every character of a trimmed text is one of the text. -/
theorem mem_of_mem_trim {t : Text} {c : Char} (h : c ∈ trim t) : c ∈ t :=
  (isSuffix_trimLeft t).subset ((isPrefix_trimRight (trimLeft t)).subset h)

theorem trim_trim (t : Text) : trim (trim t) = trim t := by
  have hhead : ∀ c, (trim t).head? = some c → isBlank c = false := by
    intro c hc
    refine isBlank_of_head?_trimLeft (t := t) ?_
    obtain ⟨back, hback⟩ := isPrefix_trimRight (trimLeft t)
    rw [← hback, List.head?_append]
    exact Option.or_eq_some_iff.2 (.inl hc)
  rw [trim, trimLeft_of_head? hhead, trim, trimRight_trimRight]

theorem mem_of_nonBlank? {t u : Text} (h : nonBlank? t = some u) {c : Char} (hc : c ∈ u) :
    c ∈ t := by
  obtain ⟨rfl, -⟩ := nonBlank?_eq_some_iff.1 h
  exact mem_of_mem_trim hc

/-- A text that was trimmed and kept is kept as it is. -/
theorem nonBlank?_nonBlank? {t u : Text} (h : nonBlank? t = some u) : nonBlank? u = some u := by
  obtain ⟨rfl, hne⟩ := nonBlank?_eq_some_iff.1 h
  exact nonBlank?_eq_some_iff.2 ⟨trim_trim t, hne⟩

end Text
end CustomProps
