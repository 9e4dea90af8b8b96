import CustomProps.Proofs.Text.Squeeze
import CustomProps.Text.Lines

/-!
# Texts with their line ends unified

A CR in front of an LF is dropped and any other CR becomes an LF; nothing else is touched.  So line
ends can be unified part by part where a text is cut at a character that ends no line.

* `Text.unifyLineEnds_cons` — what becomes of one character.
* `Text.unifyLineEnds_append_cons` — what becomes of two parts.
* `Text.unifyLineEnds_eq_self_iff` — the texts that stay as they are.
* `Text.squeeze_unifyLineEnds` — up to runs of blanks, all do.
-/

set_option autoImplicit false

namespace CustomProps
namespace Text

variable {c : Char} {t : Text}

/-- A CR in front of an LF goes without a trace. -/
theorem unifyLineEnds_cons (c : Char) (t : Text) : unifyLineEnds (c :: t) =
    if c = '\r' ∧ t.head? = some '\n' then unifyLineEnds t
    else (if c = '\r' then '\n' else c) :: unifyLineEnds t := by
  by_cases hend : c = '\r' ∧ t.head? = some '\n'
  · obtain ⟨rfl, hhead⟩ := hend
    obtain ⟨cs, rfl⟩ := List.head?_eq_some_iff.1 hhead
    rw [if_pos ⟨rfl, hhead⟩, unifyLineEnds, unifyLineEnds]
    · rfl
    · exact nofun
  · rw [if_neg hend, unifyLineEnds]
    rintro cs rfl rfl
    exact hend ⟨rfl, rfl⟩

theorem unifyLineEnds_cons_of_ne (h : c ≠ '\r') (t : Text) :
    unifyLineEnds (c :: t) = c :: unifyLineEnds t := by
  rw [unifyLineEnds_cons, if_neg fun hend => h hend.1, if_neg h]

/-- No line end reaches over a character that ends no line. -/
theorem unifyLineEnds_append_cons (hlf : c ≠ '\n') (hcr : c ≠ '\r') (t u : Text) :
    unifyLineEnds (t ++ c :: u) = unifyLineEnds t ++ c :: unifyLineEnds u := by
  induction t with
  | nil => exact unifyLineEnds_cons_of_ne hcr u
  | cons d t ih =>
    have hhead : (t ++ c :: u).head? = some '\n' ↔ t.head? = some '\n' := by
      cases t with
      | nil => simp [hlf]
      | cons e t => rfl
    rw [List.cons_append, unifyLineEnds_cons, unifyLineEnds_cons, ih]
    simp only [hhead]
    split <;> rfl

/-- A first character that ends no line stays the first one. -/
theorem head?_unifyLineEnds_eq_iff (hlf : c ≠ '\n') (hcr : c ≠ '\r') :
    (unifyLineEnds t).head? = some c ↔ t.head? = some c := by
  cases t with
  | nil => rfl
  | cons d t =>
    by_cases hd : d = '\r'
    · have hhead : (unifyLineEnds (d :: t)).head? = some '\n' := by
        rw [unifyLineEnds_cons]
        split
        · rename_i hend
          obtain ⟨cs, rfl⟩ := List.head?_eq_some_iff.1 hend.2
          rw [unifyLineEnds_cons_of_ne (by decide)]
          rfl
        · rfl
      rw [hhead, hd]
      simp [hlf.symm, hcr.symm]
    · rw [unifyLineEnds_cons_of_ne hd]
      rfl

/-- **A text without CR stays as it is**, and no other. -/
theorem unifyLineEnds_eq_self_iff : unifyLineEnds t = t ↔ '\r' ∉ t := by
  refine ⟨fun h => h ▸ cr_not_mem_unifyLineEnds t, fun h => ?_⟩
  induction t with
  | nil => rfl
  | cons c t ih =>
    obtain ⟨hc, ht⟩ := List.ne_and_not_mem_of_not_mem_cons h
    rw [unifyLineEnds_cons_of_ne hc.symm, ih ht]

/-- Of what a character becomes, only the kind of blank can differ. -/
theorem squeeze_unified_cons (c : Char) (t : Text) :
    squeeze ((if c = '\r' then '\n' else c) :: t) = squeeze (c :: t) := by
  split
  · rename_i hc
    exact squeeze_cons_blank rfl (hc ▸ rfl) t
  · rfl

theorem squeeze_unifyLineEnds (t : Text) : squeeze (unifyLineEnds t) = squeeze t := by
  induction t with
  | nil => rfl
  | cons c t ih =>
    rw [unifyLineEnds_cons]
    split
    · rename_i hend
      obtain ⟨rfl, hhead⟩ := hend
      obtain ⟨cs, rfl⟩ := List.head?_eq_some_iff.1 hhead
      rw [ih, squeeze_cons_cons rfl rfl]
    · rw [squeeze_unified_cons]
      exact squeeze_cons_congr ih c

end Text
end CustomProps
