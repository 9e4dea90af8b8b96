import CustomProps.Edit.Merge

/-!
# What merging keeps

Merging and cutting removals changes how they are written down, not what they remove.  For ranges
that are not inverted, the result covers the same positions (`covers_merge`), its ranges ascend and
do not overlap (`ascending_merge`), and no point of cutting is left strictly inside one of them
(`not_inside_merge`).
-/

set_option autoImplicit false

namespace CustomProps

/-! ## Lists without repetitions -/

theorem sublist_eraseDups : ∀ points : List Int, points.eraseDups.Sublist points
  | [] => List.Sublist.slnil
  | p :: points => by
    rw [List.eraseDups_cons]
    have hlen := List.length_filter_le (fun q => !q == p) points
    have hrest := (sublist_eraseDups (points.filter fun q => !q == p)).trans List.filter_sublist
    exact hrest.cons_cons p
termination_by points => points.length

theorem nodup_eraseDups : ∀ points : List Int, points.eraseDups.Nodup
  | [] => List.Pairwise.nil
  | p :: points => by
    rw [List.eraseDups_cons]
    have hlen := List.length_filter_le (fun q => !q == p) points
    refine List.nodup_cons.2 ⟨fun hp => ?_, nodup_eraseDups (points.filter fun q => !q == p)⟩
    have := (List.mem_filter.1 (List.mem_eraseDups.1 hp)).2
    simp at this
termination_by points => points.length

namespace Removal

/-! ## Ranges -/

/-- The range does not end before it starts. -/
def IsForward (r : Removal) : Prop := r.start ≤ r.stop

/-- The range lies between two positions. -/
def IsWithin (lo hi : Int) (r : Removal) : Prop := lo ≤ r.start ∧ r.start ≤ r.stop ∧ r.stop ≤ hi

/-- One range lies in front of another one: it starts earlier and ends before that one starts. -/
def IsBefore (r s : Removal) : Prop := r.start < s.start ∧ r.stop ≤ s.start

theorem covers_iff {r : Removal} {i : Int} : r.covers i = true ↔ r.start ≤ i ∧ i < r.stop := by
  simp [covers]

theorem le_start {r s : Removal} (h : r.le s = true) : r.start ≤ s.start := by
  simp only [le, Bool.or_eq_true, decide_eq_true_eq, Bool.and_eq_true, beq_iff_eq] at h
  omega

/-! ## Sorting -/

theorem mem_sorted {removals : List Removal} {r : Removal} :
    r ∈ removals.mergeSort le ↔ r ∈ removals := List.mem_mergeSort

theorem pairwise_sorted (removals : List Removal) :
    (removals.mergeSort le).Pairwise fun r s => r.start ≤ s.start := by
  have h : (removals.mergeSort le).Pairwise fun r s => r.le s = true := by
    refine List.pairwise_mergeSort ?_ ?_ removals
    · intro r s t hrs hst
      simp only [le, Bool.or_eq_true, decide_eq_true_eq, Bool.and_eq_true, beq_iff_eq] at *
      omega
    · intro r s
      simp only [le, Bool.or_eq_true, decide_eq_true_eq, Bool.and_eq_true, beq_iff_eq]
      omega
  exact h.imp le_start

/-! ## Joining -/

/-- Joining ranges covers what they cover. -/
theorem covers_mergeInto {current : Removal} {rest : List Removal}
    (hrest : (current :: rest).Pairwise fun r s => r.start ≤ s.start) (i : Int) :
    (mergeInto current rest).any (·.covers i) = (current :: rest).any (·.covers i) := by
  induction rest generalizing current with
  | nil => rfl
  | cons r rs ih =>
    obtain ⟨hcurrent, hr⟩ := List.pairwise_cons.1 hrest
    have hstart := hcurrent r (by simp)
    rw [mergeInto]
    split
    · rename_i htouch
      have hjoined : (⟨current.start, max current.stop r.stop⟩ :: rs : List Removal).Pairwise
          fun r s => r.start ≤ s.start :=
        List.pairwise_cons.2 ⟨fun s hs => hcurrent s (by simp [hs]), (List.pairwise_cons.1 hr).2⟩
      rw [ih hjoined, List.any_cons, List.any_cons, List.any_cons, ← Bool.or_assoc]
      congr 1
      rw [Bool.eq_iff_iff, Bool.or_eq_true, covers_iff, covers_iff, covers_iff]
      dsimp only
      omega
    · rw [List.any_cons, ih hr, List.any_cons, List.any_cons, List.any_cons]

theorem within_mergeInto {current : Removal} {rest : List Removal} {lo hi : Int}
    (h : ∀ r ∈ current :: rest, r.IsWithin lo hi) :
    ∀ r ∈ mergeInto current rest, r.IsWithin lo hi := by
  induction rest generalizing current with
  | nil => exact h
  | cons r rs ih =>
    have hc := h current (by simp)
    have hr := h r (by simp)
    rw [mergeInto]
    split
    · refine ih fun s hs => ?_
      rcases List.mem_cons.1 hs with rfl | hs
      · obtain ⟨h1, h2, h3⟩ := hc
        obtain ⟨-, -, h4⟩ := hr
        refine ⟨h1, ?_, ?_⟩ <;> dsimp only <;> omega
      · exact h s (by simp [hs])
    · intro s hs
      rcases List.mem_cons.1 hs with rfl | hs
      · exact hc
      · exact ih (fun s hs => h s (List.mem_cons_of_mem _ hs)) s hs

/-- Joining cannot move the start of a range below a bound that all ranges keep. -/
theorem start_mergeInto {current : Removal} {rest : List Removal} {lo : Int}
    (h : ∀ r ∈ current :: rest, lo ≤ r.start) : ∀ r ∈ mergeInto current rest, lo ≤ r.start := by
  induction rest generalizing current with
  | nil => exact h
  | cons r rs ih =>
    rw [mergeInto]
    split
    · refine ih fun s hs => ?_
      rcases List.mem_cons.1 hs with rfl | hs
      · exact h current (by simp)
      · exact h s (by simp [hs])
    · intro s hs
      rcases List.mem_cons.1 hs with rfl | hs
      · exact h s (by simp)
      · exact ih (fun s hs => h s (List.mem_cons_of_mem _ hs)) s hs

/-- Joined ranges do not even touch. -/
theorem separated_mergeInto {current : Removal} {rest : List Removal}
    (hrest : (current :: rest).Pairwise fun r s => r.start ≤ s.start) :
    (mergeInto current rest).Pairwise fun r s => r.stop < s.start := by
  induction rest generalizing current with
  | nil => simp [mergeInto]
  | cons r rs ih =>
    obtain ⟨hcurrent, hr⟩ := List.pairwise_cons.1 hrest
    obtain ⟨hrs, hrs'⟩ := List.pairwise_cons.1 hr
    rw [mergeInto]
    split
    · exact ih (List.pairwise_cons.2 ⟨fun s hs => hcurrent s (by simp [hs]), hrs'⟩)
    · rename_i hgap
      refine List.pairwise_cons.2 ⟨fun s hs => ?_, ih hr⟩
      have hlow : r.start ≤ s.start := by
        refine start_mergeInto (fun s hs => ?_) s hs
        rcases List.mem_cons.1 hs with rfl | hs
        · exact Int.le_refl _
        · exact hrs s hs
      omega

/-! ## Cutting -/

/-- Cutting a range covers what the range covers. -/
theorem covers_cutAt (r : Removal) (points : List Int) (i : Int) :
    (cutAt r points).any (·.covers i) = r.covers i := by
  induction points generalizing r with
  | nil => simp [cutAt]
  | cons p points ih =>
    rw [cutAt]
    split
    · rename_i hp
      rw [List.any_cons, ih, Bool.eq_iff_iff, Bool.or_eq_true, covers_iff, covers_iff, covers_iff]
      dsimp only
      omega
    · exact ih r

/-- The pieces of a range lie in it. -/
theorem within_cutAt {r : Removal} {points : List Int} (h : r.IsForward) :
    ∀ s ∈ cutAt r points, s.IsWithin r.start r.stop := by
  induction points generalizing r with
  | nil =>
    intro s hs
    obtain rfl := List.mem_singleton.1 hs
    exact ⟨Int.le_refl _, h, Int.le_refl _⟩
  | cons p points ih =>
    rw [cutAt]
    split
    · rename_i hp
      intro s hs
      rcases List.mem_cons.1 hs with rfl | hs
      · refine ⟨Int.le_refl _, ?_, ?_⟩ <;> dsimp only <;> omega
      · have hcut : (⟨p, r.stop⟩ : Removal).IsForward := Int.le_of_lt hp.2
        obtain ⟨h1, h2, h3⟩ := ih hcut s hs
        exact ⟨by dsimp only at h1; omega, h2, h3⟩
    · exact ih h

theorem ascending_cutAt {r : Removal} {points : List Int} (h : r.IsForward) :
    (cutAt r points).Pairwise IsBefore := by
  induction points generalizing r with
  | nil => simp [cutAt]
  | cons p points ih =>
    rw [cutAt]
    split
    · rename_i hp
      have hcut : (⟨p, r.stop⟩ : Removal).IsForward := Int.le_of_lt hp.2
      refine List.pairwise_cons.2 ⟨fun s hs => ?_, ih hcut⟩
      obtain ⟨hs, -⟩ := within_cutAt hcut s hs
      refine ⟨?_, hs⟩
      dsimp only at hs ⊢
      omega
    · exact ih h

/-- A range cut at ascending points has none of them strictly inside a piece. -/
theorem not_inside_cutAt {r : Removal} {points : List Int} (h : r.IsForward)
    (hpoints : points.Pairwise (· ≤ ·)) :
    ∀ p ∈ points, ∀ s ∈ cutAt r points, ¬(s.start < p ∧ p < s.stop) := by
  induction points generalizing r with
  | nil => simp
  | cons q points ih =>
    obtain ⟨hq, hpoints⟩ := List.pairwise_cons.1 hpoints
    intro p hp s hs
    rw [cutAt] at hs
    split at hs
    · rename_i hqr
      have hcut : (⟨q, r.stop⟩ : Removal).IsForward := Int.le_of_lt hqr.2
      rcases List.mem_cons.1 hs with rfl | hs
      · rcases List.mem_cons.1 hp with rfl | hp
        · dsimp only; omega
        · have := hq p hp
          dsimp only; omega
      · rcases List.mem_cons.1 hp with rfl | hp
        · obtain ⟨hs, -⟩ := within_cutAt hcut s hs
          dsimp only at hs; omega
        · exact ih hcut hpoints p hp s hs
    · rename_i hqr
      rcases List.mem_cons.1 hp with rfl | hp
      · obtain ⟨h1, -, h2⟩ := within_cutAt h s hs
        omega
      · exact ih h hpoints p hp s hs

/-! ## Merging -/

/-- The points of cutting ascend, as merging uses them. -/
theorem pairwise_cuts (points : List Int) :
    ((points.mergeSort (· ≤ ·)).eraseDups).Pairwise (· ≤ ·) := by
  have h : (points.mergeSort (· ≤ ·)).Pairwise fun p q : Int => decide (p ≤ q) = true := by
    refine List.pairwise_mergeSort ?_ ?_ points
    · intro p q r hpq hqr
      simp only [decide_eq_true_eq] at *
      omega
    · intro p q
      simp only [Bool.or_eq_true, decide_eq_true_eq]
      omega
  exact (h.imp of_decide_eq_true).sublist (sublist_eraseDups _)

theorem mem_cuts {points : List Int} {p : Int} :
    p ∈ (points.mergeSort (· ≤ ·)).eraseDups ↔ p ∈ points := by
  rw [List.mem_eraseDups, List.mem_mergeSort]

/-- Merging covers the same positions. -/
theorem covers_merge (removals : List Removal) (points : List Int) (i : Int) :
    (merge removals points).any (·.covers i) = removals.any (·.covers i) := by
  have hcut : ∀ ranges : List Removal, ∀ cuts : List Int,
      (ranges.flatMap (cutAt · cuts)).any (·.covers i) = ranges.any (·.covers i) := by
    intro ranges cuts
    rw [List.any_flatMap]
    simp only [covers_cutAt]
  have hperm : (removals.mergeSort le).any (·.covers i) = removals.any (·.covers i) :=
    (List.mergeSort_perm removals le).any_eq
  rw [merge, hcut, ← hperm]
  have hsorted := pairwise_sorted removals
  cases hs : removals.mergeSort le with
  | nil => rfl
  | cons r rs => exact covers_mergeInto (hs ▸ hsorted) i

variable {removals : List Removal} {lo hi : Int}

theorem within_joined (h : ∀ r ∈ removals, r.IsWithin lo hi) :
    ∀ r ∈ mergeSorted (removals.mergeSort le), r.IsWithin lo hi := by
  intro r hr
  cases hsorted : removals.mergeSort le with
  | nil => simp [hsorted, mergeSorted] at hr
  | cons q qs =>
    rw [hsorted, mergeSorted] at hr
    exact within_mergeInto (fun s hs => h s (mem_sorted.1 (hsorted ▸ hs))) r hr

theorem separated_joined (removals : List Removal) :
    (mergeSorted (removals.mergeSort le)).Pairwise fun r s => r.stop < s.start := by
  have hsorted := pairwise_sorted removals
  cases hs : removals.mergeSort le with
  | nil => exact List.Pairwise.nil
  | cons r rs => exact separated_mergeInto (hs ▸ hsorted)

/-- Merged ranges stay between the bounds of the given ones. -/
theorem within_merge (h : ∀ r ∈ removals, r.IsWithin lo hi) (points : List Int) :
    ∀ r ∈ merge removals points, r.IsWithin lo hi := by
  intro s hs
  obtain ⟨r, hr, hs⟩ := List.mem_flatMap.1 hs
  obtain ⟨hlo, hr, hhi⟩ := within_joined h r hr
  obtain ⟨h1, h2, h3⟩ := within_cutAt hr s hs
  exact ⟨Int.le_trans hlo h1, h2, Int.le_trans h3 hhi⟩

/-- **Merged ranges ascend and do not overlap.** -/
theorem ascending_merge (h : ∀ r ∈ removals, r.IsWithin lo hi) (points : List Int) :
    (merge removals points).Pairwise IsBefore := by
  refine List.pairwise_flatMap.2 ⟨fun r hr => ascending_cutAt (within_joined h r hr).2.1, ?_⟩
  refine (separated_joined removals).imp_of_mem fun {r s} hr hs hrs => ?_
  intro a ha b hb
  obtain ⟨-, ha, har⟩ := within_cutAt (within_joined h r hr).2.1 a ha
  obtain ⟨hsb, -, -⟩ := within_cutAt (within_joined h s hs).2.1 b hb
  refine ⟨?_, ?_⟩ <;> omega

/-- A point of cutting never lies strictly inside a merged range. -/
theorem not_inside_merge (h : ∀ r ∈ removals, r.IsWithin lo hi) {points : List Int} {p : Int}
    (hp : p ∈ points) : ∀ r ∈ merge removals points, ¬(r.start < p ∧ p < r.stop) := by
  intro s hs
  obtain ⟨r, hr, hs⟩ := List.mem_flatMap.1 hs
  exact not_inside_cutAt (within_joined h r hr).2.1 (pairwise_cuts points) p (mem_cuts.2 hp) s hs

end Removal
end CustomProps
