import CustomProps.Proofs.Edit.Merge

/-!
# Merged ranges are a normal form

Which positions some removals cover can be written down in many ways: ranges may overlap, repeat or
touch, and come in any order.  Merging picks one of them, which depends on nothing but the positions
and the points of cutting.

* `Removal.IsCanonical` — ranges as merging writes them.
* `Removal.IsCanonical.eq_of_covers` — positions are covered by such ranges in one way only.
* `Removal.merge_canonical` — merging finds it, so it does not matter how the removals and the
  points are given, and merging again changes nothing.
-/

set_option autoImplicit false

namespace CustomProps
namespace Removal

variable {removals ranges ranges' rs rs' : List Removal} {points points' : List Int}
  {r r' : Removal}

/-- The range holds a position. -/
def IsProper (r : Removal) : Prop := r.start < r.stop

instance (r : Removal) : Decidable r.IsProper := inferInstanceAs (Decidable (_ < _))

/-- The ranges ascend without overlaps, none is empty, and they are apart just where they must be:
no point of cutting lies strictly inside a range, and where two ranges touch there is such a
point. -/
structure IsCanonical (points : List Int) (ranges : List Removal) : Prop where
  proper : ∀ r ∈ ranges, r.IsProper
  ascending : ranges.Pairwise IsBefore
  not_inside : ∀ p ∈ points, ∀ r ∈ ranges, ¬(r.start < p ∧ p < r.stop)
  touch : ∀ r ∈ ranges, ∀ s ∈ ranges, r.stop = s.start → r.stop ∈ points

/-! ## One way to cover positions -/

theorem IsCanonical.tail (h : IsCanonical points (r :: rs)) : IsCanonical points rs where
  proper s hs := h.proper s (List.mem_cons_of_mem r hs)
  ascending := (List.pairwise_cons.1 h.ascending).2
  not_inside p hp s hs := h.not_inside p hp s (List.mem_cons_of_mem r hs)
  touch s hs t ht := h.touch s (List.mem_cons_of_mem r hs) t (List.mem_cons_of_mem r ht)

theorem IsCanonical.of_points (h : IsCanonical points ranges)
    (hpoints : ∀ p, p ∈ points' ↔ p ∈ points) : IsCanonical points' ranges where
  proper := h.proper
  ascending := h.ascending
  not_inside p hp := h.not_inside p ((hpoints p).1 hp)
  touch s hs t ht hst := (hpoints _).2 (h.touch s hs t ht hst)

theorem covers_start (h : r.IsProper) : r.covers r.start = true :=
  covers_iff.2 ⟨Int.le_refl _, h⟩

/-- What the later ranges cover lies behind the first one. -/
theorem IsCanonical.stop_le_of_covers (h : IsCanonical points (r :: rs)) {i : Int}
    (hi : rs.any (·.covers i) = true) : r.stop ≤ i := by
  obtain ⟨s, hs, hsi⟩ := List.any_eq_true.1 hi
  exact Int.le_trans ((List.pairwise_cons.1 h.ascending).1 s hs).2 (covers_iff.1 hsi).1

theorem IsCanonical.start_le_of_covers (h : IsCanonical points (r :: rs)) {i : Int}
    (hi : (r :: rs).any (·.covers i) = true) : r.start ≤ i := by
  rw [List.any_cons, Bool.or_eq_true] at hi
  rcases hi with hi | hi
  · exact (covers_iff.1 hi).1
  · exact Int.le_trans (Int.le_of_lt (h.proper r List.mem_cons_self)) (h.stop_le_of_covers hi)

/-- Behind the first range the later ones are left. -/
theorem IsCanonical.covers_tail (h : IsCanonical points (r :: rs)) (i : Int) :
    rs.any (·.covers i) = ((r :: rs).any (·.covers i) && decide (r.stop ≤ i)) := by
  rw [Bool.eq_iff_iff, List.any_cons, Bool.and_eq_true, Bool.or_eq_true, decide_eq_true_eq]
  constructor
  · intro hi
    exact ⟨.inr hi, h.stop_le_of_covers hi⟩
  · rintro ⟨hi | hi, hstop⟩
    · have hlt := (covers_iff.1 hi).2
      omega
    · exact hi

/-- The first range ends at a point of cutting or where nothing is covered. -/
theorem IsCanonical.stop_mem_of_covers (h : IsCanonical points (r :: rs))
    (hstop : (r :: rs).any (·.covers r.stop) = true) : r.stop ∈ points := by
  obtain ⟨s, hs, hsr⟩ := List.any_eq_true.1 hstop
  obtain ⟨hstart, hlt⟩ := covers_iff.1 hsr
  rcases List.mem_cons.1 hs with rfl | hs'
  · omega
  · have hbefore := ((List.pairwise_cons.1 h.ascending).1 s hs').2
    exact h.touch r List.mem_cons_self s hs (Int.le_antisymm hbefore hstart)

/-- So of two first ranges that start together none ends earlier than the other. -/
theorem IsCanonical.stop_le_stop (h : IsCanonical points (r :: rs))
    (h' : IsCanonical points (r' :: rs'))
    (hcovers : ∀ i, (r :: rs).any (·.covers i) = (r' :: rs').any (·.covers i))
    (hstart : r.start = r'.start) : r'.stop ≤ r.stop := by
  refine Int.not_lt.1 fun hlt => ?_
  have hproper : r.start < r.stop := h.proper r List.mem_cons_self
  have hinside : r'.start < r.stop ∧ r.stop < r'.stop := by omega
  have hcovered : (r' :: rs').any (·.covers r.stop) = true :=
    List.any_eq_true.2 ⟨r', List.mem_cons_self, covers_iff.2 ⟨Int.le_of_lt hinside.1, hinside.2⟩⟩
  have hpoint := h.stop_mem_of_covers ((hcovers r.stop).trans hcovered)
  exact h'.not_inside r.stop hpoint r' List.mem_cons_self hinside

/-- **Positions are covered by canonical ranges in one way only.** -/
theorem IsCanonical.eq_of_covers (h : IsCanonical points ranges) (h' : IsCanonical points ranges')
    (hcovers : ∀ i, ranges.any (·.covers i) = ranges'.any (·.covers i)) : ranges = ranges' := by
  induction ranges generalizing ranges' with
  | nil =>
    cases ranges' with
    | nil => rfl
    | cons r' rs' =>
      have hstart := hcovers r'.start
      rw [List.any_cons, covers_start (h'.proper r' List.mem_cons_self)] at hstart
      cases hstart
  | cons r rs ih =>
    have hr : (r :: rs).any (·.covers r.start) = true :=
      List.any_eq_true.2 ⟨r, List.mem_cons_self, covers_start (h.proper r List.mem_cons_self)⟩
    cases ranges' with
    | nil =>
      rw [hcovers] at hr
      cases hr
    | cons r' rs' =>
      have hr' : (r' :: rs').any (·.covers r'.start) = true :=
        List.any_eq_true.2 ⟨r', List.mem_cons_self, covers_start (h'.proper r' List.mem_cons_self)⟩
      have hstart : r.start = r'.start :=
        Int.le_antisymm (h.start_le_of_covers ((hcovers _).trans hr'))
          (h'.start_le_of_covers ((hcovers _).symm.trans hr))
      have hstop : r.stop = r'.stop :=
        Int.le_antisymm (h'.stop_le_stop h (fun i => (hcovers i).symm) hstart.symm)
          (h.stop_le_stop h' hcovers hstart)
      have htail : rs = rs' := by
        refine ih h.tail h'.tail fun i => ?_
        rw [h.covers_tail, h'.covers_tail, hcovers, hstop]
      have hhead : r = r' := by
        cases r
        cases r'
        cases hstart
        cases hstop
        rfl
      rw [hhead, htail]

/-! ## Merging -/

theorem exists_isWithin (h : ∀ r ∈ removals, r.IsForward) :
    ∃ lo hi, ∀ r ∈ removals, r.IsWithin lo hi := by
  induction removals with
  | nil => exact ⟨0, 0, nofun⟩
  | cons r rs ih =>
    obtain ⟨hr, hrs⟩ := List.forall_mem_cons.1 h
    obtain ⟨lo, hi, hwithin⟩ := ih hrs
    refine ⟨min lo r.start, max hi r.stop, List.forall_mem_cons.2 ⟨?_, fun s hs => ?_⟩⟩
    · exact ⟨Int.min_le_right _ _, hr, Int.le_max_right _ _⟩
    · obtain ⟨hlo, hs, hhi⟩ := hwithin s hs
      exact ⟨Int.le_trans (Int.min_le_left _ _) hlo, hs, Int.le_trans hhi (Int.le_max_left _ _)⟩

theorem proper_mergeInto {current : Removal} {rest : List Removal}
    (h : ∀ r ∈ current :: rest, r.IsProper) : ∀ r ∈ mergeInto current rest, r.IsProper := by
  induction rest generalizing current with
  | nil => exact h
  | cons r rs ih =>
    obtain ⟨hcurrent, hrest⟩ := List.forall_mem_cons.1 h
    rw [mergeInto]
    split
    · refine ih (List.forall_mem_cons.2 ⟨?_, (List.forall_mem_cons.1 hrest).2⟩)
      exact Int.lt_of_lt_of_le hcurrent (Int.le_max_left _ _)
    · exact List.forall_mem_cons.2 ⟨hcurrent, ih hrest⟩

theorem proper_joined (h : ∀ r ∈ removals, r.IsProper) :
    ∀ r ∈ mergeSorted (removals.mergeSort le), r.IsProper := by
  cases hsorted : removals.mergeSort le with
  | nil => exact nofun
  | cons r rs => exact proper_mergeInto fun s hs => h s (mem_sorted.1 (hsorted ▸ hs))

/-- The pieces of a range are no emptier than the range, and they begin and end where it does or at
points of cutting. -/
theorem ends_cutAt {s : Removal} (h : r.IsProper) (hs : s ∈ cutAt r points) :
    s.IsProper ∧ (s.start = r.start ∨ s.start ∈ points) ∧
      (s.stop = r.stop ∨ s.stop ∈ points) := by
  induction points generalizing r with
  | nil =>
    obtain rfl := List.mem_singleton.1 hs
    exact ⟨h, .inl rfl, .inl rfl⟩
  | cons p points ih =>
    rw [cutAt] at hs
    split at hs
    · rename_i hp
      rcases List.mem_cons.1 hs with rfl | hs
      · exact ⟨hp.1, .inl rfl, .inr List.mem_cons_self⟩
      · obtain ⟨hproper, hstart, hstop⟩ := ih (r := ⟨p, r.stop⟩) hp.2 hs
        exact ⟨hproper, .inr (List.mem_cons.2 hstart), hstop.imp_right (List.mem_cons_of_mem p)⟩
    · obtain ⟨hproper, hstart, hstop⟩ := ih h hs
      exact ⟨hproper, hstart.imp_right (List.mem_cons_of_mem p),
        hstop.imp_right (List.mem_cons_of_mem p)⟩

/-- Joined ranges that are not empty never meet. -/
theorem stop_ne_start_joined (h : ∀ r ∈ removals, r.IsProper) :
    ∀ r ∈ mergeSorted (removals.mergeSort le), ∀ s ∈ mergeSorted (removals.mergeSort le),
      r.stop ≠ s.start := by
  have hproper := proper_joined h
  have hapart := separated_joined removals
  refine List.Pairwise.forall_of_forall_of_flip (R := fun r s : Removal => r.stop ≠ s.start)
    (fun r hr => (Int.ne_of_lt (hproper r hr)).symm) (hapart.imp Int.ne_of_lt) ?_
  refine hapart.imp_of_mem fun {r s} hr hs hrs => (Int.ne_of_lt ?_).symm
  have hr : r.start < r.stop := hproper r hr
  have hs : s.start < s.stop := hproper s hs
  omega

theorem isCanonical_merge (h : ∀ r ∈ removals, r.IsProper) (points : List Int) :
    IsCanonical points (merge removals points) := by
  obtain ⟨lo, hi, hwithin⟩ := exists_isWithin fun r hr => Int.le_of_lt (h r hr)
  refine ⟨fun s hs => ?_, ascending_merge hwithin points,
    fun p hp => not_inside_merge hwithin hp, fun s hs t ht hst => ?_⟩
  · obtain ⟨r, hr, hs⟩ := List.mem_flatMap.1 hs
    exact (ends_cutAt (proper_joined h r hr) hs).1
  · obtain ⟨r, hr, hs⟩ := List.mem_flatMap.1 hs
    obtain ⟨q, hq, ht⟩ := List.mem_flatMap.1 ht
    obtain ⟨-, -, hstop⟩ := ends_cutAt (proper_joined h r hr) hs
    obtain ⟨-, hstart, -⟩ := ends_cutAt (proper_joined h q hq) ht
    rcases hstop with hstop | hstop
    · rcases hstart with hstart | hstart
      · exact absurd (hstop.symm.trans (hst.trans hstart)) (stop_ne_start_joined h r hr q hq)
      · exact hst ▸ mem_cuts.1 hstart
    · exact mem_cuts.1 hstop

/-- **Merging yields a normal form.**  Of ranges that are not empty it makes canonical ones that
cover the same positions.  The result depends on nothing but these positions and the points of
cutting: it does not change when ranges or points come in another order or are repeated, and merging
it once more gives it back. -/
theorem merge_canonical (h : ∀ r ∈ removals, r.IsProper) (points : List Int) :
    IsCanonical points (merge removals points) ∧
    (∀ i, (merge removals points).any (·.covers i) = removals.any (·.covers i)) ∧
    (∀ removals' points', (∀ r ∈ removals', r.IsProper) →
      (∀ i, removals'.any (·.covers i) = removals.any (·.covers i)) →
      (∀ p, p ∈ points' ↔ p ∈ points) → merge removals' points' = merge removals points) ∧
    (∀ removals' points', (∀ r, r ∈ removals' ↔ r ∈ removals) →
      (∀ p, p ∈ points' ↔ p ∈ points) → merge removals' points' = merge removals points) ∧
    merge (merge removals points) points = merge removals points := by
  have hcanonical := isCanonical_merge h points
  have hcovers := covers_merge removals points
  have hdepends : ∀ removals' points', (∀ r ∈ removals', r.IsProper) →
      (∀ i, removals'.any (·.covers i) = removals.any (·.covers i)) →
      (∀ p, p ∈ points' ↔ p ∈ points) → merge removals' points' = merge removals points := by
    intro removals' points' h' hcovers' hpoints
    have hcanonical' := (isCanonical_merge h' points').of_points fun p => (hpoints p).symm
    refine hcanonical'.eq_of_covers hcanonical fun i => ?_
    rw [covers_merge, covers_merge, hcovers']
  refine ⟨hcanonical, hcovers, hdepends, fun removals' points' hremovals hpoints => ?_, ?_⟩
  · refine hdepends removals' points' (fun r hr => h r ((hremovals r).1 hr)) (fun i => ?_) hpoints
    rw [Bool.eq_iff_iff, List.any_eq_true, List.any_eq_true]
    simp only [hremovals]
  · exact hdepends _ points hcanonical.proper hcovers fun p => Iff.rfl

/-- Ranges that overlap, repeat and touch, and points at an end, inside, at a seam and outside. -/
theorem merge_canonical_touching :
    (∀ r ∈ [(⟨2, 6⟩ : Removal), ⟨-3, 1⟩, ⟨1, 3⟩, ⟨2, 6⟩], r.IsProper) ∧
      merge [⟨2, 6⟩, ⟨-3, 1⟩, ⟨1, 3⟩, ⟨2, 6⟩] [6, 4, 9, 1, 4] = [⟨-3, 1⟩, ⟨1, 4⟩, ⟨4, 6⟩] ∧
      merge [⟨1, 3⟩, ⟨2, 6⟩, ⟨-3, 1⟩] [1, 4, 6, 9] = [⟨-3, 1⟩, ⟨1, 4⟩, ⟨4, 6⟩] ∧
      merge [⟨-3, 1⟩, ⟨1, 4⟩, ⟨4, 6⟩] [6, 4, 9, 1, 4] = [⟨-3, 1⟩, ⟨1, 4⟩, ⟨4, 6⟩] := by
  have hproper : ∀ r ∈ [(⟨2, 6⟩ : Removal), ⟨-3, 1⟩, ⟨1, 3⟩, ⟨2, 6⟩], r.IsProper := by decide
  have hcanonical : IsCanonical [6, 4, 9, 1, 4] [⟨-3, 1⟩, ⟨1, 4⟩, ⟨4, 6⟩] :=
    ⟨by decide, by simp [IsBefore], by decide, by decide⟩
  have hmerge : merge [⟨2, 6⟩, ⟨-3, 1⟩, ⟨1, 3⟩, ⟨2, 6⟩] [6, 4, 9, 1, 4] =
      [⟨-3, 1⟩, ⟨1, 4⟩, ⟨4, 6⟩] := by
    refine (isCanonical_merge hproper _).eq_of_covers hcanonical fun i => ?_
    rw [covers_merge, Bool.eq_iff_iff]
    simp only [List.any_cons, List.any_nil, Bool.or_eq_true, covers_iff, Bool.false_eq_true,
      or_false]
    omega
  obtain ⟨-, -, -, hmembers, hagain⟩ := merge_canonical hproper [6, 4, 9, 1, 4]
  rw [hmerge] at hmembers hagain
  refine ⟨hproper, hmerge, hmembers _ _ (fun r => ?_) (fun p => ?_), hagain⟩
  · simp only [List.mem_cons, List.not_mem_nil, or_false]
    grind
  · simp only [List.mem_cons, List.not_mem_nil, or_false]
    omega

end Removal
end CustomProps
