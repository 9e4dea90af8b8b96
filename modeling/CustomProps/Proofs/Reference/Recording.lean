import CustomProps.Proofs.Edit.Canonical
import CustomProps.Proofs.Reference.Liveness

/-!
# What is recorded while the references are settled

The references of a value are gone through in order.  Each one that is not removed yet records up to
four edits, without a look at those already there.  Still no character is removed twice: earlier
references either remove the keyword of a later one, and then it is skipped, or nothing of it.

* `EditSet.RemovesOnce` — removals of proper ranges inside a text, no two of which overlap.
* `Reference.Removes`, `Reference.Keeps` — what a resolved reference removes by itself, and what it
  leaves of its fallback.
* `Reference.removes_iff` — it removes its whole extent but what it keeps.
* `Reference.IsSettled` — what holds of the edits recorded so far.
* `Reference.IsSettled.skip`, `Reference.IsSettled.plan` — one more reference.
* `Reference.isSettled_planAll_liveAfter` — so it holds after any number of references.
-/

set_option autoImplicit false

namespace CustomProps

/-- The two ranges have no position in common. -/
def Removal.IsApart (r s : Removal) : Prop := ∀ i, ¬(r.covers i = true ∧ s.covers i = true)

/-! ## Edits that remove nothing twice -/

namespace EditSet

/-- The removed ranges are not empty, they lie in a text of the given length, and no position lies
in two of them. -/
structure RemovesOnce (edits : EditSet) (length : Nat) : Prop where
  proper : ∀ r ∈ edits.removals, r.IsProper
  within : ∀ r ∈ edits.removals, 0 ≤ r.start ∧ r.stop ≤ length
  apart : edits.removals.Pairwise Removal.IsApart

variable {edits : EditSet} {length : Nat}

theorem removesOnce_empty (length : Nat) : empty.RemovesOnce length where
  proper := nofun
  within := nofun
  apart := .nil

theorem mem_removals_remove {start stop : Int} {r : Removal} :
    r ∈ (edits.remove start stop).removals ↔
      r ∈ edits.removals ∨ start < stop ∧ r = ⟨start, stop⟩ := by
  unfold remove
  split
  · rename_i hlt
    rw [List.mem_append, List.mem_singleton, and_iff_right hlt]
  · rename_i hlt
    rw [or_iff_left fun h => hlt h.1]

theorem insertions_remove (edits : EditSet) (start stop : Int) :
    (edits.remove start stop).insertions = edits.insertions := by
  unfold remove
  split <;> rfl

theorem RemovesOnce.remove (h : edits.RemovesOnce length) {start stop : Int} (hstart : 0 ≤ start)
    (hstop : stop ≤ length) (hfree : ∀ i, start ≤ i → i < stop → edits.covers i = false) :
    (edits.remove start stop).RemovesOnce length where
  proper r hr := by
    rcases mem_removals_remove.1 hr with hr | ⟨hlt, rfl⟩
    · exact h.proper r hr
    · exact hlt
  within r hr := by
    rcases mem_removals_remove.1 hr with hr | ⟨-, rfl⟩
    · exact h.within r hr
    · exact ⟨hstart, hstop⟩
  apart := by
    unfold EditSet.remove
    split
    · refine List.pairwise_append.2 ⟨h.apart, List.pairwise_singleton _ _, ?_⟩
      rintro r hr s hs i ⟨hri, hsi⟩
      obtain rfl := List.mem_singleton.1 hs
      obtain ⟨hle, hlt⟩ := Removal.covers_iff.1 hsi
      have hcovers : edits.covers i = true := List.any_eq_true.2 ⟨r, hr, hri⟩
      rw [hfree i hle hlt] at hcovers
      cases hcovers
    · exact h.apart

theorem RemovesOnce.insert (h : edits.RemovesOnce length) (index : Int) (text : Text) :
    (edits.insert index text).RemovesOnce length :=
  ⟨h.proper, h.within, h.apart⟩

end EditSet

namespace Text

/-- The characters in front of the first one that fails a test. -/
theorem length_takeWhile_le_iff {p : Char → Bool} {t : Text} {m : Nat} (hm : m < t.length) :
    (t.takeWhile p).length ≤ m ↔ ∃ j c, j ≤ m ∧ t[j]? = some c ∧ p c = false := by
  rw [List.takeWhile_eq_take_findIdx_not, List.length_take_of_le List.findIdx_le_length,
    ← Nat.not_lt, List.lt_findIdx_iff]
  constructor
  · intro h
    by_contra hnone
    refine h ⟨hm, fun j hj => ?_⟩
    have hlt : j < t.length := Nat.lt_of_le_of_lt hj hm
    rw [Bool.not_eq_false', ← Bool.not_eq_false]
    exact fun hp => hnone ⟨j, t[j], hj, List.getElem?_eq_getElem hlt, hp⟩
  · rintro ⟨j, c, hj, hc, hp⟩ ⟨_, hall⟩
    obtain ⟨hlt, rfl⟩ := List.getElem?_eq_some_iff.1 hc
    have hj := hall j hj
    rw [hp] at hj
    cases hj

end Text

namespace Reference

variable {value : Text} {pairs : List (Nat × Nat)} {lookup : Lookup} {r s : Reference}
  {p q : Reference × Resolution} {edits : EditSet} {i j : Nat}

/-! ## What one reference removes -/

/-- The edits of a resolved reference remove the position. -/
def Removes (value : Text) (p : Reference × Resolution) (i : Nat) : Prop :=
  (p.1.plan p.2 value .empty).covers i = true

/-- The position lies in the fallback of the reference, behind the blanks that it starts with. -/
def LiesInText (value : Text) (r : Reference) (i : Nat) : Prop :=
  i < r.closeParen ∧ ∃ comma j c, r.comma = some comma ∧ comma < j ∧ j ≤ i ∧ value[j]? = some c ∧
    Text.isBlank c = false

/-- The fallback of the reference is kept, and the position lies in its text. -/
def Keeps (value : Text) (p : Reference × Resolution) (i : Nat) : Prop :=
  p.2 = .fallback ∧ p.1.LiesInText value i

theorem contains_iff : r.contains i = true ↔ r.start ≤ i ∧ i ≤ r.closeParen := by
  rw [contains, Bool.and_eq_true, decide_eq_true_eq, decide_eq_true_eq, Int.ofNat_le, Int.ofNat_le]

namespace IsWritten

theorem start_lt_nameStop (h : IsWritten value r) : r.start < r.nameStop := by
  have hopen := h.openParen_eq
  have hlt := h.openParen_lt
  rw [nameStop, fallbackStart]
  cases hcomma : r.comma with
  | none => exact Nat.lt_of_le_of_lt (by omega) hlt
  | some comma =>
    have hfirst := ((h.comma_iff comma).1 hcomma).openParen_lt
    show r.start < comma + 1
    omega

theorem nameStop_le (h : IsWritten value r) : r.nameStop ≤ r.closeParen := by
  rw [nameStop, fallbackStart]
  cases hcomma : r.comma with
  | none => exact Nat.le_refl _
  | some comma => exact ((h.comma_iff comma).1 hcomma).lt_closeParen

theorem blankStop_le (h : IsWritten value r) : r.blankStop value ≤ r.closeParen := by
  have hname := h.nameStop_le
  have hblanks := (List.takeWhile_prefix (p := Text.isBlank)
    (l := value.slice r.nameStop r.closeParen)).length_le
  have hslice := Text.length_slice_le value r.nameStop r.closeParen
  rw [blankStop]
  omega

theorem closeParen_lt (h : IsWritten value r) : r.closeParen < value.length :=
  (List.getElem?_eq_some_iff.1 h.closes).1

/-- Behind the leading blanks of the fallback lies its text. -/
theorem liesInText_iff (h : IsWritten value r) (hf : r.hasFallback = true) :
    r.LiesInText value i ↔ r.blankStop value ≤ i ∧ i < r.closeParen := by
  obtain ⟨comma, hcomma⟩ := Option.isSome_iff_exists.1 hf
  have hstop : r.nameStop = comma + 1 := by rw [nameStop, fallbackStart, hcomma]; rfl
  have hend := h.closeParen_lt
  rw [LiesInText, and_comm, blankStop, hstop]
  refine and_congr_left fun hi => ?_
  rcases Nat.lt_or_ge comma i with hlt | hle
  · obtain ⟨m, rfl⟩ := Nat.exists_eq_add_of_le (Nat.succ_le_of_lt hlt)
    have hm : m < (value.slice (comma + 1) r.closeParen).length := by
      rw [Text.slice, List.length_take, List.length_drop]
      omega
    rw [Nat.succ_eq_add_one, Nat.add_le_add_iff_left, Text.length_takeWhile_le_iff hm]
    constructor
    · rintro ⟨comma', j, c, hcomma', hj, hji, hc, hblank⟩
      obtain rfl := Option.some.inj (hcomma.symm.trans hcomma')
      obtain ⟨k, rfl⟩ := Nat.exists_eq_add_of_le (Nat.succ_le_of_lt hj)
      rw [Nat.succ_eq_add_one] at hji hc
      exact ⟨k, c, by omega, by rw [getElem?_slice value (by omega), hc], hblank⟩
    · rintro ⟨j, c, hj, hc, hblank⟩
      rw [getElem?_slice value (by omega)] at hc
      exact ⟨comma, comma + 1 + j, c, hcomma, by omega, by omega, hc, hblank⟩
  · refine iff_of_false ?_ (by omega)
    rintro ⟨comma', j, c, hcomma', hj, hji, -⟩
    obtain rfl := Option.some.inj (hcomma.symm.trans hcomma')
    omega

end IsWritten

/-- What a reference removes is added to what is removed already. -/
theorem covers_plan_eq (r : Reference) (resolution : Resolution) (value : Text) (edits : EditSet)
    (i : Nat) : (r.plan resolution value edits).covers i = true ↔
      edits.covers i = true ∨ Removes value (r, resolution) i := by
  rw [Removes]
  cases resolution <;>
    simp only [plan, EditSet.covers_insert, EditSet.covers_remove, EditSet.covers_empty,
      Bool.false_or, Bool.or_assoc, Bool.or_eq_true]

/-- **A resolved reference removes its whole extent but what it keeps.** -/
theorem removes_iff (h : IsWritten value r) (lookup : Lookup) (i : Nat) :
    Removes value (r, r.resolve value lookup) i ↔
      r.contains i = true ∧ ¬Keeps value (r, r.resolve value lookup) i := by
  have hstart := h.start_lt_nameStop
  have hname := h.nameStop_le
  rw [Removes, Keeps, contains_iff, resolve]
  cases r.rootValue? value lookup with
  | some answer =>
    simp only [plan, EditSet.covers_insert, EditSet.covers_remove, EditSet.covers_empty,
      Bool.or_eq_true, decide_eq_true_eq, Bool.false_eq_true, false_or, reduceCtorEq, false_and,
      not_false_eq_true, and_true]
    omega
  | none =>
    by_cases hf : r.hasFallback = true
    · have hblank : r.nameStop ≤ r.blankStop value := Nat.le_add_right _ _
      have hclose := h.blankStop_le
      simp only [hf, if_true, plan, EditSet.covers_remove, EditSet.covers_empty, Bool.or_eq_true,
        decide_eq_true_eq, Bool.false_eq_true, false_or, true_and, h.liesInText_iff hf]
      omega
    · have hstop : r.nameStop = r.closeParen := by
        rw [hasFallback, Bool.not_eq_true, Option.isSome_eq_false_iff, Option.isNone_iff_eq_none]
          at hf
        rw [nameStop, fallbackStart, hf]
        rfl
      simp only [hf, if_false, plan, EditSet.covers_remove, EditSet.covers_empty, Bool.or_eq_true,
        decide_eq_true_eq, Bool.false_eq_true, false_or, reduceCtorEq, false_and,
        not_false_eq_true, and_true]
      omega

/-- Behind the start of its text the fallback is all text. -/
theorem LiesInText.mono (h : r.LiesInText value i) (hij : i ≤ j) (hj : j < r.closeParen) :
    r.LiesInText value j := by
  obtain ⟨-, comma, k, c, hcomma, hk, hki, hc, hblank⟩ := h
  exact ⟨hj, comma, k, c, hcomma, hk, Nat.le_trans hki hij, hc, hblank⟩

/-! ## What one reference records -/

/-- Where nothing is removed yet, the removals of a reference do not overlap. -/
theorem removesOnce_plan (h : IsWritten value r) (hedits : edits.RemovesOnce value.length)
    (hfree : ∀ i : Nat, r.contains i = true → edits.covers i = false) (resolution : Resolution) :
    (r.plan resolution value edits).RemovesOnce value.length := by
  have hstart := h.start_lt_nameStop
  have hname := h.nameStop_le
  have hclose := h.closeParen_lt
  have hfree : ∀ i : Int, r.start ≤ i → i ≤ r.closeParen → edits.covers i = false := by
    intro i hle hle'
    obtain ⟨k, rfl⟩ := Int.eq_ofNat_of_zero_le (show 0 ≤ i by omega)
    exact hfree k (contains_iff.2 (by omega))
  have hhead : ((edits.remove r.start r.nameStop).remove r.closeParen
      (r.closeParen + 1)).RemovesOnce value.length := by
    refine (hedits.remove (by omega) (by omega) fun i hi hi' => hfree i hi (by omega)).remove
      (by omega) (by omega) fun i hi hi' => ?_
    rw [EditSet.covers_remove, hfree i (by omega) (by omega), Bool.false_or,
      decide_eq_false_iff_not]
    omega
  -- what else may be removed lies between the head and the closing parenthesis
  have hbetween : ∀ stop : Nat, stop ≤ r.closeParen → (((edits.remove r.start r.nameStop).remove
      r.closeParen (r.closeParen + 1)).remove r.nameStop stop).RemovesOnce value.length := by
    intro stop hstop
    refine hhead.remove (by omega) (by omega) fun i hi hi' => ?_
    rw [EditSet.covers_remove, EditSet.covers_remove, hfree i (by omega) (by omega), Bool.false_or,
      Bool.or_eq_false_iff, decide_eq_false_iff_not, decide_eq_false_iff_not]
    omega
  cases resolution with
  | root text => exact (hbetween r.closeParen (Nat.le_refl _)).insert _ _
  | fallback => exact hbetween _ h.blankStop_le
  | unresolved => exact hhead

/-- Of what a reference removes its head comes first, and nothing that was recorded is lost. -/
theorem head_subset_plan (resolution : Resolution) :
    (edits.remove r.start r.nameStop).removals ⊆ (r.plan resolution value edits).removals := by
  intro removal hhead
  have hclose : removal ∈ ((edits.remove r.start r.nameStop).remove r.closeParen
      (r.closeParen + 1)).removals := EditSet.mem_removals_remove.2 (.inl hhead)
  cases resolution with
  | root text => exact EditSet.mem_removals_remove.2 (.inl hclose)
  | fallback => exact EditSet.mem_removals_remove.2 (.inl hclose)
  | unresolved => exact hclose

/-- A reference inserts something just when it is answered, and then where it starts. -/
theorem map_index_plan (r : Reference) (resolution : Resolution) (value : Text) (edits : EditSet) :
    (r.plan resolution value edits).insertions.map (·.index) =
      edits.insertions.map (·.index) ++ if resolution.isRoot then [(r.start : Int)] else [] := by
  cases resolution <;>
    simp [plan, EditSet.insert, EditSet.insertions_remove, Resolution.isRoot]

/-! ## What all references so far have recorded -/

/-- The reference starts in the name of an earlier one of the resolved references, or in the
fallback of an earlier one that is answered. -/
def IsBuriedBy (resolved : List (Reference × Resolution)) (r : Reference) : Prop :=
  ∃ p ∈ resolved, p.1.start < r.start ∧
    (p.1.LiesInName r ∨ p.1.LiesInFallback r ∧ p.2.isRoot = true)

/-- What holds once the references `done` have been gone through, of which `resolved` were resolved
and recorded `edits`. -/
structure IsSettled (value : Text) (lookup : Lookup) (done : List Reference)
    (resolved : List (Reference × Resolution)) (edits : EditSet) : Prop where
  sublist : (resolved.map Prod.fst).Sublist done
  resolution_eq : ∀ p ∈ resolved, p.2 = p.1.resolve value lookup
  /-- No character is removed twice. -/
  removesOnce : edits.RemovesOnce value.length
  /-- The points of insertion ascend, -/
  ascending : (edits.insertions.map (·.index)).Pairwise (· < ·)
  /-- they are the starts of the references that are answered, -/
  indices : edits.insertions.map (·.index) =
    (resolved.filter (·.2.isRoot)).map fun p => (p.1.start : Int)
  /-- and a removal starts at each. -/
  atRemoval : ∀ insertion ∈ edits.insertions, ∃ removal ∈ edits.removals,
    removal.start = insertion.index
  covers_iff : ∀ i : Nat, edits.covers i = true ↔ ∃ p ∈ resolved, Removes value p i
  /-- Of the extent of a resolved reference all is removed but the text of a fallback that is kept,
  as far as the references in there leave it. -/
  stays_iff : ∀ p ∈ resolved, ∀ i : Nat, p.1.contains i = true →
    (edits.covers i = false ↔
      Keeps value p i ∧ ∀ q ∈ resolved, p.1.Encloses q.1 → ¬Removes value q i)
  /-- The references that are skipped are those that earlier ones leave nothing of. -/
  skipped_iff : ∀ r ∈ done, r ∉ resolved.map Prod.fst ↔ IsBuriedBy resolved r

theorem isSettled_empty (value : Text) (lookup : Lookup) :
    IsSettled value lookup [] [] .empty where
  sublist := .slnil
  resolution_eq := nofun
  removesOnce := EditSet.removesOnce_empty value.length
  ascending := .nil
  indices := rfl
  atRemoval := nofun
  covers_iff i := by simp [EditSet.covers_empty]
  stays_iff := nofun
  skipped_iff := nofun

/-- What a resolved reference removes of a later one: its keyword, if that stands in the name or in
a fallback that gives way to an answer. -/
theorem removes_start_iff (hpairs : parentheses value = some pairs)
    (hs : standing? value pairs s.start = some s) (hr : standing? value pairs r.start = some r)
    (hsr : s.start < r.start) (lookup : Lookup) :
    Removes value (s, s.resolve value lookup) r.start ↔
      s.LiesInName r ∨ s.LiesInFallback r ∧ (s.resolve value lookup).isRoot = true := by
  rw [Removes, covers_plan_start_iff hpairs hs hr hsr, EditSet.covers_empty, Buries, isAnswered_iff,
    resolve_isRoot]
  simp

namespace IsSettled

variable {done : List Reference} {resolved : List (Reference × Resolution)}
  (h : IsSettled value lookup done resolved edits)

include h

theorem mem_done (hp : p ∈ resolved) : p.1 ∈ done :=
  h.sublist.subset (List.mem_map_of_mem hp)

section Next

variable (hpairs : parentheses value = some pairs)
  (hdone : ∀ s ∈ done, standing? value pairs s.start = some s ∧ s.start < r.start)
  (hr : standing? value pairs r.start = some r)

include hpairs hdone hr

/-- The test whether a reference is removed already tells where it stands. -/
theorem covers_start_iff : edits.covers r.start = true ↔ IsBuriedBy resolved r := by
  rw [h.covers_iff]
  refine exists_congr fun p => and_congr_right fun hp => ?_
  obtain ⟨hstanding, hlt⟩ := hdone p.1 (h.mem_done hp)
  rw [and_iff_right hlt, h.resolution_eq p hp, ← removes_start_iff hpairs hstanding hr hlt,
    ← h.resolution_eq p hp]

omit h hpairs hr in
theorem not_mem_done : r ∉ done :=
  fun hmem => Nat.lt_irrefl r.start (hdone r hmem).2

/-- A reference that is not removed yet is untouched: an earlier one that spares its start spares
all of it, since they do not cross. -/
theorem covers_eq_false (hcovers : edits.covers r.start = false) (hi : r.contains i = true) :
    edits.covers i = false := by
  rw [contains_iff] at hi
  refine Bool.eq_false_iff.2 fun hcovered => ?_
  obtain ⟨⟨s, resolution⟩, hp, hremoves⟩ := (h.covers_iff i).1 hcovered
  obtain rfl : resolution = s.resolve value lookup := h.resolution_eq _ hp
  obtain ⟨hs, hlt⟩ := hdone s (h.mem_done hp)
  have hspared : ¬Removes value (s, s.resolve value lookup) r.start := fun hstart =>
    Bool.eq_false_iff.1 hcovers ((h.covers_iff r.start).2 ⟨_, hp, hstart⟩)
  have hwritten := (isWritten_of_standing? hpairs hs).1
  rw [removes_iff hwritten, contains_iff] at hremoves hspared
  obtain ⟨hcontains, hkeeps⟩ := hremoves
  rcases isBefore_or_encloses hpairs hs hr hlt with hbefore | ⟨-, hend⟩
  · rw [IsBefore] at hbefore
    omega
  · refine hspared ⟨by omega, fun hkeepsStart => hkeeps ⟨hkeepsStart.1, ?_⟩⟩
    exact hkeepsStart.2.mono (by omega) (by dsimp only; omega)

/-- A reference that is removed already adds nothing. -/
theorem skip (hcovers : edits.covers r.start = true) :
    IsSettled value lookup (done ++ [r]) resolved edits where
  sublist := h.sublist.trans (List.sublist_append_left done [r])
  resolution_eq := h.resolution_eq
  removesOnce := h.removesOnce
  ascending := h.ascending
  indices := h.indices
  atRemoval := h.atRemoval
  covers_iff := h.covers_iff
  stays_iff := h.stays_iff
  skipped_iff s hs := by
    rcases List.mem_append.1 hs with hs | hs
    · exact h.skipped_iff s hs
    · obtain rfl := List.mem_singleton.1 hs
      have hskipped : s ∉ resolved.map Prod.fst :=
        fun hmem => not_mem_done hdone (h.sublist.subset hmem)
      exact iff_of_true hskipped ((h.covers_start_iff hpairs hdone hr).1 hcovers)

section Added

variable (hcovers : edits.covers r.start = false)

include hcovers

omit hpairs hr hcovers in
theorem ascending_plan :
    ((r.plan (r.resolve value lookup) value edits).insertions.map (·.index)).Pairwise (· < ·) := by
  rw [map_index_plan]
  refine List.pairwise_append.2 ⟨h.ascending, by split <;> simp, fun k hk l hl => ?_⟩
  rw [h.indices] at hk
  obtain ⟨p, hp, rfl⟩ := List.mem_map.1 hk
  have hlt := (hdone p.1 (h.mem_done (List.mem_filter.1 hp).1)).2
  split at hl
  · rw [List.mem_singleton.1 hl]
    exact Int.ofNat_lt.2 hlt
  · cases hl

omit hdone hcovers in
theorem atRemoval_plan : ∀ insertion ∈ (r.plan (r.resolve value lookup) value edits).insertions,
    ∃ removal ∈ (r.plan (r.resolve value lookup) value edits).removals,
      removal.start = insertion.index := by
  intro insertion hinsertion
  have hindex := List.mem_map_of_mem (f := (·.index)) hinsertion
  rw [map_index_plan, List.mem_append] at hindex
  rcases hindex with hindex | hindex
  · obtain ⟨earlier, hearlier, heq⟩ := List.mem_map.1 hindex
    obtain ⟨removal, hmem, hstart⟩ := h.atRemoval earlier hearlier
    exact ⟨removal, head_subset_plan _ (EditSet.mem_removals_remove.2 (.inl hmem)),
      hstart.trans heq⟩
  · have hlt := (isWritten_of_standing? hpairs hr).1.start_lt_nameStop
    refine ⟨_, head_subset_plan _
      (EditSet.mem_removals_remove.2 (.inr ⟨Int.ofNat_lt.2 hlt, rfl⟩)), ?_⟩
    split at hindex
    · exact (List.mem_singleton.1 hindex).symm
    · cases hindex

/-- What stays of the references gone through, and of the one that is added. -/
theorem stays_iff_plan (hp : p ∈ resolved ++ [(r, r.resolve value lookup)])
    (hi : p.1.contains i = true) :
    (r.plan (r.resolve value lookup) value edits).covers i = false ↔ Keeps value p i ∧
      ∀ q ∈ resolved ++ [(r, r.resolve value lookup)], p.1.Encloses q.1 → ¬Removes value q i := by
  have hnew : (r.plan (r.resolve value lookup) value edits).covers i = false ↔
      edits.covers i = false ∧ ¬Removes value (r, r.resolve value lookup) i := by
    rw [← Bool.not_eq_true, covers_plan_eq, not_or, Bool.not_eq_true]
  have hwritten := (isWritten_of_standing? hpairs hr).1
  have hremoves := removes_iff hwritten lookup i
  rw [hnew, List.forall_mem_append, List.forall_mem_singleton]
  rcases List.mem_append.1 hp with hp | hp
  · -- the new reference lies behind an older one, or inside of it
    obtain ⟨hstanding, hlt⟩ := hdone p.1 (h.mem_done hp)
    rw [h.stays_iff p hp i hi, and_assoc]
    refine and_congr_right fun _ => and_congr_right fun _ => ⟨fun hnot _ => hnot, fun hnot => ?_⟩
    rcases isBefore_or_encloses hpairs hstanding hr hlt with hbefore | hencloses
    · rw [contains_iff] at hi
      rw [hremoves, contains_iff]
      rw [IsBefore] at hbefore
      omega
    · exact hnot hencloses
  · -- no older reference starts inside of the new one
    obtain rfl := List.mem_singleton.1 hp
    have hold : ∀ q ∈ resolved, r.Encloses q.1 → ¬Removes value q i := by
      intro q hq hencloses
      have hlt := (hdone q.1 (h.mem_done hq)).2
      have hopen := hwritten.openParen_eq
      have hinside := hencloses.1
      omega
    have hfree := h.covers_eq_false hpairs hdone hr hcovers hi
    have hstays : ¬Removes value (r, r.resolve value lookup) i ↔
        Keeps value (r, r.resolve value lookup) i := by
      rw [hremoves, and_iff_right hi, not_not]
    constructor
    · rintro ⟨-, hnot⟩
      exact ⟨hstays.1 hnot, hold, fun _ => hnot⟩
    · rintro ⟨hkeeps, -⟩
      exact ⟨hfree, hstays.2 hkeeps⟩

theorem skipped_iff_plan (hs : s ∈ done ++ [r]) :
    s ∉ (resolved ++ [(r, r.resolve value lookup)]).map Prod.fst ↔
      IsBuriedBy (resolved ++ [(r, r.resolve value lookup)]) s := by
  have hstart : s.start ≤ r.start := by
    rcases List.mem_append.1 hs with hs | hs
    · exact Nat.le_of_lt (hdone s hs).2
    · rw [List.mem_singleton.1 hs]
  -- the new reference does not start in front of any
  have hearlier : IsBuriedBy (resolved ++ [(r, r.resolve value lookup)]) s ↔
      IsBuriedBy resolved s := by
    simp only [IsBuriedBy, List.mem_append, List.mem_singleton, or_and_right, exists_or,
      exists_eq_left]
    exact or_iff_left fun hlater => Nat.not_lt.2 hstart hlater.1
  rw [hearlier, List.map_append, List.mem_append, not_or]
  rcases List.mem_append.1 hs with hs' | hs'
  · rw [h.skipped_iff s hs', and_iff_left]
    intro hmem
    obtain rfl : s = r := List.mem_singleton.1 hmem
    exact not_mem_done hdone hs'
  · obtain rfl := List.mem_singleton.1 hs'
    rw [← h.covers_start_iff hpairs hdone hr]
    exact iff_of_false (fun hnot => hnot.2 List.mem_cons_self) (Bool.eq_false_iff.1 hcovers)

/-- **A reference that is not removed yet adds its own edits.**  They meet none of those that are
there, and the references gone through keep what they had. -/
theorem plan : IsSettled value lookup (done ++ [r]) (resolved ++ [(r, r.resolve value lookup)])
    (r.plan (r.resolve value lookup) value edits) where
  sublist := by
    rw [List.map_append]
    exact h.sublist.append (List.Sublist.refl [r])
  resolution_eq p hp := by
    rcases List.mem_append.1 hp with hp | hp
    · exact h.resolution_eq p hp
    · rw [List.mem_singleton.1 hp]
  removesOnce := removesOnce_plan (isWritten_of_standing? hpairs hr).1 h.removesOnce
    (fun _ => h.covers_eq_false hpairs hdone hr hcovers) _
  ascending := h.ascending_plan hdone
  indices := by
    rw [map_index_plan, h.indices, List.filter_append, List.map_append]
    cases hroot : (r.resolve value lookup).isRoot <;> simp [hroot]
  atRemoval := h.atRemoval_plan hpairs hr
  covers_iff i := by
    rw [covers_plan_eq, h.covers_iff]
    simp only [List.mem_append, List.mem_singleton, or_and_right, exists_or, exists_eq_left]
  stays_iff _ hp _ := h.stays_iff_plan hpairs hdone hr hcovers hp
  skipped_iff _ := h.skipped_iff_plan hpairs hdone hr hcovers

end Added

end Next
end IsSettled

/-- By induction on the references that follow, each of which is skipped or adds its edits. -/
theorem IsSettled.settle {done refs : List Reference} {resolved : List (Reference × Resolution)}
    (h : IsSettled value lookup done resolved edits) (hpairs : parentheses value = some pairs)
    (hstanding : ∀ s ∈ done ++ refs, standing? value pairs s.start = some s)
    (hascending : (done ++ refs).Pairwise (·.start < ·.start)) :
    IsSettled value lookup (done ++ refs) (resolved ++ liveAfter value lookup edits refs)
      (settle value lookup edits refs) := by
  induction refs generalizing done resolved edits with
  | nil =>
    rw [liveAfter, List.append_nil, List.append_nil]
    exact h
  | cons r refs ih =>
    have hdone : ∀ s ∈ done, standing? value pairs s.start = some s ∧ s.start < r.start := by
      intro s hs
      exact ⟨hstanding s (List.mem_append_left _ hs),
        (List.pairwise_append.1 hascending).2.2 s hs r List.mem_cons_self⟩
    have hr := hstanding r (List.mem_append_right _ List.mem_cons_self)
    rw [List.append_cons] at hstanding hascending ⊢
    rw [liveAfter, Reference.settle, List.foldl_cons, settleOne]
    cases hcovers : edits.covers r.start with
    | true =>
      rw [if_pos rfl, if_pos rfl]
      exact ih (h.skip hpairs hdone hr hcovers) hstanding hascending
    | false =>
      rw [if_neg Bool.false_ne_true, if_neg Bool.false_ne_true]
      dsimp only
      rw [List.append_cons resolved]
      exact ih (h.plan hpairs hdone hr hcovers) hstanding hascending

/-- **The edits recorded after any number of references.**  No character is removed twice.  The
points of insertion ascend and are the starts of the references that are answered, and a removal
starts at each.  Of a resolved reference all is removed but the text of a fallback that is kept, as
far as the references in there leave it.  A reference is skipped just when it starts in the name of
an earlier resolved one, or in the fallback of an earlier answered one.  Once all references are
counted, these are the edits that make the literal text of the value. -/
theorem isSettled_planAll_liveAfter (value : Text) (lookup : Lookup) (count : Nat) :
    IsSettled value lookup ((references value).take count)
      (liveAfter value lookup .empty ((references value).take count))
      (planAll value (liveAfter value lookup .empty ((references value).take count))) := by
  rw [planAll, foldl_liveAfter]
  cases hpairs : parentheses value with
  | none =>
    rw [references_eq_nil hpairs, List.take_nil]
    exact isSettled_empty value lookup
  | some pairs =>
    have hfront := List.take_prefix count (references value)
    exact (isSettled_empty value lookup).settle hpairs
      (fun s hs => standing?_of_mem_references hpairs (hfront.subset hs))
      ((pairwise_references hpairs).sublist hfront.sublist)

/-- The fallback of the outer reference is kept but for its blank, and with it the text of the inner
one. -/
example : (planAll "var(a, var(b,x)y)".toList
    (live "var(a, var(b,x)y)".toList fun _ => none)).removals =
      [⟨0, 6⟩, ⟨16, 17⟩, ⟨6, 7⟩, ⟨7, 13⟩, ⟨14, 15⟩] := by decide

end Reference
end CustomProps
