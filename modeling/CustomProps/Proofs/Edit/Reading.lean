import CustomProps.Edit.Apply
import CustomProps.Proofs.Edit.Merge
import Mathlib.Data.List.Basic

/-!
# Reading an edited text position by position

Edits are gathered in any order, merged, cut, paired up, sorted and carried out from right to left.
What comes out can be said without any of that: at each position of the unedited text stand the text
inserted there, and the character itself unless it is removed.

* `EditSet.reading` — what stands at one position.
* `Replacement.drop_foldr_apply` — carrying out ascending replacements from right to left reads the
  text from left to right.
* `EditSet.apply_eq_trim_readFrom` — the edited text is the trimmed sequence of all readings.
-/

set_option autoImplicit false

namespace CustomProps

/-! ## Replacements -/

namespace Replacement

/-- The text that the replacement starting at a position puts there. -/
def textAt (ops : List Replacement) (i : Int) : Text :=
  ((ops.find? (·.start == i)).map (·.text)).getD []

/-- Is the position inside the range of some replacement? -/
def coversAny (ops : List Replacement) (i : Int) : Bool :=
  ops.any fun r => decide (r.start ≤ i ∧ i < r.stop)

/-- What the replacements leave at a position: the new text, and the character if it stays. -/
def reading (ops : List Replacement) (t : Text) (i : Nat) : Text :=
  textAt ops i ++ if coversAny ops i then [] else t[i]?.toList

/-- One replacement lies in front of another one. -/
def IsBefore (r s : Replacement) : Prop := r.start < s.start ∧ r.stop ≤ s.start

/-- The replacement lies between two positions. -/
def IsWithin (lo hi : Int) (r : Replacement) : Prop :=
  lo ≤ r.start ∧ r.start ≤ r.stop ∧ r.stop ≤ hi

variable {ops : List Replacement} {t : Text}

theorem textAt_cons (r : Replacement) (ops : List Replacement) (i : Int) :
    textAt (r :: ops) i = if r.start = i then r.text else textAt ops i := by
  unfold textAt
  by_cases h : r.start = i
  · simp [h]
  · simp [h]

theorem coversAny_cons (r : Replacement) (ops : List Replacement) (i : Int) :
    coversAny (r :: ops) i = (decide (r.start ≤ i ∧ i < r.stop) || coversAny ops i) := rfl

theorem textAt_eq_nil {i : Int} (h : ∀ r ∈ ops, r.start ≠ i) : textAt ops i = [] := by
  have hfind : ops.find? (·.start == i) = none := by
    simpa [List.find?_eq_none] using h
  rw [textAt, hfind]
  rfl

theorem coversAny_eq_false {i : Int} (h : ∀ r ∈ ops, i < r.start) : coversAny ops i = false := by
  rw [coversAny, List.any_eq_false]
  intro r hr
  have := h r hr
  simp only [decide_eq_true_eq]
  omega

/-- In front of all replacements the text stands as it was. -/
theorem reading_eq_toList {i : Nat} (h : ∀ r ∈ ops, (i : Int) < r.start) :
    reading ops t i = t[i]?.toList := by
  rw [reading, textAt_eq_nil fun r hr => by have := h r hr; omega, coversAny_eq_false h]
  rfl

/-- The characters of a stretch, one by one. -/
theorem flatMap_toList (t : Text) (a n : Nat) :
    (List.range' a n).flatMap (fun i => t[i]?.toList) = (t.drop a).take n := by
  induction n generalizing a with
  | zero => rfl
  | succ n ih =>
    rw [List.range'_succ, List.flatMap_cons, ih]
    by_cases ha : a < t.length
    · rw [List.getElem?_eq_getElem ha, List.drop_eq_getElem_cons ha]
      rfl
    · rw [List.getElem?_eq_none (by omega), List.drop_eq_nil_of_le (by omega),
        List.drop_eq_nil_of_le (by omega)]
      simp

/-- Replacements change nothing in front of the first of them. -/
theorem take_foldr_apply {m : Nat} (hops : ops.Pairwise IsBefore)
    (hwithin : ∀ r ∈ ops, r.IsWithin m t.length) :
    (ops.foldr Replacement.apply t).take m = t.take m := by
  induction ops generalizing m with
  | nil => rfl
  | cons r ops ih =>
    obtain ⟨hr, hops⟩ := List.pairwise_cons.1 hops
    obtain ⟨hmr, hrs, hst⟩ := hwithin r (by simp)
    -- the later replacements leave everything up to the start of `r` alone
    have htake : (ops.foldr Replacement.apply t).take r.start.toNat = t.take r.start.toNat := by
      refine ih hops fun s hs => ?_
      obtain ⟨-, h1, h2⟩ := hwithin s (by simp [hs])
      have := (hr s hs).1
      exact ⟨by omega, h1, h2⟩
    rw [List.foldr_cons, Replacement.apply, htake, List.append_assoc,
      List.take_append_of_le_length (by rw [List.length_take]; omega), List.take_take]
    congr 1
    omega

/-- Behind a replacement the later ones decide. -/
theorem reading_cons_of_lt {r : Replacement} {i : Nat} (hstart : r.start < i) (hstop : r.stop ≤ i) :
    reading (r :: ops) t i = reading ops t i := by
  have hcovers : decide (r.start ≤ i ∧ (i : Int) < r.stop) = false := by
    rw [decide_eq_false_iff_not]
    omega
  rw [reading, reading, textAt_cons, if_neg (by omega), coversAny_cons, hcovers, Bool.false_or]

/-- Inside the range of a replacement nothing is left. -/
theorem reading_cons_of_inside {r : Replacement} {i : Nat} (hr : ∀ s ∈ ops, r.IsBefore s)
    (hstart : r.start < i) (hstop : i < r.stop) : reading (r :: ops) t i = [] := by
  have hcovers : decide (r.start ≤ i ∧ (i : Int) < r.stop) = true := by
    rw [decide_eq_true_eq]
    omega
  rw [reading, textAt_cons, if_neg (by omega), textAt_eq_nil, coversAny_cons, hcovers, Bool.true_or]
  · rfl
  · intro s hs
    have := (hr s hs).2
    omega

/-- A replacement puts its text at its start and takes away its range. -/
theorem flatMap_reading_cons {r : Replacement} {a n : Nat} (hr : ∀ s ∈ ops, r.IsBefore s)
    (hwithin : r.IsWithin a n) (t : Text) :
    (List.range' a (n + 1 - a)).flatMap (reading (r :: ops) t) =
      (t.take r.start.toNat).drop a ++ r.text ++
        (List.range' r.stop.toNat (n + 1 - r.stop.toNat)).flatMap (reading ops t) := by
  obtain ⟨has, hse, hen⟩ := hwithin
  have hsplit : List.range' a (n + 1 - a) = List.range' a (r.start.toNat - a) ++
      List.range' r.start.toNat (n + 1 - r.start.toNat) := by
    rw [show n + 1 - a = (r.start.toNat - a) + (n + 1 - r.start.toNat) by omega,
      ← List.range'_append_1, show a + (r.start.toNat - a) = r.start.toNat by omega]
  have hfront : (List.range' a (r.start.toNat - a)).flatMap (reading (r :: ops) t) =
      (t.take r.start.toNat).drop a := by
    rw [List.drop_take, ← flatMap_toList]
    refine List.flatMap_congr fun i hi => reading_eq_toList fun s hs => ?_
    have hi := (List.mem_range'_1.1 hi).2
    rcases List.mem_cons.1 hs with rfl | hs
    · omega
    · have := (hr s hs).1
      omega
  have hbehind : ∀ m k : Nat, r.start < m → r.stop ≤ m →
      (List.range' m k).flatMap (reading (r :: ops) t) =
        (List.range' m k).flatMap (reading ops t) := by
    intro m k hstart hstop
    refine List.flatMap_congr fun i hi => ?_
    have hi := (List.mem_range'_1.1 hi).1
    exact reading_cons_of_lt (by omega) (by omega)
  have htext : textAt (r :: ops) r.start.toNat = r.text := by
    rw [textAt_cons, if_pos (by omega)]
  rw [hsplit, List.flatMap_append, hfront, List.append_assoc]
  congr 1
  rw [show n + 1 - r.start.toNat = (n - r.start.toNat) + 1 by omega, List.range'_succ,
    List.flatMap_cons]
  rcases Int.lt_or_eq_of_le hse with hlt | heq
  · -- a proper range: its first position holds the text, the others nothing
    have hfirst : reading (r :: ops) t r.start.toNat = r.text := by
      have hcovers : decide (r.start ≤ r.start.toNat ∧ (r.start.toNat : Int) < r.stop) = true := by
        rw [decide_eq_true_eq]
        omega
      rw [reading, htext, coversAny_cons, hcovers, Bool.true_or, if_pos rfl, List.append_nil]
    have hinside : (List.range' (r.start.toNat + 1) (r.stop.toNat - r.start.toNat - 1)).flatMap
        (reading (r :: ops) t) = [] := by
      refine List.flatMap_eq_nil_iff.2 fun i hi => ?_
      obtain ⟨hi, hi'⟩ := List.mem_range'_1.1 hi
      exact reading_cons_of_inside hr (by omega) (by omega)
    have hsplit' : List.range' (r.start.toNat + 1) (n - r.start.toNat) =
        List.range' (r.start.toNat + 1) (r.stop.toNat - r.start.toNat - 1) ++
          List.range' r.stop.toNat (n + 1 - r.stop.toNat) := by
      rw [show n - r.start.toNat =
        (r.stop.toNat - r.start.toNat - 1) + (n + 1 - r.stop.toNat) by omega,
        ← List.range'_append_1,
        show r.start.toNat + 1 + (r.stop.toNat - r.start.toNat - 1) = r.stop.toNat by omega]
    rw [hfirst, hsplit', List.flatMap_append, hinside, List.nil_append,
      hbehind _ _ (by omega) (by omega)]
  · -- an empty range: the character at its position is still there, behind the text
    have hfirst : reading (r :: ops) t r.start.toNat = r.text ++ reading ops t r.start.toNat := by
      have hcovers : decide (r.start ≤ r.start.toNat ∧ (r.start.toNat : Int) < r.stop) = false := by
        rw [decide_eq_false_iff_not]
        omega
      have hnone : textAt ops r.start.toNat = [] :=
        textAt_eq_nil fun s hs => by have := (hr s hs).1; omega
      rw [reading, reading, htext, hnone, coversAny_cons, hcovers, Bool.false_or, List.nil_append]
    rw [hfirst, hbehind _ _ (by omega) (by omega), List.append_assoc, ← List.flatMap_cons,
      ← List.range'_succ, ← heq, show n - r.start.toNat + 1 = n + 1 - r.start.toNat by omega]

/-- **Carrying out ascending replacements from right to left reads the text from left to right.** -/
theorem drop_foldr_apply {a : Nat} (hops : ops.Pairwise IsBefore)
    (hwithin : ∀ r ∈ ops, r.IsWithin a t.length) :
    (ops.foldr Replacement.apply t).drop a =
      (List.range' a (t.length + 1 - a)).flatMap (reading ops t) := by
  induction ops generalizing a with
  | nil =>
    have h : reading [] t = fun i => t[i]?.toList := by
      funext i
      exact reading_eq_toList (by simp)
    rw [h, flatMap_toList, List.foldr_nil, List.take_of_length_le (by rw [List.length_drop]; omega)]
  | cons r ops ih =>
    obtain ⟨hr, hops⟩ := List.pairwise_cons.1 hops
    have hw := hwithin r (by simp)
    obtain ⟨has, hse, hen⟩ := hwithin r (by simp)
    have hlater : ∀ m : Nat, (m : Int) ≤ r.stop → ∀ s ∈ ops, s.IsWithin m t.length := by
      intro m hm s hs
      obtain ⟨-, h1, h2⟩ := hwithin s (by simp [hs])
      have := (hr s hs).2
      exact ⟨by omega, h1, h2⟩
    rw [flatMap_reading_cons hr hw t, ← ih hops (hlater r.stop.toNat (by omega)), List.foldr_cons,
      Replacement.apply, take_foldr_apply hops (hlater r.start.toNat (by omega)),
      List.append_assoc, List.drop_append_of_le_length, List.append_assoc]
    rw [List.length_take]
    omega

end Replacement

/-! ## Edit sets -/

namespace EditSet

/-- What the edits leave at a position: the text inserted there, and the character unless it is
removed. -/
def reading (edits : EditSet) (t : Text) (i : Nat) : Text :=
  (edits.insertedAt i).getD [] ++ if edits.covers i then [] else t[i]?.toList

/-- The readings at so many positions. -/
def readFrom (edits : EditSet) (t : Text) (start count : Nat) : Text :=
  (List.range' start count).flatMap (edits.reading t)

theorem readFrom_zero (edits : EditSet) (t : Text) (start : Nat) : edits.readFrom t start 0 = [] :=
  rfl

theorem readFrom_add (edits : EditSet) (t : Text) (start m n : Nat) :
    edits.readFrom t start (m + n) =
      edits.readFrom t start m ++ edits.readFrom t (start + m) n := by
  rw [readFrom, ← List.range'_append_1, List.flatMap_append]
  rfl

theorem readFrom_one (edits : EditSet) (t : Text) (start : Nat) :
    edits.readFrom t start 1 = edits.reading t start := by
  rw [readFrom, List.range'_one, List.flatMap_singleton]

theorem readFrom_congr {edits edits' : EditSet} {t : Text} {start count : Nat}
    (h : ∀ j : Nat, start ≤ j → j < start + count →
      edits.covers j = edits'.covers j ∧ edits.insertedAt j = edits'.insertedAt j) :
    edits.readFrom t start count = edits'.readFrom t start count := by
  refine List.flatMap_congr fun j hj => ?_
  obtain ⟨hle, hlt⟩ := List.mem_range'_1.1 hj
  rw [reading, reading, (h j hle hlt).1, (h j hle hlt).2]

/-- Nothing is left where everything is removed and nothing inserted. -/
theorem readFrom_removed {edits : EditSet} {t : Text} {start count : Nat}
    (h : ∀ j : Nat, start ≤ j → j < start + count →
      edits.covers j = true ∧ edits.insertedAt j = none) :
    edits.readFrom t start count = [] := by
  refine List.flatMap_eq_nil_iff.2 fun j hj => ?_
  obtain ⟨hle, hlt⟩ := List.mem_range'_1.1 hj
  rw [reading, (h j hle hlt).1, (h j hle hlt).2]
  rfl

/-- Nothing is removed or inserted at so many positions. -/
def IsClear (edits : EditSet) (start count : Nat) : Prop :=
  ∀ j : Nat, start ≤ j → j < start + count → edits.covers j = false ∧ edits.insertedAt j = none

theorem isClear_empty (start count : Nat) : empty.IsClear start count :=
  fun _ _ _ => ⟨rfl, rfl⟩

theorem IsClear.of_agree {edits edits' : EditSet} {start count : Nat}
    (h : edits.IsClear start count)
    (hagree : ∀ j : Nat, start ≤ j → j < start + count →
      edits'.covers j = edits.covers j ∧ edits'.insertedAt j = edits.insertedAt j) :
    edits'.IsClear start count := by
  intro j hle hlt
  rw [(hagree j hle hlt).1, (hagree j hle hlt).2]
  exact h j hle hlt

theorem IsClear.mono {edits : EditSet} {start count start' count' : Nat}
    (h : edits.IsClear start count) (hstart : start ≤ start')
    (hcount : start' + count' ≤ start + count) : edits.IsClear start' count' :=
  fun j hle hlt => h j (by omega) (by omega)

/-- All edits lie inside a text of the given length, and no removal is inverted. -/
structure IsWithin (edits : EditSet) (length : Nat) : Prop where
  removals : ∀ r ∈ edits.removals, r.IsWithin 0 length
  insertions : ∀ i ∈ edits.insertions, 0 ≤ i.index ∧ i.index ≤ length

theorem insertedAt_empty (i : Int) : empty.insertedAt i = none := rfl

theorem insertedAt_remove (edits : EditSet) (start stop i : Int) :
    (edits.remove start stop).insertedAt i = edits.insertedAt i := by
  unfold remove
  split <;> rfl

theorem insertedAt_insert (edits : EditSet) (index i : Int) (text : Text) :
    (edits.insert index text).insertedAt i =
      if index = i then some text else edits.insertedAt i := by
  rw [insertedAt, insert, List.reverse_append, List.reverse_singleton, List.singleton_append,
    List.find?_cons]
  by_cases h : index = i
  · rw [if_pos h, beq_iff_eq.2 h]
    rfl
  · rw [if_neg h, beq_eq_false_iff_ne.2 h]
    rfl

theorem isWithin_empty (length : Nat) : empty.IsWithin length where
  removals := by simp [empty]
  insertions := by simp [empty]

theorem IsWithin.remove {edits : EditSet} {length : Nat} (h : edits.IsWithin length)
    (start stop : Int) (hstart : 0 ≤ start) (hstop : stop ≤ length) :
    (edits.remove start stop).IsWithin length := by
  unfold EditSet.remove
  split
  · rename_i hlt
    refine ⟨fun r hr => ?_, h.insertions⟩
    rcases List.mem_append.1 hr with hr | hr
    · exact h.removals r hr
    · obtain rfl := List.mem_singleton.1 hr
      exact ⟨hstart, Int.le_of_lt hlt, hstop⟩
  · exact h

theorem IsWithin.insert {edits : EditSet} {length : Nat} (h : edits.IsWithin length)
    {index : Int} (hindex : 0 ≤ index ∧ index ≤ length) (text : Text) :
    (edits.insert index text).IsWithin length := by
  refine ⟨h.removals, fun i hi => ?_⟩
  rcases List.mem_append.1 hi with hi | hi
  · exact h.insertions i hi
  · obtain rfl := List.mem_singleton.1 hi
    exact hindex

/-- The text of the insertion at a position. -/
def textOf (insertions : List Insertion) (i : Int) : Text :=
  ((insertions.find? (·.index == i)).map (·.text)).getD []

/-! ### Pairing ranges with insertions -/

theorem textOf_filter_ne {insertions : List Insertion} {i j : Int} (h : i ≠ j) :
    textOf (insertions.filter (·.index != j)) i = textOf insertions i := by
  rw [textOf, textOf, List.find?_filter]
  congr 3
  funext k
  by_cases hk : k.index = i
  · simp [hk, h]
  · simp [hk]

theorem textOf_eq_nil {insertions : List Insertion} {i : Int} (h : ∀ k ∈ insertions, k.index ≠ i) :
    textOf insertions i = [] := by
  have hfind : insertions.find? (·.index == i) = none := by
    simpa [List.find?_eq_none] using h
  rw [textOf, hfind]
  rfl

theorem textOf_of_mem {insertions : List Insertion} {k : Insertion} (hk : k ∈ insertions)
    (hdistinct : insertions.Pairwise fun k l => k.index ≠ l.index) :
    textOf insertions k.index = k.text := by
  induction insertions with
  | nil => simp at hk
  | cons l insertions ih =>
    obtain ⟨hl, hdistinct⟩ := List.pairwise_cons.1 hdistinct
    rcases List.mem_cons.1 hk with rfl | hk
    · simp [textOf]
    · rw [← ih hk hdistinct, textOf, List.find?_cons_of_neg (by simpa using hl k hk), ← textOf]

/-- A replacement is either one of the ranges, with the text inserted at its start, or an insertion
at which no range starts. -/
theorem mem_pairUp {insertions : List Insertion} {ranges : List Removal} {op : Replacement}
    (hranges : ranges.Pairwise fun r s => r.start ≠ s.start) :
    op ∈ pairUp insertions ranges ↔
      (∃ r ∈ ranges, op = ⟨r.start, r.stop, textOf insertions r.start⟩) ∨
        ∃ k ∈ insertions, (∀ r ∈ ranges, r.start ≠ k.index) ∧ op = ⟨k.index, k.index, k.text⟩ := by
  induction ranges generalizing insertions with
  | nil => simp [pairUp, eq_comm]
  | cons r ranges ih =>
    obtain ⟨hr, hranges⟩ := List.pairwise_cons.1 hranges
    have htexts : (∃ s ∈ ranges, op = ⟨s.start, s.stop,
        textOf (insertions.filter (·.index != r.start)) s.start⟩) ↔
          ∃ s ∈ ranges, op = ⟨s.start, s.stop, textOf insertions s.start⟩ := by
      refine exists_congr fun s => and_congr_right fun hs => ?_
      rw [textOf_filter_ne (Ne.symm (hr s hs))]
    rw [pairUp, List.mem_cons, ih hranges, htexts, List.exists_mem_cons_iff]
    simp only [List.mem_filter, bne_iff_ne, List.forall_mem_cons, textOf]
    grind

/-- No two replacements start at one position. -/
theorem distinct_pairUp {insertions : List Insertion} {ranges : List Removal}
    (hinsertions : insertions.Pairwise fun k l => k.index ≠ l.index)
    (hranges : ranges.Pairwise fun r s => r.start ≠ s.start) :
    (pairUp insertions ranges).Pairwise fun a b => a.start ≠ b.start := by
  induction ranges generalizing insertions with
  | nil => exact List.pairwise_map.2 hinsertions
  | cons r ranges ih =>
    obtain ⟨hr, hranges⟩ := List.pairwise_cons.1 hranges
    refine List.pairwise_cons.2 ⟨fun op hop => ?_, ih (hinsertions.filter _) hranges⟩
    rcases (mem_pairUp hranges).1 hop with ⟨s, hs, rfl⟩ | ⟨k, hk, -, rfl⟩
    · exact hr s hs
    · have := (List.mem_filter.1 hk).2
      exact Ne.symm (by simpa using this)

/-! ### The insertions that count -/

theorem insertedAt_eq_none {edits : EditSet} {i : Int} (h : i ∉ edits.points) :
    edits.insertedAt i = none := by
  rw [points, List.mem_eraseDups] at h
  rw [insertedAt, Option.map_eq_none_iff, List.find?_eq_none]
  intro k hk hki
  refine h (List.mem_map.2 ⟨k, List.mem_reverse.1 hk, ?_⟩)
  simpa using hki

theorem distinct_lastInsertions (edits : EditSet) :
    edits.lastInsertions.Pairwise fun k l => k.index ≠ l.index := by
  rw [lastInsertions, List.pairwise_map]
  exact nodup_eraseDups _

theorem index_mem_points {edits : EditSet} {k : Insertion} (h : k ∈ edits.lastInsertions) :
    k.index ∈ edits.points := by
  obtain ⟨p, hp, rfl⟩ := List.mem_map.1 h
  exact hp

theorem textOf_lastInsertions (edits : EditSet) (i : Int) :
    textOf edits.lastInsertions i = (edits.insertedAt i).getD [] := by
  by_cases hi : i ∈ edits.points
  · have hmem : ⟨i, (edits.insertedAt i).getD []⟩ ∈ edits.lastInsertions :=
      List.mem_map.2 ⟨i, hi, rfl⟩
    exact textOf_of_mem hmem (distinct_lastInsertions edits)
  · rw [insertedAt_eq_none hi, textOf_eq_nil]
    · rfl
    · rintro k hk rfl
      exact hi (index_mem_points hk)

/-! ### All replacements -/

section Replacements

variable {edits : EditSet} {n : Nat}

theorem distinct_merge (h : edits.IsWithin n) :
    (Removal.merge edits.removals edits.points).Pairwise fun r s => r.start ≠ s.start :=
  (Removal.ascending_merge h.removals edits.points).imp fun hrs => Int.ne_of_lt hrs.1

theorem mem_replacements (h : edits.IsWithin n) {op : Replacement} :
    op ∈ edits.replacements ↔
      (∃ r ∈ Removal.merge edits.removals edits.points,
        op = ⟨r.start, r.stop, (edits.insertedAt r.start).getD []⟩) ∨
      ∃ k ∈ edits.lastInsertions,
        (∀ r ∈ Removal.merge edits.removals edits.points, r.start ≠ k.index) ∧
          op = ⟨k.index, k.index, k.text⟩ := by
  rw [replacements, List.mem_mergeSort, mem_pairUp (distinct_merge h)]
  simp only [textOf_lastInsertions]

theorem within_replacements (h : edits.IsWithin n) :
    ∀ op ∈ edits.replacements, op.IsWithin 0 n := by
  intro op hop
  rcases (mem_replacements h).1 hop with ⟨r, hr, rfl⟩ | ⟨k, hk, -, rfl⟩
  · exact Removal.within_merge h.removals edits.points r hr
  · have hmem := index_mem_points hk
    rw [points, List.mem_eraseDups] at hmem
    obtain ⟨l, hl, hlk⟩ := List.mem_map.1 hmem
    obtain ⟨h0, hn⟩ := h.insertions l hl
    exact ⟨by dsimp only; omega, Int.le_refl _, by dsimp only; omega⟩

/-- A replacement that starts in front of another one also stops in front of it. -/
theorem stop_le_start (h : edits.IsWithin n) {a b : Replacement} (ha : a ∈ edits.replacements)
    (hb : b ∈ edits.replacements) (hab : a.start < b.start) : a.stop ≤ b.start := by
  have hranges : ∀ r ∈ Removal.merge edits.removals edits.points,
      ∀ s ∈ Removal.merge edits.removals edits.points, r.start < s.start → r.stop ≤ s.start := by
    have hascending := Removal.ascending_merge h.removals edits.points
    refine List.Pairwise.forall_of_forall_of_flip
      (R := fun r s : Removal => r.start < s.start → r.stop ≤ s.start) ?_ ?_ ?_
    · intro r _ hr
      omega
    · exact hascending.imp fun hrs _ => hrs.2
    · refine hascending.imp fun {r s} hrs hsr => ?_
      have := hrs.1
      omega
  rcases (mem_replacements h).1 ha with ⟨r, hr, rfl⟩ | ⟨k, hk, -, rfl⟩
  · rcases (mem_replacements h).1 hb with ⟨s, hs, rfl⟩ | ⟨l, hl, -, rfl⟩
    · exact hranges r hr s hs hab
    · have := Removal.not_inside_merge h.removals (index_mem_points hl) r hr
      dsimp only at hab ⊢
      omega
  · exact Int.le_of_lt hab

/-- The replacements are carried out from right to left. -/
theorem ascending_replacements (h : edits.IsWithin n) :
    edits.replacements.reverse.Pairwise Replacement.IsBefore := by
  have hsorted : edits.replacements.Pairwise fun a b => b.start ≤ a.start := by
    have := @List.pairwise_mergeSort Replacement (fun a b => decide (b.start ≤ a.start))
      (by intro a b c; simp only [decide_eq_true_eq]; omega)
      (by intro a b; simp only [Bool.or_eq_true, decide_eq_true_eq]; omega)
      (pairUp edits.lastInsertions (Removal.merge edits.removals edits.points))
    exact this.imp of_decide_eq_true
  have hdistinct : edits.replacements.Pairwise fun a b => a.start ≠ b.start :=
    (List.mergeSort_perm _ _).symm.pairwise
      (distinct_pairUp (distinct_lastInsertions edits) (distinct_merge h)) fun hab => hab.symm
  rw [List.pairwise_reverse]
  refine (hsorted.and hdistinct).imp_of_mem fun {a b} ha hb hab => ?_
  have hlt : b.start < a.start := by
    have := hab.1
    have := hab.2
    omega
  exact ⟨hlt, stop_le_start h hb ha hlt⟩

theorem textAt_replacements (h : edits.IsWithin n) (i : Int) :
    Replacement.textAt edits.replacements.reverse i = (edits.insertedAt i).getD [] := by
  have htext : ∀ op ∈ edits.replacements, op.text = (edits.insertedAt op.start).getD [] := by
    intro op hop
    rcases (mem_replacements h).1 hop with ⟨r, -, rfl⟩ | ⟨k, hk, -, rfl⟩
    · rfl
    · rw [← textOf_lastInsertions, textOf_of_mem hk (distinct_lastInsertions edits)]
  rw [Replacement.textAt]
  cases hfind : edits.replacements.reverse.find? (·.start == i) with
  | some op =>
    have hi : op.start = i := by simpa using List.find?_some hfind
    have hop := List.mem_reverse.1 (List.mem_of_find?_eq_some hfind)
    rw [Option.map_some, Option.getD_some, htext op hop, hi]
  | none =>
    -- no replacement starts here, so no insertion was recorded here either
    have hnone : ∀ op ∈ edits.replacements, op.start ≠ i := by
      intro op hop
      simpa using List.find?_eq_none.1 hfind op (List.mem_reverse.2 hop)
    have hi : i ∉ edits.points := by
      intro hi
      have hk : ⟨i, (edits.insertedAt i).getD []⟩ ∈ edits.lastInsertions :=
        List.mem_map.2 ⟨i, hi, rfl⟩
      by_cases hr : ∀ r ∈ Removal.merge edits.removals edits.points, r.start ≠ i
      · exact hnone _ ((mem_replacements h).2 (.inr ⟨_, hk, hr, rfl⟩)) rfl
      · simp only [ne_eq, not_forall, not_not] at hr
        obtain ⟨r, hr, hri⟩ := hr
        exact hnone _ ((mem_replacements h).2 (.inl ⟨r, hr, rfl⟩)) hri
    rw [insertedAt_eq_none hi]
    rfl

theorem coversAny_replacements (h : edits.IsWithin n) (i : Int) :
    Replacement.coversAny edits.replacements.reverse i = edits.covers i := by
  rw [covers, ← Removal.covers_merge edits.removals edits.points, Bool.eq_iff_iff,
    Replacement.coversAny, List.any_eq_true, List.any_eq_true]
  constructor
  · rintro ⟨op, hop, hi⟩
    rw [decide_eq_true_eq] at hi
    rcases (mem_replacements h).1 (List.mem_reverse.1 hop) with ⟨r, hr, rfl⟩ | ⟨k, -, -, rfl⟩
    · exact ⟨r, hr, Removal.covers_iff.2 hi⟩
    · dsimp only at hi
      omega
  · rintro ⟨r, hr, hi⟩
    refine ⟨_, List.mem_reverse.2 ((mem_replacements h).2 (.inl ⟨r, hr, rfl⟩)), ?_⟩
    rw [decide_eq_true_eq]
    exact Removal.covers_iff.1 hi

/-- **The edited text is the trimmed sequence of what the edits leave at each position.** -/
theorem apply_eq_trim_readFrom {t : Text} (h : edits.IsWithin t.length) :
    edits.apply t = Text.trim (edits.readFrom t 0 (t.length + 1)) := by
  have hreading : Replacement.reading edits.replacements.reverse t = edits.reading t := by
    funext i
    rw [Replacement.reading, reading, textAt_replacements h, coversAny_replacements h]
  have hdrop := Replacement.drop_foldr_apply (a := 0) (ascending_replacements h)
    fun op hop => within_replacements h op (List.mem_reverse.1 hop)
  rw [List.drop_zero, List.foldr_reverse, hreading] at hdrop
  exact congrArg Text.trim hdrop

end Replacements

end EditSet
end CustomProps
