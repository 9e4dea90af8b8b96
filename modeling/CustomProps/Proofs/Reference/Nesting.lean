import CustomProps.Proofs.Reference.Evaluation
import CustomProps.Proofs.Text.Balance
import Mathlib.Data.List.Sort

/-!
# How references are nested

The references of a balanced value are exactly those that are written in it, each found with its own
parentheses and its own comma.  Two of them never cross: the later one stands behind the earlier one
or between its parentheses.

* `Reference.split?_eq_some_iff` — the reference at the start of a text, said without positions.
* `Reference.IsWritten` — what it means for a reference that it is written in a value.
* `Reference.isBefore_or_encloses` — references do not cross.
* `Reference.all?_eq_some_iff_lists` — the search finds what is written, and nothing else.
-/

set_option autoImplicit false

namespace CustomProps
namespace Reference

variable {value : Text} {pairs : List (Nat × Nat)} {r s : Reference}

/-! ## The text of a reference -/

/-- Inside the parentheses of a reference stands a balanced text. -/
theorem split?_eq_some_iff {before : Option Char} {t inside rest : Text} :
    split? before t = some (inside, rest) ↔ before.any Text.isIdent = false ∧
      t = Declaration.referenceOpening ++ (inside ++ ')' :: rest) ∧ inside.IsBalanced := by
  constructor
  · intro h
    obtain ⟨ht, hclose, -⟩ := split?_eq_some h
    refine ⟨?_, ht, Text.closing?_zero_append_iff.1 hclose⟩
    cases hident : before.any Text.isIdent with
    | false => rfl
    | true =>
      rw [split?_of_ident hident] at h
      cases h
  · rintro ⟨hident, rfl, hinside⟩
    rw [split?_of_not_ident hident, split?_opening (Text.closing?_zero_append_iff.2 hinside)]

/-- Two keywords with their parentheses do not overlap. -/
theorem exists_of_opening_eq {z u v : Text} (hu : u ≠ [])
    (h : Declaration.referenceOpening ++ z = u ++ (Declaration.referenceOpening ++ v)) :
    ∃ u', u = Declaration.referenceOpening ++ u' ∧
      z = u' ++ (Declaration.referenceOpening ++ v) := by
  rcases List.append_eq_append_iff.1 h with ⟨u', hu', hz⟩ | ⟨m, hm, hv⟩
  · exact ⟨u', hu', hz⟩
  · cases m with
    | nil =>
      rw [List.append_nil] at hm
      exact ⟨[], by rw [hm, List.append_nil], hv.symm⟩
    | cons c m =>
      -- a keyword would start inside the other one
      obtain rfl : 'v' = c := (List.cons.inj hv).1
      cases u with
      | nil => exact absurd rfl hu
      | cons d u =>
        have hmem : 'v' ∈ ['a', 'r', '('] := by
          rw [show ['a', 'r', '('] = u ++ 'v' :: m from (List.cons.inj hm).2]
          simp
        exact absurd hmem (by decide)

/-! ## References that are written in a value -/

/-- The first comma strictly between two positions stands at `i`. -/
structure IsFirstComma (value : Text) (openParen closeParen i : Nat) : Prop where
  openParen_lt : openParen < i
  lt_closeParen : i < closeParen
  comma : value[i]? = some ','
  first : ∀ j, openParen < j → j < i → value[j]? ≠ some ','

/-- The reference is written in the value: it starts where one starts, between its parentheses
stands a balanced text, and its comma is the first one there. -/
structure IsWritten (value : Text) (r : Reference) : Prop where
  startsAt : StartsAt value r.start
  openParen_eq : r.openParen = r.start + 3
  openParen_lt : r.openParen < r.closeParen
  closes : value[r.closeParen]? = some ')'
  balanced : (value.slice (r.openParen + 1) r.closeParen).IsBalanced
  comma_iff : ∀ i, r.comma = some i ↔ IsFirstComma value r.openParen r.closeParen i

/-- The first reference ends before the second one starts. -/
def IsBefore (r s : Reference) : Prop := r.closeParen < s.start

/-- The second reference lies between the parentheses of the first one. -/
def Encloses (r s : Reference) : Prop := r.openParen < s.start ∧ s.closeParen < r.closeParen

/-- The references of a value, in order and nested. -/
structure Lists (value : Text) (refs : List Reference) : Prop where
  ascending : refs.Pairwise (·.start < ·.start)
  start_iff : ∀ i, (∃ r ∈ refs, r.start = i) ↔ StartsAt value i
  written : ∀ r ∈ refs, IsWritten value r
  nested : refs.Pairwise fun r s =>
    (r.IsBefore s ∨ r.Encloses s) ∧ (r.contains s.start = true ↔ s.closeParen < r.closeParen)

theorem getElem?_slice (t : Text) {start stop i : Nat} (h : start + i < stop) :
    (t.slice start stop)[i]? = t[start + i]? := by
  rw [Text.slice, List.getElem?_take_of_lt (by omega), List.getElem?_drop]

theorem commaBetween_eq_some_iff {openParen closeParen i : Nat}
    (hclose : closeParen ≤ value.length) :
    commaBetween value openParen closeParen = some i ↔
      IsFirstComma value openParen closeParen i := by
  have hlength : (value.slice (openParen + 1) closeParen).length =
      closeParen - (openParen + 1) := by
    rw [Text.slice, List.length_take, List.length_drop]
    omega
  have hchar : ∀ {k : Nat} (hk : k < (value.slice (openParen + 1) closeParen).length),
      (value.slice (openParen + 1) closeParen)[k] = ',' ↔
        value[openParen + 1 + k]? = some ',' := by
    intro k hk
    have hlt : openParen + 1 + k < closeParen := by omega
    rw [← getElem?_slice value hlt, List.getElem?_eq_getElem hk, Option.some.injEq]
  rw [commaBetween, Option.map_eq_some_iff]
  simp only [List.findIdx?_eq_some_iff_getElem, beq_iff_eq]
  constructor
  · rintro ⟨k, ⟨hk, hcomma, hfirst⟩, rfl⟩
    refine ⟨by omega, by omega, (hchar hk).1 hcomma, fun j hj hjk hchar' => ?_⟩
    refine hfirst (j - (openParen + 1)) (by omega) ((hchar (by omega)).2 ?_)
    rwa [show openParen + 1 + (j - (openParen + 1)) = j by omega]
  · rintro ⟨hopen, hclose, hcomma, hfirst⟩
    have hi : openParen + 1 + (i - (openParen + 1)) = i := by omega
    refine ⟨i - (openParen + 1), ⟨by omega, (hchar (by omega)).2 (by rwa [hi]), ?_⟩, hi⟩
    intro j hj hcomma'
    exact hfirst (openParen + 1 + j) (by omega) (by omega) ((hchar (by omega)).1 hcomma')

section Placed

variable {x inside y : Text}
  (hvalue : value = x ++ (Declaration.referenceOpening ++ (inside ++ ')' :: y)))

include hvalue

theorem isWritten_placed (hinside : inside.IsBalanced) (hstarts : StartsAt value x.length) :
    IsWritten value (placed x.length inside) where
  startsAt := hstarts
  openParen_eq := rfl
  openParen_lt := by
    show x.length + 3 < x.length + 4 + inside.length
    omega
  closes := by
    refine getElem?_of_eq_append (x := x ++ (Declaration.referenceOpening ++ inside)) (y := y) ?_
      IsWindow.length_to_nested.symm
    rw [hvalue]
    simp only [List.append_assoc]
  balanced := by
    have hslice := slice_inside hvalue [] inside [] (List.append_nil inside).symm
    rw [List.length_nil, Nat.add_zero] at hslice
    show (value.slice (x.length + 3 + 1) (x.length + 4 + inside.length)).IsBalanced
    rwa [hslice]
  comma_iff := by
    intro i
    rw [← commaBetween_placed hvalue]
    refine commaBetween_eq_some_iff ?_
    have := length_of_eq_placed hvalue
    omega

end Placed

/-- What is written in a value is known by where it starts. -/
theorem IsWritten.eq (hr : IsWritten value r) (hs : IsWritten value s) (h : r.start = s.start) :
    r = s := by
  have hopen : r.openParen = s.openParen := by rw [hr.openParen_eq, hs.openParen_eq, h]
  have hclose : ∀ {t : Reference}, IsWritten value t →
      Text.closing? 0 (value.drop (t.openParen + 1)) = some (t.closeParen - (t.openParen + 1)) := by
    intro t ht
    have hlt := ht.openParen_lt
    obtain ⟨hlength, hchar⟩ := List.getElem?_eq_some_iff.1 ht.closes
    have hdrop : value.drop (t.openParen + 1) = value.slice (t.openParen + 1) t.closeParen ++
        ')' :: value.drop (t.closeParen + 1) := by
      rw [← hchar, ← List.drop_eq_getElem_cons hlength,
        show value.drop t.closeParen = (value.drop (t.openParen + 1)).drop
          (t.closeParen - (t.openParen + 1)) by rw [List.drop_drop]; congr 1; omega,
        Text.slice, List.take_append_drop]
    have hslice : (value.slice (t.openParen + 1) t.closeParen).length =
        t.closeParen - (t.openParen + 1) := by
      rw [Text.slice, List.length_take, List.length_drop]
      omega
    rw [hdrop, ← hslice]
    exact Text.closing?_zero_append_iff.2 ht.balanced
  have hcloses : r.closeParen = s.closeParen := by
    have hrs := (hclose hr).symm.trans (hopen ▸ hclose hs)
    have hrlt := hr.openParen_lt
    have hslt := hs.openParen_lt
    rw [Option.some.injEq] at hrs
    omega
  have hcomma : r.comma = s.comma := by
    refine Option.ext fun i => ?_
    rw [hr.comma_iff, hs.comma_iff, hopen, hcloses]
  cases r
  cases s
  simp only at h hopen hcloses hcomma
  rw [h, hopen, hcloses, hcomma]

/-! ## The references of a balanced value -/

theorem isWritten_of_standing? {i : Nat} (hpairs : parentheses value = some pairs)
    (hr : standing? value pairs i = some r) : IsWritten value r ∧ r.start = i := by
  obtain ⟨x, t, inside, rest, hwindow, rfl, hsplit, rfl⟩ := exists_window_of_standing? hpairs hr
  obtain ⟨-, -, hinside⟩ := split?_eq_some_iff.1 hsplit
  refine ⟨isWritten_placed (hwindow.eq_of_split? hsplit).1 hinside ?_, rfl⟩
  rw [← isSome_standing? hpairs, hr]
  rfl

/-- **References do not cross**: the later one stands behind the earlier one or between its
parentheses. -/
theorem isBefore_or_encloses {i j : Nat} (hpairs : parentheses value = some pairs)
    (hr : standing? value pairs i = some r) (hs : standing? value pairs j = some s) (hij : i < j) :
    r.IsBefore s ∨ r.Encloses s := by
  obtain ⟨x, t, inside, rest, hwindow, rfl, hsplit, rfl⟩ := exists_window_of_standing? hpairs hr
  obtain ⟨x', inside', y', hvalue', rfl, hs'⟩ := placed_of_standing? hpairs hs
  have hvalue := (hwindow.eq_of_split? hsplit).1
  obtain ⟨u, rfl, hu⟩ : ∃ u, x' = x ++ u ∧ Declaration.referenceOpening ++
      (inside ++ ')' :: (rest ++ [])) = u ++ (Declaration.referenceOpening ++
        (inside' ++ ')' :: y')) := by
    rcases List.append_eq_append_iff.1 (hvalue.symm.trans hvalue') with h | ⟨u, hx, -⟩
    · exact h
    · rw [hx, List.length_append] at hij
      omega
  have hne : u ≠ [] := by
    rintro rfl
    rw [List.append_nil] at hij
    exact absurd hij (Nat.lt_irrefl _)
  obtain ⟨front, rfl, hfront⟩ := exists_of_opening_eq hne hu
  have hlength : (x ++ (Declaration.referenceOpening ++ front)).length =
      x.length + 4 + front.length := IsWindow.length_to_nested
  rcases List.append_eq_append_iff.1 hfront with ⟨behind, rfl, hbehind⟩ | ⟨back, hinside, -⟩
  · left
    cases behind with
    | nil => exact absurd (List.cons.inj hbehind).1 (by decide)
    | cons c behind =>
      rw [hs']
      show x.length + 4 + inside.length <
        (x ++ (Declaration.referenceOpening ++ (inside ++ c :: behind))).length
      rw [hlength, List.length_append, List.length_cons]
      omega
  · right
    have hnested := hwindow.nested hsplit hinside
    obtain ⟨inner, behind, hinner, rfl⟩ := hnested.exists_of_standing? hpairs hs
    have hback := (hnested.eq_of_split? hinner).2
    rw [hlength]
    refine ⟨?_, ?_⟩
    · show x.length + 3 < x.length + 4 + front.length
      omega
    · show x.length + 4 + front.length + 4 + inner.length < x.length + 4 + inside.length
      rw [hinside, List.length_append]
      omega

/-- An earlier reference contains the start of a later one just when it ends behind it. -/
theorem contains_start_iff (hs : s.start < s.closeParen) (hrs : r.start < s.start)
    (h : r.IsBefore s ∨ r.Encloses s) :
    r.contains s.start = true ↔ s.closeParen < r.closeParen := by
  rw [contains, Bool.and_eq_true, decide_eq_true_eq, decide_eq_true_eq]
  rcases h with h | ⟨-, h⟩
  · rw [IsBefore] at h
    omega
  · omega

theorem lists_standingFrom (hpairs : parentheses value = some pairs) :
    Lists value (standingFrom value pairs 0 value.length) := by
  refine ⟨?_, fun i => ?_, fun r hr => ?_, ?_⟩
  · refine List.Pairwise.filterMap _ ?_ List.pairwise_lt_range'
    intro i j hij r hr s hs
    rwa [start_of_standing? hr, start_of_standing? hs]
  · constructor
    · rintro ⟨r, hr, rfl⟩
      obtain ⟨i, -, hi⟩ := List.mem_filterMap.1 hr
      exact (isWritten_of_standing? hpairs hi).1.startsAt
    · intro hi
      obtain ⟨r, hr⟩ := Option.isSome_iff_exists.1 ((isSome_standing? hpairs i).2 hi)
      have hlt := hi.lt_length
      exact ⟨r, List.mem_filterMap.2 ⟨i, List.mem_range'_1.2 (by omega), hr⟩,
        start_of_standing? hr⟩
  · obtain ⟨i, -, hi⟩ := List.mem_filterMap.1 hr
    exact (isWritten_of_standing? hpairs hi).1
  · refine List.Pairwise.filterMap _ ?_ List.pairwise_lt_range'
    intro i j hij r hr s hs
    obtain ⟨hs', rfl⟩ := isWritten_of_standing? hpairs hs
    obtain ⟨-, rfl⟩ := isWritten_of_standing? hpairs hr
    have hopen := hs'.openParen_eq
    have hclose := hs'.openParen_lt
    have hnested := isBefore_or_encloses hpairs hr hs hij
    exact ⟨hnested, contains_start_iff (by omega) hij hnested⟩

/-- A value lists its references in one way only. -/
theorem Lists.eq {refs refs' : List Reference} (h : Lists value refs) (h' : Lists value refs') :
    refs = refs' := by
  have hirrefl : Std.Irrefl fun r s : Reference => r.start < s.start :=
    ⟨fun r => Nat.lt_irrefl r.start⟩
  have hantisymm : Std.Antisymm fun r s : Reference => r.start < s.start :=
    ⟨fun _ _ hrs hsr => absurd hrs (Nat.lt_asymm hsr)⟩
  have hsub : ∀ {refs refs' : List Reference}, Lists value refs → Lists value refs' →
      ∀ r ∈ refs, r ∈ refs' := by
    intro refs refs' h h' r hr
    obtain ⟨s, hs, hstart⟩ := (h'.start_iff r.start).2 (h.written r hr).startsAt
    rwa [← (h'.written s hs).eq (h.written r hr) hstart]
  exact h.ascending.eq_of_mem_iff h'.ascending fun r => ⟨hsub h h' r, hsub h' h r⟩

/-- **The search finds the references that are written in a value, in order and nested, and nothing
else.**  It gives up just when the parentheses do not balance: their numbers differ, or some front
part of the value has more closing than opening ones. -/
theorem all?_eq_some_iff_lists (value : Text) :
    (all? value = none ↔ value.count '(' ≠ value.count ')' ∨
      ∃ u, u <+: value ∧ u.count '(' < u.count ')') ∧
    ∀ refs, all? value = some refs ↔
      (value.count '(' = value.count ')' ∧ ∀ u, u <+: value → u.count ')' ≤ u.count '(') ∧
        Lists value refs := by
  have hnone : all? value = none ↔ ¬value.IsBalanced := by
    rw [all?_eq_none_iff, ← isSome_parentheses, Bool.not_eq_true, Option.isSome_eq_false_iff,
      Option.isNone_iff_eq_none]
  rw [← Text.isBalanced_iff_count]
  refine ⟨?_, fun refs => ⟨fun h => ?_, fun ⟨hbalanced, h⟩ => ?_⟩⟩
  · rw [hnone, Text.isBalanced_iff_count, not_and_or]
    simp only [not_forall, Nat.not_le, exists_prop, ne_eq]
  · obtain ⟨pairs, hpairs, -⟩ := Option.map_eq_some_iff.1 h
    rw [all?_eq_standingFrom hpairs, Option.some.injEq] at h
    exact ⟨isSome_parentheses.1 (hpairs ▸ rfl), h ▸ lists_standingFrom hpairs⟩
  · obtain ⟨pairs, hpairs⟩ := Option.isSome_iff_exists.1 (isSome_parentheses.2 hbalanced)
    rw [all?_eq_standingFrom hpairs, h.eq (lists_standingFrom hpairs)]

end Reference
end CustomProps
