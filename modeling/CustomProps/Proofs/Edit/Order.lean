import CustomProps.Proofs.Edit.Reading

/-!
# The order of the edits

What the edits of a text come to can be told position by position: of the insertions at a position
the one recorded last counts, and the character stays unless a removal holds it.  So neither the
order of the removals matters, nor the order of insertions at different positions.

* `EditSet.lastTextAt` — the text recorded last for a position.
* `EditSet.Rearranges` — the same edits in another order, except for insertions at one position.
* `EditSet.positionwise` — what the edits make of a text, position by position.
* `EditSet.apply_eq_trim_positionwise` — the edited text is just that, in whatever order the edits
  were recorded.
-/

set_option autoImplicit false

namespace CustomProps
namespace EditSet

variable {edits edits' : EditSet} {n : Nat}

/-- The text recorded last for a position; empty if there is none. -/
def lastTextAt (edits : EditSet) (i : Int) : Text :=
  ((edits.insertions.filter (·.index == i)).getLast?.map (·.text)).getD []

/-- The same removals in any order, and the same insertions, those at one position in the same
order. -/
structure Rearranges (edits edits' : EditSet) : Prop where
  removals : edits.removals.Perm edits'.removals
  insertions : ∀ i, edits.insertions.filter (·.index == i) = edits'.insertions.filter (·.index == i)

/-- What counts at a position is the last text recorded for it. -/
theorem getD_insertedAt (edits : EditSet) (i : Int) :
    (edits.insertedAt i).getD [] = edits.lastTextAt i := by
  rw [insertedAt, lastTextAt, ← List.head?_filter, List.filter_reverse, List.head?_reverse]

theorem Rearranges.covers_eq (h : edits.Rearranges edits') (i : Int) :
    edits.covers i = edits'.covers i :=
  h.removals.any_eq

theorem Rearranges.lastTextAt_eq (h : edits.Rearranges edits') (i : Int) :
    edits.lastTextAt i = edits'.lastTextAt i := by
  rw [lastTextAt, lastTextAt, h.insertions i]

theorem Rearranges.mem_insertions (h : edits.Rearranges edits') {insertion : Insertion}
    (hmem : insertion ∈ edits'.insertions) : insertion ∈ edits.insertions := by
  have hfilter : insertion ∈ edits'.insertions.filter (·.index == insertion.index) :=
    List.mem_filter.2 ⟨hmem, beq_self_eq_true _⟩
  rw [← h.insertions] at hfilter
  exact (List.mem_filter.1 hfilter).1

theorem IsWithin.rearrange (hwithin : edits.IsWithin n) (h : edits.Rearranges edits') :
    edits'.IsWithin n where
  removals r hr := hwithin.removals r (h.removals.mem_iff.2 hr)
  insertions i hi := hwithin.insertions i (h.mem_insertions hi)

/-- What the edits make of a text, position by position: the text recorded last for the position,
and the character unless some removal holds it.  The end of the text is a position too. -/
def positionwise (edits : EditSet) (t : Text) : Text :=
  (List.range (t.length + 1)).flatMap fun i : Nat =>
    edits.lastTextAt i ++ if edits.covers i then [] else t[i]?.toList

theorem positionwise_eq_readFrom (edits : EditSet) (t : Text) :
    edits.positionwise t = edits.readFrom t 0 (t.length + 1) := by
  rw [positionwise, List.range_eq_range']
  refine List.flatMap_congr fun i _ => ?_
  rw [reading, getD_insertedAt]

theorem Rearranges.positionwise_eq (h : edits.Rearranges edits') (t : Text) :
    edits'.positionwise t = edits.positionwise t := by
  refine List.flatMap_congr fun i _ => ?_
  rw [h.lastTextAt_eq, h.covers_eq]

/-- **Edits mean what they say at each position.**  If all edits lie inside the text, the edited
text is what they make of it position by position, trimmed.  So neither the order of the removals
makes a difference nor that of insertions at different positions. -/
theorem apply_eq_trim_positionwise {t : Text} (h : edits.IsWithin t.length) :
    edits.apply t = Text.trim (edits.positionwise t) ∧
      ∀ edits', edits.Rearranges edits' → edits'.apply t = edits.apply t := by
  have happly : ∀ edits : EditSet, edits.IsWithin t.length →
      edits.apply t = Text.trim (edits.positionwise t) := by
    intro edits hwithin
    rw [apply_eq_trim_readFrom hwithin, positionwise_eq_readFrom]
  refine ⟨happly edits h, fun edits' hrearranges => ?_⟩
  rw [happly edits' (h.rearrange hrearranges), happly edits h, hrearranges.positionwise_eq]

/-- Two removals overlap, a third is empty, one of the insertions falls inside a removal and takes
the place of an earlier one there, and another stands at the end of the text. -/
theorem apply_overlapping :
    let edits : EditSet := ⟨[⟨2, 4⟩, ⟨1, 3⟩, ⟨5, 5⟩], [⟨3, ['x']⟩, ⟨6, ['z', ' ']⟩, ⟨3, ['y']⟩]⟩
    let edits' : EditSet := ⟨[⟨5, 5⟩, ⟨1, 3⟩, ⟨2, 4⟩], [⟨6, ['z', ' ']⟩, ⟨3, ['x']⟩, ⟨3, ['y']⟩]⟩
    edits.IsWithin "abcdef".toList.length ∧ edits.Rearranges edits' ∧
      edits.apply "abcdef".toList = "ayefz".toList ∧
      edits'.apply "abcdef".toList = edits.apply "abcdef".toList := by
  intro edits edits'
  have hwithin : edits.IsWithin "abcdef".toList.length := by
    refine ⟨fun r hr => ?_, fun i hi => ?_⟩
    · simp only [edits, List.mem_cons, List.not_mem_nil, or_false] at hr
      rcases hr with rfl | rfl | rfl <;> exact ⟨by decide, by decide, by decide⟩
    · simp only [edits, List.mem_cons, List.not_mem_nil, or_false] at hi
      rcases hi with rfl | rfl | rfl <;> decide
  have hrearranges : edits.Rearranges edits' := by
    refine ⟨by decide, fun i => ?_⟩
    by_cases h3 : (3 : Int) = i
    · subst h3
      rfl
    · simp [edits, edits', List.filter_cons, h3]
  obtain ⟨happly, horder⟩ := apply_eq_trim_positionwise hwithin
  exact ⟨hwithin, hrearranges, happly.trans (by decide), horder edits' hrearranges⟩

end EditSet
end CustomProps
