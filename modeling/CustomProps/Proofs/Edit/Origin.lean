import CustomProps.Proofs.Edit.Reading

/-!
# Where the characters of an edited text stem from

Every character of an edited text was inserted, or it was kept and stems from one position of the
text.  The kept ones stand in the order of their positions, and nothing but an insertion comes
between two that were neighbours.

* `EditSet.originsFrom` — what the edits leave at so many positions, each character with the
  position it stems from.
* `EditSet.originsFrom_eq_append` — what stands around a kept character.
-/

set_option autoImplicit false

namespace CustomProps
namespace EditSet

/-- What the edits leave at a position, each character with the position it stems from. -/
def origins (edits : EditSet) (t : Text) (i : Nat) : List (Char × Option Nat) :=
  ((edits.insertedAt i).getD []).map (·, none) ++
    if edits.covers i then [] else (t[i]?.map (·, some i)).toList

/-- The same at so many positions. -/
def originsFrom (edits : EditSet) (t : Text) (start count : Nat) : List (Char × Option Nat) :=
  (List.range' start count).flatMap (edits.origins t)

variable {edits : EditSet} {t : Text}

theorem map_fst_origins (i : Nat) : (edits.origins t i).map Prod.fst = edits.reading t i := by
  rw [origins, reading, List.map_append, List.map_map]
  congr 1
  · exact List.map_id _
  · split
    · rfl
    · cases t[i]? <;> rfl

theorem map_fst_originsFrom (start count : Nat) :
    (edits.originsFrom t start count).map Prod.fst = edits.readFrom t start count := by
  rw [originsFrom, readFrom, List.map_flatMap]
  exact List.flatMap_congr fun i _ => map_fst_origins i

theorem originsFrom_add (start m n : Nat) :
    edits.originsFrom t start (m + n) =
      edits.originsFrom t start m ++ edits.originsFrom t (start + m) n := by
  rw [originsFrom, ← List.range'_append_1, List.flatMap_append]
  rfl

theorem originsFrom_succ (start count : Nat) :
    edits.originsFrom t start (count + 1) =
      edits.origins t start ++ edits.originsFrom t (start + 1) count := by
  rw [originsFrom, List.range'_succ, List.flatMap_cons]
  rfl

/-- A kept character is the last that its position leaves. -/
theorem origins_eq_append {i p : Nat} {c : Char} {front back : List (Char × Option Nat)}
    (h : edits.origins t i = front ++ (c, some p) :: back) :
    p = i ∧ edits.covers i = false ∧ t[i]? = some c ∧
      front = ((edits.insertedAt i).getD []).map (·, none) ∧ back = [] := by
  have hnone : ∀ inserted : Text, (c, some p) ∉ inserted.map fun d => (d, (none : Option Nat)) := by
    intro inserted hmem
    obtain ⟨d, -, hd⟩ := List.mem_map.1 hmem
    cases hd
  rw [origins] at h
  cases hcovers : edits.covers i with
  | true =>
    rw [hcovers, if_pos rfl, List.append_nil] at h
    refine absurd ?_ (hnone ((edits.insertedAt i).getD []))
    rw [h]
    simp
  | false =>
    rw [hcovers, if_neg Bool.false_ne_true] at h
    rcases List.append_eq_append_iff.1 h with ⟨middle, hfront, hkept⟩ | ⟨middle, hfront, hkept⟩
    · cases hi : t[i]? with
      | none =>
        rw [hi] at hkept
        simp at hkept
      | some d =>
        rw [hi] at hkept
        obtain ⟨hmiddle, hcons⟩ : middle = [] ∧ [(d, some i)] = (c, some p) :: back := by
          cases middle with
          | nil => exact ⟨rfl, hkept⟩
          | cons e middle => simp at hkept
        obtain ⟨hd, rfl⟩ := List.cons.inj hcons
        obtain ⟨rfl, hp⟩ := Prod.mk.inj hd
        exact ⟨(Option.some.inj hp).symm, rfl, rfl, by rw [hfront, hmiddle, List.append_nil], rfl⟩
    · cases middle with
      | nil =>
        cases hi : t[i]? with
        | none =>
          rw [hi] at hkept
          simp at hkept
        | some d =>
          rw [hi] at hkept
          obtain ⟨hd, rfl⟩ := List.cons.inj hkept
          obtain ⟨rfl, hp⟩ := Prod.mk.inj hd
          refine ⟨Option.some.inj hp, rfl, rfl, ?_, rfl⟩
          rw [hfront, List.append_nil]
      | cons e middle =>
        obtain ⟨he, -⟩ := List.cons.inj hkept
        refine absurd ?_ (hnone ((edits.insertedAt i).getD []))
        rw [hfront, ← he]
        simp

/-- **What stands around a kept character**: in front, all that earlier positions leave and what is
inserted at its own; behind, all that later positions leave. -/
theorem originsFrom_eq_append {start count p : Nat} {c : Char}
    {front back : List (Char × Option Nat)}
    (h : edits.originsFrom t start count = front ++ (c, some p) :: back) :
    start ≤ p ∧ p < start + count ∧ edits.covers p = false ∧ t[p]? = some c ∧
      front = edits.originsFrom t start (p - start) ++
        ((edits.insertedAt p).getD []).map (·, none) ∧
      back = edits.originsFrom t (p + 1) (start + count - (p + 1)) := by
  induction count generalizing start front with
  | zero => simp [originsFrom] at h
  | succ count ih =>
    rw [originsFrom_succ] at h
    have hlater : ∀ front', edits.originsFrom t (start + 1) count = front' ++ (c, some p) :: back →
        start ≤ p ∧ p < start + (count + 1) ∧ edits.covers p = false ∧ t[p]? = some c ∧
          edits.origins t start ++ front' = edits.originsFrom t start (p - start) ++
            ((edits.insertedAt p).getD []).map (·, none) ∧
          back = edits.originsFrom t (p + 1) (start + (count + 1) - (p + 1)) := by
      intro front' hrest
      obtain ⟨hle, hlt, hcovers, hchar, hfront', hback⟩ := ih hrest
      refine ⟨by omega, by omega, hcovers, hchar, ?_, ?_⟩
      · rw [hfront', ← List.append_assoc, show p - start = (p - (start + 1)) + 1 by omega,
          originsFrom_succ]
      · rw [hback, show start + 1 + count = start + (count + 1) by omega]
    rcases List.append_eq_append_iff.1 h with ⟨front', hfront, hrest⟩ | ⟨kept, hkept, hrest⟩
    · rw [hfront]
      exact hlater front' hrest
    · cases kept with
      | nil =>
        rw [List.append_nil] at hkept
        rw [← hkept, ← List.append_nil (edits.origins t start)]
        exact hlater [] hrest.symm
      | cons e kept =>
        obtain ⟨rfl, hback⟩ := List.cons.inj hrest
        obtain ⟨rfl, hcovers, hchar, hfront, rfl⟩ := origins_eq_append hkept
        refine ⟨Nat.le_refl p, by omega, hcovers, hchar, ?_, ?_⟩
        · rw [Nat.sub_self, hfront]
          rfl
        · rw [hback, show p + (count + 1) - (p + 1) = count by omega]
          rfl

theorem kept_of_mem {start count p : Nat} {c : Char}
    (h : (c, some p) ∈ edits.originsFrom t start count) :
    edits.covers p = false ∧ t[p]? = some c := by
  obtain ⟨front, back, hsplit⟩ := List.append_of_mem h
  obtain ⟨-, -, hcovers, hchar, -⟩ := originsFrom_eq_append hsplit
  exact ⟨hcovers, hchar⟩

end EditSet
end CustomProps
