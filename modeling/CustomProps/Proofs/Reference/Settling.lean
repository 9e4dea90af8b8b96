import CustomProps.Proofs.Edit.Reading
import CustomProps.Proofs.Reference.Standing

/-!
# Settling the references of a value

The edits of a reference remove all of it but the part of its fallback that is kept, and insert its
answer.  A run of references adds its edits in turn, and a reference that is removed by then adds
nothing.

* `Reference.survivor` — the part of the text inside a reference that is left where it is.
* `Reference.covers_plan`, `Reference.insertedAt_plan` — what the edits of a reference do.
* `Reference.settle` — the edits of a run of references, the dead ones skipped.
* `Reference.IsWindow.settle_outside` — the references of a window only touch the window.
* `Reference.settle_covered` — references that are all removed add nothing.
-/

set_option autoImplicit false

namespace CustomProps
namespace Reference

variable {value : Text} {pairs : List (Nat × Nat)} {lookup : Lookup}

/-! ## What is left of a reference -/

/-- The part of the text inside a reference that is left where it is: nothing next to an answer,
else the fallback without its leading blanks. -/
def survivor (lookup : Lookup) (inside : Text) : Text :=
  match answer? lookup inside with
  | some _ => []
  | none => Text.trimLeft ((fallbackPart? inside).getD [])

/-- In front of the surviving part stands nothing, or a comma, or a blank. -/
theorem exists_survivor (lookup : Lookup) (inside : Text) :
    ∃ front, inside = front ++ survivor lookup inside ∧
      (survivor lookup inside ≠ [] → ∃ front' c, front = front' ++ [c] ∧
        (c = ',' ∨ Text.isBlank c = true)) := by
  unfold survivor
  cases answer? lookup inside with
  | some answer => exact ⟨inside, by rw [List.append_nil], fun h => absurd rfl h⟩
  | none =>
    dsimp only
    cases hf : fallbackPart? inside with
    | none => exact ⟨inside, by simp [Text.trimLeft], fun h => absurd rfl h⟩
    | some fallback =>
      have hinside := namePart_append_of_some hf
      refine ⟨namePart inside ++ ',' :: fallback.takeWhile Text.isBlank, ?_, fun _ => ?_⟩
      · rw [Option.getD_some, Text.trimLeft, List.append_assoc, List.cons_append,
          List.takeWhile_append_dropWhile, hinside]
      · rcases List.eq_nil_or_concat (fallback.takeWhile Text.isBlank) with hnil | ⟨blanks, c, hc⟩
        · exact ⟨namePart inside, ',', by rw [hnil], .inl rfl⟩
        · have hmem : c ∈ fallback.takeWhile Text.isBlank := by
            rw [hc]
            simp
          refine ⟨namePart inside ++ ',' :: blanks, c, ?_,
            .inr (List.all_eq_true.1 List.all_takeWhile c hmem)⟩
          rw [hc, List.concat_eq_append, List.append_assoc, List.cons_append]

theorem length_survivor_le (lookup : Lookup) (inside : Text) :
    (survivor lookup inside).length ≤ inside.length := by
  obtain ⟨front, hfront, -⟩ := exists_survivor lookup inside
  have := congrArg List.length hfront
  rw [List.length_append] at this
  omega

/-- The text in front of the comma, or of the closing parenthesis when there is no comma, as it
stands. -/
def nameText (r : Reference) (value : Text) : Text :=
  value.slice (r.openParen + 1) (r.comma.getD r.closeParen)

/-! ## The edits of a reference -/

theorem nameStop_placed (i : Nat) (inside : Text) :
    i + 4 ≤ (placed i inside).nameStop ∧ (placed i inside).nameStop ≤ i + 4 + inside.length := by
  rw [nameStop, fallbackStart, placed]
  cases hf : fallbackPart? inside with
  | none => exact ⟨Nat.le_add_right _ _, Nat.le_refl _⟩
  | some fallback =>
    have hlength := congrArg List.length (namePart_append_of_some hf)
    rw [List.length_append, List.length_cons] at hlength
    simp only [Option.map_some, Option.getD_some]
    omega

section Placed

variable {x inside y : Text}
  (hvalue : value = x ++ (Declaration.referenceOpening ++ (inside ++ ')' :: y)))

include hvalue

theorem nameText_placed : (placed x.length inside).nameText value = namePart inside := by
  show value.slice (x.length + 3 + 1)
    ((placed x.length inside).comma.getD (x.length + 4 + inside.length)) = namePart inside
  cases hf : fallbackPart? inside with
  | none =>
    rw [namePart_of_none hf, placed, hf]
    exact slice_inside hvalue [] _ [] (by simp)
  | some fallback =>
    rw [placed, hf]
    exact slice_inside hvalue [] _ _ (namePart_append_of_some hf).symm

theorem name_placed : (placed x.length inside).name value = Text.trim (namePart inside) :=
  congrArg Text.trim (nameText_placed hvalue)

theorem rootValue?_placed :
    (placed x.length inside).rootValue? value lookup = answer? lookup inside := by
  rw [rootValue?, name_placed hvalue, answer?]

theorem blankStop_placed {fallback : Text} (hf : fallbackPart? inside = some fallback) :
    (placed x.length inside).blankStop value + (Text.trimLeft fallback).length =
      x.length + 4 + inside.length := by
  have hinside := namePart_append_of_some hf
  have hstop : (placed x.length inside).nameStop = x.length + 4 + (namePart inside).length + 1 := by
    rw [nameStop, fallbackStart, placed, hf]
    rfl
  have hlength := congrArg List.length hinside
  have hslice := slice_inside hvalue (namePart inside ++ [',']) fallback [] (by simp [hinside])
  rw [List.length_append, List.length_cons] at hlength
  rw [List.length_append, List.length_singleton, ← Nat.add_assoc] at hslice
  have hblanks := congrArg List.length
    (List.takeWhile_append_dropWhile (p := Text.isBlank) (l := fallback))
  rw [List.length_append] at hblanks
  rw [blankStop, hstop, show (placed x.length inside).closeParen =
    x.length + 4 + (namePart inside).length + 1 + fallback.length by simp only [placed]; omega,
    hslice, Text.trimLeft]
  omega

/-- What the edits of a reference remove: its keyword, its parentheses, and what they enclose up to
the part that survives. -/
theorem covers_plan (lookup : Lookup) (edits : EditSet) (j : Nat) :
    ((placed x.length inside).plan ((placed x.length inside).resolve value lookup) value
        edits).covers j = true ↔
      edits.covers j = true ∨
      (x.length ≤ j ∧ j + (survivor lookup inside).length < x.length + 4 + inside.length) ∨
      j = x.length + 4 + inside.length := by
  have hstart : (placed x.length inside).start = x.length := rfl
  have hclose : (placed x.length inside).closeParen = x.length + 4 + inside.length := rfl
  rw [resolve, rootValue?_placed hvalue, survivor]
  cases answer? lookup inside with
  | some answer =>
    simp only [plan, EditSet.covers_insert, EditSet.covers_remove, Bool.or_eq_true,
      decide_eq_true_eq, hstart, hclose, List.length_nil, or_assoc]
    have := nameStop_placed x.length inside
    refine or_congr_right ?_
    omega
  | none =>
    cases hf : fallbackPart? inside with
    | none =>
      have hnone : (placed x.length inside).hasFallback = false := by
        rw [hasFallback, placed, hf]
        rfl
      have hstop : (placed x.length inside).nameStop = x.length + 4 + inside.length := by
        rw [nameStop, fallbackStart, placed, hf]
        rfl
      rw [hnone]
      simp only [plan, EditSet.covers_remove, Bool.or_eq_true, decide_eq_true_eq, hstart, hclose,
        hstop, Option.getD_none, Text.trimLeft, List.dropWhile_nil, List.length_nil, or_assoc,
        if_neg Bool.false_ne_true]
      refine or_congr_right ?_
      omega
    | some fallback =>
      have hsome : (placed x.length inside).hasFallback = true := by
        rw [hasFallback, placed, hf]
        rfl
      have hstop := blankStop_placed hvalue hf
      rw [hsome]
      simp only [plan, EditSet.covers_remove, Bool.or_eq_true, decide_eq_true_eq, hstart, hclose,
        Option.getD_some, or_assoc, if_true]
      have := nameStop_placed x.length inside
      have hle : (placed x.length inside).nameStop ≤ (placed x.length inside).blankStop value :=
        Nat.le_add_right _ _
      refine or_congr_right ?_
      omega

/-- The edits of a reference insert its answer where it starts. -/
theorem insertedAt_plan (lookup : Lookup) (edits : EditSet) (j : Nat) :
    ((placed x.length inside).plan ((placed x.length inside).resolve value lookup) value
        edits).insertedAt j =
      if x.length = j then (answer? lookup inside).or (edits.insertedAt j)
      else edits.insertedAt j := by
  have hstart : (placed x.length inside).start = x.length := rfl
  rw [resolve, rootValue?_placed hvalue]
  cases answer? lookup inside with
  | some answer =>
    simp only [plan, EditSet.insertedAt_insert, EditSet.insertedAt_remove, hstart, Int.ofNat_inj,
      Option.some_or]
  | none =>
    rw [Option.none_or, ite_self]
    cases (placed x.length inside).hasFallback with
    | true => simp only [plan, EditSet.insertedAt_remove, if_true]
    | false => simp only [plan, EditSet.insertedAt_remove, if_neg Bool.false_ne_true]

theorem isWithin_plan (lookup : Lookup) {edits : EditSet} (h : edits.IsWithin value.length) :
    ((placed x.length inside).plan ((placed x.length inside).resolve value lookup) value
        edits).IsWithin value.length := by
  have hlength := length_of_eq_placed hvalue
  have hstart : (placed x.length inside).start = x.length := rfl
  have hclose : (placed x.length inside).closeParen = x.length + 4 + inside.length := rfl
  have hname := nameStop_placed x.length inside
  have hhead := (h.remove (placed x.length inside).start (placed x.length inside).nameStop
    (by omega) (by omega)).remove (placed x.length inside).closeParen
    ((placed x.length inside).closeParen + 1) (by omega) (by omega)
  rw [resolve]
  cases (placed x.length inside).rootValue? value lookup with
  | some answer => exact (hhead.remove _ _ (by omega) (by omega)).insert (by omega) answer
  | none =>
    by_cases hf : (placed x.length inside).hasFallback = true
    · obtain ⟨comma, hcomma⟩ := Option.isSome_iff_exists.1 hf
      obtain ⟨fallback, hfallback, -⟩ := Option.map_eq_some_iff.1 hcomma
      have hblank := blankStop_placed hvalue hfallback
      dsimp only
      rw [if_pos hf]
      exact hhead.remove _ _ (by omega) (by omega)
    · dsimp only
      rw [if_neg hf]
      exact hhead

end Placed

theorem covers_plan_of_covers {edits : EditSet} {j : Nat} (h : edits.covers j = true)
    (r : Reference) (resolution : Resolution) (value : Text) :
    (r.plan resolution value edits).covers j = true := by
  cases resolution <;> simp [plan, EditSet.covers_insert, EditSet.covers_remove, h]

/-! ## The edits of a run of references -/

/-- The edits of one more reference, unless it is dead by now. -/
def settleOne (value : Text) (lookup : Lookup) (edits : EditSet) (r : Reference) : EditSet :=
  if edits.covers r.start then edits else r.plan (r.resolve value lookup) value edits

/-- The edits of a run of references, added in turn to those already there. -/
def settle (value : Text) (lookup : Lookup) (edits : EditSet) (refs : List Reference) : EditSet :=
  refs.foldl (settleOne value lookup) edits

theorem settle_singleton (edits : EditSet) (r : Reference) :
    settle value lookup edits [r] = settleOne value lookup edits r :=
  rfl

theorem settle_append (edits : EditSet) (refs later : List Reference) :
    settle value lookup edits (refs ++ later) =
      settle value lookup (settle value lookup edits refs) later :=
  List.foldl_append

/-- The edits of the live references are those of all references, the dead ones skipped. -/
theorem foldl_liveAfter (edits : EditSet) (refs : List Reference) :
    (liveAfter value lookup edits refs).foldl
      (fun edits (r, resolution) => r.plan resolution value edits) edits =
      settle value lookup edits refs := by
  induction refs generalizing edits with
  | nil => rfl
  | cons r rs ih =>
    rw [settle, List.foldl_cons, settleOne, liveAfter]
    split
    · exact ih edits
    · exact ih _

theorem liveAfter_append (edits : EditSet) (refs later : List Reference) :
    liveAfter value lookup edits (refs ++ later) = liveAfter value lookup edits refs ++
      liveAfter value lookup (settle value lookup edits refs) later := by
  induction refs generalizing edits with
  | nil => rfl
  | cons r rs ih =>
    rw [List.cons_append, liveAfter, liveAfter, settle, List.foldl_cons, settleOne]
    split
    · exact ih edits
    · exact congrArg _ (ih _)

theorem covers_settle_of_covers {edits : EditSet} {j : Nat} (h : edits.covers j = true)
    (refs : List Reference) : (settle value lookup edits refs).covers j = true := by
  induction refs generalizing edits with
  | nil => exact h
  | cons r rs ih =>
    refine ih ?_
    unfold settleOne
    split
    · exact h
    · exact covers_plan_of_covers h _ _ _

/-- References that are all removed add nothing. -/
theorem settle_covered {edits : EditSet} {refs : List Reference}
    (h : ∀ r ∈ refs, edits.covers r.start = true) : settle value lookup edits refs = edits := by
  induction refs with
  | nil => rfl
  | cons r rs ih =>
    rw [settle, List.foldl_cons, settleOne, if_pos (h r (by simp))]
    exact ih fun s hs => h s (List.mem_cons_of_mem _ hs)

/-- References that are all removed are not resolved. -/
theorem liveAfter_covered {edits : EditSet} {refs : List Reference}
    (h : ∀ r ∈ refs, edits.covers r.start = true) : liveAfter value lookup edits refs = [] := by
  induction refs with
  | nil => rfl
  | cons r rs ih =>
    rw [liveAfter, if_pos (h r (by simp))]
    exact ih fun s hs => h s (List.mem_cons_of_mem _ hs)

theorem standingFrom_add (start m n : Nat) :
    standingFrom value pairs start (m + n) =
      standingFrom value pairs start m ++ standingFrom value pairs (start + m) n := by
  rw [standingFrom, ← List.range'_append_1, List.filterMap_append]
  rfl

theorem standingFrom_one (start : Nat) :
    standingFrom value pairs start 1 = (standing? value pairs start).toList := by
  rw [standingFrom, List.range'_one]
  cases h : standing? value pairs start <;> simp [h]

theorem start_of_standing? {i : Nat} {r : Reference} (h : standing? value pairs i = some r) :
    r.start = i := by
  unfold standing? at h
  split at h
  · exact (at?_start h).1
  · cases h

theorem start_of_mem_standingFrom {start count : Nat} {r : Reference}
    (h : r ∈ standingFrom value pairs start count) : start ≤ r.start ∧ r.start < start + count := by
  obtain ⟨i, hi, hr⟩ := List.mem_filterMap.1 h
  rw [start_of_standing? hr]
  exact List.mem_range'_1.1 hi

theorem covers_of_mem_standingFrom {edits : EditSet} {start count : Nat}
    (h : ∀ j : Nat, start ≤ j → j < start + count → edits.covers j = true) :
    ∀ r ∈ standingFrom value pairs start count, edits.covers r.start = true := by
  intro r hr
  obtain ⟨hle, hlt⟩ := start_of_mem_standingFrom hr
  exact h _ hle hlt

namespace IsWindow

variable {x t y : Text}

/-- **The references of a window only touch the window.** -/
theorem settle_outside (h : IsWindow value x t y) (hpairs : parentheses value = some pairs)
    (lookup : Lookup) (edits : EditSet) {j : Nat} (hj : j < x.length ∨ x.length + t.length ≤ j) :
    (settle value lookup edits (standingFrom value pairs x.length t.length)).covers j =
        edits.covers j ∧
      (settle value lookup edits (standingFrom value pairs x.length t.length)).insertedAt j =
        edits.insertedAt j := by
  induction t generalizing x edits with
  | nil => exact ⟨rfl, rfl⟩
  | cons c cs ih =>
    have hlength : (x ++ [c]).length = x.length + 1 := by simp
    rw [List.length_cons] at hj ⊢
    rw [Nat.add_comm cs.length 1, standingFrom_add, standingFrom_one, settle_append, ← hlength]
    obtain ⟨hcovers, hinserted⟩ :=
      ih h.tail (settle value lookup edits (standing? value pairs x.length).toList)
        (by rw [hlength]; omega)
    rw [hcovers, hinserted]
    cases hr : standing? value pairs x.length with
    | none => exact ⟨rfl, rfl⟩
    | some r =>
      obtain ⟨inside, rest, hsplit, rfl⟩ := h.exists_of_standing? hpairs hr
      obtain ⟨hvalue, hlen⟩ := h.eq_of_split? hsplit
      rw [List.length_cons] at hlen
      rw [Option.toList_some, settle_singleton, settleOne]
      split
      · exact ⟨rfl, rfl⟩
      · refine ⟨?_, ?_⟩
        · rw [Bool.eq_iff_iff, covers_plan hvalue]
          exact ⟨fun hc => hc.resolve_right (by omega), .inl⟩
        · rw [insertedAt_plan hvalue, if_neg (by omega)]

theorem isWithin_settle (h : IsWindow value x t y) (hpairs : parentheses value = some pairs)
    (lookup : Lookup) {edits : EditSet} (hedits : edits.IsWithin value.length) :
    (settle value lookup edits (standingFrom value pairs x.length t.length)).IsWithin
      value.length := by
  induction t generalizing x edits with
  | nil => exact hedits
  | cons c cs ih =>
    have hlength : (x ++ [c]).length = x.length + 1 := by simp
    rw [List.length_cons, Nat.add_comm cs.length 1, standingFrom_add, standingFrom_one,
      settle_append, ← hlength]
    refine ih h.tail ?_
    cases hr : standing? value pairs x.length with
    | none => exact hedits
    | some r =>
      obtain ⟨inside, rest, hsplit, rfl⟩ := h.exists_of_standing? hpairs hr
      obtain ⟨hvalue, -⟩ := h.eq_of_split? hsplit
      rw [Option.toList_some, settle_singleton, settleOne]
      split
      · exact hedits
      · exact isWithin_plan hvalue lookup hedits

end IsWindow

end Reference
end CustomProps
