import CustomProps.Proofs.Reference.Settling
import CustomProps.Proofs.Text.Blank

/-!
# The edits compute the expansion

A value is edited in one flat run over its references, and read from left to right by
`Reference.expand`, which goes down into fallbacks.  Both give the same text.

The proof is by recursion on windows.  In front of the part of a reference that survives everything
is removed, the surviving part is a window again, and so is what stands behind the reference; each
window only touches itself.

* `Reference.IsWindow.induct` — recursion on windows.
* `Reference.IsWindow.readFrom_settle` — the edits leave of a window what its expansion is.
* `Reference.fallbackValue?_eq_expand` — the literal text of a value is its expansion, trimmed.
-/

set_option autoImplicit false

namespace CustomProps
namespace Reference

variable {value : Text} {pairs : List (Nat × Nat)} {lookup : Lookup}

/-! ## Equations of the expansion -/

theorem expand_nil (before : Option Char) : expand lookup before [] = [] := by
  rw [expand]

theorem expand_of_split?_eq_none {before : Option Char} {c : Char} {cs : Text}
    (h : split? before (c :: cs) = none) :
    expand lookup before (c :: cs) = c :: expand lookup (some c) cs := by
  rw [expand]
  split
  · rfl
  · rename_i hsome
    rw [h] at hsome
    cases hsome

/-- Without a `v` there is no reference to expand. -/
theorem expand_of_not_mem {t : Text} (h : 'v' ∉ t) (before : Option Char) :
    expand lookup before t = t := by
  induction t generalizing before with
  | nil => exact expand_nil before
  | cons c t ih =>
    have hnone : split? before (c :: t) = none := by
      rw [split?]
      rintro cs hc
      exact h (by rw [hc]; exact List.mem_cons_self)
    rw [expand_of_split?_eq_none hnone, ih fun hmem => h (List.mem_cons_of_mem c hmem)]

theorem expand_of_split?_eq_some {before : Option Char} {t inside rest : Text}
    (h : split? before t = some (inside, rest)) :
    expand lookup before t =
      (answer? lookup inside).getD [] ++
        (expand lookup none (survivor lookup inside) ++ expand lookup (some ')') rest) := by
  cases t with
  | nil => cases h
  | cons c cs =>
    rw [expand]
    split
    · rename_i hnone
      rw [h] at hnone
      cases hnone
    · rename_i hsome
      rw [h] at hsome
      obtain ⟨rfl, rfl⟩ := Prod.mk.inj (Option.some.inj hsome)
      rw [survivor, ← List.append_assoc]
      dsimp only
      refine congrArg (· ++ expand lookup (some ')') rest) ?_
      cases answer? lookup inside with
      | some answer => exact ((congrArg _ (expand_nil none)).trans (List.append_nil _)).symm
      | none =>
        dsimp only [Option.getD_none, List.nil_append]
        split
        · rename_i fallback hf
          rw [hf]
          rfl
        · rename_i hf
          rw [hf]
          exact (expand_nil none).symm

/-! ## The character in front of a window -/

theorem IsWindow.afterIdent_eq {x t y u : Text} {c : Char} (h : IsWindow value x t y)
    (hx : x = u ++ [c]) : afterIdent value x.length = Text.isIdent c := by
  rw [h.eq, hx, List.length_append, List.length_singleton, List.append_assoc,
    List.singleton_append]
  show ((u ++ c :: (t ++ y))[u.length]?).any Text.isIdent = _
  rw [List.getElem?_append_right (Nat.le_refl _), Nat.sub_self]
  rfl

namespace IsWindow

variable {x t y : Text}

/-! ## The edits of one window -/

/-- No reference stands where `split?` finds none. -/
theorem standing?_eq_none {before : Option Char} (h : IsWindow value x t y)
    (hpairs : parentheses value = some pairs)
    (hbefore : afterIdent value x.length = before.any Text.isIdent)
    (hsplit : split? before t = none) : standing? value pairs x.length = none := by
  rw [h.standing?_eq hpairs]
  split
  · rfl
  · rename_i hident
    rw [hbefore] at hident
    rw [← split?_of_not_ident (Bool.eq_false_iff.2 hident), hsplit, Option.map_none]

theorem standing?_eq_placed {before : Option Char} {inside rest : Text} (h : IsWindow value x t y)
    (hpairs : parentheses value = some pairs)
    (hbefore : afterIdent value x.length = before.any Text.isIdent)
    (hsplit : split? before t = some (inside, rest)) :
    standing? value pairs x.length = some (placed x.length inside) := by
  cases hident : before.any Text.isIdent with
  | true =>
    rw [split?_of_ident hident] at hsplit
    cases hsplit
  | false =>
    rw [split?_of_not_ident hident] at hsplit
    rw [h.standing?_eq hpairs, hbefore, hident, if_neg Bool.false_ne_true, hsplit]
    rfl

/-- A character that starts no reference stays. -/
theorem readFrom_settle_cons {c : Char} {cs : Text} (h : IsWindow value x (c :: cs) y)
    (hpairs : parentheses value = some pairs) (hnone : standing? value pairs x.length = none)
    {edits : EditSet} (hclear : edits.IsClear x.length (c :: cs).length) :
    (settle value lookup edits (standingFrom value pairs x.length (c :: cs).length)).readFrom value
        x.length (c :: cs).length =
      c :: (settle value lookup edits
        (standingFrom value pairs (x ++ [c]).length cs.length)).readFrom value (x ++ [c]).length
          cs.length := by
  have hlength : (x ++ [c]).length = x.length + 1 := by simp
  have hchar : value[x.length]? = some c := by
    rw [h.eq, List.getElem?_append_right (Nat.le_refl _), Nat.sub_self]
    rfl
  obtain ⟨hcovers, hinserted⟩ := h.tail.settle_outside hpairs lookup edits
    (j := x.length) (by omega)
  obtain ⟨hcovers', hinserted'⟩ := hclear x.length (Nat.le_refl _) (by simp)
  rw [List.length_cons, Nat.add_comm cs.length 1, standingFrom_add, standingFrom_one, hnone,
    Option.toList_none, List.nil_append, ← hlength, EditSet.readFrom_add, EditSet.readFrom_one,
    EditSet.reading, hcovers, hinserted, hcovers', hinserted', hchar, hlength]
  rfl

section Parts

/-! ### A reference at the start of a window

What it encloses falls into a front part, which is removed, and the part that survives.
-/

variable {inside rest front kept : Text} {edits : EditSet}

theorem placed_removed (edits : EditSet) (hvalue : value =
      x ++ (Declaration.referenceOpening ++ (inside ++ ')' :: (rest ++ y))))
    (hkept : survivor lookup inside = kept) (hfront : inside = front ++ kept) (j : Nat)
    (hj : x.length ≤ j ∧ j < x.length + 4 + front.length ∨ j = x.length + 4 + inside.length) :
    ((placed x.length inside).plan ((placed x.length inside).resolve value lookup) value
      edits).covers j = true := by
  have hinside := congrArg List.length hfront
  rw [List.length_append] at hinside
  rw [covers_plan hvalue, hkept]
  omega

theorem placed_agree (edits : EditSet) (hvalue : value =
      x ++ (Declaration.referenceOpening ++ (inside ++ ')' :: (rest ++ y))))
    (hkept : survivor lookup inside = kept) (hfront : inside = front ++ kept) (j : Nat)
    (hj : x.length + 4 + front.length ≤ j ∧ j ≠ x.length + 4 + inside.length) :
    ((placed x.length inside).plan ((placed x.length inside).resolve value lookup) value
        edits).covers j = edits.covers j ∧
      ((placed x.length inside).plan ((placed x.length inside).resolve value lookup) value
        edits).insertedAt j = edits.insertedAt j := by
  have hinside := congrArg List.length hfront
  rw [List.length_append] at hinside
  refine ⟨?_, ?_⟩
  · rw [Bool.eq_iff_iff, covers_plan hvalue, hkept]
    exact ⟨fun hc => hc.resolve_right (by omega), .inl⟩
  · rw [insertedAt_plan hvalue, if_neg (by omega)]

theorem length_to_nested : (x ++ (Declaration.referenceOpening ++ front)).length =
    x.length + 4 + front.length := by
  rw [List.length_append, List.length_append, Nat.add_assoc]
  rfl

theorem length_to_behind : (x ++ (Declaration.referenceOpening ++ (inside ++ [')']))).length =
    x.length + 4 + inside.length + 1 := by
  rw [length_to_nested, List.length_append]
  rfl

/-- The references of the surviving part only touch that part. -/
theorem settle_nested (h : IsWindow value x t y) (hpairs : parentheses value = some pairs)
    (hsplit : split? none t = some (inside, rest)) (hfront : inside = front ++ kept)
    (lookup : Lookup) (edits : EditSet) (j : Nat)
    (hj : j < x.length + 4 + front.length ∨ x.length + 4 + inside.length ≤ j) :
    (settle value lookup edits
        (standingFrom value pairs (x.length + 4 + front.length) kept.length)).covers j =
        edits.covers j ∧
      (settle value lookup edits
        (standingFrom value pairs (x.length + 4 + front.length) kept.length)).insertedAt j =
        edits.insertedAt j := by
  have hinside := congrArg List.length hfront
  rw [List.length_append] at hinside
  have := (h.nested hsplit hfront).settle_outside hpairs lookup edits (j := j)
    (by rw [length_to_nested]; omega)
  rwa [length_to_nested] at this

/-- The references behind the reference touch nothing up to its end. -/
theorem settle_behind (h : IsWindow value x t y) (hpairs : parentheses value = some pairs)
    (hsplit : split? none t = some (inside, rest)) (lookup : Lookup) (edits : EditSet) (j : Nat)
    (hj : j < x.length + 4 + inside.length + 1) :
    (settle value lookup edits
        (standingFrom value pairs (x.length + 4 + inside.length + 1) rest.length)).covers j =
        edits.covers j ∧
      (settle value lookup edits
        (standingFrom value pairs (x.length + 4 + inside.length + 1) rest.length)).insertedAt j =
        edits.insertedAt j := by
  have := (h.behind hsplit).settle_outside hpairs lookup edits (j := j)
    (by rw [length_to_behind]; omega)
  rwa [length_to_behind] at this

/-- The reference is resolved, then the references of the surviving part, then those behind it; all
others inside the reference are dead. -/
theorem liveAfter_reference (h : IsWindow value x t y)
    (hsplit : split? none t = some (inside, rest))
    (hstanding : standing? value pairs x.length = some (placed x.length inside))
    (hkept : survivor lookup inside = kept) (hfront : inside = front ++ kept)
    (hfree : edits.covers x.length = false) :
    liveAfter value lookup edits (standingFrom value pairs x.length t.length) =
      (placed x.length inside, (placed x.length inside).resolve value lookup) ::
        (liveAfter value lookup
          ((placed x.length inside).plan ((placed x.length inside).resolve value lookup) value
            edits)
          (standingFrom value pairs (x.length + 4 + front.length) kept.length) ++
        liveAfter value lookup
          (settle value lookup
            ((placed x.length inside).plan ((placed x.length inside).resolve value lookup) value
              edits)
            (standingFrom value pairs (x.length + 4 + front.length) kept.length))
          (standingFrom value pairs (x.length + 4 + inside.length + 1) rest.length)) := by
  obtain ⟨hvalue, htlen⟩ := h.eq_of_split? hsplit
  have hremoved := placed_removed edits hvalue hkept hfront
  have hinside := congrArg List.length hfront
  rw [List.length_append] at hinside
  have hstart : ¬edits.covers (placed x.length inside).start = true := Bool.eq_false_iff.1 hfree
  have hfirst : liveAfter value lookup edits [placed x.length inside] =
      [(placed x.length inside, (placed x.length inside).resolve value lookup)] := by
    rw [liveAfter, if_neg hstart]
    rfl
  have hown : settle value lookup edits [placed x.length inside] =
      (placed x.length inside).plan ((placed x.length inside).resolve value lookup) value
        edits := by
    rw [settle_singleton, settleOne, if_neg hstart]
  generalize (placed x.length inside).plan ((placed x.length inside).resolve value lookup)
    value edits = own at hremoved hown ⊢
  have hhead : ∀ r ∈ standingFrom value pairs (x.length + 1) (3 + front.length),
      own.covers r.start = true :=
    covers_of_mem_standingFrom fun j hle hlt => hremoved j (by omega)
  have hclose : ∀ refs, ∀ r ∈ standingFrom value pairs (x.length + 4 + inside.length) 1,
      (settle value lookup own refs).covers r.start = true := fun refs =>
    covers_of_mem_standingFrom fun j hle hlt =>
      covers_settle_of_covers (hremoved j (by omega)) refs
  have hparts : t.length = 1 + ((3 + front.length) + (kept.length + (1 + rest.length))) := by
    omega
  rw [hparts, standingFrom_add, standingFrom_one, hstanding, Option.toList_some, liveAfter_append,
    hfirst, hown, standingFrom_add, liveAfter_append, liveAfter_covered hhead, settle_covered hhead,
    List.nil_append, List.singleton_append, standingFrom_add, liveAfter_append,
    show x.length + 1 + (3 + front.length) = x.length + 4 + front.length by omega,
    standingFrom_add, liveAfter_append,
    show x.length + 4 + front.length + kept.length = x.length + 4 + inside.length by omega,
    liveAfter_covered (hclose _), settle_covered (hclose _), List.nil_append]

/-- The references of the surviving part and those behind the reference add their edits in turn; all
others inside the reference are dead. -/
theorem settle_reference (h : IsWindow value x t y) (hsplit : split? none t = some (inside, rest))
    (hstanding : standing? value pairs x.length = some (placed x.length inside))
    (hkept : survivor lookup inside = kept) (hfront : inside = front ++ kept)
    (hfree : edits.covers x.length = false) :
    settle value lookup edits (standingFrom value pairs x.length t.length) =
      settle value lookup
        (settle value lookup
          ((placed x.length inside).plan ((placed x.length inside).resolve value lookup) value
            edits)
          (standingFrom value pairs (x.length + 4 + front.length) kept.length))
        (standingFrom value pairs (x.length + 4 + inside.length + 1) rest.length) := by
  rw [← foldl_liveAfter, h.liveAfter_reference hsplit hstanding hkept hfront hfree,
    List.foldl_cons, List.foldl_append, foldl_liveAfter, foldl_liveAfter]

theorem isClear_own (h : IsWindow value x t y) (hsplit : split? none t = some (inside, rest))
    (hkept : survivor lookup inside = kept) (hfront : inside = front ++ kept)
    (hclear : edits.IsClear x.length t.length) :
    ((placed x.length inside).plan ((placed x.length inside).resolve value lookup) value
      edits).IsClear (x.length + 4 + front.length) kept.length := by
  obtain ⟨hvalue, htlen⟩ := h.eq_of_split? hsplit
  have hinside := congrArg List.length hfront
  rw [List.length_append] at hinside
  refine (hclear.mono (by omega) (by omega)).of_agree fun j hle hlt => ?_
  exact placed_agree edits hvalue hkept hfront j (by omega)

theorem isClear_behind (h : IsWindow value x t y) (hpairs : parentheses value = some pairs)
    (hsplit : split? none t = some (inside, rest))
    (hkept : survivor lookup inside = kept) (hfront : inside = front ++ kept)
    (hclear : edits.IsClear x.length t.length) :
    (settle value lookup
      ((placed x.length inside).plan ((placed x.length inside).resolve value lookup) value edits)
      (standingFrom value pairs (x.length + 4 + front.length) kept.length)).IsClear
        (x.length + 4 + inside.length + 1) rest.length := by
  obtain ⟨hvalue, htlen⟩ := h.eq_of_split? hsplit
  have hinside := congrArg List.length hfront
  rw [List.length_append] at hinside
  refine (hclear.mono (by omega) (by omega)).of_agree fun j hle hlt => ?_
  obtain ⟨hcovers, hinserted⟩ := h.settle_nested hpairs hsplit hfront lookup
    ((placed x.length inside).plan ((placed x.length inside).resolve value lookup) value edits) j
    (by omega)
  rw [hcovers, hinserted]
  exact placed_agree edits hvalue hkept hfront j (by omega)

/-- Of a reference its answer stays, and what the edits leave of the surviving part. -/
theorem readFrom_settle_reference {inner later : Text} (h : IsWindow value x t y)
    (hpairs : parentheses value = some pairs) (hsplit : split? none t = some (inside, rest))
    (hstanding : standing? value pairs x.length = some (placed x.length inside))
    (hkept : survivor lookup inside = kept) (hfront : inside = front ++ kept)
    (hclear : edits.IsClear x.length t.length)
    (hinner : ∀ edits' : EditSet, edits'.IsClear (x.length + 4 + front.length) kept.length →
      (settle value lookup edits' (standingFrom value pairs (x.length + 4 + front.length)
        kept.length)).readFrom value (x.length + 4 + front.length) kept.length = inner)
    (hlater : ∀ edits' : EditSet, edits'.IsClear (x.length + 4 + inside.length + 1) rest.length →
      (settle value lookup edits' (standingFrom value pairs (x.length + 4 + inside.length + 1)
        rest.length)).readFrom value (x.length + 4 + inside.length + 1) rest.length = later) :
    (settle value lookup edits (standingFrom value pairs x.length t.length)).readFrom value x.length
        t.length =
      (answer? lookup inside).getD [] ++ (inner ++ later) := by
  obtain ⟨hvalue, htlen⟩ := h.eq_of_split? hsplit
  have hinside := congrArg List.length hfront
  rw [List.length_append] at hinside
  rw [h.settle_reference hsplit hstanding hkept hfront (hclear _ (Nat.le_refl _) (by omega)).1]
  have hremoved := placed_removed edits hvalue hkept hfront
  have hinserted := insertedAt_plan hvalue lookup edits
  have hown_clear := h.isClear_own hsplit hkept hfront hclear
  have hnested_clear := h.isClear_behind hpairs hsplit hkept hfront hclear
  generalize (placed x.length inside).plan ((placed x.length inside).resolve value lookup)
    value edits = own at hremoved hinserted hown_clear hnested_clear ⊢
  have hnested := h.settle_nested hpairs hsplit hfront lookup own
  generalize hnested_eq : settle value lookup own
    (standingFrom value pairs (x.length + 4 + front.length) kept.length) = nested
    at hnested hnested_clear ⊢
  have hbehind := h.settle_behind hpairs hsplit lookup nested
  have hlater' := hlater nested hnested_clear
  generalize settle value lookup nested
    (standingFrom value pairs (x.length + 4 + inside.length + 1) rest.length) = all
    at hbehind hlater' ⊢
  have hinner' : all.readFrom value (x.length + 4 + front.length) kept.length = inner := by
    rw [EditSet.readFrom_congr fun j hle hlt => hbehind j (by omega), ← hnested_eq]
    exact hinner own hown_clear
  have hall : ∀ j : Nat, (j < x.length + 4 + front.length ∨ j = x.length + 4 + inside.length) →
      all.covers j = own.covers j ∧ all.insertedAt j = own.insertedAt j := by
    intro j hj
    rw [(hbehind j (by omega)).1, (hbehind j (by omega)).2]
    exact hnested j (by omega)
  have hhead : all.reading value x.length = (answer? lookup inside).getD [] := by
    rw [EditSet.reading, (hall _ (by omega)).1, (hall _ (by omega)).2, hremoved _ (by omega),
      hinserted, if_pos rfl, (hclear x.length (by omega) (by omega)).2, Option.or_none, if_pos rfl,
      List.append_nil]
  have hgone : ∀ j : Nat, x.length < j → j < x.length + t.length →
      (j < x.length + 4 + front.length ∨ j = x.length + 4 + inside.length) →
      all.covers j = true ∧ all.insertedAt j = none := by
    intro j hlt hlt' hj
    rw [(hall j hj).1, (hall j hj).2, hremoved j (by omega), hinserted, if_neg (by omega)]
    exact ⟨rfl, (hclear j (by omega) hlt').2⟩
  have hparts : t.length = 1 + ((3 + front.length) + (kept.length + (1 + rest.length))) := by
    omega
  rw [hparts, EditSet.readFrom_add, EditSet.readFrom_one, hhead, EditSet.readFrom_add,
    EditSet.readFrom_removed fun j hle hlt => hgone j (by omega) (by omega) (by omega),
    List.nil_append, EditSet.readFrom_add,
    show x.length + 1 + (3 + front.length) = x.length + 4 + front.length by omega, hinner',
    EditSet.readFrom_add,
    EditSet.readFrom_removed fun j hle hlt => hgone j (by omega) (by omega) (by omega),
    List.nil_append,
    show x.length + 4 + front.length + kept.length + 1 = x.length + 4 + inside.length + 1 by omega,
    hlater']

end Parts

/-! ### The whole window -/

theorem split?_none_of_eq_some {before : Option Char} {parts : Text × Text}
    (h : split? before t = some parts) : split? none t = some parts := by
  cases hident : before.any Text.isIdent with
  | true => rw [split?_of_ident hident] at h; cases h
  | false => rwa [← split?_of_not_ident hident]

/-- **Recursion on windows.**  A window begins with a character that stays, or with a reference;
then the part of it that survives is a window, and so is what stands behind it. -/
theorem induct (lookup : Lookup) (hpairs : parentheses value = some pairs)
    {motive : Text → Text → Option Char → Prop} (nil : ∀ x before, motive x [] before)
    (skip : ∀ x c cs y before, IsWindow value x (c :: cs) y →
      standing? value pairs x.length = none → split? before (c :: cs) = none →
      motive (x ++ [c]) cs (some c) → motive x (c :: cs) before)
    (reference : ∀ x t y before inside rest front, IsWindow value x t y →
      standing? value pairs x.length = some (placed x.length inside) →
      split? before t = some (inside, rest) → inside = front ++ survivor lookup inside →
      motive (x ++ (Declaration.referenceOpening ++ front)) (survivor lookup inside) none →
      motive (x ++ (Declaration.referenceOpening ++ (inside ++ [')']))) rest (some ')') →
      motive x t before)
    {before : Option Char} (h : IsWindow value x t y)
    (hbefore : t ≠ [] → afterIdent value x.length = before.any Text.isIdent) :
    motive x t before := by
  induction hn : t.length using Nat.strongRecOn generalizing x t y before with
  | ind n ih =>
  subst hn
  cases hsplit : split? before t with
  | none =>
    cases t with
    | nil => exact nil x before
    | cons c cs =>
      have hnone := h.standing?_eq_none hpairs (hbefore (List.cons_ne_nil c cs)) hsplit
      exact skip x c cs y before h hnone hsplit
        (ih cs.length (by simp) h.tail (fun _ => h.tail.afterIdent_eq rfl) rfl)
  | some parts =>
    obtain ⟨inside, rest⟩ := parts
    have hne : t ≠ [] := by
      rintro rfl
      cases hsplit
    have hstanding := h.standing?_eq_placed hpairs (hbefore hne) hsplit
    obtain ⟨front, hfront, hsurvivor⟩ := exists_survivor lookup inside
    have htlen := (h.eq_of_split? hsplit).2
    have hinside := congrArg List.length hfront
    rw [List.length_append] at hinside
    have hnested := h.nested hsplit hfront
    have hbehind := h.behind hsplit
    refine reference x t y before inside rest front h hstanding hsplit hfront
      (ih (survivor lookup inside).length (by omega) hnested (fun hkept => ?_) rfl)
      (ih rest.length (by omega) hbehind (fun _ => ?_) rfl)
    · -- the character in front ends every identifier, so the surviving part reads as a whole text
      obtain ⟨front', c, rfl, hc⟩ := hsurvivor hkept
      rw [hnested.afterIdent_eq (u := x ++ (Declaration.referenceOpening ++ front')) (c := c)
        (by simp only [List.append_assoc])]
      rcases hc with rfl | hc
      · rfl
      · exact Text.not_isIdent_of_isBlank hc
    · exact hbehind.afterIdent_eq (u := x ++ (Declaration.referenceOpening ++ inside))
        (by simp only [List.append_assoc])

/-- **The edits leave of a window what its expansion is.** -/
theorem readFrom_settle (h : IsWindow value x t y) (hpairs : parentheses value = some pairs)
    {before : Option Char}
    (hbefore : t ≠ [] → afterIdent value x.length = before.any Text.isIdent)
    {edits : EditSet} (hclear : edits.IsClear x.length t.length) :
    (settle value lookup edits (standingFrom value pairs x.length t.length)).readFrom value x.length
      t.length = expand lookup before t := by
  revert edits
  refine h.induct (motive := fun x t before => ∀ {edits : EditSet},
    edits.IsClear x.length t.length → (settle value lookup edits
      (standingFrom value pairs x.length t.length)).readFrom value x.length t.length =
        expand lookup before t) lookup hpairs ?nil ?skip ?reference hbefore
  case nil =>
    intro x before edits _
    rw [expand_nil, List.length_nil, EditSet.readFrom_zero]
  case skip =>
    intro x c cs y before h hnone hsplit ih edits hclear
    have hlength : (x ++ [c]).length = x.length + 1 := by simp
    rw [h.readFrom_settle_cons hpairs hnone hclear, expand_of_split?_eq_none hsplit,
      ih (hclear.mono (by omega) (by rw [List.length_cons]; omega))]
  case reference =>
    intro x t y before inside rest front h hstanding hsplit hfront hinner hlater edits hclear
    rw [expand_of_split?_eq_some hsplit]
    refine h.readFrom_settle_reference hpairs (split?_none_of_eq_some hsplit) hstanding rfl hfront
      hclear (fun edits' hedits' => ?_) fun edits' hedits' => ?_
    · rw [← length_to_nested] at hedits' ⊢
      exact hinner hedits'
    · rw [← length_to_behind] at hedits' ⊢
      exact hlater hedits'

end IsWindow

/-! ## The literal text of a value -/

theorem isWindow_self (hpairs : parentheses value = some pairs) : IsWindow value [] value [] where
  eq := by rw [List.nil_append, List.append_nil]
  closes := (isSome_parentheses.1 (hpairs ▸ rfl)).closesAll
  stop := .inl rfl

theorem isWindow_drop (hpairs : parentheses value = some pairs) (i : Nat) :
    IsWindow value (value.take i) (value.drop i) [] where
  eq := by rw [List.append_nil, List.take_append_drop]
  closes := by
    have hcloses := (isWindow_self hpairs).closes
    rw [← List.take_append_drop i value] at hcloses
    exact hcloses.of_append
  stop := .inl rfl

/-- Every reference of a balanced value stands at the start of a window. -/
theorem exists_window_of_standing? {i : Nat} {r : Reference}
    (hpairs : parentheses value = some pairs) (hr : standing? value pairs i = some r) :
    ∃ x t inside rest, IsWindow value x t [] ∧ x.length = i ∧
      split? none t = some (inside, rest) ∧ r = placed x.length inside := by
  obtain ⟨x, inside, y, hvalue, hx, -⟩ := standing?_eq_some hpairs hr
  have htake : value.take i = x := by rw [← hx, hvalue, List.take_left]
  have hwindow := isWindow_drop hpairs i
  rw [htake] at hwindow
  obtain ⟨inside, rest, hsplit, rfl⟩ := hwindow.exists_of_standing? hpairs (hx ▸ hr)
  exact ⟨x, _, inside, rest, hwindow, hx, hsplit, rfl⟩

/-- Every reference of a balanced value is one that `split?` finds. -/
theorem placed_of_standing? {i : Nat} {r : Reference} (hpairs : parentheses value = some pairs)
    (hr : standing? value pairs i = some r) :
    ∃ x inside y, value = x ++ (Declaration.referenceOpening ++ (inside ++ ')' :: y)) ∧
      x.length = i ∧ r = placed x.length inside := by
  obtain ⟨x, t, inside, rest, hwindow, hx, hsplit, rfl⟩ := exists_window_of_standing? hpairs hr
  exact ⟨x, inside, rest ++ [], (hwindow.eq_of_split? hsplit).1, hx, rfl⟩

/-- The references of a balanced value stand where references start. -/
theorem isSome_standing? (hpairs : parentheses value = some pairs) (i : Nat) :
    (standing? value pairs i).isSome ↔ StartsAt value i := by
  constructor
  · intro h
    obtain ⟨r, hr⟩ := Option.isSome_iff_exists.1 h
    obtain ⟨x, inside, y, rfl, rfl, hbefore⟩ := standing?_eq_some hpairs hr
    refine ⟨?_, hbefore⟩
    rw [List.drop_left]
    exact List.isPrefixOf_iff_prefix.2 (List.prefix_append _ _)
  · intro h
    have hlength : (value.take i).length = i := by
      have := h.lt_length
      rw [List.length_take]
      omega
    have hwindow := isWindow_drop hpairs i
    obtain ⟨z, hz⟩ := List.isPrefixOf_iff_prefix.1 h.1
    obtain ⟨k, hk⟩ := hwindow.closes keyword z hz.symm
    obtain ⟨inside, rest, rfl, rfl, -⟩ := Text.closing?_eq_some hk
    have hstanding := hwindow.standing?_eq hpairs
    rw [hlength, h.2, if_neg Bool.false_ne_true, ← hz, split?_opening hk] at hstanding
    rw [hstanding]
    rfl

/-- The first reference of a value is alive. -/
theorem live_eq_nil_iff (hpairs : parentheses value = some pairs) :
    live value lookup = [] ↔ ¬Mentioned value := by
  have hfirst : ∀ refs : List Reference,
      liveAfter value lookup EditSet.empty refs = [] ↔ refs = [] := by
    intro refs
    cases refs with
    | nil => exact ⟨fun _ => rfl, fun _ => rfl⟩
    | cons r rs => simp [liveAfter, EditSet.covers_empty]
  rw [live, all?_eq_standingFrom hpairs, Option.getD_some, hfirst, standingFrom,
    List.filterMap_eq_nil_iff, mentioned_iff_exists_lt]
  constructor
  · rintro h ⟨i, hi, hstarts⟩
    have hsome := (isSome_standing? hpairs i).2 hstarts
    rw [h i (List.mem_range'_1.2 (by omega))] at hsome
    cases hsome
  · intro h i hi
    have hlt := (List.mem_range'_1.1 hi).2
    cases hr : standing? value pairs i with
    | none => rfl
    | some r =>
      refine absurd ⟨i, by omega, ?_⟩ h
      rw [← isSome_standing? hpairs, hr]
      rfl

/-- The edits of the live references are those of all references in turn. -/
theorem planAll_live (hpairs : parentheses value = some pairs) :
    planAll value (live value lookup) =
      settle value lookup .empty (standingFrom value pairs 0 value.length) := by
  rw [planAll, live, foldl_liveAfter, all?_eq_standingFrom hpairs, Option.getD_some]

theorem isWithin_planAll_live (hpairs : parentheses value = some pairs) :
    (planAll value (live value lookup)).IsWithin value.length := by
  rw [planAll_live hpairs]
  exact (isWindow_self hpairs).isWithin_settle hpairs lookup (EditSet.isWithin_empty value.length)

/-- The edits of the live references leave the expansion. -/
theorem apply_planAll_live (hpairs : parentheses value = some pairs) :
    (planAll value (live value lookup)).apply value = Text.trim (expand lookup none value) := by
  have hwindow := isWindow_self hpairs
  have hreadFrom : _ = expand lookup none value := hwindow.readFrom_settle hpairs (fun _ => rfl)
    (EditSet.isClear_empty 0 value.length)
  obtain ⟨-, hinserted⟩ := hwindow.settle_outside hpairs lookup .empty
    (j := value.length) (.inr (Nat.le_of_eq (Nat.zero_add _)))
  rw [List.length_nil] at hreadFrom hinserted
  rw [EditSet.apply_eq_trim_readFrom (isWithin_planAll_live hpairs), planAll_live hpairs,
    EditSet.readFrom_add, EditSet.readFrom_one, hreadFrom, Nat.zero_add, EditSet.reading, hinserted,
    EditSet.insertedAt_empty, List.getElem?_eq_none (Nat.le_refl _), Option.getD_none,
    Option.toList_none, ite_self, List.append_nil, List.append_nil]

theorem fallbackValue?_of_live_eq_nil (h : live value lookup = []) :
    fallbackValue? value lookup = none := by
  rw [fallbackValue?, h]

theorem fallbackValue?_of_not_mentioned (h : ¬Mentioned value) :
    fallbackValue? value lookup = none := by
  cases hpairs : parentheses value with
  | none =>
    exact fallbackValue?_of_live_eq_nil (live_eq_nil_of_all?_eq_none (all?_eq_none_iff.2 hpairs))
  | some pairs => exact fallbackValue?_of_live_eq_nil ((live_eq_nil_iff hpairs).2 h)

theorem fallbackValue?_of_not_balanced (h : ¬value.IsBalanced) :
    fallbackValue? value lookup = none := by
  refine fallbackValue?_of_live_eq_nil (live_eq_nil_of_all?_eq_none (all?_eq_none_iff.2 ?_))
  rwa [← Option.not_isSome_iff_eq_none, isSome_parentheses]

/-- A balanced value with references becomes what the edits of its live references leave. -/
theorem fallbackValue?_of_mentioned (hpairs : parentheses value = some pairs)
    (h : Mentioned value) : fallbackValue? value lookup =
      Text.nonBlank? ((planAll value (live value lookup)).readFrom value 0 (value.length + 1)) := by
  have hlive : live value lookup ≠ [] := fun hnil => (live_eq_nil_iff hpairs).1 hnil h
  rw [fallbackValue?]
  split
  · contradiction
  · rw [EditSet.apply_eq_trim_readFrom (isWithin_planAll_live hpairs), Text.nonBlank?]
    split <;> rename_i heq <;> rw [heq] <;> rfl

theorem fallbackValue?_of_balanced (hbalanced : value.IsBalanced) (hmentioned : Mentioned value) :
    fallbackValue? value lookup = Text.nonBlank? (expand lookup none value) := by
  obtain ⟨pairs, hpairs⟩ := Option.isSome_iff_exists.1 (isSome_parentheses.2 hbalanced)
  rw [fallbackValue?_of_mentioned hpairs hmentioned, Text.nonBlank?, Text.nonBlank?,
    ← EditSet.apply_eq_trim_readFrom (isWithin_planAll_live hpairs), apply_planAll_live hpairs]

/-- A value that is one reference comes down to the answer for it and to what survives of it, if no
reference survives. -/
theorem fallbackValue?_of_split? {inside : Text} (hbalanced : value.IsBalanced)
    (hmentioned : Mentioned value) (hsplit : split? none value = some (inside, []))
    (hsurvivor : 'v' ∉ survivor lookup inside) : fallbackValue? value lookup =
      Text.nonBlank? ((answer? lookup inside).getD [] ++ survivor lookup inside) := by
  rw [fallbackValue?_of_balanced hbalanced hmentioned, expand_of_split?_eq_some hsplit,
    expand_of_not_mem hsurvivor, expand_nil, List.append_nil]

/-- **The literal text of a balanced value with references is its expansion, trimmed, unless nothing
is left; other values have none.** -/
theorem fallbackValue?_eq_expand (value : Text) (lookup : Lookup) :
    fallbackValue? value lookup =
      if value.IsBalanced ∧ Mentioned value then Text.nonBlank? (expand lookup none value)
      else none := by
  by_cases hmentioned : Mentioned value
  · by_cases hbalanced : value.IsBalanced
    · rw [if_pos ⟨hbalanced, hmentioned⟩, fallbackValue?_of_balanced hbalanced hmentioned]
    · rw [if_neg fun h => hbalanced h.1, fallbackValue?_of_not_balanced hbalanced]
  · rw [if_neg fun h => hmentioned h.2, fallbackValue?_of_not_mentioned hmentioned]

end Reference
end CustomProps
