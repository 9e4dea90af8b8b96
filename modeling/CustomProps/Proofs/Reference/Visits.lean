import CustomProps.Proofs.Reference.Liveness

/-!
# The references that the expansion comes to

Read from left to right, a text is expanded by going down into the surviving part of each reference
and on behind it.  The references that are met on the way are the live ones, so what is known of the
live references of a value can be used in an induction along its expansion.

* `Reference.Visits` — the expansion of a text comes to a reference between two parts of it.
* `Reference.Visits.eq_written` — what stands there.
* `Reference.VisitsAt` — the same by the place of the reference, with one lemma for each way in
  which a text begins.
* `Reference.isLive_iff_visits` — the live references are those that the expansion comes to.
-/

set_option autoImplicit false

namespace CustomProps
namespace Reference

variable {value : Text} {pairs : List (Nat × Nat)} {lookup : Lookup}

/-- The text of a reference, and what follows. -/
def written (inside behind : Text) : Text :=
  Declaration.referenceOpening ++ (inside ++ ')' :: behind)

/-- A reference leaves the depth as it is. -/
theorem depthAfter?_written {inside : Text} (h : inside.IsBalanced) (depth : Nat) (behind : Text) :
    Text.depthAfter? depth (written inside behind) = Text.depthAfter? depth behind := by
  show Text.depthAfter? depth ('v' :: 'a' :: 'r' :: '(' :: (inside ++ ')' :: behind)) = _
  rw [Text.depthAfter?_other (by decide), Text.depthAfter?_other (by decide),
    Text.depthAfter?_other (by decide), h.depthAfter?_enclosed]

/-- The expansion of a text comes to a reference: `front` stands before it, `inside` between its
parentheses, and `behind` after it. -/
inductive Visits (lookup : Lookup) : Option Char → Text → Text → Text → Text → Prop
  /-- It stands at the start of the text. -/
  | here {before : Option Char} {t inside rest : Text}
      (hsplit : split? before t = some (inside, rest)) : Visits lookup before t [] inside rest
  /-- It stands behind a character that starts no reference. -/
  | skip {before : Option Char} {c : Char} {cs front inside behind : Text}
      (hsplit : split? before (c :: cs) = none)
      (hrest : Visits lookup (some c) cs front inside behind) :
      Visits lookup before (c :: cs) (c :: front) inside behind
  /-- It stands in the surviving part of the first reference. -/
  | nested {before : Option Char} {t lead kept rest front inside behind : Text}
      (hsplit : split? before t = some (lead ++ kept, rest))
      (hkept : survivor lookup (lead ++ kept) = kept)
      (hinner : Visits lookup none kept front inside behind) :
      Visits lookup before t (Declaration.referenceOpening ++ (lead ++ front)) inside
        (behind ++ ')' :: rest)
  /-- It stands behind the first reference. -/
  | behind {before : Option Char} {t inside' rest front inside behind : Text}
      (hsplit : split? before t = some (inside', rest))
      (hrest : Visits lookup (some ')') rest front inside behind) :
      Visits lookup before t (Declaration.referenceOpening ++ (inside' ++ ')' :: front)) inside
        behind

namespace Visits

variable {before : Option Char} {t front inside behind : Text}

/-- What stands where the expansion comes to a reference. -/
theorem eq_written (h : Visits lookup before t front inside behind) :
    t = front ++ written inside behind ∧ inside.IsBalanced := by
  induction h with
  | here hsplit =>
    obtain ⟨-, ht, hinside⟩ := split?_eq_some_iff.1 hsplit
    exact ⟨ht, hinside⟩
  | skip hsplit hrest ih => exact ⟨congrArg _ ih.1, ih.2⟩
  | nested hsplit hkept hinner ih =>
    refine ⟨?_, ih.2⟩
    rw [(split?_eq_some_iff.1 hsplit).2.1, ih.1]
    simp only [written, List.append_assoc, List.cons_append]
  | behind hsplit hrest ih =>
    refine ⟨?_, ih.2⟩
    rw [(split?_eq_some_iff.1 hsplit).2.1, ih.1]
    simp only [List.append_assoc, List.cons_append]

end Visits

/-! ## By the place of the reference -/

/-- The expansion of a text that begins at a position comes to a reference. -/
def VisitsAt (lookup : Lookup) (before : Option Char) (t : Text) (start : Nat) (r : Reference) :
    Prop :=
  ∃ front inside behind, Visits lookup before t front inside behind ∧
    r = placed (start + front.length) inside

section VisitsAt

variable {before : Option Char} {t : Text} {start : Nat} {r : Reference}

theorem not_visitsAt_nil : ¬VisitsAt lookup before [] start r := by
  rintro ⟨front, inside, behind, h, -⟩
  have hlength := congrArg List.length h.eq_written.1
  simp [written] at hlength

/-- Behind a character that starts no reference the expansion goes on. -/
theorem visitsAt_cons_iff {c : Char} {cs : Text} (hsplit : split? before (c :: cs) = none) :
    VisitsAt lookup before (c :: cs) start r ↔ VisitsAt lookup (some c) cs (start + 1) r := by
  have hstart : ∀ front : Text, start + (c :: front).length = start + 1 + front.length := by
    intro front
    rw [List.length_cons, Nat.add_right_comm, Nat.add_assoc]
  constructor
  · rintro ⟨_, inside, behind, hsome | ⟨-, hrest⟩ | ⟨hsome, -, -⟩ | ⟨hsome, -⟩, rfl⟩
    · cases hsplit.symm.trans hsome
    · exact ⟨_, inside, behind, hrest, by rw [hstart]⟩
    · cases hsplit.symm.trans hsome
    · cases hsplit.symm.trans hsome
  · rintro ⟨front, inside, behind, hrest, rfl⟩
    exact ⟨c :: front, inside, behind, .skip hsplit hrest, by rw [hstart]⟩

/-- At a reference the expansion has come to it, then it goes down into the part that survives, and
then on behind it. -/
theorem visitsAt_split_iff {lead kept rest : Text}
    (hsplit : split? before t = some (lead ++ kept, rest))
    (hkept : survivor lookup (lead ++ kept) = kept) :
    VisitsAt lookup before t start r ↔ r = placed start (lead ++ kept) ∨
      VisitsAt lookup none kept (start + 4 + lead.length) r ∨
      VisitsAt lookup (some ')') rest (start + 4 + (lead ++ kept).length + 1) r := by
  have hopening : Declaration.referenceOpening.length = 4 := rfl
  have hnested : ∀ front : Text,
      start + (Declaration.referenceOpening ++ (lead ++ front)).length =
        start + 4 + lead.length + front.length := by
    intro front
    rw [List.length_append, List.length_append, hopening]
    omega
  have hbehind : ∀ inside front : Text,
      start + (Declaration.referenceOpening ++ (inside ++ ')' :: front)).length =
        start + 4 + inside.length + 1 + front.length := by
    intro inside front
    rw [List.length_append, List.length_append, List.length_cons, hopening]
    omega
  constructor
  · rintro ⟨_, inside, behind, hsome | ⟨hnone, -⟩ | ⟨hsome, hkept', hinner⟩ | ⟨hsome, hrest⟩, rfl⟩
    · obtain ⟨rfl, rfl⟩ := Prod.mk.inj (Option.some.inj (hsplit.symm.trans hsome))
      exact .inl rfl
    · cases hsplit.symm.trans hnone
    · obtain ⟨hinside, rfl⟩ := Prod.mk.inj (Option.some.inj (hsplit.symm.trans hsome))
      rw [← hinside, hkept] at hkept'
      subst hkept'
      obtain rfl := List.append_cancel_right hinside
      exact .inr (.inl ⟨_, inside, _, hinner, by rw [hnested]⟩)
    · obtain ⟨rfl, rfl⟩ := Prod.mk.inj (Option.some.inj (hsplit.symm.trans hsome))
      exact .inr (.inr ⟨_, inside, behind, hrest, by rw [hbehind]⟩)
  · rintro (rfl | ⟨front, inside, behind, hinner, rfl⟩ | ⟨front, inside, behind, hrest, rfl⟩)
    · exact ⟨[], _, rest, .here hsplit, rfl⟩
    · exact ⟨_, inside, _, .nested hsplit hkept hinner, by rw [hnested]⟩
    · exact ⟨_, inside, behind, .behind hsplit hrest, by rw [hbehind]⟩

end VisitsAt

/-! ## The live references -/

namespace IsWindow

variable {x t y : Text} {before : Option Char} {edits : EditSet}

/-- Of the references from a reference on, it is resolved itself, and so are those of the surviving
part and those behind it. -/
theorem mem_liveAfter_reference {front inside rest : Text} (h : IsWindow value x t y)
    (hpairs : parentheses value = some pairs) (hsplit : split? before t = some (inside, rest))
    (hstanding : standing? value pairs x.length = some (placed x.length inside))
    (hfront : inside = front ++ survivor lookup inside)
    (hclear : edits.IsClear x.length t.length) {r : Reference}
    (hinner : ∀ edits' : EditSet,
      edits'.IsClear (x.length + 4 + front.length) (survivor lookup inside).length →
      (r ∈ (liveAfter value lookup edits' (standingFrom value pairs (x.length + 4 + front.length)
          (survivor lookup inside).length)).map Prod.fst ↔
        VisitsAt lookup none (survivor lookup inside) (x.length + 4 + front.length) r))
    (hlater : ∀ edits' : EditSet, edits'.IsClear (x.length + 4 + inside.length + 1) rest.length →
      (r ∈ (liveAfter value lookup edits'
          (standingFrom value pairs (x.length + 4 + inside.length + 1) rest.length)).map Prod.fst ↔
        VisitsAt lookup (some ')') rest (x.length + 4 + inside.length + 1) r)) :
    r ∈ (liveAfter value lookup edits (standingFrom value pairs x.length t.length)).map Prod.fst ↔
      VisitsAt lookup before t x.length r := by
  have hsplit' := split?_none_of_eq_some hsplit
  have hne : 0 < t.length := by
    have htlen := (h.eq_of_split? hsplit).2
    omega
  have hfree := (hclear x.length (Nat.le_refl _) (Nat.lt_add_of_pos_right hne)).1
  have hparts : split? before t = some (front ++ survivor lookup inside, rest) :=
    hfront ▸ hsplit
  have hkept : survivor lookup (front ++ survivor lookup inside) = survivor lookup inside :=
    hfront ▸ rfl
  rw [h.liveAfter_reference hsplit' hstanding rfl hfront hfree, List.map_cons, List.map_append,
    List.mem_cons, List.mem_append, hinner _ (h.isClear_own hsplit' rfl hfront hclear),
    hlater _ (h.isClear_behind hpairs hsplit' rfl hfront hclear), visitsAt_split_iff hparts hkept,
    ← hfront]

/-- The references of a window that are resolved are those that its expansion comes to. -/
theorem mem_liveAfter_iff_visitsAt (h : IsWindow value x t y)
    (hpairs : parentheses value = some pairs)
    (hbefore : t ≠ [] → afterIdent value x.length = before.any Text.isIdent)
    (hclear : edits.IsClear x.length t.length) (r : Reference) :
    r ∈ (liveAfter value lookup edits (standingFrom value pairs x.length t.length)).map Prod.fst ↔
      VisitsAt lookup before t x.length r := by
  revert edits
  refine h.induct (motive := fun x t before => ∀ {edits : EditSet},
    edits.IsClear x.length t.length → (r ∈ (liveAfter value lookup edits
      (standingFrom value pairs x.length t.length)).map Prod.fst ↔
        VisitsAt lookup before t x.length r)) lookup hpairs ?nil ?skip ?reference hbefore
  case nil =>
    intro x before edits _
    exact iff_of_false List.not_mem_nil not_visitsAt_nil
  case skip =>
    intro x c cs y before h hnone hsplit ih edits hclear
    have hlength : (x ++ [c]).length = x.length + 1 := List.length_append
    rw [List.length_cons, Nat.add_comm cs.length 1, standingFrom_add, standingFrom_one, hnone,
      Option.toList_none, List.nil_append, ← hlength,
      ih (hclear.mono (by omega) (by rw [List.length_cons]; omega)), hlength,
      visitsAt_cons_iff hsplit]
  case reference =>
    intro x t y before inside rest front h hstanding hsplit hfront hinner hlater edits hclear
    refine h.mem_liveAfter_reference hpairs hsplit hstanding hfront hclear
      (fun edits' hedits' => ?_) fun edits' hedits' => ?_
    · rw [← length_to_nested] at hedits' ⊢
      exact hinner hedits'
    · rw [← length_to_behind] at hedits' ⊢
      exact hlater hedits'

end IsWindow

/-- **The live references of a balanced value are those that its expansion comes to.** -/
theorem isLive_iff_visits (hpairs : parentheses value = some pairs) (r : Reference) :
    IsLive value (IsAnswered value lookup) r ↔
      ∃ front inside behind, Visits lookup none value front inside behind ∧
        r = placed front.length inside := by
  have h : r ∈ (liveAfter value lookup .empty (standingFrom value pairs 0 value.length)).map
      Prod.fst ↔ VisitsAt lookup none value 0 r :=
    (isWindow_self hpairs).mem_liveAfter_iff_visitsAt hpairs (fun _ => rfl)
      (EditSet.isClear_empty 0 value.length) r
  rw [VisitsAt] at h
  simp only [Nat.zero_add] at h
  rw [← h, ← references_eq hpairs, references, ← live, isLive_iff_mem]

end Reference
end CustomProps
