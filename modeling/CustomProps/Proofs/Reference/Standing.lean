import CustomProps.Proofs.Reference.Expansion

/-!
# Where references stand

The references of a value are known by their positions.  This file ties them to the text: a
reference stands where `var(`, a text and the parenthesis that closes it stand.

* `Reference.placed` — the reference that stands at a position with a given text inside.
* `Reference.standing?_placed`, `Reference.standing?_eq_some` — a reference stands where its text
  does, and nowhere else.
* `Reference.IsWindow` — a part of a value whose references end inside it.
* `Reference.IsWindow.standing?_eq` — the reference at the start of a window is the one that
  `Reference.split?` finds.
-/

set_option autoImplicit false

namespace CustomProps

/-! ## Positions in a text -/

namespace Text

theorem positionsFrom_eq_filter (p : Text → Bool) (pos : Nat) (t : Text) :
    positionsFrom p pos t = (List.range' pos t.length).filter fun i => p (t.drop (i - pos)) := by
  induction t generalizing pos with
  | nil => rfl
  | cons c cs ih =>
    have htail : (List.range' (pos + 1) cs.length).filter (fun i => p (cs.drop (i - (pos + 1)))) =
        (List.range' (pos + 1) cs.length).filter fun i => p ((c :: cs).drop (i - pos)) := by
      refine List.filter_congr fun i hi => ?_
      have := (List.mem_range'_1.1 hi).1
      rw [show i - pos = (i - (pos + 1)) + 1 by omega, List.drop_succ_cons]
    rw [positionsFrom, ih, htail, List.length_cons, List.range'_succ, List.filter_cons,
      Nat.sub_self, List.drop_zero]

theorem slice_append {x y m : Text} {a b : Nat} (ha : a = x.length) (hb : b = a + m.length) :
    slice (x ++ (m ++ y)) a b = m := by
  subst ha hb
  rw [slice, List.drop_left, Nat.add_sub_cancel_left, List.take_left]

end Text

namespace Reference

/-! ## The text inside a reference -/

@[simp] theorem namePart_comma (cs : Text) : namePart (',' :: cs) = [] := rfl

theorem namePart_cons {c : Char} (h : c ≠ ',') (cs : Text) :
    namePart (c :: cs) = c :: namePart cs := by
  simp [namePart, h]

@[simp] theorem fallbackPart?_comma (cs : Text) : fallbackPart? (',' :: cs) = some cs := rfl

theorem fallbackPart?_cons {c : Char} (h : c ≠ ',') (cs : Text) :
    fallbackPart? (c :: cs) = fallbackPart? cs := by
  simp [fallbackPart?, h]

theorem namePart_append_of_some {inside fallback : Text}
    (h : fallbackPart? inside = some fallback) : namePart inside ++ ',' :: fallback = inside := by
  induction inside with
  | nil => simp [fallbackPart?] at h
  | cons c cs ih =>
    by_cases hc : c = ','
    · subst hc
      rw [fallbackPart?_comma, Option.some.injEq] at h
      rw [namePart_comma, List.nil_append, h]
    · rw [fallbackPart?_cons hc] at h
      rw [namePart_cons hc, List.cons_append, ih h]

theorem namePart_of_none {inside : Text} (h : fallbackPart? inside = none) :
    namePart inside = inside := by
  induction inside with
  | nil => rfl
  | cons c cs ih =>
    by_cases hc : c = ','
    · subst hc
      simp at h
    · rw [fallbackPart?_cons hc] at h
      rw [namePart_cons hc, ih h]

theorem namePart_namePart_append (inside fallback : Text) :
    namePart (namePart inside ++ ',' :: fallback) = namePart inside := by
  induction inside with
  | nil => rfl
  | cons c cs ih =>
    by_cases hc : c = ','
    · subst hc
      rfl
    · rw [namePart_cons hc, List.cons_append, namePart_cons hc, ih]

theorem fallbackPart?_namePart_append (inside fallback : Text) :
    fallbackPart? (namePart inside ++ ',' :: fallback) = some fallback := by
  induction inside with
  | nil => rfl
  | cons c cs ih =>
    by_cases hc : c = ','
    · subst hc
      rfl
    · rw [namePart_cons hc, List.cons_append, fallbackPart?_cons hc, ih]

theorem findIdx?_comma (inside : Text) :
    inside.findIdx? (· == ',') = (fallbackPart? inside).map fun _ => (namePart inside).length := by
  induction inside with
  | nil => rfl
  | cons c cs ih =>
    by_cases hc : c = ','
    · subst hc
      rfl
    · rw [List.findIdx?_cons, beq_eq_false_iff_ne.2 hc, ih, fallbackPart?_cons hc, namePart_cons hc,
        List.length_cons, if_neg Bool.false_ne_true, Option.map_map]
      rfl

/-! ## The reference at a position -/

/-- The reference that stands at a position with a given text inside its parentheses. -/
def placed (i : Nat) (inside : Text) : Reference where
  start := i
  openParen := i + 3
  closeParen := i + 4 + inside.length
  comma := (fallbackPart? inside).map fun _ => i + 4 + (namePart inside).length

/-- The reference at a position of a value, if one stands there. -/
def standing? (value : Text) (pairs : List (Nat × Nat)) (i : Nat) : Option Reference :=
  if keyword.isPrefixOf (value.drop i) then at? value pairs i else none

/-- The references at so many positions. -/
def standingFrom (value : Text) (pairs : List (Nat × Nat)) (start count : Nat) : List Reference :=
  (List.range' start count).filterMap (standing? value pairs)

variable {value : Text} {pairs : List (Nat × Nat)} {lookup : Lookup}

theorem getElem?_of_eq_append {x y : Text} {c : Char} {i : Nat} (h : value = x ++ c :: y)
    (hi : i = x.length) : value[i]? = some c := by
  rw [h, hi, List.getElem?_append_right (Nat.le_refl _), Nat.sub_self]
  rfl

theorem all?_eq_standingFrom (hpairs : parentheses value = some pairs) :
    all? value = some (standingFrom value pairs 0 value.length) := by
  rw [all?, hpairs, Option.map_some, keywordPositions, Text.positions, Text.positionsFrom_eq_filter,
    List.filterMap_filter, standingFrom]
  congr 1

section Placed

variable {x inside y : Text}
  (hvalue : value = x ++ (Declaration.referenceOpening ++ (inside ++ ')' :: y)))

include hvalue

theorem length_of_eq_placed : value.length = x.length + 4 + inside.length + 1 + y.length := by
  have hopening : Declaration.referenceOpening.length = 4 := rfl
  rw [hvalue, List.length_append, List.length_append, List.length_append, List.length_cons,
    hopening]
  omega

theorem slice_inside (front middle back : Text) (hinside : inside = front ++ (middle ++ back)) :
    value.slice (x.length + 4 + front.length) (x.length + 4 + front.length + middle.length) =
      middle := by
  have hfront : value = (x ++ (Declaration.referenceOpening ++ front)) ++
      (middle ++ (back ++ ')' :: y)) := by
    rw [hvalue, hinside]
    simp only [List.append_assoc]
  rw [hfront]
  refine Text.slice_append ?_ rfl
  rw [List.length_append, List.length_append, Nat.add_assoc]
  rfl

theorem commaBetween_placed :
    commaBetween value (x.length + 3) (x.length + 4 + inside.length) =
      (placed x.length inside).comma := by
  have hslice : value.slice (x.length + 3 + 1) (x.length + 4 + inside.length) = inside :=
    slice_inside hvalue [] inside [] (List.append_nil inside).symm
  rw [commaBetween, hslice, findIdx?_comma, placed, Option.map_map]
  rfl

end Placed

theorem append_referenceOpening (x z : Text) :
    x ++ (Declaration.referenceOpening ++ z) = (x ++ keyword) ++ '(' :: z := by
  rw [List.append_assoc]
  rfl

/-- Where `split?` finds a reference, one stands. -/
theorem standing?_placed {x y inside : Text} (hpairs : parentheses value = some pairs)
    (hvalue : value = x ++ (Declaration.referenceOpening ++ (inside ++ ')' :: y)))
    (hclose : Text.closing? 0 (inside ++ ')' :: y) = some inside.length)
    (hbefore : afterIdent value x.length = false) :
    standing? value pairs x.length = some (placed x.length inside) := by
  have hkeyword : keyword.isPrefixOf (value.drop x.length) = true := by
    rw [hvalue, List.drop_left]
    rfl
  have hlookup : pairs.lookup (x.length + 3) = some (x.length + 4 + inside.length) := by
    have hopen := hvalue.trans (append_referenceOpening x _)
    have := lookup_parentheses (hopen ▸ hpairs)
    rw [hclose, List.length_append] at this
    exact this
  rw [standing?, if_pos hkeyword, at?, if_neg (by rw [hbefore]; exact Bool.false_ne_true)]
  dsimp only
  rw [show x.length + keyword.length = x.length + 3 from rfl, hlookup, Option.map_some,
    commaBetween_placed hvalue]
  rfl

/-- A reference stands only where its text does. -/
theorem standing?_eq_some {i : Nat} {r : Reference} (hpairs : parentheses value = some pairs)
    (h : standing? value pairs i = some r) :
    ∃ x inside y, value = x ++ (Declaration.referenceOpening ++ (inside ++ ')' :: y)) ∧
      x.length = i ∧ afterIdent value i = false := by
  unfold standing? at h
  split at h
  case isFalse => cases h
  rename_i hkeyword
  obtain ⟨z, hz⟩ := List.isPrefixOf_iff_prefix.1 hkeyword
  unfold at? at h
  split at h
  case isTrue => cases h
  rename_i hident
  obtain ⟨close, hclose, -⟩ := Option.map_eq_some_iff.1 h
  have hlength : (value.take i).length = i := by
    have hlen := congrArg List.length hz
    have hkeyword : keyword.length = 3 := rfl
    rw [List.length_append, List.length_drop] at hlen
    rw [List.length_take]
    omega
  have hvalue : value = (value.take i ++ keyword) ++ z := by
    rw [List.append_assoc, hz, List.take_append_drop]
  have hlength' : (value.take i ++ keyword).length = i + keyword.length := by
    rw [List.length_append, hlength]
  have hparen := getElem?_of_lookup_parentheses hpairs hclose
  rw [hvalue, List.getElem?_append_right (by omega), hlength', Nat.sub_self] at hparen
  cases z with
  | nil => simp at hparen
  | cons c z =>
    rw [List.getElem?_cons_zero, Option.some.injEq] at hparen
    subst hparen
    have hlookup := lookup_parentheses (hvalue ▸ hpairs)
    rw [hlength', hclose] at hlookup
    obtain ⟨k, hk, -⟩ := Option.map_eq_some_iff.1 hlookup.symm
    obtain ⟨inside, y, rfl, -⟩ := Text.closing?_eq_some hk
    refine ⟨value.take i, inside, y, ?_, hlength, Bool.eq_false_iff.2 hident⟩
    rw [append_referenceOpening]
    exact hvalue

/-! ## Windows

A window is a part of a value whose references end inside it: a balanced value, what the
parentheses of a reference enclose, and every tail of a window.
-/

/-- The value consists of `x`, the window `t` and `y`.  What the window opens it closes, and behind
it the value ends or a parenthesis closes. -/
structure IsWindow (value x t y : Text) : Prop where
  eq : value = x ++ (t ++ y)
  closes : t.ClosesAll
  stop : y = [] ∨ ∃ z, y = ')' :: z

theorem split?_eq_some {before : Option Char} {t inside rest : Text}
    (h : split? before t = some (inside, rest)) :
    t = Declaration.referenceOpening ++ (inside ++ ')' :: rest) ∧
      Text.closing? 0 (inside ++ ')' :: rest) = some inside.length ∧ inside.ClosesAll := by
  unfold split? at h
  split at h
  case h_2 => cases h
  rename_i cs
  split at h
  · cases h
  · obtain ⟨k, hk, hsplit⟩ := Option.map_eq_some_iff.1 h
    obtain ⟨hinside, hrest⟩ := Prod.mk.inj hsplit
    obtain ⟨inside', rest', rfl, rfl, hcloses⟩ := Text.closing?_eq_some hk
    rw [List.take_left] at hinside
    rw [List.append_cons, List.drop_left' (by simp)] at hrest
    subst hinside hrest
    exact ⟨rfl, hk, hcloses⟩

theorem split?_of_ident {before : Option Char} (h : before.any Text.isIdent = true) (t : Text) :
    split? before t = none := by
  unfold split?
  split
  · rw [if_pos h]
  · rfl

theorem split?_of_not_ident {before : Option Char} (h : before.any Text.isIdent = false)
    (t : Text) : split? before t = split? none t := by
  unfold split?
  split
  · rw [h]
    rfl
  · rfl

theorem split?_opening {inside rest : Text}
    (h : Text.closing? 0 (inside ++ ')' :: rest) = some inside.length) :
    split? none (Declaration.referenceOpening ++ (inside ++ ')' :: rest)) =
      some (inside, rest) := by
  show (Text.closing? 0 (inside ++ ')' :: rest)).map (fun k =>
    ((inside ++ ')' :: rest).take k, (inside ++ ')' :: rest).drop (k + 1))) = _
  rw [h, Option.map_some, List.take_left, List.append_cons, List.drop_left' (by simp)]

namespace IsWindow

variable {x t y : Text}

/-- A text that starts before the end of a window and has no closing parenthesis ends there too. -/
theorem exists_opening {z : Text} (h : IsWindow value x t y)
    (hz : t ++ y = Declaration.referenceOpening ++ z) :
    ∃ u, t = Declaration.referenceOpening ++ u := by
  rcases List.append_eq_append_iff.1 hz with ⟨u, hu, hy⟩ | ⟨u, hu, -⟩
  · cases u with
    | nil => exact ⟨[], by rw [hu, List.append_nil, List.append_nil]⟩
    | cons c u =>
      have hc : c ∈ Declaration.referenceOpening := by
        rw [hu]
        simp
      rcases h.stop with rfl | ⟨y, rfl⟩
      · cases hy
      · obtain rfl := (List.cons.inj hy).1
        exact absurd hc (by decide)
  · exact ⟨u, hu⟩

/-- **The reference at the start of a window is the one that `split?` finds.** -/
theorem standing?_eq (h : IsWindow value x t y) (hpairs : parentheses value = some pairs) :
    standing? value pairs x.length =
      if afterIdent value x.length then none
      else (split? none t).map fun parts => placed x.length parts.1 := by
  have hsome : ∀ {inside rest}, split? none t = some (inside, rest) →
      afterIdent value x.length = false →
      standing? value pairs x.length = some (placed x.length inside) := by
    intro inside rest hsplit hbefore
    obtain ⟨ht, hclose, -⟩ := split?_eq_some hsplit
    have hclose' := Text.closing?_append hclose y
    rw [List.append_assoc, List.cons_append] at hclose'
    refine standing?_placed hpairs ?_ hclose' hbefore
    rw [h.eq, ht, List.append_assoc, List.append_assoc, List.cons_append]
  cases hstanding : standing? value pairs x.length with
  | none =>
    split
    · rfl
    · rename_i hbefore
      cases hsplit : split? none t with
      | none => rfl
      | some parts =>
        rw [hsome hsplit (Bool.eq_false_iff.2 hbefore)] at hstanding
        cases hstanding
  | some r =>
    obtain ⟨x', inside, y', hvalue, hx', hbefore⟩ := standing?_eq_some hpairs hstanding
    obtain ⟨rfl, htail⟩ := List.append_inj (h.eq ▸ hvalue) hx'.symm
    obtain ⟨u, rfl⟩ := h.exists_opening htail
    obtain ⟨k, hk⟩ := h.closes keyword u rfl
    obtain ⟨inside, rest, rfl, rfl, -⟩ := Text.closing?_eq_some hk
    have hsplit := split?_opening hk
    rw [if_neg (by rw [hbefore]; exact Bool.false_ne_true), hsplit, Option.map_some, ← hstanding,
      hsome hsplit hbefore]

/-- A reference at the start of a window takes a part of the window. -/
theorem eq_of_split? {before : Option Char} {inside rest : Text} (h : IsWindow value x t y)
    (hsplit : split? before t = some (inside, rest)) :
    value = x ++ (Declaration.referenceOpening ++ (inside ++ ')' :: (rest ++ y))) ∧
      t.length = 4 + inside.length + 1 + rest.length := by
  obtain ⟨ht, -, -⟩ := split?_eq_some hsplit
  have hlength := congrArg List.length ht
  have hopening : Declaration.referenceOpening.length = 4 := rfl
  rw [List.length_append, List.length_append, List.length_cons, hopening] at hlength
  refine ⟨?_, by omega⟩
  rw [h.eq, ht]
  simp only [List.append_assoc, List.cons_append]

theorem exists_of_standing? {r : Reference} (h : IsWindow value x t y)
    (hpairs : parentheses value = some pairs) (hr : standing? value pairs x.length = some r) :
    ∃ inside rest, split? none t = some (inside, rest) ∧ r = placed x.length inside := by
  rw [h.standing?_eq hpairs] at hr
  split at hr
  · cases hr
  · obtain ⟨⟨inside, rest⟩, hsplit, rfl⟩ := Option.map_eq_some_iff.1 hr
    exact ⟨inside, rest, hsplit, rfl⟩

theorem tail {c : Char} (h : IsWindow value x (c :: t) y) : IsWindow value (x ++ [c]) t y where
  eq := by rw [h.eq, List.cons_append, List.append_assoc, List.singleton_append]
  closes := h.closes.tail
  stop := h.stop

/-- What stands behind a reference in a window is a window. -/
theorem behind {before : Option Char} {inside rest : Text} (h : IsWindow value x t y)
    (hsplit : split? before t = some (inside, rest)) :
    IsWindow value (x ++ (Declaration.referenceOpening ++ (inside ++ [')']))) rest y := by
  obtain ⟨ht, -, -⟩ := split?_eq_some hsplit
  refine ⟨?_, (ht ▸ h.closes).of_append.of_append.tail, h.stop⟩
  rw [(h.eq_of_split? hsplit).1]
  simp only [List.append_assoc, List.nil_append, List.cons_append]

/-- A tail of what a reference in a window encloses is a window. -/
theorem nested {before : Option Char} {inside front back rest : Text} (h : IsWindow value x t y)
    (hsplit : split? before t = some (inside, rest)) (hinside : inside = front ++ back) :
    IsWindow value (x ++ (Declaration.referenceOpening ++ front)) back (')' :: (rest ++ y)) := by
  obtain ⟨-, -, hcloses⟩ := split?_eq_some hsplit
  refine ⟨?_, (hinside ▸ hcloses).of_append, .inr ⟨_, rfl⟩⟩
  rw [(h.eq_of_split? hsplit).1, hinside]
  simp only [List.append_assoc]

end IsWindow

end Reference
end CustomProps
