import CustomProps.Proofs.Text.Depth
import CustomProps.Reference.Search

/-!
# Pairing by depth

The parentheses of a value are paired by their positions, with a stack of those that wait.  This
file says the same by counting depth along the text, which is how nested references are read.

* `Reference.isSome_parentheses` — exactly the balanced values have a pairing.
* `Reference.lookup_parentheses` — in a pairing, an opening parenthesis is paired with the place
  where the depth counted from it returns to zero.
-/

set_option autoImplicit false

namespace CustomProps

/-! ## Pairing parentheses along the text -/

namespace Reference

/-- Pairs the parentheses of a text that starts at position `pos`.  `waiting` holds the positions of
those that are open, the latest first. -/
def pairsFrom (waiting : List Nat) (pos : Nat) : Text → Option (List (Nat × Nat))
  | [] => some []
  | c :: cs =>
    if c = '(' then pairsFrom (pos :: waiting) (pos + 1) cs
    else if c = ')' then
      match waiting with
      | [] => none
      | o :: waiting => (pairsFrom waiting (pos + 1) cs).map ((o, pos) :: ·)
    else pairsFrom waiting (pos + 1) cs

variable {waiting : List Nat} {pos : Nat} {cs : Text}

@[simp] theorem pairsFrom_nil (waiting : List Nat) (pos : Nat) :
    pairsFrom waiting pos [] = some [] := by
  cases waiting <;> rfl

@[simp] theorem pairsFrom_open (waiting : List Nat) (pos : Nat) (cs : Text) :
    pairsFrom waiting pos ('(' :: cs) = pairsFrom (pos :: waiting) (pos + 1) cs := by
  cases waiting <;> rfl

@[simp] theorem pairsFrom_close_nil (pos : Nat) (cs : Text) :
    pairsFrom [] pos (')' :: cs) = none := rfl

@[simp] theorem pairsFrom_close_cons (o : Nat) (waiting : List Nat) (pos : Nat) (cs : Text) :
    pairsFrom (o :: waiting) pos (')' :: cs) =
      (pairsFrom waiting (pos + 1) cs).map ((o, pos) :: ·) := rfl

theorem pairsFrom_other {c : Char} (h : c ≠ '(' ∧ c ≠ ')') (waiting : List Nat) (pos : Nat)
    (cs : Text) : pairsFrom waiting pos (c :: cs) = pairsFrom waiting (pos + 1) cs := by
  cases waiting <;> simp [pairsFrom, h.1, h.2]

/-- The positions of a character in a text that starts at position `pos`. -/
def spots (c : Char) (pos : Nat) (t : Text) : List Nat :=
  Text.positionsFrom (·.head? == some c) pos t

@[simp] theorem spots_nil (c : Char) (pos : Nat) : spots c pos [] = [] := rfl

@[simp] theorem spots_cons_self (c : Char) (pos : Nat) (cs : Text) :
    spots c pos (c :: cs) = pos :: spots c (pos + 1) cs := by
  simp [spots, Text.positionsFrom]

theorem spots_cons_of_ne {c d : Char} (h : d ≠ c) (pos : Nat) (cs : Text) :
    spots c pos (d :: cs) = spots c (pos + 1) cs := by
  simp [spots, Text.positionsFrom, h]

theorem le_of_mem_spots {c : Char} {pos i : Nat} {t : Text} (h : i ∈ spots c pos t) : pos ≤ i :=
  (Text.positionsFrom_lt h).1

/-- An opening position in front of all closing ones waits for them. -/
theorem close_push {o : Nat} {opens closes : List Nat} (h : ∀ c ∈ closes, o < c)
    (waiting : List Nat) :
    Pairing.close waiting (o :: opens) closes = Pairing.close (o :: waiting) opens closes := by
  cases closes with
  | nil => rfl
  | cons c closes =>
    have hoc := h c (by simp)
    have hstack : ((o :: opens).takeWhile (· < c)).reverse ++ waiting =
        (opens.takeWhile (· < c)).reverse ++ o :: waiting := by
      simp [hoc]
    rw [Pairing.close, Pairing.close, hstack, List.dropWhile_cons_of_pos (by simpa using hoc)]

/-- A closing position in front of all opening ones takes what waits. -/
theorem close_pop {c : Nat} {opens : List Nat} (h : ∀ o ∈ opens, c < o) (o : Nat)
    (waiting closes : List Nat) :
    Pairing.close (o :: waiting) opens (c :: closes) =
      (Pairing.close waiting opens closes).map ((o, c) :: ·) := by
  have htake : opens.takeWhile (· < c) = [] := by
    cases opens with
    | nil => rfl
    | cons o opens => simp [Nat.not_lt_of_lt (h o (by simp))]
  have hdrop : opens.dropWhile (· < c) = opens := by
    cases opens with
    | nil => rfl
    | cons o opens => simp [Nat.not_lt_of_lt (h o (by simp))]
  rw [Pairing.close, htake, hdrop]
  rfl

theorem close_pop_nil {c : Nat} {opens : List Nat} (h : ∀ o ∈ opens, c < o) (closes : List Nat) :
    Pairing.close [] opens (c :: closes) = none := by
  have htake : opens.takeWhile (· < c) = [] := by
    cases opens with
    | nil => rfl
    | cons o opens => simp [Nat.not_lt_of_lt (h o (by simp))]
  rw [Pairing.close, htake]
  rfl

/-- Pairing the positions of the parentheses is pairing the parentheses along the text. -/
theorem close_spots (waiting : List Nat) (pos : Nat) (t : Text) :
    Pairing.close waiting (spots '(' pos t) (spots ')' pos t) = pairsFrom waiting pos t := by
  induction t generalizing waiting pos with
  | nil => simp [Pairing.close]
  | cons c cs ih =>
    rcases Text.paren_cases c with rfl | rfl | hc
    · rw [spots_cons_self, spots_cons_of_ne (by decide), close_push, ih, pairsFrom_open]
      intro i hi
      exact le_of_mem_spots hi
    · have hlater : ∀ o ∈ spots '(' (pos + 1) cs, pos < o := fun o ho => le_of_mem_spots ho
      rw [spots_cons_self, spots_cons_of_ne (by decide)]
      cases waiting with
      | nil => rw [close_pop_nil hlater, pairsFrom_close_nil]
      | cons o waiting => rw [close_pop hlater, ih, pairsFrom_close_cons]
    · rw [spots_cons_of_ne hc.1, spots_cons_of_ne hc.2, ih, pairsFrom_other hc]

/-! ## Balance -/

theorem isSome_pairsFrom (waiting : List Nat) (pos : Nat) (t : Text) :
    (pairsFrom waiting pos t).isSome = (Text.depthAfter? waiting.length t).isSome := by
  induction t generalizing waiting pos with
  | nil => simp
  | cons c cs ih =>
    rcases Text.paren_cases c with rfl | rfl | hc
    · rw [pairsFrom_open, ih, Text.depthAfter?_open, List.length_cons]
    · cases waiting with
      | nil => rfl
      | cons o waiting =>
        rw [pairsFrom_close_cons, Option.isSome_map, ih, List.length_cons,
          Text.depthAfter?_close_succ]
    · rw [pairsFrom_other hc, ih, Text.depthAfter?_other hc]

/-- The depth rises by the number of opening parentheses and falls by that of closing ones. -/
theorem depth_add_opens {depth final : Nat} {t : Text} (h : Text.depthAfter? depth t = some final)
    (pos : Nat) : depth + (spots '(' pos t).length = final + (spots ')' pos t).length := by
  induction t generalizing depth pos with
  | nil =>
    rw [Text.depthAfter?_nil, Option.some.injEq] at h
    simp [h]
  | cons c cs ih =>
    rcases Text.paren_cases c with rfl | rfl | hc
    · rw [Text.depthAfter?_open] at h
      have := ih h (pos + 1)
      rw [spots_cons_self, spots_cons_of_ne (by decide), List.length_cons]
      omega
    · cases depth with
      | zero => simp at h
      | succ depth =>
        rw [Text.depthAfter?_close_succ] at h
        have := ih h (pos + 1)
        rw [spots_cons_self, spots_cons_of_ne (by decide), List.length_cons]
        omega
    · rw [Text.depthAfter?_other hc] at h
      rw [spots_cons_of_ne hc.1, spots_cons_of_ne hc.2]
      exact ih h (pos + 1)

theorem parentheses_eq (value : Text) :
    parentheses value =
      if (spots '(' 0 value).length = (spots ')' 0 value).length then pairsFrom [] 0 value
      else none := by
  rw [← close_spots]
  rfl

/-- **Exactly the balanced values have a pairing of their parentheses.** -/
theorem isSome_parentheses {value : Text} : (parentheses value).isSome ↔ value.IsBalanced := by
  rw [parentheses_eq, Text.IsBalanced]
  cases hdepth : Text.depthAfter? 0 value with
  | none =>
    have hnone := isSome_pairsFrom [] 0 value
    rw [List.length_nil, hdepth, Option.isSome_none, Option.isSome_eq_false_iff,
      Option.isNone_iff_eq_none] at hnone
    simp [hnone]
  | some final =>
    have hsome := isSome_pairsFrom [] 0 value
    rw [List.length_nil, hdepth, Option.isSome_some] at hsome
    have hcount := depth_add_opens hdepth 0
    rw [Option.some.injEq]
    split
    · rw [hsome]
      simp only [true_iff]
      omega
    · simp only [Option.isSome_none, Bool.false_eq_true, false_iff]
      omega

theorem pairsFrom_of_parentheses {value : Text} {pairs : List (Nat × Nat)}
    (h : parentheses value = some pairs) : pairsFrom [] 0 value = some pairs := by
  rw [parentheses_eq] at h
  split at h
  · exact h
  · cases h

/-! ## The partner of a parenthesis -/

variable {pairs : List (Nat × Nat)}

theorem lookup_waiting (inner : List Nat) {outer : List Nat} {o : Nat} {t : Text}
    (h : pairsFrom (inner ++ o :: outer) pos t = some pairs) (ho : o < pos) (hinner : o ∉ inner) :
    pairs.lookup o = (Text.closing? inner.length t).map (pos + ·) := by
  induction t generalizing inner pos pairs with
  | nil =>
    rw [pairsFrom_nil, Option.some.injEq] at h
    subst h
    simp
  | cons c cs ih =>
    have hshift : ∀ k : Option Nat, k.map (pos + 1 + ·) = (k.map (· + 1)).map (pos + ·) := by
      intro k
      rw [Option.map_map]
      congr 1
      funext j
      simp only [Function.comp_apply]
      omega
    rcases Text.paren_cases c with rfl | rfl | hc
    · rw [pairsFrom_open] at h
      rw [ih (pos :: inner) h (by omega) (by simp [hinner]; omega),
        Text.closing?_open, List.length_cons, hshift]
    · cases inner with
      | nil =>
        rw [List.nil_append, pairsFrom_close_cons] at h
        obtain ⟨later, -, rfl⟩ := Option.map_eq_some_iff.1 h
        simp
      | cons i inner =>
        rw [List.cons_append, pairsFrom_close_cons] at h
        obtain ⟨later, hlater, rfl⟩ := Option.map_eq_some_iff.1 h
        obtain ⟨hi, hinner⟩ := not_or.1 (fun hmem => hinner (List.mem_cons.2 hmem))
        rw [List.lookup_cons, beq_eq_false_iff_ne.2 hi, ih inner hlater (by omega) hinner,
          List.length_cons, Text.closing?_close_succ, hshift]
    · rw [pairsFrom_other hc] at h
      rw [ih inner h (by omega) hinner, Text.closing?_other hc, hshift]

theorem lookup_pairsFrom {x y : Text} (h : pairsFrom waiting pos (x ++ '(' :: y) = some pairs)
    (hwaiting : ∀ o ∈ waiting, o < pos) :
    pairs.lookup (pos + x.length) = (Text.closing? 0 y).map (pos + x.length + 1 + ·) := by
  induction x generalizing waiting pos pairs with
  | nil =>
    rw [List.nil_append, pairsFrom_open] at h
    exact lookup_waiting [] h (by omega) (by simp)
  | cons c x ih =>
    have hlater : ∀ o ∈ waiting, o < pos + 1 := fun o ho => Nat.lt_succ_of_lt (hwaiting o ho)
    have hpos : pos + (c :: x).length = pos + 1 + x.length := by
      rw [List.length_cons]
      omega
    rw [List.cons_append] at h
    rw [hpos]
    rcases Text.paren_cases c with rfl | rfl | hc
    · rw [pairsFrom_open] at h
      refine ih h fun o ho => ?_
      rcases List.mem_cons.1 ho with rfl | ho
      · omega
      · exact hlater o ho
    · cases waiting with
      | nil => simp at h
      | cons i waiting =>
        rw [pairsFrom_close_cons] at h
        obtain ⟨later, hlater', rfl⟩ := Option.map_eq_some_iff.1 h
        have hi := hwaiting i (by simp)
        rw [List.lookup_cons, beq_eq_false_iff_ne.2 (by omega),
          ih hlater' fun o ho => hlater o (List.mem_cons_of_mem _ ho)]
    · rw [pairsFrom_other hc] at h
      exact ih h hlater

/-- **An opening parenthesis is paired with the place where the depth counted from it returns to
zero.** -/
theorem lookup_parentheses {x y : Text} (h : parentheses (x ++ '(' :: y) = some pairs) :
    pairs.lookup x.length = (Text.closing? 0 y).map (x.length + 1 + ·) := by
  have := lookup_pairsFrom (pairsFrom_of_parentheses h) (by simp)
  rwa [Nat.zero_add] at this

theorem mem_pairsFrom {t : Text} {p : Nat × Nat} (h : pairsFrom waiting pos t = some pairs)
    (hp : p ∈ pairs) : p.1 ∈ waiting ∨ ∃ x y, t = x ++ '(' :: y ∧ p.1 = pos + x.length := by
  induction t generalizing waiting pos pairs with
  | nil =>
    rw [pairsFrom_nil, Option.some.injEq] at h
    subst h
    simp at hp
  | cons c cs ih =>
    have hshift : ∀ w : List Nat, (p.1 ∈ w ∨ ∃ x y, cs = x ++ '(' :: y ∧ p.1 = pos + 1 + x.length) →
        p.1 ∈ w ∨ ∃ x y, c :: cs = x ++ '(' :: y ∧ p.1 = pos + x.length := by
      rintro w (hw | ⟨x, y, rfl, hx⟩)
      · exact .inl hw
      · exact .inr ⟨c :: x, y, rfl, by rw [hx, List.length_cons]; omega⟩
    rcases Text.paren_cases c with rfl | rfl | hc
    · rw [pairsFrom_open] at h
      rcases hshift _ (ih h hp) with hw | hx
      · rcases List.mem_cons.1 hw with hw | hw
        · exact .inr ⟨[], cs, rfl, by simpa using hw⟩
        · exact .inl hw
      · exact .inr hx
    · cases waiting with
      | nil => simp at h
      | cons o waiting =>
        rw [pairsFrom_close_cons] at h
        obtain ⟨later, hlater, rfl⟩ := Option.map_eq_some_iff.1 h
        rcases List.mem_cons.1 hp with rfl | hp
        · exact .inl (by simp)
        · exact (hshift _ (ih hlater hp)).imp_left (List.mem_cons_of_mem _)
    · rw [pairsFrom_other hc] at h
      exact hshift _ (ih h hp)

/-- Only opening parentheses have partners. -/
theorem getElem?_of_lookup_parentheses {value : Text} {i c : Nat}
    (h : parentheses value = some pairs) (hi : pairs.lookup i = some c) : value[i]? = some '(' := by
  obtain ⟨front, back, rfl, -⟩ := List.lookup_eq_some_iff.1 hi
  have hmem : (i, c) ∈ front ++ (i, c) :: back := by simp
  rcases mem_pairsFrom (pairsFrom_of_parentheses h) hmem with hw | ⟨x, y, rfl, hx⟩
  · exact absurd hw List.not_mem_nil
  · obtain rfl : i = x.length := by rw [← Nat.zero_add x.length]; exact hx
    rw [List.getElem?_append_right (Nat.le_refl _), Nat.sub_self, List.getElem?_cons_zero]

end Reference
end CustomProps
