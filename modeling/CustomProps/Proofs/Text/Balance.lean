import CustomProps.Proofs.Text.Blank
import CustomProps.Proofs.Text.Depth

/-!
# Balanced texts

A text is balanced when it has as many closing as opening parentheses and no front part of it has
more closing ones.  What stands inside a balanced text does not change the depth around it, so
balanced texts can be put together, cut out and exchanged for one another.

* `Text.isBalanced_iff_count` — balance by counting.
* `Text.IsBalanced.depthAfter?_append` — a balanced text leaves the depth as it is.
* `Text.closing?_eq_some_iff` — up to the place where the depth falls below zero the parentheses of
  the text close all that was open, and only that.
-/

set_option autoImplicit false

namespace CustomProps
namespace Text

/-- No parenthesis occurs in the text. -/
def Parenless (t : Text) : Prop := ∀ c ∈ t, c ≠ '(' ∧ c ≠ ')'

instance (t : Text) : Decidable t.Parenless := List.decidableBAll (fun c => c ≠ '(' ∧ c ≠ ')') t

/-! ## Balance by counting -/

theorem forall_prefix_cons {p : Text → Prop} {c : Char} {cs : Text} :
    (∀ u, u <+: c :: cs → p u) ↔ p [] ∧ ∀ u, u <+: cs → p (c :: u) := by
  constructor
  · intro h
    exact ⟨h [] (List.nil_prefix), fun u hu => h (c :: u) ((List.prefix_cons_inj c).2 hu)⟩
  · rintro ⟨hnil, hcons⟩ u hu
    rcases List.prefix_cons_iff.1 hu with rfl | ⟨v, rfl, hv⟩
    · exact hnil
    · exact hcons v hv

/-- The depth behind a text is known by counting its parentheses, and those of its front parts. -/
theorem depthAfter?_eq_some_iff {depth final : Nat} {t : Text} :
    depthAfter? depth t = some final ↔
      depth + t.count '(' = final + t.count ')' ∧
        ∀ u, u <+: t → u.count ')' ≤ depth + u.count '(' := by
  induction t generalizing depth with
  | nil => simp
  | cons c cs ih =>
    rw [forall_prefix_cons]
    rcases paren_cases c with rfl | rfl | hc
    · simp only [depthAfter?_open, ih, List.count_cons_self, List.count_nil,
        List.count_cons_of_ne (show '(' ≠ ')' by decide), Nat.zero_le, true_and]
      refine and_congr (by omega) (forall₂_congr fun u _ => ?_)
      omega
    · simp only [List.count_cons_self, List.count_nil,
        List.count_cons_of_ne (show ')' ≠ '(' by decide), Nat.zero_le, true_and]
      cases depth with
      | zero =>
        rw [depthAfter?_close_zero]
        refine ⟨nofun, fun h => ?_⟩
        have := h.2 [] List.nil_prefix
        simp at this
      | succ depth =>
        rw [depthAfter?_close_succ, ih]
        refine and_congr (by omega) (forall₂_congr fun u _ => ?_)
        omega
    · simp only [depthAfter?_other hc, ih, List.count_nil, List.count_cons_of_ne hc.1,
        List.count_cons_of_ne hc.2, Nat.zero_le, true_and]

/-- **A text is balanced when it has as many closing as opening parentheses and no front part has
more closing than opening ones.** -/
theorem isBalanced_iff_count {t : Text} :
    t.IsBalanced ↔ t.count '(' = t.count ')' ∧ ∀ u, u <+: t → u.count ')' ≤ u.count '(' := by
  simp only [IsBalanced, depthAfter?_eq_some_iff, Nat.zero_add]

/-! ## Putting balanced texts together -/

/-- What a text does to the depth it does at every greater depth too. -/
theorem depthAfter?_add {depth final : Nat} {t : Text} (h : depthAfter? depth t = some final)
    (more : Nat) : depthAfter? (depth + more) t = some (final + more) := by
  rw [depthAfter?_eq_some_iff] at h ⊢
  refine ⟨by omega, fun u hu => ?_⟩
  have := h.2 u hu
  omega

variable {b t : Text}

theorem isBalanced_nil : IsBalanced [] := rfl

/-- A balanced text leaves the depth as it is. -/
theorem IsBalanced.depthAfter?_append (h : b.IsBalanced) (depth : Nat) (t : Text) :
    depthAfter? depth (b ++ t) = depthAfter? depth t := by
  have hdepth := depthAfter?_add h depth
  rw [Nat.zero_add] at hdepth
  rw [Text.depthAfter?_append, hdepth, Option.bind_some]

theorem IsBalanced.append (hb : b.IsBalanced) (ht : t.IsBalanced) : (b ++ t).IsBalanced :=
  (hb.depthAfter?_append 0 t).trans ht

/-- What stands behind a balanced front part of a balanced text is balanced. -/
theorem IsBalanced.of_append (hb : b.IsBalanced) (h : (b ++ t).IsBalanced) : t.IsBalanced :=
  (hb.depthAfter?_append 0 t).symm.trans h

/-- What stands in front of a balanced back part of a balanced text is balanced. -/
theorem IsBalanced.of_append_right (ht : t.IsBalanced) (h : (b ++ t).IsBalanced) :
    b.IsBalanced := by
  rw [IsBalanced, Text.depthAfter?_append] at h
  obtain ⟨depth, hdepth, hrest⟩ := Option.bind_eq_some_iff.1 h
  have hstays := ht.depthAfter?_append depth []
  rw [List.append_nil, depthAfter?_nil] at hstays
  rw [IsBalanced, hdepth, ← hstays, hrest]

theorem Parenless.isBalanced (h : t.Parenless) : t.IsBalanced := by
  induction t with
  | nil => rfl
  | cons c cs ih =>
    rw [IsBalanced, depthAfter?_other (h c List.mem_cons_self)]
    exact ih fun d hd => h d (List.mem_cons_of_mem c hd)

/-- Parentheses around a balanced text leave the depth as it is. -/
theorem IsBalanced.depthAfter?_enclosed (h : b.IsBalanced) (depth : Nat) (t : Text) :
    depthAfter? depth ('(' :: (b ++ ')' :: t)) = depthAfter? depth t := by
  rw [depthAfter?_open, h.depthAfter?_append, depthAfter?_close_succ]

theorem depthAfter?_cons_congr {u : Text} (c : Char)
    (h : ∀ depth, depthAfter? depth u = depthAfter? depth t) (depth : Nat) :
    depthAfter? depth (c :: u) = depthAfter? depth (c :: t) := by
  rcases paren_cases c with rfl | rfl | hc
  · rw [depthAfter?_open, depthAfter?_open, h]
  · cases depth with
    | zero => rw [depthAfter?_close_zero, depthAfter?_close_zero]
    | succ depth => rw [depthAfter?_close_succ, depthAfter?_close_succ, h]
  · rw [depthAfter?_other hc, depthAfter?_other hc, h]

/-! ## Trimming -/

theorem parenless_of_isBlank (h : ∀ c ∈ t, isBlank c = true) : t.Parenless := by
  intro c hc
  constructor <;> rintro rfl <;> exact absurd (h _ hc) (by decide)

theorem IsBalanced.trimLeft (h : t.IsBalanced) : (trimLeft t).IsBalanced := by
  obtain ⟨front, ht, hfront⟩ := exists_trimLeft t
  rw [ht] at h
  exact (parenless_of_isBlank hfront).isBalanced.of_append h

theorem IsBalanced.trim (h : t.IsBalanced) : (trim t).IsBalanced := by
  obtain ⟨back, ht, hback⟩ := exists_trimRight (Text.trimLeft t)
  have hleft := h.trimLeft
  rw [ht] at hleft
  exact (parenless_of_isBlank hback).isBalanced.of_append_right hleft

/-! ## Where a parenthesis is closed -/

/-- The depth falls below zero unless the text has a depth. -/
theorem closing?_eq_none_iff {depth : Nat} : closing? depth t = none ↔
    (depthAfter? depth t).isSome := by
  induction t generalizing depth with
  | nil => simp
  | cons c cs ih =>
    rcases paren_cases c with rfl | rfl | hc
    · rw [closing?_open, Option.map_eq_none_iff, ih, depthAfter?_open]
    · cases depth with
      | zero => simp
      | succ depth => rw [closing?_close_succ, Option.map_eq_none_iff, ih, depthAfter?_close_succ]
    · rw [closing?_other hc, Option.map_eq_none_iff, ih, depthAfter?_other hc]

/-- **In front of the place where the depth falls below zero stands a text that closes all that was
open**, and what follows that place does not matter. -/
theorem closing?_eq_some_iff {depth k : Nat} : closing? depth t = some k ↔
    ∃ inside rest, t = inside ++ ')' :: rest ∧ inside.length = k ∧
      depthAfter? depth inside = some 0 := by
  constructor
  · intro h
    induction t generalizing depth k with
    | nil => simp at h
    | cons c cs ih =>
      rcases paren_cases c with rfl | rfl | hc
      · rw [closing?_open] at h
        obtain ⟨k, hk, rfl⟩ := Option.map_eq_some_iff.1 h
        obtain ⟨inside, rest, rfl, rfl, hdepth⟩ := ih hk
        exact ⟨'(' :: inside, rest, rfl, rfl, hdepth⟩
      · cases depth with
        | zero =>
          rw [closing?_close_zero, Option.some.injEq] at h
          exact ⟨[], cs, rfl, h, rfl⟩
        | succ depth =>
          rw [closing?_close_succ] at h
          obtain ⟨k, hk, rfl⟩ := Option.map_eq_some_iff.1 h
          obtain ⟨inside, rest, rfl, rfl, hdepth⟩ := ih hk
          exact ⟨')' :: inside, rest, rfl, rfl, hdepth⟩
      · rw [closing?_other hc] at h
        obtain ⟨k, hk, rfl⟩ := Option.map_eq_some_iff.1 h
        obtain ⟨inside, rest, rfl, rfl, hdepth⟩ := ih hk
        exact ⟨c :: inside, rest, rfl, rfl, (depthAfter?_other hc depth inside).trans hdepth⟩
  · rintro ⟨inside, rest, rfl, rfl, hdepth⟩
    induction inside generalizing depth with
    | nil =>
      rw [depthAfter?_nil, Option.some.injEq] at hdepth
      rw [hdepth]
      rfl
    | cons c cs ih =>
      rw [List.cons_append, List.length_cons]
      rcases paren_cases c with rfl | rfl | hc
      · rw [depthAfter?_open] at hdepth
        rw [closing?_open, ih hdepth, Option.map_some]
      · cases depth with
        | zero => cases hdepth
        | succ depth =>
          rw [depthAfter?_close_succ] at hdepth
          rw [closing?_close_succ, ih hdepth, Option.map_some]
      · rw [depthAfter?_other hc] at hdepth
        rw [closing?_other hc, ih hdepth, Option.map_some]

/-- A parenthesis is closed behind a text just when that text is balanced. -/
theorem closing?_zero_append_iff {inside rest : Text} :
    closing? 0 (inside ++ ')' :: rest) = some inside.length ↔ inside.IsBalanced := by
  rw [closing?_eq_some_iff]
  constructor
  · rintro ⟨inside', rest', heq, hlength, hdepth⟩
    obtain ⟨rfl, -⟩ := List.append_inj heq hlength.symm
    exact hdepth
  · intro h
    exact ⟨inside, rest, rfl, rfl, h⟩

end Text
end CustomProps
