import CustomProps.Sheet.Comment

/-!
# Comments of a text put together

Whether a place lies in a comment depends on what stands in front of it and on whether a closing
mark follows.  So blanking works part by part just where no comment leads from one part into the
next.

* `Sheet.Closes`, `Sheet.Opens` — a text that could end a comment, and one that leaves a comment
  open.
* `Sheet.comment_induction` — a text is a comment and a rest, an opening mark that is never closed,
  or a character and a rest.
* `Sheet.blankComments_append` — behind a text that leaves no comment open, blanking starts afresh.
* `Sheet.blankComments_eq_append` — so it does behind a character that is seen to be in no comment.
* `Sheet.blankComments_append_eq_iff` — which characters are seen.
-/

set_option autoImplicit false

namespace CustomProps
namespace Sheet

/-! ## The end of a comment -/

/-- The text could end a comment. -/
def Closes (t : Text) : Prop := ['*', '/'] <:+: t

instance (t : Text) : Decidable (Closes t) := inferInstanceAs (Decidable (_ <:+: _))

theorem not_closes_nil : ¬Closes [] := by
  simp [Closes]

theorem closes_cons {c : Char} {t : Text} :
    Closes (c :: t) ↔ (c = '*' ∧ ∃ u, t = '/' :: u) ∨ Closes t := by
  rw [Closes, List.infix_cons_iff]
  constructor
  · rintro (⟨u, hu⟩ | h)
    · obtain ⟨rfl, rfl⟩ := List.cons.inj hu
      exact .inl ⟨rfl, u, rfl⟩
    · exact .inr h
  · rintro (⟨rfl, u, rfl⟩ | h)
    · exact .inl ⟨u, rfl⟩
    · exact .inr h

/-- A closing mark does not come about at a seam behind which no slash stands. -/
theorem closes_append {t u : Text} (hu : u.head? ≠ some '/') :
    Closes (t ++ u) ↔ Closes t ∨ Closes u := by
  induction t with
  | nil => simp [not_closes_nil]
  | cons c t ih =>
    rw [List.cons_append, closes_cons, closes_cons, ih, or_assoc]
    refine or_congr_left (and_congr_right fun _ => ?_)
    cases t with
    | nil =>
      constructor
      · rintro ⟨v, rfl⟩
        exact absurd rfl hu
      · rintro ⟨v, hv⟩
        cases hv
    | cons d t =>
      simp only [List.cons_append, List.cons.injEq, exists_and_left]
      simp

theorem closingLength?_cons {c : Char} {t : Text} (h : ¬(c = '*' ∧ ∃ u, t = '/' :: u)) :
    closingLength? (c :: t) = (closingLength? t).map (· + 1) := by
  rw [closingLength?]
  rintro u rfl rfl
  exact h ⟨rfl, u, rfl⟩

theorem closingLength?_eq_none {t : Text} (h : ¬Closes t) : closingLength? t = none := by
  induction t with
  | nil => rfl
  | cons c t ih =>
    rw [closes_cons, not_or] at h
    rw [closingLength?_cons h.1, ih h.2, Option.map_none]

/-- The first closing mark ends the comment. -/
theorem closingLength?_append {t : Text} (h : ¬Closes t) (u : Text) :
    closingLength? (t ++ '*' :: '/' :: u) = some (t.length + 2) := by
  induction t with
  | nil => rfl
  | cons c t ih =>
    rw [closes_cons, not_or] at h
    rw [List.cons_append, closingLength?_cons, ih h.2]
    · rfl
    · rintro ⟨rfl, v, hv⟩
      cases t with
      | nil => simp at hv
      | cons d t =>
        rw [List.cons_append, List.cons.injEq] at hv
        exact h.1 ⟨rfl, t, by rw [hv.1]⟩

theorem Closes.exists_first {t : Text} (h : Closes t) :
    ∃ inside rest, t = inside ++ '*' :: '/' :: rest ∧ ¬Closes inside := by
  induction t with
  | nil => exact absurd h not_closes_nil
  | cons c t ih =>
    by_cases hmark : c = '*' ∧ ∃ u, t = '/' :: u
    · obtain ⟨rfl, u, rfl⟩ := hmark
      exact ⟨[], u, rfl, not_closes_nil⟩
    · obtain ⟨inside, rest, rfl, hinside⟩ := ih ((closes_cons.1 h).resolve_left hmark)
      refine ⟨c :: inside, rest, rfl, ?_⟩
      rw [closes_cons, not_or]
      refine ⟨?_, hinside⟩
      rintro ⟨rfl, v, rfl⟩
      exact hmark ⟨rfl, v ++ '*' :: '/' :: rest, rfl⟩

/-! ## Comments one by one -/

/-- The text starts with an opening mark. -/
def StartsComment (t : Text) : Prop := ∃ u, t = '/' :: '*' :: u

/-- A text is empty, or starts with a comment, or with an opening mark that is never closed, or with
a character that opens nothing. -/
theorem comment_induction {motive : Text → Prop} (nil : motive [])
    (comment : ∀ inside rest, ¬Closes inside → motive rest →
      motive ('/' :: '*' :: (inside ++ '*' :: '/' :: rest)))
    (unclosed : ∀ rest, ¬Closes rest → motive ('/' :: '*' :: rest))
    (other : ∀ c rest, ¬StartsComment (c :: rest) → motive rest → motive (c :: rest))
    (t : Text) : motive t := by
  induction hn : t.length using Nat.strongRecOn generalizing t with
  | ind n ih =>
    subst hn
    cases t with
    | nil => exact nil
    | cons c t =>
      by_cases hstart : StartsComment (c :: t)
      · obtain ⟨u, hu⟩ := hstart
        by_cases hcloses : Closes u
        · obtain ⟨inside, rest, rfl, hinside⟩ := hcloses.exists_first
          rw [hu]
          refine comment inside rest hinside (ih rest.length ?_ rest rfl)
          rw [hu]
          simp only [List.length_cons, List.length_append]
          omega
        · rw [hu]
          exact unclosed u hcloses
      · exact other c t hstart (ih t.length (Nat.lt_succ_self _) t rfl)

theorem blankAfter_append {inside : Nat} {t : Text} (h : t.length ≤ inside) (u : Text) :
    blankAfter inside (t ++ u) =
      List.replicate t.length ' ' ++ blankAfter (inside - t.length) u := by
  induction t generalizing inside with
  | nil => rfl
  | cons c t ih =>
    rw [List.length_cons] at h ⊢
    rw [List.cons_append, blankAfter, if_pos (by omega), ih (by omega), List.replicate_succ,
      List.cons_append, show inside - 1 - t.length = inside - (t.length + 1) by omega]

theorem commentLength?_eq_none {t : Text} (h : ¬StartsComment t) : commentLength? t = none := by
  rw [commentLength?]
  intro u hu
  exact h ⟨u, hu⟩

theorem blankComments_nil : blankComments [] = [] := rfl

theorem blankComments_cons {c : Char} {t : Text} (h : commentLength? (c :: t) = none) :
    blankComments (c :: t) = c :: blankComments t := by
  rw [blankComments, blankAfter, if_neg (Nat.lt_irrefl 0), h]
  rfl

theorem blankComments_comment {inside : Text} (h : ¬Closes inside) (rest : Text) :
    blankComments ('/' :: '*' :: (inside ++ '*' :: '/' :: rest)) =
      List.replicate (inside.length + 4) ' ' ++ blankComments rest := by
  have hlength : commentLength? ('/' :: '*' :: (inside ++ '*' :: '/' :: rest)) =
      some (inside.length + 4) := by
    rw [commentLength?, closingLength?_append h]
    rfl
  have hsplit : '*' :: (inside ++ '*' :: '/' :: rest) =
      ('*' :: (inside ++ ['*', '/'])) ++ rest := by
    simp
  rw [blankComments, blankAfter, if_neg (Nat.lt_irrefl 0), hlength]
  dsimp only
  rw [hsplit, blankAfter_append (by simp)]
  simp only [List.length_cons, List.length_append, List.length_nil]
  rw [show inside.length + 4 - 1 - (inside.length + (0 + 1 + 1) + 1) = 0 by omega,
    show inside.length + 4 = inside.length + (0 + 1 + 1) + 1 + 1 by omega, List.replicate_succ]
  rfl

theorem blankComments_other {c : Char} {t : Text} (h : ¬StartsComment (c :: t)) :
    blankComments (c :: t) = c :: blankComments t :=
  blankComments_cons (commentLength?_eq_none h)

/-- Without a closing mark there is no comment. -/
theorem blankComments_of_not_closes {t : Text} (h : ¬Closes t) : blankComments t = t := by
  induction t with
  | nil => rfl
  | cons c t ih =>
    rw [closes_cons, not_or] at h
    have hnone : commentLength? (c :: t) = none := by
      by_cases hstart : StartsComment (c :: t)
      · obtain ⟨u, hu⟩ := hstart
        obtain ⟨rfl, rfl⟩ := List.cons.inj hu
        have hu : ¬Closes u := fun hcloses => h.2 (closes_cons.2 (.inr hcloses))
        rw [commentLength?, closingLength?_eq_none hu, Option.map_none]
      · exact commentLength?_eq_none hstart
    rw [blankComments_cons hnone, ih h.2]

/-- An opening mark that is never closed opens nothing. -/
theorem blankComments_unclosed {rest : Text} (h : ¬Closes rest) :
    blankComments ('/' :: '*' :: rest) = '/' :: '*' :: rest := by
  have hstar : ¬StartsComment ('*' :: rest) := by
    rintro ⟨u, hu⟩
    cases hu
  rw [blankComments_cons, blankComments_other hstar, blankComments_of_not_closes h]
  rw [commentLength?, closingLength?_eq_none h, Option.map_none]

theorem not_startsComment_append {c : Char} {t u : Text} (h : ¬StartsComment (c :: t))
    (hu : u.head? ≠ some '*') : ¬StartsComment (c :: (t ++ u)) := by
  rintro ⟨v, hv⟩
  obtain ⟨rfl, ht⟩ := List.cons.inj hv
  cases t with
  | nil => exact hu (by rw [show u = '*' :: v from ht]; rfl)
  | cons d t =>
    obtain ⟨rfl, -⟩ := List.cons.inj ht
    exact h ⟨t, rfl⟩

/-- Blanking brings nothing but spaces. -/
theorem mem_of_mem_blankComments {t : Text} {c : Char} (hc : c ≠ ' ')
    (h : c ∈ blankComments t) : c ∈ t := by
  induction t using comment_induction with
  | nil => exact h
  | comment inside rest hinside ih =>
    rw [blankComments_comment hinside] at h
    rcases List.mem_append.1 h with h | h
    · exact absurd (List.eq_of_mem_replicate h) hc
    · simp [ih h]
  | unclosed rest hrest => rwa [blankComments_unclosed hrest] at h
  | other d rest hother ih =>
    rw [blankComments_other hother] at h
    exact List.mem_cons.2 ((List.mem_cons.1 h).imp_right ih)

/-! ## Comments that are left open -/

/-- The text leaves a comment open: an opening mark in it stands in no comment. -/
def Opens (t : Text) : Prop := ['/', '*'] <:+: blankComments t

instance (t : Text) : Decidable (Opens t) := inferInstanceAs (Decidable (_ <:+: _))

theorem not_opens_nil : ¬Opens [] := by
  simp [Opens, blankComments_nil]

theorem infix_replicate_blank (n : Nat) (t : Text) :
    ['/', '*'] <:+: List.replicate n ' ' ++ t ↔ ['/', '*'] <:+: t := by
  induction n with
  | zero => rfl
  | succ n ih =>
    rw [List.replicate_succ, List.cons_append, List.infix_cons_iff, ih, or_iff_right]
    rintro ⟨u, hu⟩
    cases hu

theorem opens_comment {inside : Text} (h : ¬Closes inside) (rest : Text) :
    Opens ('/' :: '*' :: (inside ++ '*' :: '/' :: rest)) ↔ Opens rest := by
  rw [Opens, blankComments_comment h, infix_replicate_blank, Opens]

theorem opens_unclosed {rest : Text} (h : ¬Closes rest) : Opens ('/' :: '*' :: rest) := by
  rw [Opens, blankComments_unclosed h]
  exact ⟨[], rest, rfl⟩

/-- The first character of a blanked text is a blank or was there before. -/
theorem head?_blankComments (t : Text) :
    (blankComments t).head? = t.head? ∨ (blankComments t).head? = some ' ' := by
  induction t using comment_induction with
  | nil => exact .inl rfl
  | comment inside rest h =>
    rw [blankComments_comment h]
    exact .inr rfl
  | unclosed rest h =>
    rw [blankComments_unclosed h]
    exact .inl rfl
  | other c rest h =>
    rw [blankComments_other h]
    exact .inl rfl

/-- Blanking what stands behind a character does not make an opening mark of it. -/
theorem not_startsComment_blankComments {c : Char} {rest : Text}
    (h : ¬StartsComment (c :: rest)) : ¬StartsComment (c :: blankComments rest) := by
  rintro ⟨u, hu⟩
  obtain ⟨rfl, hrest⟩ := List.cons.inj hu
  have hhead := head?_blankComments rest
  rw [hrest] at hhead
  cases rest with
  | nil => simp at hhead
  | cons d rest =>
    obtain rfl : '*' = d := by simpa using hhead
    exact h ⟨rest, rfl⟩

theorem opens_other {c : Char} {rest : Text} (h : ¬StartsComment (c :: rest)) :
    Opens (c :: rest) ↔ Opens rest := by
  rw [Opens, blankComments_other h, List.infix_cons_iff, Opens, or_iff_right]
  rintro ⟨u, hu⟩
  exact not_startsComment_blankComments h ⟨u, hu.symm⟩

theorem opens_cons_of_ne {c : Char} (hc : c ≠ '/') (t : Text) : Opens (c :: t) ↔ Opens t := by
  refine opens_other ?_
  rintro ⟨u, hu⟩
  exact hc (List.cons.inj hu).1

/-- **Behind a text that leaves no comment open, blanking starts afresh.** -/
theorem blankComments_append {t u : Text} (ht : ¬Opens t) (hu : u.head? ≠ some '*') :
    blankComments (t ++ u) = blankComments t ++ blankComments u := by
  induction t using comment_induction with
  | nil => rfl
  | comment inside rest h ih =>
    rw [opens_comment h] at ht
    have hassoc : '/' :: '*' :: (inside ++ '*' :: '/' :: rest) ++ u =
        '/' :: '*' :: (inside ++ '*' :: '/' :: (rest ++ u)) := by
      simp
    rw [hassoc, blankComments_comment h, blankComments_comment h, ih ht, List.append_assoc]
  | unclosed rest h => exact absurd (opens_unclosed h) ht
  | other c rest h ih =>
    rw [opens_other h] at ht
    rw [blankComments_other h, List.cons_append, List.cons_append, ← ih ht,
      blankComments_other (not_startsComment_append h hu)]

theorem opens_append {t u : Text} (ht : ¬Opens t) (hu : u.head? ≠ some '*') :
    Opens (t ++ u) ↔ Opens u := by
  induction t using comment_induction with
  | nil => rfl
  | comment inside rest h ih =>
    rw [opens_comment h] at ht
    have hassoc : '/' :: '*' :: (inside ++ '*' :: '/' :: rest) ++ u =
        '/' :: '*' :: (inside ++ '*' :: '/' :: (rest ++ u)) := by
      simp
    rw [hassoc, opens_comment h, ih ht]
  | unclosed rest h => exact absurd (opens_unclosed h) ht
  | other c rest h ih =>
    rw [opens_other h] at ht
    rw [List.cons_append, opens_other (not_startsComment_append h hu), ih ht]

section

variable {front : Text} (h : ¬Opens front) {c : Char} (hslash : c ≠ '/') (hstar : c ≠ '*')
  (t : Text)

include h hslash hstar

theorem blankComments_append_char :
    blankComments (front ++ c :: t) = blankComments front ++ c :: blankComments t := by
  have hhead : (c :: t).head? ≠ some '*' := by simp [hstar]
  have hother : ¬StartsComment (c :: t) := by
    rintro ⟨u, hu⟩
    exact hslash (List.cons.inj hu).1
  rw [blankComments_append h hhead, blankComments_other hother]

theorem opens_append_char : Opens (front ++ c :: t) ↔ Opens t := by
  have hhead : (c :: t).head? ≠ some '*' := by simp [hstar]
  rw [opens_append h hhead, opens_cons_of_ne hslash]

end

/-! ## Characters that are seen -/

theorem append_eq_replicate_append {n : Nat} {c : Char} (hc : c ≠ ' ') {t x y : Text}
    (h : List.replicate n ' ' ++ t = x ++ c :: y) :
    ∃ x', x = List.replicate n ' ' ++ x' ∧ t = x' ++ c :: y := by
  induction n generalizing x with
  | zero => exact ⟨x, rfl, h⟩
  | succ n ih =>
    rw [List.replicate_succ, List.cons_append] at h
    cases x with
    | nil => exact absurd (List.cons.inj h).1.symm hc
    | cons d x =>
      rw [List.cons_append, List.cons.injEq] at h
      obtain ⟨x', rfl, ht⟩ := ih h.2
      exact ⟨x', by rw [← h.1, List.replicate_succ, List.cons_append], ht⟩

/-- **What stands in front of a character that is seen, and what stands behind it, is blanked apart
from each other.**  A slash and a star need not be seen as what they are: they can be one half of a
mark. -/
theorem blankComments_eq_append {c : Char} (hblank : c ≠ ' ') (hslash : c ≠ '/') (hstar : c ≠ '*')
    {t x y : Text} (h : blankComments t = x ++ c :: y) :
    ∃ front back, t = front ++ c :: back ∧ blankComments front = x ∧ blankComments back = y := by
  induction t using comment_induction generalizing x with
  | nil => simp [blankComments_nil] at h
  | comment inside rest hinside ih =>
    rw [blankComments_comment hinside] at h
    obtain ⟨x', rfl, hrest⟩ := append_eq_replicate_append hblank h
    obtain ⟨front, back, rfl, rfl, rfl⟩ := ih hrest
    refine ⟨'/' :: '*' :: (inside ++ '*' :: '/' :: front), back, by simp, ?_, rfl⟩
    rw [blankComments_comment hinside]
  | unclosed rest hrest =>
    rw [blankComments_unclosed hrest] at h
    match x, h with
    | [], h => exact absurd (List.cons.inj h).1.symm hslash
    | [_], h => exact absurd (List.cons.inj (List.cons.inj h).2).1.symm hstar
    | d :: e :: x, h =>
      simp only [List.cons_append, List.cons.injEq] at h
      obtain ⟨rfl, rfl, rfl⟩ := h
      have hfront : ¬Closes x := fun hx => hrest (hx.trans (List.prefix_append x _).isInfix)
      have hback : ¬Closes y := fun hy => hrest (hy.trans ⟨x ++ [c], [], by simp⟩)
      exact ⟨'/' :: '*' :: x, y, rfl, blankComments_unclosed hfront,
        blankComments_of_not_closes hback⟩
  | other d rest hother ih =>
    rw [blankComments_other hother] at h
    cases x with
    | nil =>
      obtain ⟨rfl, rfl⟩ := List.cons.inj h
      exact ⟨[], rest, rfl, rfl, rfl⟩
    | cons e x =>
      rw [List.cons_append, List.cons.injEq] at h
      obtain ⟨rfl, h⟩ := h
      obtain ⟨front, back, rfl, rfl, rfl⟩ := ih h
      refine ⟨d :: front, back, rfl, blankComments_other ?_, rfl⟩
      rintro ⟨u, hu⟩
      obtain ⟨rfl, rfl⟩ := List.cons.inj hu
      exact hother ⟨u ++ c :: back, rfl⟩

/-- The same where it is known which character of the text is seen. -/
theorem blankComments_append_cons {c : Char} (hblank : c ≠ ' ') (hslash : c ≠ '/') (hstar : c ≠ '*')
    {front back x y : Text} (hlength : x.length = front.length)
    (h : blankComments (front ++ c :: back) = x ++ c :: y) :
    blankComments front = x ∧ blankComments back = y := by
  obtain ⟨front', back', hsplit, rfl, rfl⟩ := blankComments_eq_append hblank hslash hstar h
  rw [length_blankComments] at hlength
  obtain ⟨rfl, hback⟩ := List.append_inj hsplit hlength.symm
  obtain ⟨-, rfl⟩ := List.cons.inj hback
  exact ⟨rfl, rfl⟩

/-- **Whether a character is seen.**  It is not just when a comment is open in front of it and
closed behind it. -/
theorem blankComments_append_eq_iff {c : Char} (hslash : c ≠ '/') (hstar : c ≠ '*') {x y : Text} :
    blankComments (x ++ c :: y) = blankComments x ++ c :: blankComments y ↔
      ¬(Opens x ∧ Closes y) := by
  have hhead : (c :: y).head? ≠ some '*' := by simp [hstar]
  induction x using comment_induction with
  | nil =>
    have hother : ¬StartsComment (c :: y) := by
      rintro ⟨u, hu⟩
      exact hslash (List.cons.inj hu).1
    exact iff_of_true (blankComments_other hother) fun h => not_opens_nil h.1
  | comment inside rest h ih =>
    have hassoc : '/' :: '*' :: (inside ++ '*' :: '/' :: rest) ++ c :: y =
        '/' :: '*' :: (inside ++ '*' :: '/' :: (rest ++ c :: y)) := by
      simp
    rw [hassoc, blankComments_comment h, blankComments_comment h, List.append_assoc,
      List.append_cancel_left_eq, opens_comment h]
    exact ih
  | unclosed rest h =>
    have hcloses : Closes (rest ++ c :: y) ↔ Closes y := by
      rw [closes_append (by simp [hslash]), or_iff_right h, closes_cons, or_iff_right]
      exact fun hmark => hstar hmark.1
    by_cases hy : Closes y
    · refine iff_of_false (fun heq => ?_) (fun hnot => hnot ⟨opens_unclosed h, hy⟩)
      obtain ⟨inside, behind, hsplit, hinside⟩ := (hcloses.2 hy).exists_first
      rw [List.cons_append, List.cons_append, hsplit, blankComments_comment hinside,
        blankComments_unclosed h, List.replicate_succ] at heq
      cases (List.cons.inj heq).1
    · refine iff_of_true ?_ fun hboth => hy hboth.2
      rw [List.cons_append, List.cons_append, blankComments_unclosed (mt hcloses.1 hy),
        blankComments_unclosed h, blankComments_of_not_closes hy]
      rfl
  | other d rest h ih =>
    rw [List.cons_append, blankComments_other (not_startsComment_append h hhead),
      blankComments_other h, List.cons_append, List.cons.injEq, opens_other h]
    exact (and_iff_right rfl).trans ih

end Sheet
end CustomProps
