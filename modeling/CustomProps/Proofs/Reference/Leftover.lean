import CustomProps.Proofs.Edit.Origin
import CustomProps.Proofs.Reference.Evaluation
import CustomProps.Proofs.Text.Blank

/-!
# References that are left over

The edits remove every reference of a value, yet the text that comes of them can hold references
again: an answer may bring one along, and texts that come to stand side by side may form one.  There
is no third way.

* `Reference.outcome` — the text that comes of a value, untrimmed, each character with the position
  it stems from.
* `Reference.IsTidy` — what the edits of references do to the text around them.
* `Reference.mentioned_iff_not_keptTogether` — a reference is left over just where its four
  characters were not kept together.
-/

set_option autoImplicit false

namespace CustomProps
namespace Reference

variable {value : Text} {pairs : List (Nat × Nat)} {lookup : Lookup}

/-! ## References in a text -/

theorem mentioned_iff_append {t : Text} : Mentioned t ↔
    ∃ x y, t = x ++ (Declaration.referenceOpening ++ y) ∧ x.getLast?.any Text.isIdent = false := by
  constructor
  · rintro ⟨i, hi⟩
    have hlt := hi.lt_length
    obtain ⟨y, hy⟩ := List.isPrefixOf_iff_prefix.1 hi.1
    have ht : t = t.take i ++ (Declaration.referenceOpening ++ y) := by
      rw [hy, List.take_append_drop]
    refine ⟨t.take i, y, ht, (startsAt_append_length _ y).1 ?_⟩
    rwa [← ht, List.length_take, Nat.min_eq_left (by omega)]
  · rintro ⟨x, y, rfl, hx⟩
    exact ⟨x.length, (startsAt_append_length x y).2 hx⟩

theorem not_mem_opening_of_isBlank {c : Char} (hc : Text.isBlank c = true) :
    c ∉ Declaration.referenceOpening := by
  intro hmem
  simp only [Declaration.referenceOpening, keyword, List.mem_append, List.mem_cons,
    List.not_mem_nil, or_false] at hmem
  rcases hmem with (rfl | rfl | rfl) | rfl <;> exact absurd hc (by decide)

/-- Blanks in front neither bring nor take a reference. -/
theorem mentioned_append_of_blank {blanks t : Text}
    (hblanks : ∀ c ∈ blanks, Text.isBlank c = true) :
    Mentioned (blanks ++ t) ↔ Mentioned t := by
  rw [mentioned_iff_append, mentioned_iff_append]
  constructor
  · rintro ⟨x, y, h, hx⟩
    rcases List.append_eq_append_iff.1 h with ⟨x', rfl, ht⟩ | ⟨rest, rfl, ht⟩
    · refine ⟨x', y, ht, ?_⟩
      cases x' with
      | nil => rfl
      | cons c x' => rwa [List.getLast?_append_of_ne_nil _ (List.cons_ne_nil c x')] at hx
    · cases rest with
      | nil => exact ⟨[], y, ht.symm, rfl⟩
      | cons c rest =>
        obtain ⟨hc, -⟩ := List.cons.inj ht
        refine absurd ?_ (not_mem_opening_of_isBlank (hblanks c (by simp)))
        rw [← hc]
        decide
  · rintro ⟨x, y, rfl, hx⟩
    refine ⟨blanks ++ x, y, by rw [List.append_assoc], ?_⟩
    cases x with
    | nil =>
      rw [List.append_nil]
      cases hlast : blanks.getLast? with
      | none => rfl
      | some c => exact Text.not_isIdent_of_isBlank (hblanks c (List.mem_of_getLast? hlast))
    | cons c x => rwa [List.getLast?_append_of_ne_nil _ (List.cons_ne_nil c x)]

/-- Blanks behind neither bring nor take a reference. -/
theorem mentioned_append_blank {blanks t : Text} (hblanks : ∀ c ∈ blanks, Text.isBlank c = true) :
    Mentioned (t ++ blanks) ↔ Mentioned t := by
  rw [mentioned_iff_append, mentioned_iff_append]
  constructor
  · rintro ⟨x, y, h, hx⟩
    rw [← List.append_assoc] at h
    rcases List.append_eq_append_iff.1 h with ⟨rest, hrest, hblank⟩ | ⟨rest, ht, -⟩
    · rcases List.eq_nil_or_concat rest with rfl | ⟨rest, c, rfl⟩
      · exact ⟨x, [], by rw [List.append_nil] at hrest ⊢; exact hrest.symm, hx⟩
      · have hlast := congrArg List.getLast? hrest
        have hopening : Declaration.referenceOpening.getLast? = some '(' := rfl
        rw [List.getLast?_append, hopening, List.concat_eq_append, ← List.append_assoc,
          List.getLast?_concat] at hlast
        obtain rfl := Option.some.inj hlast
        have hmem : '(' ∈ blanks := by
          rw [hblank]
          simp
        exact absurd (hblanks _ hmem) (by decide)
    · exact ⟨x, rest, by rw [ht, List.append_assoc], hx⟩
  · rintro ⟨x, y, rfl, hx⟩
    exact ⟨x, y ++ blanks, by rw [List.append_assoc, List.append_assoc], hx⟩

/-- Trimming neither brings nor takes a reference. -/
theorem mentioned_trim (t : Text) : Mentioned (Text.trim t) ↔ Mentioned t := by
  obtain ⟨front, ht, hfront⟩ := Text.exists_trimLeft t
  obtain ⟨back, hleft, hback⟩ := Text.exists_trimRight (Text.trimLeft t)
  calc Mentioned (Text.trim t)
    _ ↔ Mentioned (Text.trimLeft t) := by
      conv_rhs => rw [hleft]
      exact (mentioned_append_blank hback).symm
    _ ↔ Mentioned t := by
      conv_rhs => rw [ht]
      exact (mentioned_append_of_blank hfront).symm

/-! ## What edits do to the text around them -/

/-- No identifier goes on behind a removal, and texts are only inserted where something is
removed. -/
structure IsTidy (value : Text) (edits : EditSet) : Prop where
  edge : ∀ i : Nat, edits.covers i = true → edits.covers (i + 1 : Nat) = false →
    value[i]?.any Text.isIdent = false
  inserted : ∀ i : Nat, edits.covers i = false → edits.insertedAt i = none

theorem isTidy_empty (value : Text) : IsTidy value .empty where
  edge _ h := absurd h Bool.false_ne_true
  inserted _ _ := rfl

/-- The edits of a reference end with its comma, with a blank behind that, or with its closing
parenthesis. -/
theorem IsTidy.plan {x inside y : Text} {edits : EditSet} (h : IsTidy value edits)
    (hvalue : value = x ++ (Declaration.referenceOpening ++ (inside ++ ')' :: y))) :
    IsTidy value ((placed x.length inside).plan ((placed x.length inside).resolve value lookup)
      value edits) := by
  have hplan := covers_plan hvalue lookup edits
  have hplan' := insertedAt_plan hvalue lookup edits
  generalize (placed x.length inside).plan ((placed x.length inside).resolve value lookup) value
    edits = later at hplan hplan'
  refine ⟨fun i hi hnext => ?_, fun i hi => ?_⟩
  · have hnext' := mt (hplan (i + 1)).2 (Bool.eq_false_iff.1 hnext)
    rw [not_or, Bool.not_eq_true] at hnext'
    rcases (hplan i).1 hi with hi | hi | rfl
    · exact h.edge i hi hnext'.1
    · obtain ⟨front, hfront, hsurvivor⟩ := exists_survivor lookup inside
      have hlength := congrArg List.length hfront
      rw [List.length_append] at hlength
      have hne : survivor lookup inside ≠ [] := by
        intro hnil
        rw [hnil, List.length_nil] at hnext' hi
        omega
      obtain ⟨front', c, rfl, hc⟩ := hsurvivor hne
      rw [List.length_append, List.length_singleton] at hlength
      rw [getElem?_of_eq_append (x := x ++ (Declaration.referenceOpening ++ front')) (c := c)
        (y := survivor lookup inside ++ ')' :: y), Option.any_some]
      · rcases hc with rfl | hc
        · rfl
        · exact Text.not_isIdent_of_isBlank hc
      · conv_lhs => rw [hvalue, hfront]
        simp only [List.append_assoc, List.cons_append, List.nil_append]
      · rw [IsWindow.length_to_nested]
        omega
    · rw [getElem?_of_eq_append (x := x ++ (Declaration.referenceOpening ++ inside)) (c := ')')
        (y := y)]
      · rfl
      · rw [hvalue]
        simp only [List.append_assoc]
      · rw [IsWindow.length_to_nested]
  · have hi' := mt (hplan i).2 (Bool.eq_false_iff.1 hi)
    rw [not_or, Bool.not_eq_true] at hi'
    have hlt := length_survivor_le lookup inside
    rw [hplan', if_neg (by omega)]
    exact h.inserted i hi'.1

theorem IsTidy.settle {edits : EditSet} {refs : List Reference} (h : IsTidy value edits)
    (hpairs : parentheses value = some pairs)
    (hrefs : ∀ r ∈ refs, ∃ i, standing? value pairs i = some r) :
    IsTidy value (settle value lookup edits refs) := by
  induction refs generalizing edits with
  | nil => exact h
  | cons r rs ih =>
    refine ih ?_ fun s hs => hrefs s (List.mem_cons_of_mem r hs)
    obtain ⟨i, hr⟩ := hrefs r List.mem_cons_self
    obtain ⟨x, inside, y, hvalue, -, rfl⟩ := placed_of_standing? hpairs hr
    unfold settleOne
    split
    · exact h
    · exact h.plan hvalue

/-- The keyword of every reference is removed, of the dead ones too. -/
theorem covers_settle_start {edits : EditSet} {refs : List Reference}
    (hpairs : parentheses value = some pairs)
    (hrefs : ∀ r ∈ refs, ∃ i, standing? value pairs i = some r) {r : Reference} (hr : r ∈ refs) :
    (settle value lookup edits refs).covers r.start = true := by
  induction refs generalizing edits with
  | nil => cases hr
  | cons s rs ih =>
    rcases List.mem_cons.1 hr with rfl | hr
    · refine covers_settle_of_covers ?_ rs
      obtain ⟨i, hi⟩ := hrefs r List.mem_cons_self
      obtain ⟨x, inside, y, hvalue, -, rfl⟩ := placed_of_standing? hpairs hi
      have hle := length_survivor_le lookup inside
      unfold settleOne
      split
      · assumption
      · refine (covers_plan hvalue lookup edits x.length).2 (.inr (.inl ?_))
        omega
    · exact ih (fun s hs => hrefs s (List.mem_cons_of_mem _ hs)) hr

theorem isTidy_planAll_live (hpairs : parentheses value = some pairs) (lookup : Lookup) :
    IsTidy value (planAll value (live value lookup)) := by
  rw [planAll_live hpairs]
  refine (isTidy_empty value).settle hpairs fun r hr => ?_
  obtain ⟨i, -, hi⟩ := List.mem_filterMap.1 hr
  exact ⟨i, hi⟩

theorem covers_planAll_live {i : Nat} (hpairs : parentheses value = some pairs)
    (h : StartsAt value i) : (planAll value (live value lookup)).covers i = true := by
  obtain ⟨r, hr⟩ := Option.isSome_iff_exists.1 ((isSome_standing? hpairs i).2 h)
  rw [planAll_live hpairs, ← start_of_standing? hr]
  refine covers_settle_start hpairs (fun r hr => ?_) (List.mem_filterMap.2 ⟨i, ?_, hr⟩)
  · obtain ⟨i, -, hi⟩ := List.mem_filterMap.1 hr
    exact ⟨i, hi⟩
  · have := h.lt_length
    exact List.mem_range'_1.2 (by omega)

/-! ## The outcome -/

/-- The text that comes of a value, untrimmed, each character with the position it stems from. -/
def outcome (value : Text) (lookup : Lookup) : List (Char × Option Nat) :=
  (planAll value (live value lookup)).originsFrom value 0 (value.length + 1)

/-- The characters stem from so many positions in a row. -/
def KeptTogether (chars : List (Char × Option Nat)) : Prop :=
  ∃ p, chars.map Prod.snd = (List.range' p chars.length).map some

/-- In front of a kept character whose neighbour is kept too stands that neighbour. -/
theorem getLast?_of_kept {edits : EditSet} {q : Nat} {c d : Char}
    {front back : List (Char × Option Nat)} (htidy : IsTidy value edits)
    (h : edits.originsFrom value 0 (value.length + 1) = front ++ (c, some (q + 1)) :: back)
    (hq : edits.covers q = false) (hd : value[q]? = some d) :
    front.getLast? = some (d, some q) := by
  obtain ⟨-, -, hcovers, -, hfront, -⟩ := EditSet.originsFrom_eq_append h
  have horigins : edits.origins value q = [(d, some q)] := by
    rw [EditSet.origins, htidy.inserted q hq, hq, hd]
    rfl
  rw [hfront, htidy.inserted _ hcovers, Nat.sub_zero, EditSet.originsFrom_add, Nat.zero_add,
    EditSet.originsFrom_succ, horigins]
  show ((edits.originsFrom value 0 q ++ ([(d, some q)] ++ [])) ++ []).getLast? = _
  rw [List.append_nil, List.append_nil, List.getLast?_concat]

/-- No reference is kept together. -/
theorem not_keptTogether {front chars back : List (Char × Option Nat)}
    (hpairs : parentheses value = some pairs)
    (h : outcome value lookup = front ++ (chars ++ back))
    (hchars : chars.map Prod.fst = Declaration.referenceOpening)
    (hfront : front.getLast?.any (Text.isIdent ·.1) = false) : ¬KeptTogether chars := by
  rintro ⟨p, hp⟩
  have htidy := isTidy_planAll_live hpairs lookup
  have hlength : chars.length = 4 := by
    rw [← List.length_map Prod.fst, hchars]
    rfl
  have heq : chars = [('v', some p), ('a', some (p + 1)), ('r', some (p + 2)),
      ('(', some (p + 3))] := by
    rw [hlength] at hp
    exact List.zip_of_prod hchars hp
  have hkept : ∀ (c : Char) (q : Nat), (c, some q) ∈ chars →
      (planAll value (live value lookup)).covers q = false ∧ value[q]? = some c := by
    intro c q hmem
    have hmem' : (c, some q) ∈ outcome value lookup := by
      rw [h]
      simp [hmem]
    exact EditSet.kept_of_mem hmem'
  rw [heq] at hkept h
  obtain ⟨hcovers, hv⟩ := hkept 'v' p (by simp)
  refine Bool.false_ne_true (hcovers.symm.trans (covers_planAll_live hpairs ⟨?_, ?_⟩))
  · obtain ⟨-, ha⟩ := hkept 'a' (p + 1) (by simp)
    obtain ⟨-, hr⟩ := hkept 'r' (p + 2) (by simp)
    obtain ⟨-, hparen⟩ := hkept '(' (p + 3) (by simp)
    rw [List.isPrefixOf_iff_prefix, List.prefix_iff_getElem?]
    intro i hi
    rw [List.getElem?_drop]
    match i, hi with
    | 0, _ => exact hv
    | 1, _ => exact ha
    | 2, _ => exact hr
    | 3, _ => exact hparen
  · cases p with
    | zero => rfl
    | succ q =>
      show value[q]?.any Text.isIdent = false
      cases hq : (planAll value (live value lookup)).covers q with
      | true => exact htidy.edge q hq hcovers
      | false =>
        have hlt := (List.getElem?_eq_some_iff.1 hv).1
        have hd := List.getElem?_eq_getElem (Nat.lt_of_succ_lt hlt)
        rw [getLast?_of_kept htidy h hq hd] at hfront
        rw [hd]
        exact hfront

theorem mentioned_map_fst (chars : List (Char × Option Nat)) :
    Mentioned (chars.map Prod.fst) ↔ ∃ front opening back, chars = front ++ (opening ++ back) ∧
      opening.map Prod.fst = Declaration.referenceOpening ∧
      front.getLast?.any (Text.isIdent ·.1) = false := by
  rw [mentioned_iff_append]
  constructor
  · rintro ⟨x, y, h, hx⟩
    obtain ⟨front, rest, rfl, rfl, hrest⟩ := List.map_eq_append_iff.1 h
    obtain ⟨opening, back, rfl, hopening, rfl⟩ := List.map_eq_append_iff.1 hrest
    refine ⟨front, opening, back, rfl, hopening, ?_⟩
    rw [List.getLast?_map, Option.any_map] at hx
    exact hx
  · rintro ⟨front, opening, back, rfl, hopening, hfront⟩
    refine ⟨front.map Prod.fst, back.map Prod.fst, ?_, ?_⟩
    · rw [List.map_append, List.map_append, hopening]
    · rw [List.getLast?_map, Option.any_map]
      exact hfront

/-! ## What is left over -/

theorem mentioned_outcome (hpairs : parentheses value = some pairs) {text : Text}
    (h : fallbackValue? value lookup = some text) :
    Mentioned text ↔ Mentioned ((outcome value lookup).map Prod.fst) := by
  have hmentioned : Mentioned value := by
    by_contra hnone
    rw [fallbackValue?_of_not_mentioned hnone] at h
    cases h
  rw [fallbackValue?_of_mentioned hpairs hmentioned, Text.nonBlank?_eq_some_iff] at h
  rw [outcome, EditSet.map_fst_originsFrom, ← h.1, mentioned_trim]

/-- A property has no colon, so the value of a fallback is what stands behind the first one. -/
theorem value_property_append (declaration text : Text) :
    Declaration.value (Declaration.property declaration ++ ':' :: text) = text := by
  have hcolon : ∀ c ∈ Declaration.property declaration, (c != ':') = true := by
    intro c hc
    have hsub : (Text.trimRight (Text.trimLeft (declaration.takeWhile (· != ':')))).Sublist
        (declaration.takeWhile (· != ':')) := by
      refine List.Sublist.trans ?_ (List.dropWhile_sublist Text.isBlank)
      rw [Text.trimRight, ← List.reverse_sublist, List.reverse_reverse]
      exact List.dropWhile_sublist _
    exact List.all_eq_true.1 List.all_takeWhile c (hsub.subset hc)
  rw [Declaration.value, Declaration.split, List.dropWhile_append_of_pos hcolon]
  rfl

/-- **A literal text holds a reference just where `var(` comes about of characters that were not
kept together**, by an answer or at a seam.  The fallback of a declaration whose text is free of
references has no fallback itself. -/
theorem mentioned_iff_not_keptTogether {value text : Text} {lookup : Lookup}
    (h : fallbackValue? value lookup = some text) :
    (Mentioned text ↔ ∃ front opening back, outcome value lookup = front ++ (opening ++ back) ∧
      opening.map Prod.fst = Declaration.referenceOpening ∧
      front.getLast?.any (Text.isIdent ·.1) = false ∧ ¬KeptTogether opening) ∧
    (¬Mentioned text → ∀ declaration fallback, Declaration.value declaration = value →
      Declaration.fallback? declaration lookup = some fallback →
      ∀ lookup', Declaration.fallback? fallback lookup' = none) := by
  have hpairs : ∃ pairs, parentheses value = some pairs := by
    cases hpairs : parentheses value with
    | none =>
      rw [fallbackValue?_of_live_eq_nil
        (live_eq_nil_of_all?_eq_none (all?_eq_none_iff.2 hpairs))] at h
      cases h
    | some pairs => exact ⟨pairs, rfl⟩
  obtain ⟨pairs, hpairs⟩ := hpairs
  refine ⟨?_, fun hfree declaration fallback hvalue hfallback lookup' => ?_⟩
  · rw [mentioned_outcome hpairs h, mentioned_map_fst]
    constructor
    · rintro ⟨front, opening, back, heq, hopening, hfront⟩
      exact ⟨front, opening, back, heq, hopening, hfront,
        not_keptTogether hpairs heq hopening hfront⟩
    · rintro ⟨front, opening, back, heq, hopening, hfront, -⟩
      exact ⟨front, opening, back, heq, hopening, hfront⟩
  · unfold Declaration.fallback? at hfallback
    split at hfallback
    · rw [hvalue, h, Option.map_some, Option.some.injEq] at hfallback
      rw [← hfallback, Declaration.fallback?, value_property_append,
        fallbackValue?_of_not_mentioned hfree, Option.map_none, ite_self]
    · cases hfallback

/-- An answer can bring a reference along. -/
theorem mentioned_of_answer :
    fallbackValue? "var(--a)".toList (fun _ => some "var(--b)".toList) =
        some "var(--b)".toList ∧
      Mentioned "var(--b)".toList ∧
      ∃ front opening back,
        outcome "var(--a)".toList (fun _ => some "var(--b)".toList) =
          front ++ (opening ++ back) ∧
        opening.map Prod.fst = Declaration.referenceOpening ∧
        front.getLast?.any (Text.isIdent ·.1) = false ∧ ¬KeptTogether opening := by
  have hsplit : split? none "var(--a)".toList = some ("--a".toList, []) := by decide
  have h : fallbackValue? "var(--a)".toList (fun _ => some "var(--b)".toList) =
      some "var(--b)".toList := by
    rw [fallbackValue?_of_balanced (by decide) (by decide), expand_of_split?_eq_some hsplit,
      expand_nil, List.append_nil]
    exact congrArg Text.nonBlank? (congrArg _ (expand_nil none))
  have hmentioned : Mentioned "var(--b)".toList := by decide
  exact ⟨h, hmentioned, (mentioned_iff_not_keptTogether h).1.1 hmentioned⟩

end Reference
end CustomProps
