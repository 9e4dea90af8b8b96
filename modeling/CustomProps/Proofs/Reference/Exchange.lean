import CustomProps.Proofs.Reference.Visits

/-!
# Dead fallbacks do not matter

The fallback of a reference that is answered is neither resolved nor kept, so any balanced text can
stand in its place.  Neither do the answers matter that a scope has for references that are dead.

* `Reference.split?_exchange` — a text with another reference in it is taken apart as before.
* `Reference.Visits.expand_exchange` — its expansion is the same.
* `Reference.fallbackValue?_ignores_dead` — the literal text of a value depends on nothing dead.
* `Reference.not_ignores_fallback_of_blankName` — the fallback of a reference with a blank name is
  not dead, whatever answer there is for the blank name.
-/

set_option autoImplicit false

namespace CustomProps
namespace Reference

variable {value : Text} {lookup : Lookup} {before : Option Char}
  {front inside inside' behind : Text}

/-! ## Exchanging a reference for another one -/

theorem depthAfter?_exchange (h : inside.IsBalanced) (h' : inside'.IsBalanced) (depth : Nat)
    (front behind : Text) : Text.depthAfter? depth (front ++ written inside' behind) =
      Text.depthAfter? depth (front ++ written inside behind) := by
  simp only [Text.depthAfter?_append, depthAfter?_written h, depthAfter?_written h']

theorem split?_written (hident : before.any Text.isIdent = false) (h : inside.IsBalanced)
    (behind : Text) : split? before (written inside behind) = some (inside, behind) :=
  split?_eq_some_iff.2 ⟨hident, rfl, h⟩

/-- Both texts start with the same character. -/
theorem exists_cons_exchange (front inside inside' behind : Text) : ∃ c cs cs',
    front ++ written inside behind = c :: cs ∧ front ++ written inside' behind = c :: cs' := by
  cases front with
  | nil => exact ⟨'v', _, _, rfl, rfl⟩
  | cons c front => exact ⟨c, _, _, rfl, rfl⟩

theorem split?_opening_eq_none_iff {z : Text} :
    split? none (Declaration.referenceOpening ++ z) = none ↔ (Text.depthAfter? 0 z).isSome := by
  rw [← Text.closing?_eq_none_iff]
  exact Option.map_eq_none_iff

/-- A text that starts with no reference does not start with one when a later reference is
exchanged. -/
theorem split?_exchange (h : inside.IsBalanced) (h' : inside'.IsBalanced) (hfront : front ≠ [])
    (hsplit : split? before (front ++ written inside behind) = none) :
    split? before (front ++ written inside' behind) = none := by
  rw [Option.eq_none_iff_forall_ne_some]
  rintro ⟨first, rest⟩ hsome
  obtain ⟨hident, heq, hfirst⟩ := split?_eq_some_iff.1 hsome
  obtain ⟨middle, rfl, hmiddle⟩ := exists_of_opening_eq hfront heq.symm
  rw [split?_of_not_ident hident, List.append_assoc, split?_opening_eq_none_iff,
    ← depthAfter?_exchange h h', written, ← hmiddle, hfirst.depthAfter?_append] at hsplit
  cases hsplit

theorem answer?_congr (lookup : Lookup) (h : namePart inside' = namePart inside) :
    answer? lookup inside' = answer? lookup inside := by
  rw [answer?, answer?, h]

/-- A part that survives a reference does so whatever stands behind its first character. -/
theorem survivor_cons_congr {lead kept : Text} {c : Char}
    (h : survivor lookup (lead ++ c :: kept) = c :: kept) (kept' : Text) :
    survivor lookup (lead ++ c :: kept') = c :: kept' ∧
      answer? lookup (lead ++ c :: kept') = answer? lookup (lead ++ c :: kept) := by
  cases hanswer : answer? lookup (lead ++ c :: kept) with
  | some answer => rw [survivor, hanswer] at h; cases h
  | none =>
    cases hfallback : fallbackPart? (lead ++ c :: kept) with
    | none => rw [survivor, hanswer, hfallback] at h; cases h
    | some fallback =>
      have htrim : Text.trimLeft fallback = c :: kept := by
        rw [survivor, hanswer, hfallback] at h
        exact h
      have hblank : Text.isBlank c = false :=
        Text.isBlank_of_head?_trimLeft (t := fallback) (by rw [htrim]; rfl)
      -- in front of the surviving part stand the name, the comma and blanks, in both texts
      obtain ⟨blanks, hblanks, hfront⟩ := Text.exists_trimLeft fallback
      have hinside := namePart_append_of_some hfallback
      rw [hblanks, htrim, ← List.cons_append, ← List.append_assoc] at hinside
      have hlead := List.append_cancel_right hinside
      have hinside' : lead ++ c :: kept' =
          namePart (lead ++ c :: kept) ++ ',' :: (blanks ++ c :: kept') := by
        conv_lhs => rw [← hlead]
        rw [List.append_assoc, List.cons_append]
      have hname : namePart (lead ++ c :: kept') = namePart (lead ++ c :: kept) := by
        rw [hinside', namePart_namePart_append]
      have hanswer' := (answer?_congr lookup hname).trans hanswer
      refine ⟨?_, hanswer'⟩
      rw [survivor, hanswer']
      dsimp only
      rw [hinside', fallbackPart?_namePart_append, Option.getD_some, Text.trimLeft,
        List.dropWhile_append_of_pos hfront, ← Text.trimLeft, Text.trimLeft_of_head?]
      rintro d ⟨⟩
      exact hblank

/-- **Where the expansion comes to a reference that is answered, another one with its name leaves
the expansion as it is.**  The proof follows the way that the expansion takes to the reference. -/
theorem Visits.expand_exchange {t : Text} (h : Visits lookup before t front inside behind)
    (hanswer : (answer? lookup inside).isSome) (h' : inside'.IsBalanced)
    (hname : namePart inside' = namePart inside) :
    expand lookup before (front ++ written inside' behind) = expand lookup before t := by
  induction h with
  | @here before t inside rest hsplit =>
    obtain ⟨answer, hanswer⟩ := Option.isSome_iff_exists.1 hanswer
    have hanswer' := (answer?_congr lookup hname).trans hanswer
    have hsplit' := split?_written (split?_eq_some_iff.1 hsplit).1 h' rest
    rw [List.nil_append, expand_of_split?_eq_some hsplit', expand_of_split?_eq_some hsplit,
      survivor, survivor, hanswer, hanswer']
  | @skip before c cs front inside behind hsplit hrest ih =>
    -- the new text could only start with a reference that reaches over the exchanged one
    obtain ⟨hcs, hinside⟩ := hrest.eq_written
    have hsplit' : split? before (c :: front ++ written inside' behind) = none :=
      split?_exchange hinside h' (List.cons_ne_nil c front) (by rwa [List.cons_append, ← hcs])
    rw [List.cons_append] at hsplit' ⊢
    rw [expand_of_split?_eq_none hsplit', ih hanswer hname, expand_of_split?_eq_none hsplit]
  | @nested before t lead kept rest front inside behind hsplit hkept hinner ih =>
    -- the text in front of the exchanged reference decides what survives of the outer one
    obtain ⟨hident, -, hbalanced⟩ := split?_eq_some_iff.1 hsplit
    obtain ⟨hwritten, hinside⟩ := hinner.eq_written
    obtain ⟨c, cs, cs', hcs, hcs'⟩ := exists_cons_exchange front inside inside' behind
    rw [hwritten, hcs] at hkept
    obtain ⟨hkept', hanswer'⟩ := survivor_cons_congr hkept cs'
    rw [← hcs, ← hwritten] at hkept hanswer'
    rw [← hcs'] at hkept' hanswer'
    have hbalanced' : (lead ++ (front ++ written inside' behind)).IsBalanced := by
      rw [hwritten, ← List.append_assoc] at hbalanced
      rwa [Text.IsBalanced, ← List.append_assoc, depthAfter?_exchange hinside h']
    have hsplit' := split?_written hident hbalanced' rest
    have htext : Declaration.referenceOpening ++ (lead ++ front) ++
        written inside' (behind ++ ')' :: rest) =
          written (lead ++ (front ++ written inside' behind)) rest := by
      simp only [written, List.append_assoc, List.cons_append]
    rw [htext, expand_of_split?_eq_some hsplit', expand_of_split?_eq_some hsplit, hanswer', hkept',
      hkept, ih hanswer hname]
  | @behind before t inside₁ rest front inside behind hsplit hrest ih =>
    obtain ⟨hident, -, hbalanced⟩ := split?_eq_some_iff.1 hsplit
    have hsplit' := split?_written hident hbalanced (front ++ written inside' behind)
    have htext : Declaration.referenceOpening ++ (inside₁ ++ ')' :: front) ++
        written inside' behind = written inside₁ (front ++ written inside' behind) := by
      simp only [written, List.append_assoc, List.cons_append]
    rw [htext, expand_of_split?_eq_some hsplit', expand_of_split?_eq_some hsplit, ih hanswer hname]

/-! ## Values -/

theorem startsAt_of_isLive {pairs : List (Nat × Nat)} {answered : Reference → Prop} {r : Reference}
    (hpairs : parentheses value = some pairs) (h : IsLive value answered r) :
    StartsAt value r.start := by
  rw [IsLive] at h
  rw [← isSome_standing? hpairs, standing?_of_mem_references hpairs h.1]
  rfl

/-- A live reference that is answered can be exchanged for another one with its name. -/
theorem fallbackValue?_exchange {pairs : List (Nat × Nat)} (hpairs : parentheses value = some pairs)
    (hvisits : Visits lookup none value front inside behind)
    (hanswer : (answer? lookup inside).isSome) (h' : inside'.IsBalanced)
    (hname : namePart inside' = namePart inside) :
    fallbackValue? (front ++ written inside' behind) lookup = fallbackValue? value lookup := by
  obtain ⟨hvalue, hinside⟩ := hvisits.eq_written
  have hbalanced : value.IsBalanced := isSome_parentheses.1 (hpairs ▸ rfl)
  have hbalanced' : (front ++ written inside' behind).IsBalanced := by
    rwa [Text.IsBalanced, depthAfter?_exchange hinside h', ← hvalue]
  have hstarts := startsAt_of_isLive hpairs ((isLive_iff_visits hpairs _).2 ⟨_, _, _, hvisits, rfl⟩)
  have hstarts' : StartsAt (front ++ written inside' behind) front.length := by
    rw [hvalue] at hstarts
    exact (startsAt_append_length _ _).2 ((startsAt_append_length _ _).1 hstarts)
  rw [fallbackValue?_of_balanced hbalanced ⟨_, hstarts⟩,
    fallbackValue?_of_balanced hbalanced' ⟨_, hstarts'⟩, hvisits.expand_exchange hanswer h' hname]

/-- The value with another text in place of the fallback of a reference. -/
def withFallback (r : Reference) (value text : Text) : Text :=
  value.take r.nameStop ++ (text ++ value.drop r.closeParen)

theorem withFallback_placed {fallback : Text} (hvalue : value = front ++ written inside behind)
    (hfallback : fallbackPart? inside = some fallback) (text : Text) :
    (placed front.length inside).withFallback value text =
      front ++ written (namePart inside ++ ',' :: text) behind := by
  have hinside := namePart_append_of_some hfallback
  have hvalue' : value = front ++ (Declaration.referenceOpening ++ (namePart inside ++ [','])) ++
      (fallback ++ ')' :: behind) := by
    rw [hvalue, written]
    conv_lhs => rw [← hinside]
    simp only [List.append_assoc, List.cons_append, List.nil_append]
  have htake : value.take (placed front.length inside).nameStop =
      front ++ (Declaration.referenceOpening ++ (namePart inside ++ [','])) := by
    conv_lhs => rw [hvalue']
    refine List.take_left' ?_
    rw [IsWindow.length_to_nested, List.length_append, nameStop, fallbackStart, placed, hfallback]
    rfl
  have hdrop : value.drop (placed front.length inside).closeParen = ')' :: behind := by
    rw [hvalue, written, ← List.append_assoc, ← List.append_assoc]
    refine List.drop_left' ?_
    rw [List.append_assoc, IsWindow.length_to_nested]
    rfl
  rw [withFallback, htake, hdrop]
  simp only [written, List.append_assoc, List.cons_append, List.nil_append]

/-- The fallback of a live reference that is answered can be exchanged for any balanced text. -/
theorem fallbackValue?_withFallback {r : Reference} {text : Text}
    (hlive : IsLive value (IsAnswered value lookup) r)
    (hroot : (r.resolve value lookup).isRoot = true) (hfallback : r.hasFallback = true)
    (hname : (r.nameText value).Parenless) (htext : text.IsBalanced) :
    fallbackValue? (r.withFallback value text) lookup = fallbackValue? value lookup := by
  cases hpairs : parentheses value with
  | none =>
    rw [IsLive, references_eq_nil hpairs] at hlive
    exact absurd hlive.1 List.not_mem_nil
  | some pairs =>
    obtain ⟨front, inside, behind, hvisits, rfl⟩ := (isLive_iff_visits hpairs r).1 hlive
    have hvalue := hvisits.eq_written.1
    rw [resolve_isRoot, rootValue?_placed hvalue] at hroot
    rw [nameText_placed hvalue] at hname
    obtain ⟨comma, hcomma⟩ := Option.isSome_iff_exists.1 hfallback
    obtain ⟨fallback, hinside, -⟩ := Option.map_eq_some_iff.1 hcomma
    have hbalanced : (namePart inside ++ ',' :: text).IsBalanced :=
      hname.isBalanced.append ((Text.depthAfter?_other (by decide) 0 text).trans htext)
    rw [withFallback_placed hvalue hinside, fallbackValue?_exchange hpairs hvisits hroot hbalanced
      (namePart_namePart_append inside text)]

/-- **What is dead does not matter.**  A scope that answers alike for the live references gives the
same literal text, and so does any balanced text in place of the fallback of a live reference that
is answered and has no parenthesis in its name. -/
theorem fallbackValue?_ignores_dead (value : Text) (lookup : Lookup) :
    (∀ lookup' : Lookup,
      (∀ r, IsLive value (IsAnswered value lookup) r →
        trimmedAnswer lookup' (r.name value) = trimmedAnswer lookup (r.name value)) →
      fallbackValue? value lookup' = fallbackValue? value lookup) ∧
    ∀ r, IsLive value (IsAnswered value lookup) r → (r.resolve value lookup).isRoot = true →
      r.hasFallback = true → (r.nameText value).Parenless → ∀ text : Text, text.IsBalanced →
      fallbackValue? (r.withFallback value text) lookup = fallbackValue? value lookup :=
  ⟨fun _ => fallbackValue?_congr, fun _ hlive hroot hfallback hname _ =>
    fallbackValue?_withFallback hlive hroot hfallback hname⟩

/-- A reference in a fallback that is not read is dead: neither its answer nor the fallback itself
matters. -/
theorem ignores_dead_nested :
    live "var(--a,var(--b))".toList (fun _ => some "1".toList) =
        [(⟨0, 3, 16, some 7⟩, .root "1".toList)] ∧
      (⟨0, 3, 16, some 7⟩ : Reference).withFallback "var(--a,var(--b))".toList "(x)".toList =
        "var(--a,(x))".toList ∧
      fallbackValue? "var(--a,var(--b))".toList
          (fun name => if name = "--a".toList then some " 1 ".toList else none) =
        fallbackValue? "var(--a,var(--b))".toList (fun _ => some "1".toList) ∧
      fallbackValue? "var(--a,(x))".toList (fun _ => some "1".toList) =
        fallbackValue? "var(--a,var(--b))".toList fun _ => some "1".toList := by
  have hlive : live "var(--a,var(--b))".toList (fun _ => some "1".toList) =
      [(⟨0, 3, 16, some 7⟩, .root "1".toList)] := by decide
  have hmem : ∀ r, IsLive "var(--a,var(--b))".toList
      (IsAnswered "var(--a,var(--b))".toList fun _ => some "1".toList) r ↔
        r = ⟨0, 3, 16, some 7⟩ := by
    intro r
    rw [isLive_iff_mem, hlive]
    exact List.mem_singleton
  have hname : nameText ⟨0, 3, 16, some 7⟩ "var(--a,var(--b))".toList = "--a".toList := by
    decide
  have hwith : (⟨0, 3, 16, some 7⟩ : Reference).withFallback "var(--a,var(--b))".toList
      "(x)".toList = "var(--a,(x))".toList := by decide
  obtain ⟨hscope, htext⟩ := fallbackValue?_ignores_dead "var(--a,var(--b))".toList
    fun _ => some "1".toList
  refine ⟨hlive, hwith, hscope _ fun r hr => ?_, hwith ▸ htext _ ((hmem _).2 rfl) ?_ ?_ ?_ _ ?_⟩
  · obtain rfl := (hmem r).1 hr
    decide
  · decide
  · rfl
  · rw [hname]
    decide
  · decide

/-! ## A blank name -/

/-- A scope that has an answer for the blank name. -/
def blankNameScope (answer : Text) : Lookup := fun name =>
  if name = [] then some ['x'] else some answer

/-- A blank name is not asked for, so the fallback is kept and the reference in it is resolved. -/
theorem fallbackValue?_blankName {answer : Text} (hanswer : Text.nonBlank? answer = some answer) :
    fallbackValue? "var(,var(--a))".toList (blankNameScope answer) = some answer := by
  have houter : split? none "var(,var(--a))".toList = some (",var(--a)".toList, []) := by decide
  have houter_answer : answer? (blankNameScope answer) ",var(--a)".toList = none :=
    if_pos (by decide)
  have houter_survivor : survivor (blankNameScope answer) ",var(--a)".toList =
      "var(--a)".toList := by
    rw [survivor, houter_answer]
    decide
  have hinner : split? none "var(--a)".toList = some ("--a".toList, []) := by decide
  have hinner_answer : answer? (blankNameScope answer) "--a".toList = some answer := by
    rw [answer?, if_neg (by decide), blankNameScope, if_neg (by decide)]
    exact hanswer
  have hinner_survivor : survivor (blankNameScope answer) "--a".toList = [] := by
    rw [survivor, hinner_answer]
  rw [fallbackValue?_of_balanced (by decide) (by decide), expand_of_split?_eq_some houter,
    houter_answer, houter_survivor, expand_of_split?_eq_some hinner, hinner_answer,
    hinner_survivor, expand_nil, expand_nil]
  simpa using hanswer

/-- The fallback of a reference with a blank name is kept, even if the scope has an answer for the
blank name, and so the answers matter that it has for the references there. -/
theorem not_ignores_fallback_of_blankName :
    ¬∀ (value : Text) (lookup lookup' : Lookup),
      (∀ r, IsLive value (HasAnswer value lookup) r →
        lookup' (r.name value) = lookup (r.name value)) →
      fallbackValue? value lookup' = fallbackValue? value lookup := by
  intro h
  have hrefs : references "var(,var(--a))".toList = [⟨0, 3, 13, some 4⟩, ⟨5, 8, 12, none⟩] := by
    decide
  have hfirst : IsLive "var(,var(--a))".toList
      (HasAnswer "var(,var(--a))".toList (blankNameScope "1".toList)) ⟨0, 3, 13, some 4⟩ := by
    rw [IsLive, hrefs]
    exact ⟨List.mem_cons_self, fun s _ hs => absurd hs (Nat.not_lt_zero _)⟩
  have hresult := h "var(,var(--a))".toList (blankNameScope "1".toList)
    (blankNameScope "2".toList) fun r hr => by
      rw [IsLive, hrefs] at hr
      obtain ⟨hmem, hburied⟩ := hr
      rcases List.mem_cons.1 hmem with rfl | hmem
      · decide
      · obtain rfl := List.mem_singleton.1 hmem
        refine absurd (.inr ⟨⟨4, rfl, by decide, by decide⟩, ['x'], by decide, by decide⟩)
          (hburied _ List.mem_cons_self (by decide) hfirst)
  rw [fallbackValue?_blankName (by decide), fallbackValue?_blankName (by decide)] at hresult
  exact absurd hresult (by decide)

end Reference
end CustomProps
