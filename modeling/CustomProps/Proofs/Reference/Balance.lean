import CustomProps.Proofs.Reference.Visits

/-!
# Expansion keeps the balance of parentheses

A reference goes with both of its parentheses, and what comes in its place is balanced: an answer by
assumption, and a fallback because the text between the parentheses is balanced and so is the name
in front of the comma, if it has no parenthesis.

* `Reference.isBalanced_survivor` — what survives of a reference is balanced.
* `Reference.depthAfter?_expand` — expanding a text leaves its depth as it is.
* `Reference.isBalanced_of_fallbackValue?` — the literal text of a value is balanced.
-/

set_option autoImplicit false

namespace CustomProps
namespace Reference

variable {value : Text} {lookup : Lookup} {before : Option Char} {inside : Text}

/-- What survives of a reference is balanced if its name has no parenthesis. -/
theorem isBalanced_survivor (h : inside.IsBalanced) (hname : (namePart inside).Parenless) :
    (survivor lookup inside).IsBalanced := by
  rw [survivor]
  cases answer? lookup inside with
  | some answer => exact Text.isBalanced_nil
  | none =>
    cases hfallback : fallbackPart? inside with
    | none => exact Text.isBalanced_nil
    | some fallback =>
      rw [← namePart_append_of_some hfallback] at h
      exact (Text.IsBalanced.trimLeft
        (((Text.depthAfter?_other (by decide) 0 fallback).symm.trans
          (hname.isBalanced.of_append h))))

theorem isBalanced_answer?
    (hlookup : ∀ name answer, lookup name = some answer → answer.IsBalanced) (inside : Text) :
    ((answer? lookup inside).getD []).IsBalanced := by
  rw [answer?]
  split
  · exact Text.isBalanced_nil
  · cases hanswer : lookup (Text.trim (namePart inside)) with
    | none => exact Text.isBalanced_nil
    | some answer =>
      rw [Option.bind_some]
      cases hnonBlank : Text.nonBlank? answer with
      | none => exact Text.isBalanced_nil
      | some text =>
        obtain ⟨rfl, -⟩ := Text.nonBlank?_eq_some_iff.1 hnonBlank
        exact (hlookup _ _ hanswer).trim

/-- **Expanding a text leaves its depth as it is**, if all answers are balanced and no name of a
reference that the expansion comes to has a parenthesis. -/
theorem depthAfter?_expand
    (hlookup : ∀ name answer, lookup name = some answer → answer.IsBalanced) {t : Text}
    (hnames : ∀ front inside behind, Visits lookup before t front inside behind →
      (namePart inside).Parenless) (depth : Nat) :
    Text.depthAfter? depth (expand lookup before t) = Text.depthAfter? depth t := by
  induction hn : t.length using Nat.strongRecOn generalizing t before depth with
  | ind n ih =>
  subst hn
  cases hsplit : split? before t with
  | none =>
    cases t with
    | nil => rw [expand_nil]
    | cons c cs =>
      rw [expand_of_split?_eq_none hsplit]
      refine Text.depthAfter?_cons_congr c (fun depth => ?_) depth
      exact ih cs.length (by simp) (fun _ _ _ h => hnames _ _ _ (.skip hsplit h)) depth rfl
  | some parts =>
    obtain ⟨inside, rest⟩ := parts
    have hlength := length_split? hsplit
    obtain ⟨-, ht, hinside⟩ := split?_eq_some_iff.1 hsplit
    obtain ⟨lead, hlead, -⟩ := exists_survivor lookup inside
    have hsplit' : split? before t = some (lead ++ survivor lookup inside, rest) := hlead ▸ hsplit
    have hinner : (expand lookup none (survivor lookup inside)).IsBalanced := by
      refine (ih (survivor lookup inside).length ?_ (fun _ _ _ h => hnames _ _ _
        (.nested hsplit' (hlead ▸ rfl) h)) 0 rfl).trans ?_
      · have := length_survivor_le lookup inside
        omega
      · exact isBalanced_survivor hinside (hnames _ _ _ (.here hsplit))
    rw [expand_of_split?_eq_some hsplit, (isBalanced_answer? hlookup inside).depthAfter?_append,
      hinner.depthAfter?_append, ih rest.length (by omega)
        (fun _ _ _ h => hnames _ _ _ (.behind hsplit h)) depth rfl, ht]
    exact (depthAfter?_written hinside depth rest).symm

/-- **The literal text of a value is balanced**, if all answers are and no live reference has a
parenthesis in its name. -/
theorem isBalanced_of_fallbackValue? {text : Text}
    (hlookup : ∀ name answer, lookup name = some answer → answer.IsBalanced)
    (hnames : ∀ p ∈ live value lookup, (p.1.nameText value).Parenless)
    (h : fallbackValue? value lookup = some text) : text.IsBalanced ∧ all? text ≠ none := by
  have hbalanced : text.IsBalanced := by
    rw [fallbackValue?_eq_expand] at h
    split at h
    · rename_i hvalue
      obtain ⟨pairs, hpairs⟩ := Option.isSome_iff_exists.1 (isSome_parentheses.2 hvalue.1)
      obtain ⟨rfl, -⟩ := Text.nonBlank?_eq_some_iff.1 h
      refine Text.IsBalanced.trim ((depthAfter?_expand hlookup ?_ 0).trans hvalue.1)
      intro front inside behind hvisits
      have hlive := (isLive_iff_visits hpairs _).2 ⟨front, inside, behind, hvisits, rfl⟩
      obtain ⟨p, hp, hplaced⟩ := List.mem_map.1 (isLive_iff_mem.1 hlive)
      have hname := hnames p hp
      rwa [hplaced, nameText_placed hvisits.eq_written.1] at hname
    · cases h
  refine ⟨hbalanced, fun hnone => ?_⟩
  rw [all?_eq_none_iff, ← Option.not_isSome_iff_eq_none, isSome_parentheses] at hnone
  exact hnone hbalanced

/-- An answer with parentheses of its own comes to stand between those of a fallback. -/
theorem isBalanced_of_nested :
    let lookup : Lookup := fun name => if name = "--b".toList then some "g(3)".toList else none
    fallbackValue? "var(--a,(var(--b,1) 2))".toList lookup = some "(g(3) 2)".toList ∧
      live "var(--a,(var(--b,1) 2))".toList lookup =
        [(⟨0, 3, 22, some 7⟩, .fallback), (⟨9, 12, 18, some 16⟩, .root "g(3)".toList)] ∧
      Text.IsBalanced "(g(3) 2)".toList ∧ all? "(g(3) 2)".toList ≠ none := by
  intro lookup
  have houter : split? none "var(--a,(var(--b,1) 2))".toList =
      some ("--a,(var(--b,1) 2)".toList, []) := by decide
  have houter_answer : answer? lookup "--a,(var(--b,1) 2)".toList = none := by decide
  have houter_survivor : survivor lookup "--a,(var(--b,1) 2)".toList =
      '(' :: "var(--b,1) 2)".toList := by decide
  have hopening : split? none ('(' :: "var(--b,1) 2)".toList) = none := by decide
  have hinner : split? (some '(') "var(--b,1) 2)".toList =
      some ("--b,1".toList, " 2)".toList) := by decide
  have hinner_answer : answer? lookup "--b,1".toList = some "g(3)".toList := by decide
  have hinner_survivor : survivor lookup "--b,1".toList = [] := by decide
  have hvalue : fallbackValue? "var(--a,(var(--b,1) 2))".toList lookup =
      some "(g(3) 2)".toList := by
    rw [fallbackValue?_of_balanced (by decide) (by decide), expand_of_split?_eq_some houter,
      houter_answer, houter_survivor, expand_of_split?_eq_none hopening,
      expand_of_split?_eq_some hinner, hinner_answer, hinner_survivor, expand_nil, expand_nil,
      expand_of_not_mem (by decide)]
    decide
  have hlive : live "var(--a,(var(--b,1) 2))".toList lookup =
      [(⟨0, 3, 22, some 7⟩, .fallback), (⟨9, 12, 18, some 16⟩, .root "g(3)".toList)] := by decide
  refine ⟨hvalue, hlive, isBalanced_of_fallbackValue? ?_ ?_ hvalue⟩
  · intro name answer h
    obtain ⟨-, h⟩ := Option.ite_none_right_eq_some.1 h
    obtain rfl := Option.some.inj h
    decide
  · rw [hlive, List.forall_mem_cons, List.forall_mem_singleton]
    decide

end Reference
end CustomProps
