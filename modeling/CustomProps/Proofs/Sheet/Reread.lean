import CustomProps.Proofs.Sheet.Bodies
import CustomProps.Proofs.Sheet.RootProperties
import Mathlib.Data.List.Forall2

/-!
# Reading a rewritten sheet again

In a sheet without comments there is little that could go wrong when it is rewritten: the rules are
found again with their new bodies as long as these show no brace.  If besides the root rules keep
their bodies, the sheet keeps its root properties.

* `Sheet.Unmarked` — a text in which no comment starts.
* `Sheet.forall₂_rules_splice` — the rules are found again, with the new bodies.
* `Sheet.rootProperties_eq` — the root properties are those of the root rules.
-/

set_option autoImplicit false

namespace CustomProps
namespace Sheet

variable {sheet t : Text}

/-! ## Sheets without comments -/

/-- There is no opening mark of a comment in the text. -/
def Unmarked (t : Text) : Prop := ¬['/', '*'] <:+: t

instance (t : Text) : Decidable (Unmarked t) := inferInstanceAs (Decidable (¬_))

theorem Unmarked.of_infix {u : Text} (h : Unmarked u) (ht : t <:+: u) : Unmarked t :=
  fun hmark => h (hmark.trans ht)

theorem blankComments_of_unmarked (h : Unmarked t) : blankComments t = t := by
  induction t with
  | nil => rfl
  | cons c t ih =>
    have hstart : ¬StartsComment (c :: t) := by
      rintro ⟨u, hu⟩
      exact h ⟨[], u, hu.symm⟩
    rw [blankComments_other hstart, ih (h.of_infix (List.suffix_cons c t).isInfix)]

theorem Unmarked.not_opens (h : Unmarked t) : ¬Opens t := by
  rw [Opens, blankComments_of_unmarked h]
  exact h

theorem unmarked_body (h : Unmarked sheet) {rule : Rule} (hrule : rule ∈ rules sheet) :
    Unmarked rule.body := by
  rw [body_of_mem_rules hrule]
  exact h.of_infix ((List.take_prefix _ _).isInfix.trans (List.drop_suffix _ _).isInfix)

theorem braceless_body (h : Unmarked sheet) {rule : Rule} (hrule : rule ∈ rules sheet) :
    Braceless rule.body := by
  have hlayout : Layout 0 sheet (rules sheet) := layout_iff.2 rfl
  have hblank := (hlayout.forall_body rule hrule).1
  rwa [blankComments_of_unmarked (unmarked_body h hrule)] at hblank

/-! ## The bodies of a new sheet -/

theorem length_gapsFrom (sheet : Text) (pos : Nat) (rs : List Rule) :
    (gapsFrom sheet pos rs).length = rs.length + 1 := by
  induction rs generalizing pos with
  | nil => rfl
  | cons rule rs ih => rw [gapsFrom, List.length_cons, ih, List.length_cons]

/-- What is filled in stands in the text. -/
theorem infix_fill {gaps bodies : List Text} (h : bodies.length ≤ gaps.length) {body : Text}
    (hbody : body ∈ bodies) : body <:+: fill gaps bodies := by
  induction bodies generalizing gaps with
  | nil => cases hbody
  | cons first bodies ih =>
    cases gaps with
    | nil => exact absurd h (Nat.not_succ_le_zero _)
    | cons gap gaps =>
      rw [fill]
      rcases List.mem_cons.1 hbody with rfl | hbody
      · exact ⟨gap, fill gaps bodies, by simp⟩
      · have hrest := ih (Nat.le_of_succ_le_succ h) hbody
        exact hrest.trans ⟨gap ++ first, [], by simp⟩

theorem map_fst_answersOf (reply : Rule → Option Text) (rs : List Rule) :
    (answersOf reply rs).map Prod.fst = rs := by
  rw [answersOf, List.map_map]
  exact List.map_id rs

theorem newBody_infix_splice (reply : Rule → Option Text) {answer : Rule × Option Text}
    (h : answer ∈ answersOf reply (rules sheet)) :
    newBody answer <:+: splice sheet (answersOf reply (rules sheet)) := by
  rw [splice_eq_fill (map_fst_answersOf reply (rules sheet))]
  refine infix_fill ?_ (List.mem_map_of_mem h)
  rw [gaps, length_gapsFrom, List.length_map, answersOf, List.length_map]
  exact Nat.le_succ _

/-- Each rule has the place of an old one, with the selectors of that and the new body. -/
theorem forall₂_placed (reply : Rule → Option Text) (rs : List Rule) (pos pos' : Nat) :
    List.Forall₂ (fun rule rule' => rule'.selectorText = rule.selectorText ∧
      rule'.body = (reply rule).getD rule.body) rs (placedFrom pos pos' (answersOf reply rs)) := by
  induction rs generalizing pos pos' with
  | nil => exact .nil
  | cons rule rs ih => exact .cons ⟨rfl, rfl⟩ (ih _ _)

/-- **A rewritten sheet has the rules of the old one, with the new bodies**, if there are no
comments and the replies show no brace. -/
theorem forall₂_rules_splice (hsheet : Unmarked sheet) {reply : Rule → Option Text}
    (hout : Unmarked (splice sheet (answersOf reply (rules sheet))))
    (hreply : ∀ rule ∈ rules sheet, ∀ new, reply rule = some new → Braceless new) :
    List.Forall₂ (fun rule rule' => rule'.selectorText = rule.selectorText ∧
        rule'.body = (reply rule).getD rule.body)
      (rules sheet) (rules (splice sheet (answersOf reply (rules sheet)))) := by
  have hunmarked : ∀ answer ∈ answersOf reply (rules sheet), Unmarked (newBody answer) :=
    fun answer hanswer => hout.of_infix (newBody_infix_splice reply hanswer)
  have hapart : KeepsApart sheet (answersOf reply (rules sheet)) :=
    (layout_iff.2 rfl).keepsApart hsheet.not_opens fun answer hanswer =>
      (hunmarked answer hanswer).not_opens
  have hbraceless : ∀ answer ∈ answersOf reply (rules sheet),
      Braceless (blankComments (newBody answer)) := by
    intro answer hanswer
    rw [blankComments_of_unmarked (hunmarked answer hanswer)]
    obtain ⟨rule, hrule, rfl⟩ := List.mem_map.1 hanswer
    cases hnew : reply rule with
    | none => exact braceless_body hsheet hrule
    | some new => exact hreply rule hrule new hnew
  rw [(rules_splice_iff sheet reply).2 ⟨hapart, hbraceless⟩]
  exact forall₂_placed reply (rules sheet) 0 0

/-! ## Root properties -/

/-- A sheet with the same root rules has the same root properties. -/
theorem rootProperties_eq {out : Text}
    (h : List.Forall₂ (fun rule rule' => rule'.selectorText = rule.selectorText ∧
      (rule.isRoot = true → rule'.body = rule.body)) (rules sheet) (rules out)) :
    rootProperties out = rootProperties sheet := by
  rw [rootProperties, rootProperties]
  refine congrArg TextMap.ofList ?_
  generalize rules sheet = rs, rules out = rs' at h
  induction h with
  | nil => rfl
  | @cons rule rule' rs rs' hrule _ ih =>
    have hroot : rule'.isRoot = rule.isRoot := Rule.isRoot_congr hrule.1
    rw [List.filter_cons, List.filter_cons, hroot]
    split
    · rename_i hisRoot
      rw [List.flatMap_cons, List.flatMap_cons, hrule.2 hisRoot, ih]
    · exact ih

end Sheet
end CustomProps
