import CustomProps.Proofs.Sheet.Layout

/-!
# Finding the rules again

New bodies are put into a sheet and the sheet is read again.  The rules are found where they were
put just when no comment leads from one part of the new sheet into the next and no body brings a
brace along.

* `Sheet.newBody`, `Sheet.placed` — the bodies that are put in, and where the rules then stand.
* `Sheet.KeepsApart` — the comments of a new sheet are those of its parts.
* `Sheet.rules_splice_iff` — when the rules are found again.
-/

set_option autoImplicit false

namespace CustomProps
namespace Sheet

/-! ## Where the rules are put -/

/-- The body that an answer leaves in place of the one it is about. -/
def newBody (answer : Rule × Option Text) : Text := answer.2.getD answer.1.body

/-- The rules with their new bodies, behind position `pos` of the old sheet and `pos'` of the new
one. -/
def placedFrom (pos pos' : Nat) : List (Rule × Option Text) → List Rule
  | [] => []
  | answer :: answers =>
    let start := pos' + (answer.1.start - pos)
    ⟨answer.1.selectorText, newBody answer, start, start + (newBody answer).length⟩ ::
      placedFrom answer.1.stop (start + (newBody answer).length) answers

/-- The rules with their new bodies, where splicing puts them. -/
def placed (answers : List (Rule × Option Text)) : List Rule := placedFrom 0 0 answers

/-- The answers with the comments of the new bodies blanked. -/
def blanked (answers : List (Rule × Option Text)) : List (Rule × Option Text) :=
  answers.map fun answer => (answer.1, some (blankComments (newBody answer)))

/-- The comments of the new sheet are those of its parts: blanking them is putting blanked bodies
into the blanked sheet. -/
def KeepsApart (sheet : Text) (answers : List (Rule × Option Text)) : Prop :=
  blankComments (splice sheet answers) = splice (blankComments sheet) (blanked answers)

/-- The rules with what `reply` says about each. -/
def answersOf (reply : Rule → Option Text) (rules : List Rule) : List (Rule × Option Text) :=
  rules.map fun rule => (rule, reply rule)

variable {pos pos' : Nat} {t : Text} {rs : List Rule} {reply : Rule → Option Text}

theorem forall_mem_answersOf_cons {p : Rule × Option Text → Prop} {rule : Rule} :
    (∀ answer ∈ answersOf reply (rule :: rs), p answer) ↔
      p (rule, reply rule) ∧ ∀ answer ∈ answersOf reply rs, p answer := by
  rw [answersOf, List.map_cons, List.forall_mem_cons, answersOf]

theorem spliceFrom_cons {rule : Rule} {lead body rest : Text}
    (hstart : rule.start = pos + lead.length + 1) (hstop : rule.stop = rule.start + body.length)
    (reply : Option Text) (answers : List (Rule × Option Text)) :
    spliceFrom pos (lead ++ '{' :: (body ++ '}' :: rest)) ((rule, reply) :: answers) =
      lead ++ '{' :: (newBody (rule, reply) ++ spliceFrom rule.stop ('}' :: rest) answers) := by
  have htake : rule.start - pos = lead.length + 1 := by omega
  have hdrop : rule.stop - pos = lead.length + (1 + body.length) := by omega
  have hassoc : lead ++ '{' :: (body ++ '}' :: rest) =
      (lead ++ ['{']) ++ (body ++ '}' :: rest) := by
    simp
  rw [spliceFrom, hdrop, ← List.drop_drop, List.drop_left, ← List.drop_drop, List.drop_one,
    List.tail_cons, List.drop_left, hassoc, htake, List.take_left' (by simp)]
  simp [newBody]

/-- Where a text that starts behind a closing brace has its rules. -/
theorem Layout.lt_start (h : Layout pos t rs) :
    ∀ rule ∈ rs, pos < rule.start ∧ rule.start ≤ rule.stop := by
  induction h with
  | last => simp
  | @rule pos lead head body rest others hleads hselector hbody hblank hrest ih =>
    intro rule hrule
    rcases List.mem_cons.1 hrule with rfl | hrule
    · exact ⟨Nat.lt_succ_of_le (Nat.le_add_right pos _), Nat.le_add_right _ _⟩
    · obtain ⟨hstart, hstop⟩ := ih rule hrule
      exact ⟨by omega, hstop⟩

section

variable {answers : List (Rule × Option Text)}
  (h : ∀ answer ∈ answers, pos + 1 < answer.1.start ∧ answer.1.start ≤ answer.1.stop)

include h

theorem spliceFrom_succ (c : Char) (t : Text) :
    spliceFrom pos (c :: t) answers = c :: spliceFrom (pos + 1) t answers := by
  cases answers with
  | nil => rfl
  | cons answer answers =>
    obtain ⟨hstart, hstop⟩ := h answer List.mem_cons_self
    rw [spliceFrom, spliceFrom,
      show answer.1.start - pos = (answer.1.start - (pos + 1)) + 1 by omega,
      show answer.1.stop - pos = (answer.1.stop - (pos + 1)) + 1 by omega]
    rfl

theorem placedFrom_succ (pos' : Nat) :
    placedFrom pos pos' answers = placedFrom (pos + 1) (pos' + 1) answers := by
  cases answers with
  | nil => rfl
  | cons answer answers =>
    obtain ⟨hstart, -⟩ := h answer List.mem_cons_self
    rw [placedFrom, placedFrom,
      show pos' + (answer.1.start - pos) = pos' + 1 + (answer.1.start - (pos + 1)) by omega]

end

/-! ## One rule after the other -/

section

variable {lead body rest : Text} {others : List Rule} (head : Text)
  (hrest : Layout (pos + lead.length + 1 + body.length + 1) rest others)
  (reply : Rule → Option Text)

include hrest

theorem lt_start_answers : ∀ answer ∈ answersOf reply others,
    pos + lead.length + 1 + body.length + 1 < answer.1.start ∧ answer.1.start ≤ answer.1.stop := by
  intro answer hanswer
  obtain ⟨rule, hrule, rfl⟩ := List.mem_map.1 hanswer
  exact hrest.lt_start rule hrule

theorem splice_rule :
    spliceFrom pos (lead ++ '{' :: (body ++ '}' :: rest))
      (answersOf reply (ruleBehind pos lead head body :: others)) =
    lead ++ '{' :: (newBody (ruleBehind pos lead head body,
      reply (ruleBehind pos lead head body)) ++ '}' ::
        spliceFrom (pos + lead.length + 1 + body.length + 1) rest (answersOf reply others)) := by
  rw [answersOf, List.map_cons, spliceFrom_cons rfl rfl, ruleBehind]
  rw [← answersOf, spliceFrom_succ (lt_start_answers hrest reply)]

theorem splice_rule_blanked :
    spliceFrom pos
      (blankComments lead ++ '{' :: (blankComments body ++ '}' :: blankComments rest))
      (blanked (answersOf reply (ruleBehind pos lead head body :: others))) =
    blankComments lead ++ '{' :: (blankComments (newBody (ruleBehind pos lead head body,
      reply (ruleBehind pos lead head body))) ++ '}' ::
        spliceFrom (pos + lead.length + 1 + body.length + 1) (blankComments rest)
          (blanked (answersOf reply others))) := by
  have hlater : ∀ answer ∈ blanked (answersOf reply others),
      pos + lead.length + 1 + body.length + 1 < answer.1.start ∧
        answer.1.start ≤ answer.1.stop := by
    intro answer hanswer
    obtain ⟨answer', hanswer', rfl⟩ := List.mem_map.1 hanswer
    exact lt_start_answers hrest reply answer' hanswer'
  rw [answersOf, List.map_cons, blanked, List.map_cons,
    spliceFrom_cons (by rw [length_blankComments]; rfl) (by rw [length_blankComments]; rfl)]
  rw [← answersOf, ← blanked, ruleBehind, spliceFrom_succ hlater]
  rfl

theorem placed_rule (pos' : Nat) :
    placedFrom pos pos' (answersOf reply (ruleBehind pos lead head body :: others)) =
      ruleBehind pos' lead head (newBody (ruleBehind pos lead head body,
        reply (ruleBehind pos lead head body))) ::
      placedFrom (pos + lead.length + 1 + body.length + 1) (pos' + lead.length + 1 +
        (newBody (ruleBehind pos lead head body,
          reply (ruleBehind pos lead head body))).length + 1) (answersOf reply others) := by
  have hstart : pos' + ((ruleBehind pos lead head body).start - pos) = pos' + lead.length + 1 := by
    show pos' + (pos + lead.length + 1 - pos) = _
    omega
  rw [answersOf, List.map_cons, placedFrom]
  dsimp only
  rw [hstart, ← answersOf, ← placedFrom_succ (lt_start_answers hrest reply)]
  rfl

end

/-- A text in which new bodies are put is laid out as they are put just when blanking is local and
they bring no braces. -/
theorem Layout.splice_iff (h : Layout pos t rs) (reply : Rule → Option Text) (pos' : Nat) :
    Layout pos' (spliceFrom pos t (answersOf reply rs)) (placedFrom pos pos' (answersOf reply rs)) ↔
      blankComments (spliceFrom pos t (answersOf reply rs)) =
          spliceFrom pos (blankComments t) (blanked (answersOf reply rs)) ∧
        ∀ answer ∈ answersOf reply rs, Braceless (blankComments (newBody answer)) := by
  induction h generalizing pos' with
  | last hnone => exact ⟨fun _ => ⟨rfl, by simp [answersOf]⟩, fun _ => .last hnone⟩
  | @rule pos lead head body rest others hleads hselector hbody hblank hrest ih =>
    have hsplice := splice_rule head hrest reply
    have hblanked := splice_rule_blanked head hrest reply
    have hplaced := placed_rule head hrest reply pos'
    rw [hblank, hsplice, hblanked, hplaced]
    rw [forall_mem_answersOf_cons]
    generalize newBody (ruleBehind pos lead head body,
      reply (ruleBehind pos lead head body)) = new
    constructor
    · intro hlayout
      obtain ⟨lead', head', new', rest', ht, hrule, -, -, hnew, hblank', hrest'⟩ :=
        hlayout.exists_lead
      obtain rfl : new = new' := congrArg Rule.body hrule
      have hlength : pos' + lead.length + 1 = pos' + lead'.length + 1 := congrArg Rule.start hrule
      obtain ⟨rfl, hback⟩ := List.append_inj ht (by omega)
      rw [List.cons.injEq, List.append_cancel_left_eq, List.cons.injEq] at hback
      obtain ⟨-, -, rfl⟩ := hback
      obtain ⟨heq, hothers⟩ := (ih _).1 hrest'
      rw [hblank', heq]
      exact ⟨rfl, hnew, hothers⟩
    · rintro ⟨heq, hnew, hothers⟩
      obtain ⟨-, hback⟩ := blankComments_append_cons (by decide) (by decide) (by decide)
        (length_blankComments lead) heq
      obtain ⟨-, hlater⟩ := blankComments_append_cons (by decide) (by decide) (by decide)
        (length_blankComments new) hback
      rw [← hlater] at heq
      exact .rule hleads hselector hnew heq ((ih _).2 ⟨hlater, hothers⟩)

/-- Bodies show no brace, and leave no comment open unless the text does. -/
theorem Layout.forall_body (h : Layout pos t rs) :
    ∀ rule ∈ rs, Braceless (blankComments rule.body) ∧ (Opens rule.body → Opens t) := by
  induction h with
  | last => simp
  | @rule pos lead head body rest others hleads hselector hbody hblank hrest ih =>
    intro rule hrule
    rcases List.mem_cons.1 hrule with rfl | hrule
    · refine ⟨hbody, fun hopens => ?_⟩
      rw [Opens, hblank]
      exact List.IsInfix.trans hopens
        ⟨blankComments lead ++ ['{'], '}' :: blankComments rest, by simp [ruleBehind]⟩
    · refine ⟨(ih rule hrule).1, fun hopens => ?_⟩
      rw [Opens, hblank]
      exact List.IsInfix.trans ((ih rule hrule).2 hopens)
        ⟨blankComments lead ++ '{' :: (blankComments body ++ ['}']), [], by simp⟩

/-- In a sheet that closes its comments, the parts stay apart when the new bodies close theirs. -/
theorem Layout.keepsApart (h : Layout pos t rs) (hclosed : ¬Opens t) {reply : Rule → Option Text}
    (hnew : ∀ answer ∈ answersOf reply rs, ¬Opens (newBody answer)) :
    blankComments (spliceFrom pos t (answersOf reply rs)) =
      spliceFrom pos (blankComments t) (blanked (answersOf reply rs)) := by
  induction h with
  | last => rfl
  | @rule pos lead head body rest others hleads hselector hbody hblank hrest ih =>
    rw [forall_mem_answersOf_cons] at hnew
    have hlead : ¬Opens lead := by
      intro hopens
      refine hclosed ?_
      rw [Opens, hblank]
      exact List.IsInfix.trans hopens (List.prefix_append _ _).isInfix
    have hlater : ¬Opens rest := by
      intro hopens
      refine hclosed ?_
      rw [Opens, hblank]
      exact List.IsInfix.trans hopens
        ⟨blankComments lead ++ '{' :: (blankComments body ++ ['}']), [], by simp⟩
    have hsplice := splice_rule head hrest reply
    have hblanked := splice_rule_blanked head hrest reply
    rw [hblank, hsplice, hblanked, blankComments_append_char hlead (by decide) (by decide),
      blankComments_append_char hnew.1 (by decide) (by decide), ih hlater hnew.2]

/-- **When the rules are found again.**  The rules of a sheet with new bodies are the rules of the
old one, where they were put, just when the comments of its parts stay apart and no new body shows a
brace. -/
theorem rules_splice_iff (sheet : Text) (reply : Rule → Option Text) :
    rules (splice sheet (answersOf reply (rules sheet))) =
        placed (answersOf reply (rules sheet)) ↔
      KeepsApart sheet (answersOf reply (rules sheet)) ∧
        ∀ answer ∈ answersOf reply (rules sheet), Braceless (blankComments (newBody answer)) :=
  layout_iff.symm.trans ((layout_iff.2 rfl).splice_iff reply 0)

end Sheet
end CustomProps
