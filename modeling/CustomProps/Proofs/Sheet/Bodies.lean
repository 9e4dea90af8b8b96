import CustomProps.Proofs.Sheet.Splice

/-!
# Bodies and what stands between them

The rules of a sheet lie one behind the other, so a sheet is a list of gaps with a body between any
two of them.  Splicing exchanges bodies and keeps the gaps; putting one answer after the other in
place, from the last to the first, comes to the same.

* `Sheet.gaps` — the texts between the bodies of the rules.
* `Sheet.fill` — gaps filled with bodies.
* `Sheet.splice_eq_fill` — splicing fills the gaps with the new bodies.
* `Sheet.splice_eq_foldr` — splicing replaces one range after the other, the last first.
-/

set_option autoImplicit false

namespace CustomProps

/-- The text with another one in place of the characters from `start` up to `stop`. -/
def Text.replace (t : Text) (start stop : Nat) (new : Text) : Text :=
  t.take start ++ (new ++ t.drop stop)

/-- The first rule ends in front of the second. -/
def Rule.IsBefore (first second : Rule) : Prop := first.stop < second.start

namespace Sheet

/-! ## The order of the rules -/

variable {sheet t : Text} {pos : Nat} {rs : List Rule}

theorem Layout.pairwise (h : Layout pos t rs) : rs.Pairwise Rule.IsBefore := by
  induction h with
  | last => exact .nil
  | @rule pos lead head body rest others hleads hselector hbody hblank hrest ih =>
    refine .cons (fun later hlater => ?_) ih
    exact Nat.lt_of_succ_lt (hrest.lt_start later hlater).1

theorem Layout.stop_lt (h : Layout pos t rs) : ∀ rule ∈ rs, rule.stop < pos + t.length := by
  induction h with
  | last => simp
  | @rule pos lead head body rest others hleads hselector hbody hblank hrest ih =>
    intro rule hrule
    simp only [List.length_append, List.length_cons]
    rcases List.mem_cons.1 hrule with rfl | hrule
    · simp only [ruleBehind]
      omega
    · have hstop := ih rule hrule
      omega

/-- The ranges of the bodies lie in the sheet, one behind the other. -/
theorem pairwise_rules (sheet : Text) :
    (∀ rule ∈ rules sheet, rule.start ≤ rule.stop ∧ rule.stop < sheet.length) ∧
      (rules sheet).Pairwise Rule.IsBefore := by
  have hlayout : Layout 0 sheet (rules sheet) := layout_iff.2 rfl
  refine ⟨fun rule hrule => ⟨(hlayout.lt_start rule hrule).2, ?_⟩, hlayout.pairwise⟩
  have hstop := hlayout.stop_lt rule hrule
  omega

/-! ## Gaps -/

/-- The texts between the bodies of some rules and around them, from position `pos` on. -/
def gapsFrom (sheet : Text) (pos : Nat) : List Rule → List Text
  | [] => [sheet.drop pos]
  | rule :: rs => sheet.slice pos rule.start :: gapsFrom sheet rule.stop rs

/-- The texts in front of, between and behind the bodies of the rules. -/
def gaps (sheet : Text) : List Text := gapsFrom sheet 0 (rules sheet)

/-- Gaps with bodies between them. -/
def fill : List Text → List Text → Text
  | gap :: gaps, body :: bodies => gap ++ (body ++ fill gaps bodies)
  | gaps, _ => gaps.flatten

/-- Rules behind position `pos`, one behind the other, in a text of the given length. -/
def InOrder (pos length : Nat) (rs : List Rule) : Prop :=
  (∀ rule ∈ rs, pos ≤ rule.start ∧ rule.start ≤ rule.stop ∧ rule.stop ≤ length) ∧
    rs.Pairwise Rule.IsBefore

theorem inOrder_rules (sheet : Text) : InOrder 0 sheet.length (rules sheet) := by
  obtain ⟨hbounds, hpairwise⟩ := pairwise_rules sheet
  refine ⟨fun rule hrule => ?_, hpairwise⟩
  obtain ⟨hstart, hstop⟩ := hbounds rule hrule
  exact ⟨Nat.zero_le _, hstart, Nat.le_of_lt hstop⟩

theorem InOrder.tail {length : Nat} {rule : Rule} (h : InOrder pos length (rule :: rs)) :
    InOrder rule.stop length rs := by
  obtain ⟨hbefore, hpairwise⟩ := List.pairwise_cons.1 h.2
  refine ⟨fun later hlater => ?_, hpairwise⟩
  obtain ⟨-, hbounds⟩ := h.1 later (List.mem_cons_of_mem rule hlater)
  exact ⟨Nat.le_of_lt (hbefore later hlater), hbounds⟩

/-- Behind a rule the sheet goes on where the rule ends. -/
theorem drop_drop_stop {stop : Nat} (h : pos ≤ stop) :
    (sheet.drop pos).drop (stop - pos) = sheet.drop stop := by
  rw [List.drop_drop, Nat.add_sub_cancel' h]

theorem take_append_slice {start : Nat} (h : pos ≤ start) :
    sheet.take pos ++ sheet.slice pos start = sheet.take start := by
  rw [Text.slice, ← List.take_append_drop pos (sheet.take start), List.take_take, Nat.min_eq_left h,
    List.drop_take]

/-! ## Splicing -/

/-- Splicing keeps the gaps and fills in the new bodies. -/
theorem spliceFrom_eq_fill {answers : List (Rule × Option Text)}
    (h : InOrder pos sheet.length (answers.map Prod.fst)) :
    spliceFrom pos (sheet.drop pos) answers =
      fill (gapsFrom sheet pos (answers.map Prod.fst)) (answers.map newBody) := by
  induction answers generalizing pos with
  | nil => simp [spliceFrom, gapsFrom, fill]
  | cons answer answers ih =>
    obtain ⟨hpos, hstart, -⟩ := h.1 answer.1 List.mem_cons_self
    rw [spliceFrom, drop_drop_stop (Nat.le_trans hpos hstart), ih h.tail, List.map_cons,
      List.map_cons, gapsFrom, fill, List.append_assoc]
    rfl

/-- A sheet is its gaps filled with its bodies. -/
theorem drop_eq_fill (h : InOrder pos sheet.length rs)
    (hbody : ∀ rule ∈ rs, rule.body = sheet.slice rule.start rule.stop) :
    sheet.drop pos = fill (gapsFrom sheet pos rs) (rs.map Rule.body) := by
  induction rs generalizing pos with
  | nil => simp [gapsFrom, fill]
  | cons rule rs ih =>
    obtain ⟨hpos, hstart, -⟩ := h.1 rule List.mem_cons_self
    have hrest := ih h.tail fun later hlater => hbody later (List.mem_cons_of_mem rule hlater)
    rw [gapsFrom, List.map_cons, fill, ← hrest, hbody rule List.mem_cons_self, Text.slice,
      Text.slice, ← drop_drop_stop hstart, List.take_append_drop, ← drop_drop_stop hpos,
      List.take_append_drop]

/-- The sheet with an answer in place of the body that it is about. -/
def putAnswer (answer : Rule × Option Text) (sheet : Text) : Text :=
  answer.2.elim sheet (sheet.replace answer.1.start answer.1.stop)

/-- Putting the answers in place from the last to the first changes nothing in front of them. -/
theorem foldr_putAnswer {answers : List (Rule × Option Text)}
    (h : InOrder pos sheet.length (answers.map Prod.fst))
    (hbody : ∀ answer ∈ answers,
      answer.1.body = sheet.slice answer.1.start answer.1.stop) :
    answers.foldr putAnswer sheet =
      sheet.take pos ++ spliceFrom pos (sheet.drop pos) answers := by
  induction answers generalizing pos with
  | nil => exact (List.take_append_drop pos sheet).symm
  | cons answer answers ih =>
    obtain ⟨hpos, hstart, hstop⟩ := h.1 answer.1 List.mem_cons_self
    have hrest := ih h.tail fun later hlater => hbody later (List.mem_cons_of_mem answer hlater)
    have hfront : sheet.take pos ++ (sheet.drop pos).take (answer.1.start - pos) =
        sheet.take answer.1.start := take_append_slice hpos
    have hkept : sheet.take answer.1.start ++ answer.1.body = sheet.take answer.1.stop := by
      rw [hbody answer List.mem_cons_self, take_append_slice hstart]
    have hlength : (sheet.take answer.1.stop).length = answer.1.stop := List.length_take_of_le hstop
    rw [List.foldr_cons, hrest, spliceFrom, drop_drop_stop (Nat.le_trans hpos hstart),
      ← List.append_assoc, ← List.append_assoc, hfront]
    obtain ⟨rule, reply⟩ := answer
    cases reply with
    | none =>
      rw [Option.getD_none, hkept]
      rfl
    | some new =>
      rw [putAnswer, Option.elim_some, Text.replace, List.drop_left' hlength,
        List.take_append_of_le_length (by rw [hlength]; exact hstart), List.take_take,
        Nat.min_eq_left hstart, Option.getD_some, List.append_assoc]

/-- **Splicing keeps what stands between the bodies.** -/
theorem splice_eq_fill {answers : List (Rule × Option Text)}
    (h : answers.map Prod.fst = rules sheet) :
    splice sheet answers = fill (gaps sheet) (answers.map newBody) := by
  have hinOrder : InOrder 0 sheet.length (answers.map Prod.fst) := h ▸ inOrder_rules sheet
  have hsplice : splice sheet answers =
      fill (gapsFrom sheet 0 (answers.map Prod.fst)) (answers.map newBody) :=
    spliceFrom_eq_fill hinOrder
  rwa [h] at hsplice

theorem eq_fill (sheet : Text) : sheet = fill (gaps sheet) ((rules sheet).map Rule.body) :=
  drop_eq_fill (inOrder_rules sheet) fun _ => body_of_mem_rules

/-- Splicing puts the answers in place from the last to the first. -/
theorem splice_eq_foldr {answers : List (Rule × Option Text)}
    (h : answers.map Prod.fst = rules sheet) :
    splice sheet answers = answers.foldr putAnswer sheet := by
  have hinOrder : InOrder 0 sheet.length (answers.map Prod.fst) := h ▸ inOrder_rules sheet
  refine (foldr_putAnswer hinOrder fun answer hanswer => ?_).symm
  exact body_of_mem_rules (h ▸ List.mem_map_of_mem hanswer)

end Sheet
end CustomProps
