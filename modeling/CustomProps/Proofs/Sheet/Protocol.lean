import CustomProps.Proofs.Sheet.Bodies
import CustomProps.Proofs.Text.Place

/-!
# Asking about every rule

Whoever transforms the blocks of a sheet may reply as they like, also in view of what they were
asked before.  They are asked once about each rule, in order, and told where it stands; their
replies take the places of the bodies, and a report adds up what was done.

* `Sheet.recorded`, `Sheet.repliesTo` — a transformer that keeps the calls, and its replies.
* `Call.IsAbout` — a call says what the body of a rule is and where it stands.
* `Report.Adds` — one report continues another by a sheet.
* `Sheet.rewrite_recorded` — what rewriting a sheet asks, writes and reports.
-/

set_option autoImplicit false

namespace CustomProps

/-- The call hands over the body of a rule of the sheet and says where it stands. -/
structure Call.IsAbout (call : Call) (sheet : Text) (rule : Rule) : Prop where
  content : call.content = sheet.slice rule.start rule.stop
  selectors : call.selectors = rule.selectors
  place : sheet.IsPlace call.place rule.start
  length : call.length = rule.stop - rule.start

/-- The later report continues the earlier one by some rules and the replies to them. -/
structure Report.Adds (earlier later : Report) (rules : List Rule)
    (replies : List (Option Text)) : Prop where
  rulesSeen : later.rulesSeen = earlier.rulesSeen + rules.length
  rulesTransformed :
    later.rulesTransformed = earlier.rulesTransformed + replies.countP Option.isSome
  transformedSelectors : later.transformedSelectors = earlier.transformedSelectors ++
    ((rules.zip replies).filter (·.2.isSome)).map (·.1.selectorText)
  length_transformedSelectors : later.transformedSelectors.length =
    earlier.transformedSelectors.length + replies.countP Option.isSome
  summaryLines : later.summaryLines = earlier.summaryLines ++
    [s!"Rules seen: {later.rulesSeen}", s!"Rules with fallbacks: {later.rulesTransformed}"]

namespace Sheet

/-! ## Calls -/

/-- Replies to a call as `reply` says, given the calls before it, and keeps the call. -/
def recorded (reply : List Call → Call → Option Text) (call : Call) :
    StateM (List Call) (Option Text) := fun earlier =>
  (reply earlier call, earlier ++ [call])

/-- The replies to some calls, given those before them. -/
def repliesTo (reply : List Call → Call → Option Text) (earlier : List Call) :
    List Call → List (Option Text)
  | [] => []
  | call :: calls => reply earlier call :: repliesTo reply (earlier ++ [call]) calls

theorem length_repliesTo (reply : List Call → Call → Option Text) (earlier calls : List Call) :
    (repliesTo reply earlier calls).length = calls.length := by
  induction calls generalizing earlier with
  | nil => rfl
  | cons call calls ih => rw [repliesTo, List.length_cons, ih, List.length_cons]

/-- Each rule is asked about once, in order. -/
theorem mapM_recorded (reply : List Call → Call → Option Text) (sheet : Text) (rs : List Rule)
    (earlier : List Call) :
    (rs.mapM fun rule => do return (rule, ← recorded reply (callOf sheet rule)) :
        StateM (List Call) _) earlier =
      (rs.zip (repliesTo reply earlier (rs.map (callOf sheet))),
        earlier ++ rs.map (callOf sheet)) := by
  induction rs generalizing earlier with
  | nil => exact congrArg (Prod.mk _) (List.append_nil earlier).symm
  | cons rule rs ih =>
    have hrest := ih (earlier ++ [callOf sheet rule])
    rw [List.append_assoc, List.singleton_append] at hrest
    rw [List.mapM_cons, List.map_cons, repliesTo, List.zip_cons_cons]
    exact congrArg (fun rest => ((rule, reply earlier (callOf sheet rule)) :: rest.1, rest.2)) hrest

theorem isAbout_callOf {sheet : Text} {rule : Rule} (h : rule ∈ rules sheet) :
    (callOf sheet rule).IsAbout sheet rule := by
  have hbody := body_of_mem_rules h
  obtain ⟨hstart, hstop⟩ := (pairwise_rules sheet).1 rule h
  refine ⟨hbody, rfl, Text.isPlace_placeOf (by omega), ?_⟩
  rw [callOf, hbody, Text.slice, List.length_take_of_le]
  rw [List.length_drop]
  omega

/-! ## Reports -/

theorem foldl_count (report : Report) (answers : List (Rule × Option Text)) :
    answers.foldl (fun report (rule, reply) => report.count rule reply) report =
      { report with
        rulesSeen := report.rulesSeen + answers.length
        rulesTransformed := report.rulesTransformed + answers.countP (·.2.isSome)
        transformedSelectors := report.transformedSelectors ++
          (answers.filter (·.2.isSome)).map (·.1.selectorText) } := by
  induction answers generalizing report with
  | nil => simp
  | cons answer answers ih =>
    obtain ⟨rule, reply⟩ := answer
    rw [List.foldl_cons, ih]
    cases reply with
    | none => simp [Report.count, Nat.add_comm, Nat.add_left_comm]
    | some new => simp [Report.count, Nat.add_comm, Nat.add_left_comm, Nat.add_assoc]

theorem countP_zip_snd {rs : List Rule} {replies : List (Option Text)}
    (h : replies.length = rs.length) :
    (rs.zip replies).countP (·.2.isSome) = replies.countP Option.isSome := by
  have hsnd : (rs.zip replies).map Prod.snd = replies := List.map_snd_zip (Nat.le_of_eq h)
  rw [← congrArg (List.countP Option.isSome) hsnd, List.countP_map]
  rfl

theorem adds_addSheet (report : Report) {rs : List Rule} {replies : List (Option Text)}
    (h : replies.length = rs.length) :
    report.Adds (report.addSheet (rs.zip replies)) rs replies := by
  have hlength : (rs.zip replies).length = rs.length := by
    rw [List.length_zip, h, Nat.min_self]
  rw [Report.addSheet, foldl_count, hlength, countP_zip_snd h]
  refine ⟨rfl, rfl, rfl, ?_, rfl⟩
  rw [List.length_append, List.length_map, ← List.countP_eq_length_filter, countP_zip_snd h]

/-! ## Rewriting -/

/-- **What rewriting a sheet asks, writes and reports**, whatever the replies are.

The bodies of the rules are ranges of the sheet, one behind the other.  Exactly one call is made
about each rule, in order, and it tells the body, its place and its length.  The new sheet has the
gaps of the old one, and in them the replies in place of the bodies; this is what comes of putting
the replies in place one by one, the last first.  The report goes on from the one that is given. -/
theorem rewrite_recorded (reply : List Call → Call → Option Text) (sheet : Text) (report : Report)
    (earlier : List Call) :
    let calls := (rules sheet).map (callOf sheet)
    let replies := repliesTo reply earlier calls
    let answers := (rules sheet).zip replies
    let outcome := rewrite (recorded reply) sheet report earlier
    ((∀ rule ∈ rules sheet, rule.start ≤ rule.stop ∧ rule.stop < sheet.length) ∧
      (rules sheet).Pairwise Rule.IsBefore) ∧
    (outcome.2 = earlier ++ calls ∧
      ∀ rule ∈ rules sheet, (callOf sheet rule).IsAbout sheet rule) ∧
    (sheet = fill (gaps sheet) ((rules sheet).map Rule.body) ∧
      outcome.1.1 = fill (gaps sheet) (answers.map newBody) ∧
      outcome.1.1 = answers.foldr putAnswer sheet) ∧
    report.Adds outcome.1.2 (rules sheet) replies := by
  intro calls replies answers outcome
  have hlength : replies.length = (rules sheet).length := by
    rw [length_repliesTo, List.length_map]
  have hanswers : answers.map Prod.fst = rules sheet :=
    List.map_fst_zip (Nat.le_of_eq hlength.symm)
  have houtcome : outcome = ((splice sheet answers, report.addSheet answers), earlier ++ calls) :=
    congrArg (fun asked : List (Rule × Option Text) × List Call =>
      ((splice sheet asked.1, report.addSheet asked.1), asked.2))
      (mapM_recorded reply sheet (rules sheet) earlier)
  rw [houtcome]
  exact ⟨pairwise_rules sheet, ⟨rfl, fun rule hrule => isAbout_callOf hrule⟩,
    ⟨eq_fill sheet, splice_eq_fill hanswers, splice_eq_foldr hanswers⟩,
    adds_addSheet report hlength⟩

end Sheet
end CustomProps
