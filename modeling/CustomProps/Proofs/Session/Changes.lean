import CustomProps.Proofs.Block.Growth
import CustomProps.Proofs.Session.RootScope
import CustomProps.Proofs.Sheet.Protocol

/-!
# What the report of a rewritten sheet tells

A report says that a sheet was changed when some rule was transformed.  That is the truth: a rule
that is transformed gets another body than it had, and since the braces of the sheet stay in place,
other bodies make another sheet.

* `Plugin.replyUnder_eq_none_of_rewriteUnder_eq` — a sheet that comes out as it was had no rule
  transformed.
* `Session.hasChanges_iff_ne` — the report tells whether the sheet was changed, and how many rules
  have a fallback.
-/

set_option autoImplicit false

namespace CustomProps

namespace Plugin

variable {plugin : Plugin} {lookup : Lookup} {sheet : Text}

theorem transform_of_replyUnder {call : Call} {new : Text}
    (h : plugin.replyUnder lookup call = some new) :
    Block.transform call.content lookup = some new := by
  rw [replyUnder] at h
  split at h
  · exact h
  · cases h

/-- A rule that is transformed gets another body than it had. -/
theorem ne_body_of_replyUnder {rule : Rule} {new : Text}
    (h : plugin.replyUnder lookup (Sheet.callOf sheet rule) = some new) : new ≠ rule.body :=
  Block.ne_of_transform (transform_of_replyUnder h)

/-- A rule is transformed when it is no root rule and some declaration of it has a fallback. -/
theorem isSome_replyUnder (h : plugin.disabled = false) (lookup : Lookup) (sheet : Text)
    (rule : Rule) : (plugin.replyUnder lookup (Sheet.callOf sheet rule)).isSome =
      (!rule.isRoot && (Block.declarations rule.body).any fun d =>
        (Declaration.fallback? d lookup).isSome) := by
  rw [replyUnder_callOf h, ← Block.isSome_transform]
  cases rule.isRoot <;> rfl

theorem rewriteUnder_snd (plugin : Plugin) (lookup : Lookup) (sheet : Text) (report : Report) :
    (plugin.rewriteUnder lookup sheet report).2 = report.addSheet (Sheet.answersOf
      (fun rule => plugin.replyUnder lookup (Sheet.callOf sheet rule)) (Sheet.rules sheet)) := by
  rw [rewriteUnder, Session.rewrite_pure]
  rfl

/-- The report counts the transformed rules. -/
theorem rulesTransformed_rewriteUnder (plugin : Plugin) (lookup : Lookup) (sheet : Text)
    (report : Report) : (plugin.rewriteUnder lookup sheet report).2.rulesTransformed =
      report.rulesTransformed + (Sheet.rules sheet).countP fun rule =>
        (plugin.replyUnder lookup (Sheet.callOf sheet rule)).isSome := by
  rw [rewriteUnder_snd, Report.addSheet, Sheet.foldl_count, Sheet.answersOf, List.countP_map]
  rfl

/-- Where no rule is transformed the sheet stays as it was. -/
theorem rewriteUnder_eq_of_replyUnder_eq_none
    (h : ∀ rule ∈ Sheet.rules sheet, plugin.replyUnder lookup (Sheet.callOf sheet rule) = none)
    (report : Report) : (plugin.rewriteUnder lookup sheet report).1 = sheet := by
  rw [rewriteUnder_fst, Sheet.splice_eq_fill (Sheet.map_fst_answersOf _ _), Sheet.answersOf,
    List.map_map]
  refine Eq.trans (congrArg (Sheet.fill (Sheet.gaps sheet)) ?_) (Sheet.eq_fill sheet).symm
  refine List.map_congr_left fun rule hrule => ?_
  rw [Function.comp, Sheet.newBody, h rule hrule, Option.getD_none]

/-- **A sheet that comes out as it was had no rule transformed.**  Its rules are found again with
the new bodies, so these are the old ones; but a transformed body is never the old one. -/
theorem replyUnder_eq_none_of_rewriteUnder_eq
    (hvalues : ∀ name value, lookup name = some value → Sheet.Braceless value)
    (hsheet : Sheet.Unmarked sheet) {report : Report}
    (h : (plugin.rewriteUnder lookup sheet report).1 = sheet) :
    ∀ rule ∈ Sheet.rules sheet, plugin.replyUnder lookup (Sheet.callOf sheet rule) = none := by
  have hout : Sheet.Unmarked (plugin.rewriteUnder lookup sheet report).1 := by rwa [h]
  have hrules := forall₂_rewriteUnder hvalues hsheet report hout
  rw [h, List.forall₂_same] at hrules
  intro rule hrule
  cases hreply : plugin.replyUnder lookup (Sheet.callOf sheet rule) with
  | none => rfl
  | some new =>
    have hbody := (hrules rule hrule).2
    rw [hreply, Option.getD_some] at hbody
    exact absurd hbody.symm (ne_body_of_replyUnder hreply)

end Plugin

namespace Session

/-- **The report tells the truth.**  Let no root value show a brace, and let no comment start in a
sheet that a plugin rewrites, one that is not disabled.  A fresh report then says that there are
changes just when the new sheet is another one.  It counts the rules, other than root rules, in
which some declaration has a fallback; and each body that is replaced is replaced by another one.
Any session rewrites the sheet and reports so, unless the plugin cannot reply about some rule. -/
theorem hasChanges_iff_ne {plugin : Plugin} (henabled : plugin.disabled = false) {lookup : Lookup}
    (hvalues : ∀ name value, lookup name = some value → Sheet.Braceless value) {sheet : Text}
    (hsheet : Sheet.Unmarked sheet) :
    let outcome := plugin.rewriteUnder lookup sheet .empty
    (outcome.2.hasChanges = true ↔ outcome.1 ≠ sheet) ∧
    outcome.2.rulesTransformed = ((Sheet.rules sheet).countP fun rule =>
      !rule.isRoot && (Block.declarations rule.body).any fun d =>
        (Declaration.fallback? d lookup).isSome) ∧
    (∀ rule ∈ Sheet.rules sheet, ∀ new,
      plugin.replyUnder lookup (Sheet.callOf sheet rule) = some new → new ≠ rule.body) ∧
    ∀ files s p, (ofFiles files).Reaches s → s.plugins[p]? = some plugin →
      s.answers plugin.scope = lookup →
      (rewrite p sheet .empty s).1 = settle (s.rewriteFailure? p sheet) outcome := by
  intro outcome
  have hcount : outcome.2.rulesTransformed = (Sheet.rules sheet).countP fun rule =>
      (plugin.replyUnder lookup (Sheet.callOf sheet rule)).isSome :=
    (plugin.rulesTransformed_rewriteUnder lookup sheet .empty).trans (Nat.zero_add _)
  refine ⟨?_, ?_, fun rule _ new hnew => Plugin.ne_body_of_replyUnder hnew, ?_⟩
  · rw [Report.hasChanges, bne_iff_ne, hcount, not_iff_not, List.countP_eq_zero]
    simp only [Bool.not_eq_true, Option.isSome_eq_false_iff, Option.isNone_iff_eq_none]
    exact ⟨fun h => Plugin.rewriteUnder_eq_of_replyUnder_eq_none h .empty,
      Plugin.replyUnder_eq_none_of_rewriteUnder_eq hvalues hsheet⟩
  · rw [hcount]
    simp only [Plugin.isSome_replyUnder henabled]
  · intro files s p hs hplugin hanswers
    rw [rewrite_eq_rewriteUnder (hs.keeps (isSound_ofFiles files)).1 hplugin, hanswers]

/-- One rule of three has a fallback: one is a root rule, and one has no reference. -/
theorem hasChanges_iff_ne_single :
    let plugin : Plugin := ⟨false, 0, none⟩
    let lookup : Lookup := fun _ => none
    let sheet := ":root".toList ++ Text.braced "y:var(--b,c)" ++ ".x".toList ++
      Text.braced ";y:var(--b,c)" ++ ".z{y:z}".toList
    let outcome := plugin.rewriteUnder lookup sheet .empty
    plugin.disabled = false ∧
      (∀ name value, lookup name = some value → Sheet.Braceless value) ∧ Sheet.Unmarked sheet ∧
      outcome.2.rulesTransformed = 1 ∧ outcome.2.hasChanges = true ∧ outcome.1 ≠ sheet := by
  intro plugin lookup sheet outcome
  have hvalues : ∀ name value, lookup name = some value → Sheet.Braceless value := nofun
  have hsheet : Sheet.Unmarked sheet := by decide +kernel
  have hrules : Sheet.rules sheet = [⟨":root".toList, "y:var(--b,c)".toList, 6, 18⟩,
      ⟨".x".toList, ";y:var(--b,c)".toList, 22, 35⟩, ⟨".z".toList, "y:z".toList, 39, 42⟩] := by
    decide +kernel
  have hfallback : Declaration.fallback? "y:var(--b,c)".toList lookup = some "y:c".toList := by
    have hsplit : Declaration.split "y:var(--b,c)".toList =
        ("y".toList, "var(--b,c)".toList) := by decide
    exact Declaration.fallback?_reference rfl hsplit (by decide)
  have hnone : Declaration.fallback? "y:z".toList lookup = none :=
    Declaration.fallback?_eq_none_of_not_hasReference (by decide)
  have henabled : plugin.disabled = false := rfl
  obtain ⟨hchanges, hcount, -, -⟩ := hasChanges_iff_ne henabled hvalues hsheet
  have hone : outcome.2.rulesTransformed = 1 := by
    rw [hcount, hrules, List.countP_cons_of_neg ?root, List.countP_cons_of_pos ?fallback,
      List.countP_cons_of_neg ?plain, List.countP_nil]
    case root =>
      rw [show Rule.isRoot ⟨":root".toList, "y:var(--b,c)".toList, 6, 18⟩ = true by decide]
      exact Bool.false_ne_true
    case fallback =>
      rw [show Rule.isRoot ⟨".x".toList, ";y:var(--b,c)".toList, 22, 35⟩ = false by decide,
        show Block.declarations ";y:var(--b,c)".toList = ["y:var(--b,c)".toList] by decide,
        List.any_cons, hfallback]
      rfl
    case plain =>
      rw [show Block.declarations "y:z".toList = ["y:z".toList] by decide, List.any_cons, hnone]
      decide
  have hhas : outcome.2.hasChanges = true := by
    rw [Report.hasChanges, hone]
    rfl
  exact ⟨henabled, hvalues, hsheet, hone, hhas, hchanges.1 hhas⟩

end Session
end CustomProps
