import CustomProps.Proofs.Block.Characters
import CustomProps.Proofs.Session.Survival
import CustomProps.Proofs.Sheet.Reread

/-!
# Rewriting keeps the root scope

The rules that a plugin leaves alone are just those that define root properties, and no fallback
brings a brace along that was not in the sheet or in a root value.  So a sheet without comments has
the same root properties after it is rewritten, and its rules stand where they were put.

* `Plugin.replyUnder`, `Plugin.rewriteUnder` — what a plugin replies, and makes of a sheet, under a
  root scope that answers as given.
* `Session.rewriteUnder_keepsRootScope` — what is kept.
-/

set_option autoImplicit false

namespace CustomProps

namespace Plugin

/-- What the plugin replies to a call under a root scope with the given answers. -/
def replyUnder (plugin : Plugin) (lookup : Lookup) (call : Call) : Option Text :=
  if plugin.accepts Phase.selectorBlock.code call.selectors then
    Block.transform call.content lookup
  else none

/-- What the plugin makes of a sheet, and the report, under a root scope with the given answers. -/
def rewriteUnder (plugin : Plugin) (lookup : Lookup) (sheet : Text) (report : Report) :
    Text × Report :=
  Id.run (Sheet.rewrite (fun call => pure (plugin.replyUnder lookup call)) sheet report)

variable {plugin : Plugin} {lookup : Lookup} {sheet : Text}

theorem rewriteUnder_fst (plugin : Plugin) (lookup : Lookup) (sheet : Text) (report : Report) :
    (plugin.rewriteUnder lookup sheet report).1 =
      Sheet.splice sheet (Sheet.answersOf
        (fun rule => plugin.replyUnder lookup (Sheet.callOf sheet rule)) (Sheet.rules sheet)) := by
  rw [rewriteUnder, Session.rewrite_pure]
  rfl

/-- Root rules are left alone. -/
theorem replyUnder_of_isRoot {rule : Rule} (h : rule.isRoot = true) :
    plugin.replyUnder lookup (Sheet.callOf sheet rule) = none := by
  rw [replyUnder, if_neg]
  rw [accepts, Sheet.callOf, rule.hasRootSelector_selectors, h, Bool.not_true, Bool.and_false]
  exact Bool.false_ne_true

/-- A plugin that is not disabled transforms the bodies of the other rules. -/
theorem replyUnder_callOf (h : plugin.disabled = false) (lookup : Lookup) (sheet : Text)
    (rule : Rule) : plugin.replyUnder lookup (Sheet.callOf sheet rule) =
      if rule.isRoot then none else Block.transform rule.body lookup := by
  by_cases hroot : rule.isRoot = true
  · rw [replyUnder_of_isRoot hroot, if_pos hroot]
  · have haccepts : plugin.accepts Phase.selectorBlock.code rule.selectors = true := by
      rw [accepts, h, rule.hasRootSelector_selectors, Bool.eq_false_iff.2 hroot]
      rfl
    rw [if_neg hroot, replyUnder, Sheet.callOf, if_pos haccepts]

/-- Unless it separates, a character that neither the block nor an answer has is not in the
reply. -/
theorem not_mem_replyUnder {c : Char} (hc : ¬(c = ':' ∨ c = Block.separator))
    (hvalues : ∀ name value, lookup name = some value → c ∉ value) {call : Call}
    (hcontent : c ∉ call.content) {new : Text} (h : plugin.replyUnder lookup call = some new) :
    c ∉ new := by
  rw [replyUnder] at h
  split at h
  · intro hmem
    rcases Block.mem_of_transform h hmem with hblock | hseparator | ⟨name, value, hvalue, hbrought⟩
    · exact hcontent hblock
    · exact hc hseparator
    · exact hvalues name value hvalue hbrought
  · cases h

/-- A reply shows no brace unless an answer does, or the block that it is about. -/
theorem braceless_replyUnder
    (hvalues : ∀ name value, lookup name = some value → Sheet.Braceless value) {call : Call}
    (hcontent : Sheet.Braceless call.content) {new : Text}
    (h : plugin.replyUnder lookup call = some new) : Sheet.Braceless new :=
  ⟨not_mem_replyUnder (by decide) (fun name value hvalue => (hvalues name value hvalue).1)
    hcontent.1 h, not_mem_replyUnder (by decide)
    (fun name value hvalue => (hvalues name value hvalue).2) hcontent.2 h⟩

/-- The rules of a sheet without comments are found again, with the replies of the plugin. -/
theorem forall₂_rewriteUnder
    (hvalues : ∀ name value, lookup name = some value → Sheet.Braceless value)
    (hsheet : Sheet.Unmarked sheet) (report : Report)
    (hout : Sheet.Unmarked (plugin.rewriteUnder lookup sheet report).1) :
    List.Forall₂ (fun rule rule' => rule'.selectorText = rule.selectorText ∧
        rule'.body = (plugin.replyUnder lookup (Sheet.callOf sheet rule)).getD rule.body)
      (Sheet.rules sheet) (Sheet.rules (plugin.rewriteUnder lookup sheet report).1) := by
  rw [rewriteUnder_fst] at hout ⊢
  refine Sheet.forall₂_rules_splice hsheet hout fun rule hrule new hnew => ?_
  exact braceless_replyUnder hvalues (Sheet.braceless_body hsheet hrule) hnew

end Plugin

namespace Session

/-- A session rewrites sheets as the answers of the scope of the plugin say, unless nobody can
look. -/
theorem rewrite_eq_rewriteUnder {s : Session} (hs : s.IsSound) {p : Nat} {plugin : Plugin}
    (hplugin : s.plugins[p]? = some plugin) (sheet : Text) (report : Report) :
    (rewrite p sheet report s).1 = settle (s.rewriteFailure? p sheet)
      (plugin.rewriteUnder (s.answers plugin.scope) sheet report) := by
  have hreply : ∀ rule : Rule,
      s.replyNow p Phase.selectorBlock.code rule.body rule.selectors =
        plugin.replyUnder (s.answers plugin.scope) (Sheet.callOf sheet rule) := by
    intro rule
    rw [replyNow, hplugin]
    rfl
  rw [(rewrite_spec p sheet report hs).1, Plugin.rewriteUnder, rewrite_pure, replies]
  simp only [hreply]

/-- **Rewriting keeps the root scope.**  Let no root value show a brace, as the root properties of a
sheet never do, and let no comment start in a sheet nor in what a plugin makes of it.  Then the new
sheet has the same root properties.  Its rules are those of the old one, with the same selectors and
in the same order; each has the body that the plugin replied, or the old one where it replied
nothing, as it does about every root rule.  Any session rewrites the sheet so, unless the plugin
cannot reply about some rule. -/
theorem rewriteUnder_keepsRootScope {plugin : Plugin} {lookup : Lookup}
    (hvalues : ∀ name value, lookup name = some value → Sheet.Braceless value) {sheet : Text}
    (hsheet : Sheet.Unmarked sheet) (report : Report)
    (hout : Sheet.Unmarked (plugin.rewriteUnder lookup sheet report).1) :
    let out := (plugin.rewriteUnder lookup sheet report).1
    Sheet.rootProperties out = Sheet.rootProperties sheet ∧
    List.Forall₂ (fun rule rule' => rule'.selectorText = rule.selectorText ∧
        rule'.body = (plugin.replyUnder lookup (Sheet.callOf sheet rule)).getD rule.body ∧
        (rule.isRoot = true → rule'.body = rule.body))
      (Sheet.rules sheet) (Sheet.rules out) ∧
    (∀ name value, (Sheet.rootProperties sheet).get? name = some value →
      Sheet.Braceless value) ∧
    ∀ files s p, (ofFiles files).Reaches s → s.plugins[p]? = some plugin →
      s.answers plugin.scope = lookup →
      (rewrite p sheet report s).1 =
        settle (s.rewriteFailure? p sheet) (plugin.rewriteUnder lookup sheet report) := by
  intro out
  have hrules : List.Forall₂ (fun rule rule' => rule'.selectorText = rule.selectorText ∧
        rule'.body = (plugin.replyUnder lookup (Sheet.callOf sheet rule)).getD rule.body ∧
        (rule.isRoot = true → rule'.body = rule.body))
      (Sheet.rules sheet) (Sheet.rules out) := by
    refine (Plugin.forall₂_rewriteUnder hvalues hsheet report hout).imp fun rule rule' h => ?_
    refine ⟨h.1, h.2, fun hroot => ?_⟩
    rw [h.2, Plugin.replyUnder_of_isRoot hroot, Option.getD_none]
  refine ⟨?_, hrules, fun name value h => (Sheet.isClean_of_get?_rootProperties h).braceless, ?_⟩
  · exact Sheet.rootProperties_eq (hrules.imp fun rule rule' h => ⟨h.1, h.2.2⟩)
  · intro files s p hs hplugin hanswers
    rw [rewrite_eq_rewriteUnder (hs.keeps (isSound_ofFiles files)).1 hplugin, hanswers]

/-- A sheet that provides its own root scope keeps it. -/
theorem keepsRootScope_own :
    let root := ":root".toList ++ Text.braced "--a:b"
    let sheet := root ++ ".x".toList ++ Text.braced "y:var(--b,c)"
    let lookup := (Sheet.rootProperties sheet).get?
    let out := (Plugin.rewriteUnder ⟨false, 0, none⟩ lookup sheet .empty).1
    (∀ name value, lookup name = some value → Sheet.Braceless value) ∧ Sheet.Unmarked sheet ∧
      out = root ++ ".x".toList ++ Text.braced "y:c;y:var(--b,c);" ∧ Sheet.Unmarked out ∧
      Sheet.rootProperties out = Sheet.rootProperties sheet := by
  intro root sheet lookup out
  have hvalues : ∀ name value, lookup name = some value → Sheet.Braceless value :=
    fun name value h => (Sheet.isClean_of_get?_rootProperties h).braceless
  have hsheet : Sheet.Unmarked sheet := by decide +kernel
  have hrules : Sheet.rules sheet = [⟨":root".toList, "--a:b".toList, 6, 11⟩,
      ⟨".x".toList, "y:var(--b,c)".toList, 15, 27⟩] := by decide +kernel
  have hfallback : Declaration.fallback? "y:var(--b,c)".toList lookup = some "y:c".toList := by
    have hnone : lookup "--b".toList = none := by decide +kernel
    have hsplit : Declaration.split "y:var(--b,c)".toList =
        ("y".toList, "var(--b,c)".toList) := by decide
    exact Declaration.fallback?_reference hnone hsplit (by decide)
  have htransform : Block.transform "y:var(--b,c)".toList lookup =
      some "y:c;y:var(--b,c);".toList :=
    Block.transform_of_declarations (by decide) hfallback
  have hroot : Plugin.replyUnder ⟨false, 0, none⟩ lookup
      (Sheet.callOf sheet ⟨":root".toList, "--a:b".toList, 6, 11⟩) = none :=
    Plugin.replyUnder_of_isRoot (by decide)
  have hreply : Plugin.replyUnder ⟨false, 0, none⟩ lookup
      (Sheet.callOf sheet ⟨".x".toList, "y:var(--b,c)".toList, 15, 27⟩) =
        some "y:c;y:var(--b,c);".toList := by
    rw [Plugin.replyUnder, if_pos (by decide)]
    exact htransform
  have hout : out = root ++ ".x".toList ++ Text.braced "y:c;y:var(--b,c);" := by
    show (Plugin.rewriteUnder _ lookup sheet .empty).1 = _
    rw [Plugin.rewriteUnder_fst, hrules, Sheet.answersOf, List.map_cons, List.map_cons, hroot,
      hreply]
    decide +kernel
  have hunmarked : Sheet.Unmarked out := by
    rw [hout]
    decide +kernel
  exact ⟨hvalues, hsheet, hout, hunmarked,
    (rewriteUnder_keepsRootScope hvalues hsheet .empty hunmarked).1⟩

end Session
end CustomProps
