import CustomProps.Proofs.Block.Pieces
import CustomProps.Proofs.Session.Run
import CustomProps.Proofs.Sheet.Pieces

/-!
# What survives rewriting

A sheet keeps its declarations when each of its rules is there again, with the same selectors and
with its visible declarations among the new ones.  Rewriting cuts blocks at semicolons in comments,
so it does not always do that.

* `Sheet.KeepsDeclarations` — a new sheet has all rules and visible declarations of an old one.
* `Session.rewrite_keepsDeclarations_iff` — just when rewriting keeps everything in its place, and
  when it surely does.
-/

set_option autoImplicit false

namespace CustomProps
namespace Sheet

/-- The new sheet has the rules of the old one, with the same selectors and in the same order, and
the visible declarations of each are among those of the new rule, in the same order. -/
def KeepsDeclarations (sheet out : Text) : Prop :=
  (rules out).map Rule.selectorText = (rules sheet).map Rule.selectorText ∧
    List.Forall₂ (fun rule rule' => (visible rule.body).Sublist (visible rule'.body))
      (rules sheet) (rules out)

instance (sheet out : Text) : Decidable (KeepsDeclarations sheet out) :=
  inferInstanceAs (Decidable (_ ∧ _))

theorem map_selectorText_placedFrom (reply : Rule → Option Text) (rs : List Rule) (pos pos' : Nat) :
    (placedFrom pos pos' (answersOf reply rs)).map Rule.selectorText =
      rs.map Rule.selectorText := by
  induction rs generalizing pos pos' with
  | nil => rfl
  | cons rule rs ih =>
    rw [answersOf, List.map_cons, placedFrom, List.map_cons, List.map_cons, ← answersOf, ih]

theorem forall₂_placedFrom {p : Text → Text → Prop} (reply : Rule → Option Text) (rs : List Rule)
    (pos pos' : Nat) :
    List.Forall₂ (fun rule rule' => p rule.body rule'.body) rs
        (placedFrom pos pos' (answersOf reply rs)) ↔
      ∀ answer ∈ answersOf reply rs, p answer.1.body (newBody answer) := by
  induction rs generalizing pos pos' with
  | nil => simp [answersOf, placedFrom]
  | cons rule rs ih =>
    rw [forall_mem_answersOf_cons, answersOf, List.map_cons, placedFrom, List.forall₂_cons,
      ← answersOf, ih]

/-- Where the rules are found again, it remains to look at each body. -/
theorem keepsDeclarations_iff {sheet out : Text} {reply : Rule → Option Text}
    (h : rules out = placed (answersOf reply (rules sheet))) :
    KeepsDeclarations sheet out ↔ ∀ answer ∈ answersOf reply (rules sheet),
      (visible answer.1.body).Sublist (visible (newBody answer)) := by
  rw [KeepsDeclarations, h, placed, map_selectorText_placedFrom,
    forall₂_placedFrom (p := fun t t' => (visible t).Sublist (visible t'))]
  exact and_iff_right rfl

/-- The rules are found again and keep their declarations just when comments stay in the parts of
the new sheet, no body shows a brace, and each body keeps its declarations. -/
theorem keepsDeclarations_splice_iff (sheet : Text) (reply : Rule → Option Text) :
    rules (splice sheet (answersOf reply (rules sheet))) = placed (answersOf reply (rules sheet)) ∧
        KeepsDeclarations sheet (splice sheet (answersOf reply (rules sheet))) ↔
      KeepsApart sheet (answersOf reply (rules sheet)) ∧
        ∀ answer ∈ answersOf reply (rules sheet), Braceless (blankComments (newBody answer)) ∧
          (visible answer.1.body).Sublist (visible (newBody answer)) := by
  rw [forall₂_and, ← and_assoc, ← rules_splice_iff]
  exact and_congr_right fun h => keepsDeclarations_iff h

/-- A sheet that closes its comments keeps its declarations where the cuts are harmless. -/
theorem keepsDeclarations_splice {sheet : Text} (hclosed : ¬Opens sheet)
    {reply : Rule → Option Text} (lookup : Lookup)
    (hreply : ∀ rule ∈ rules sheet, ∀ new, reply rule = some new →
      Block.transform rule.body lookup = some new ∧ IsHarmless lookup rule.body) :
    rules (splice sheet (answersOf reply (rules sheet))) = placed (answersOf reply (rules sheet)) ∧
      KeepsDeclarations sheet (splice sheet (answersOf reply (rules sheet))) := by
  have hlayout : Layout 0 sheet (rules sheet) := layout_iff.2 rfl
  have hshows : ∀ rule ∈ rules sheet, Shows rule.body (newBody (rule, reply rule)) := by
    intro rule hrule
    cases hnew : reply rule with
    | none => exact .refl rule.body
    | some new =>
      obtain ⟨htransform, hharmless⟩ := hreply rule hrule new hnew
      have hbody : ¬Opens rule.body := fun hopens =>
        hclosed ((hlayout.forall_body rule hrule).2 hopens)
      exact shows_transform hbody hharmless htransform
  rw [keepsDeclarations_splice_iff]
  constructor
  · refine hlayout.keepsApart hclosed fun answer hanswer => ?_
    obtain ⟨rule, hrule, rfl⟩ := List.mem_map.1 hanswer
    exact (hshows rule hrule).closed fun hopens =>
      hclosed ((hlayout.forall_body rule hrule).2 hopens)
  · intro answer hanswer
    obtain ⟨rule, hrule, rfl⟩ := List.mem_map.1 hanswer
    exact ⟨(hshows rule hrule).braceless (hlayout.forall_body rule hrule).1,
      (hshows rule hrule).visible⟩

end Sheet

namespace Session

variable {s : Session}

/-- **What survives rewriting.**  Unless it cannot reply about some rule, a plugin puts its replies
into the sheet.  All rules are found where they were put, with all declarations that were visible in
them, just when the comments of the new sheet stay in its parts, no new body shows a brace, and each
new body keeps the declarations of its own.

So it is where the sheet closes its comments and each rule that is transformed is cut harmlessly:
what is dropped or put in stands between comments, or all of it in a comment that starts a
declaration.  A semicolon in a comment in front of a reference breaks this, for the fallback then
takes the end of the comment along. -/
theorem rewrite_keepsDeclarations_iff {files : FileSystem} (hs : (ofFiles files).Reaches s)
    (p : Nat) (sheet : Text) (report : Report) :
    let answers := s.replies p sheet
    let out := Sheet.splice sheet answers
    (rewrite p sheet report s).1 =
      settle (s.rewriteFailure? p sheet) (out, report.addSheet answers) ∧
    (Sheet.rules out = Sheet.placed answers ∧ Sheet.KeepsDeclarations sheet out ↔
      Sheet.KeepsApart sheet answers ∧ ∀ answer ∈ answers,
        Sheet.Braceless (Sheet.blankComments (Sheet.newBody answer)) ∧
          (Sheet.visible answer.1.body).Sublist (Sheet.visible (Sheet.newBody answer))) ∧
    ∀ plugin, s.plugins[p]? = some plugin → ¬Sheet.Opens sheet →
      (∀ answer ∈ answers, answer.2 ≠ none →
        Sheet.IsHarmless (s.answers plugin.scope) answer.1.body) →
      Sheet.rules out = Sheet.placed answers ∧ Sheet.KeepsDeclarations sheet out := by
  intro answers out
  refine ⟨(rewrite_spec p sheet report (hs.keeps (isSound_ofFiles files)).1).1,
    Sheet.keepsDeclarations_splice_iff sheet _, fun plugin hplugin hclosed hharmless => ?_⟩
  refine Sheet.keepsDeclarations_splice hclosed (s.answers plugin.scope)
    fun rule hrule new hnew => ⟨?_, ?_⟩
  · rw [replyNow, hplugin] at hnew
    dsimp only at hnew
    split at hnew
    · exact hnew
    · cases hnew
  · refine hharmless (rule, _) (List.mem_map_of_mem hrule) ?_
    rw [hnew]
    exact Option.some_ne_none new

/-- A session with a plugin over an empty mapping. -/
def overMapping : Session :=
  (addPlugin ⟨true, true, none⟩ (some 0) none
    (addScope (.mapping (.ofValues .empty)) (ofFiles (.emptyAt 0))).2).2

theorem reaches_overMapping : (ofFiles (.emptyAt 0)).Reaches overMapping :=
  .plugin _ (some 0) none (fun _ hk => Option.some.inj hk ▸ Nat.one_pos) (.scope _ .refl)

theorem plugins_overMapping : overMapping.plugins[0]? = some ⟨false, 0, some 0⟩ := rfl

/-- A declaration in a comment, with a reference, does no harm to the one behind it. -/
theorem keepsDeclarations_comment :
    let sheet := ".a".toList ++ Text.braced "/*x:var(--b,c);*/y:z"
    (ofFiles (.emptyAt 0)).Reaches overMapping ∧
      ∃ out report, (rewrite 0 sheet .empty overMapping).1 = .ok (out, report) ∧
        Sheet.KeepsDeclarations sheet out := by
  intro sheet
  have hclosed : ¬Sheet.Opens sheet := by decide +kernel
  have hrules : Sheet.rules sheet = [⟨".a".toList, "/*x:var(--b,c);*/y:z".toList, 3, 23⟩] := by
    decide +kernel
  have hfallback : Declaration.fallback? "/*x:var(--b,c)".toList (overMapping.answers 0) =
      some "/*x:c".toList := by
    have hsplit : Declaration.split "/*x:var(--b,c)".toList =
        ("/*x".toList, "var(--b,c)".toList) := by decide
    exact Declaration.fallback?_reference rfl hsplit (by decide)
  have hnone : Declaration.fallback? "*/y:z".toList (overMapping.answers 0) = none :=
    Declaration.fallback?_eq_none_of_not_hasReference (by decide)
  have hharmless : Sheet.IsHarmless (overMapping.answers 0) "/*x:var(--b,c);*/y:z".toList := by
    intro ps piece qs hsplit
    rw [show Text.splitOn Block.separator "/*x:var(--b,c);*/y:z".toList =
      ["/*x:var(--b,c)".toList, "*/y:z".toList] by decide] at hsplit
    match ps, hsplit with
    | [], hsplit =>
      obtain ⟨rfl, -⟩ := List.cons.inj hsplit
      refine ⟨fun hpiece => absurd hpiece (by decide), fun text htext => .inr ⟨?_, ?_⟩⟩
      · exact .inr ⟨Sheet.not_opens_nil, by decide +kernel, [], "x:var(--b,c)".toList, rfl,
          List.forall_mem_nil _⟩
      · obtain rfl := Option.some.inj (hfallback.symm.trans htext)
        decide +kernel
    | [_], hsplit =>
      obtain ⟨rfl, -⟩ := List.cons.inj (List.cons.inj hsplit).2
      refine ⟨fun hpiece => absurd hpiece (by decide), fun text htext => ?_⟩
      rw [hnone] at htext
      cases htext
    | _ :: _ :: _, hsplit => simp at hsplit
  obtain ⟨hout, -, hkeeps⟩ := rewrite_keepsDeclarations_iff reaches_overMapping 0 sheet .empty
  rw [rewriteFailure?_eq_none plugins_overMapping rfl] at hout
  refine ⟨reaches_overMapping, _, _, hout,
    (hkeeps ⟨false, 0, some 0⟩ plugins_overMapping hclosed fun answer hanswer _ => ?_).2⟩
  obtain ⟨rule, hrule, rfl⟩ := List.mem_map.1 hanswer
  rw [hrules, List.mem_singleton] at hrule
  rw [hrule]
  exact hharmless

/-- With the reference behind the comment, the declaration is lost. -/
theorem not_keepsDeclarations_comment :
    let sheet := ".a".toList ++ Text.braced "/*;*/x:var(--b,c)"
    ∃ out report, (rewrite 0 sheet .empty overMapping).1 = .ok (out, report) ∧
      ¬Sheet.KeepsDeclarations sheet out := by
  intro sheet
  have hrules : Sheet.rules sheet = [⟨".a".toList, "/*;*/x:var(--b,c)".toList, 3, 20⟩] := by
    decide +kernel
  have hnone : Declaration.fallback? "/*".toList (overMapping.answers 0) = none :=
    Declaration.fallback?_eq_none_of_not_hasReference (by decide)
  have hfallback : Declaration.fallback? "*/x:var(--b,c)".toList (overMapping.answers 0) =
      some "*/x:c".toList := by
    have hsplit : Declaration.split "*/x:var(--b,c)".toList =
        ("*/x".toList, "var(--b,c)".toList) := by decide
    exact Declaration.fallback?_reference rfl hsplit (by decide)
  have htransform : Block.transform "/*;*/x:var(--b,c)".toList (overMapping.answers 0) =
      some "/*;*/x:c;*/x:var(--b,c);".toList := by
    have hdeclarations : Block.declarations "/*;*/x:var(--b,c)".toList =
        ["/*".toList, "*/x:var(--b,c)".toList] := by decide
    rw [Block.transform, hdeclarations, List.any_cons, List.any_cons, hnone, hfallback,
      List.flatMap_cons, List.flatMap_cons, Block.withFallback, Block.withFallback, hnone,
      hfallback]
    rfl
  have hsound := (reaches_overMapping.keeps (isSound_ofFiles _)).1
  have hout := (rewrite_spec 0 sheet .empty hsound).1
  have hselectors : Sheet.splitSelectors ".a".toList = [".a".toList] := by decide
  have hreply : overMapping.replyNow 0 Phase.selectorBlock.code "/*;*/x:var(--b,c)".toList
      [".a".toList] = some "/*;*/x:c;*/x:var(--b,c);".toList := htransform
  rw [rewriteFailure?_eq_none plugins_overMapping rfl] at hout
  refine ⟨_, _, hout, ?_⟩
  rw [replies, hrules, List.map_singleton, Rule.selectors, hselectors, hreply]
  decide +kernel

end Session
end CustomProps
