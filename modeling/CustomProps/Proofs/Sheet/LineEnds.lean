import CustomProps.Proofs.Sheet.Splice
import CustomProps.Proofs.Sheet.Squeeze
import CustomProps.Proofs.Text.LineEnds

/-!
# Sheets with their line ends unified

Line ends are blanks, and no mark of a comment has one inside.  So a sheet has the same rules before
and after its line ends are unified, with the same bodies but for their line ends, and it makes no
difference to the result whether they are unified before bodies are exchanged or afterwards.

* `Sheet.squeeze_blankComments_unifyLineEnds` — the blanked texts differ in runs of blanks alone.
* `Sheet.Layout.unifyLineEnds` — how the sheet with unified line ends is laid out.
* `Sheet.rules_unifyLineEnds` — its rules.
* `Sheet.splice_unifyLineEnds` — unifying line ends and exchanging bodies.
-/

set_option autoImplicit false

namespace CustomProps

open Text (squeeze unifyLineEnds)

namespace Sheet

variable {t x y : Text}

/-! ## Comments -/

theorem closes_unifyLineEnds : Closes (unifyLineEnds t) ↔ Closes t := by
  induction t with
  | nil => rfl
  | cons c t ih =>
    have hslash : ∀ t : Text, (∃ u, t = '/' :: u) ↔ t.head? = some '/' := fun t => by
      rw [List.head?_eq_some_iff]
    rw [Text.unifyLineEnds_cons]
    split
    · rename_i hend
      rw [ih, closes_cons, hend.1, or_iff_right fun h => absurd h.1 (by decide)]
    · rw [closes_cons, closes_cons, ih, hslash, hslash,
        Text.head?_unifyLineEnds_eq_iff (by decide) (by decide)]
      split
      · rename_i hc
        subst hc
        simp
      · rfl

/-- Comments are blanked alike. -/
theorem squeeze_blankComments_unifyLineEnds (t : Text) :
    squeeze (blankComments (unifyLineEnds t)) = squeeze (blankComments t) := by
  induction t using comment_induction with
  | nil => rfl
  | comment inside rest h ih =>
    have hinside : ¬Closes (unifyLineEnds inside) := mt closes_unifyLineEnds.1 h
    have hunify : unifyLineEnds ('/' :: '*' :: (inside ++ '*' :: '/' :: rest)) =
        '/' :: '*' :: (unifyLineEnds inside ++ '*' :: '/' :: unifyLineEnds rest) := by
      rw [Text.unifyLineEnds_cons_of_ne (by decide), Text.unifyLineEnds_cons_of_ne (by decide),
        Text.unifyLineEnds_append_cons (by decide) (by decide),
        Text.unifyLineEnds_cons_of_ne (by decide)]
    rw [hunify, blankComments_comment hinside, blankComments_comment h,
      Text.squeeze_replicate_append, Text.squeeze_replicate_append]
    exact Text.squeeze_cons_congr ih ' '
  | unclosed rest h =>
    have hrest : ¬Closes (unifyLineEnds rest) := mt closes_unifyLineEnds.1 h
    rw [Text.unifyLineEnds_cons_of_ne (by decide), Text.unifyLineEnds_cons_of_ne (by decide),
      blankComments_unclosed hrest, blankComments_unclosed h]
    have hstar := Text.squeeze_cons_congr (Text.squeeze_unifyLineEnds rest) '*'
    exact Text.squeeze_cons_congr hstar '/'
  | other c rest h ih =>
    rw [blankComments_other h, Text.unifyLineEnds_cons]
    split
    · rename_i hend
      obtain ⟨rfl, hhead⟩ := hend
      obtain ⟨cs, rfl⟩ := List.head?_eq_some_iff.1 hhead
      have hlf : ¬StartsComment ('\n' :: cs) := by
        rintro ⟨u, hu⟩
        cases hu
      rw [ih, blankComments_other hlf, Text.squeeze_cons_cons rfl rfl]
    · have hother : ¬StartsComment ((if c = '\r' then '\n' else c) :: unifyLineEnds rest) := by
        rintro ⟨u, hu⟩
        obtain ⟨hslash, hrest⟩ := List.cons.inj hu
        have hstar : rest.head? = some '*' := by
          rw [← Text.head?_unifyLineEnds_eq_iff (by decide) (by decide), hrest]
          rfl
        obtain ⟨cs, rfl⟩ := List.head?_eq_some_iff.1 hstar
        split at hslash
        · cases hslash
        · exact h ⟨cs, by rw [hslash]⟩
      rw [blankComments_other hother, Text.squeeze_unified_cons]
      exact Text.squeeze_cons_congr ih c

theorem opens_unifyLineEnds : Opens (unifyLineEnds t) ↔ Opens t := by
  rw [Opens, Opens, ← Text.pair_infix_squeeze_iff (t := blankComments t) (by decide) (by decide),
    ← squeeze_blankComments_unifyLineEnds, Text.pair_infix_squeeze_iff (by decide) (by decide)]

/-- A character that is seen is still seen. -/
theorem blankComments_unifyLineEnds_append {c : Char} (hslash : c ≠ '/') (hstar : c ≠ '*')
    (h : blankComments (x ++ c :: y) = blankComments x ++ c :: blankComments y) :
    blankComments (unifyLineEnds x ++ c :: unifyLineEnds y) =
      blankComments (unifyLineEnds x) ++ c :: blankComments (unifyLineEnds y) := by
  rw [blankComments_append_eq_iff hslash hstar] at h ⊢
  rwa [opens_unifyLineEnds, closes_unifyLineEnds]

/-! ## Rules -/

variable {pos : Nat} {rs : List Rule}

theorem braceless_unifyLineEnds (h : Braceless (blankComments t)) :
    Braceless (blankComments (unifyLineEnds t)) := by
  rwa [← braceless_squeeze_iff, squeeze_blankComments_unifyLineEnds, braceless_squeeze_iff]

theorem unifyLineEnds_rule (lead body rest : Text) :
    unifyLineEnds (lead ++ '{' :: (body ++ '}' :: rest)) =
      unifyLineEnds lead ++ '{' :: (unifyLineEnds body ++ '}' :: unifyLineEnds rest) := by
  rw [Text.unifyLineEnds_append_cons (by decide) (by decide),
    Text.unifyLineEnds_append_cons (by decide) (by decide)]

/-- Both braces of a rule are seen afterwards if they are before. -/
theorem blankComments_unifyLineEnds_rule {lead body rest : Text}
    (h : blankComments (lead ++ '{' :: (body ++ '}' :: rest)) =
      blankComments lead ++ '{' :: (blankComments body ++ '}' :: blankComments rest)) :
    blankComments (unifyLineEnds lead ++ '{' :: (unifyLineEnds body ++ '}' :: unifyLineEnds rest)) =
      blankComments (unifyLineEnds lead) ++ '{' ::
        (blankComments (unifyLineEnds body) ++ '}' :: blankComments (unifyLineEnds rest)) := by
  have hbody : blankComments (body ++ '}' :: rest) =
      blankComments body ++ '}' :: blankComments rest :=
    (blankComments_append_cons (by decide) (by decide) (by decide) (length_blankComments lead) h).2
  have hlead : blankComments (lead ++ '{' :: (body ++ '}' :: rest)) =
      blankComments lead ++ '{' :: blankComments (body ++ '}' :: rest) := by
    rw [hbody, h]
  have hlead' := blankComments_unifyLineEnds_append (by decide) (by decide) hlead
  rw [Text.unifyLineEnds_append_cons (by decide) (by decide)] at hlead'
  rw [hlead', blankComments_unifyLineEnds_append (by decide) (by decide) hbody]

/-- What is said about a rule that goes by its body; nothing is said about root rules. -/
def replyTo (transform : Text → Option Text) (rule : Rule) : Option Text :=
  if rule.isRoot then none else transform rule.body

/-- The new text brings no CR along. -/
def KeepsUnified (transform : Text → Option Text) : Prop :=
  ∀ body new, '\r' ∉ body → transform body = some new → '\r' ∉ new

/-- A new body is the same whether line ends are unified before or afterwards. -/
theorem newBody_unifyLineEnds {transform : Text → Option Text} (htransform : KeepsUnified transform)
    {rule rule' : Rule} (hbody : rule'.body = unifyLineEnds rule.body)
    (hroot : rule'.isRoot = rule.isRoot) : newBody (rule', replyTo transform rule') =
      unifyLineEnds
        (newBody (rule, replyTo (fun body => transform (unifyLineEnds body)) rule)) := by
  rw [newBody, newBody, replyTo, replyTo, hroot, hbody]
  split
  · rfl
  · cases hnew : transform (unifyLineEnds rule.body) with
    | none => rfl
    | some new =>
      have hcr := htransform _ new (Text.cr_not_mem_unifyLineEnds rule.body) hnew
      exact (Text.unifyLineEnds_eq_self_iff.2 hcr).symm

/-- Unifying line ends keeps the layout, and gets along with exchanging bodies. -/
theorem Layout.unifyLineEnds (h : Layout pos t rs) (pos' : Nat) :
    ∃ rs', Layout pos' t.unifyLineEnds rs' ∧
      rs'.map (fun rule => (rule.body, rule.isRoot)) =
        rs.map (fun rule => (rule.body.unifyLineEnds, rule.isRoot)) ∧
      ∀ transform, KeepsUnified transform →
        spliceFrom pos' t.unifyLineEnds (answersOf (replyTo transform) rs') =
          Text.unifyLineEnds (spliceFrom pos t
            (answersOf (replyTo fun body => transform body.unifyLineEnds) rs)) := by
  induction h generalizing pos' with
  | @last pos t hnone =>
    refine ⟨[], .last ?_, rfl, fun _ _ => rfl⟩
    exact scanRules_eq_nil_of_squeeze (squeeze_blankComments_unifyLineEnds t) hnone
  | @rule pos lead head body rest others hleads hselector hbody hblank hrest ih =>
    obtain ⟨head', hleads', hhead⟩ :=
      hleads.exists_of_squeeze hselector (squeeze_blankComments_unifyLineEnds lead)
    obtain ⟨others', hothers, hsame, hsplice⟩ :=
      ih (pos' + lead.unifyLineEnds.length + 1 + body.unifyLineEnds.length + 1)
    have hlayout := Layout.rule hleads' ((isSelectorText_congr hhead).trans hselector)
      (braceless_unifyLineEnds hbody) (blankComments_unifyLineEnds_rule hblank) hothers
    have hroot : (ruleBehind pos' lead.unifyLineEnds head' body.unifyLineEnds).isRoot =
        (ruleBehind pos lead head body).isRoot := Rule.isRoot_of_squeeze hhead
    rw [unifyLineEnds_rule]
    refine ⟨_, hlayout, ?_, fun transform htransform => ?_⟩
    · rw [List.map_cons, List.map_cons, hsame, hroot]
      rfl
    have hnew : newBody (ruleBehind pos' lead.unifyLineEnds head' body.unifyLineEnds,
          replyTo transform (ruleBehind pos' lead.unifyLineEnds head' body.unifyLineEnds)) =
        Text.unifyLineEnds (newBody (ruleBehind pos lead head body,
          replyTo (fun body => transform body.unifyLineEnds) (ruleBehind pos lead head body))) :=
      newBody_unifyLineEnds htransform rfl hroot
    rw [splice_rule head' hothers, splice_rule head hrest, unifyLineEnds_rule, hnew,
      hsplice transform htransform]

/-- **The rules of a sheet with unified line ends** are those of the sheet, with the line ends of
their bodies unified. -/
theorem rules_unifyLineEnds (sheet : Text) :
    (rules sheet.unifyLineEnds).map (fun rule => (rule.body, rule.isRoot)) =
      (rules sheet).map fun rule => (rule.body.unifyLineEnds, rule.isRoot) := by
  obtain ⟨rs', hlayout, hsame, -⟩ := (layout_iff.2 (rfl : rules sheet = _)).unifyLineEnds 0
  rw [layout_iff.1 hlayout, hsame]

/-- **Unifying line ends gets along with exchanging bodies.**  A sheet with unified line ends whose
bodies are exchanged is the sheet with the same bodies exchanged, and all line ends unified then. -/
theorem splice_unifyLineEnds {transform : Text → Option Text} (htransform : KeepsUnified transform)
    (sheet : Text) :
    splice sheet.unifyLineEnds (answersOf (replyTo transform) (rules sheet.unifyLineEnds)) =
      Text.unifyLineEnds (splice sheet
        (answersOf (replyTo fun body => transform body.unifyLineEnds) (rules sheet))) := by
  obtain ⟨rs', hlayout, -, hsplice⟩ := (layout_iff.2 (rfl : rules sheet = _)).unifyLineEnds 0
  rw [layout_iff.1 hlayout]
  exact hsplice transform htransform

end Sheet
end CustomProps
