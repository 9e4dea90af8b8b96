import CustomProps.Proofs.Sheet.Layout
import CustomProps.Proofs.Text.Squeeze

/-!
# Runs of blanks between rules

The scan for rules does not mind how many blanks stand in a row: it finds as many rules in a text as
in any other that is squeezed to the same, and their selectors differ in blanks alone.  So the same
rules are root rules.

* `Rule.isRoot_of_squeeze` — blanks do not make a root rule.
* `Sheet.scanRules_squeeze` — scanning a squeezed text.
* `Sheet.Leads.exists_of_squeeze` — a text that is squeezed like one that leads to a rule leads to a
  rule too.
-/

set_option autoImplicit false

namespace CustomProps

open Text (squeeze)

/-! ## Selectors -/

namespace Sheet

theorem isSelectorText_squeeze (t : Text) : isSelectorText (squeeze t) = isSelectorText t := by
  have hempty : (squeeze t).isEmpty = t.isEmpty := by
    rw [Bool.eq_iff_iff, List.isEmpty_iff, List.isEmpty_iff, Text.squeeze_eq_nil_iff]
  have hat : ((squeeze t).head? != some '@') = (t.head? != some '@') := by
    rw [Bool.eq_iff_iff, bne_iff_ne, bne_iff_ne, Ne, Ne, Text.head?_squeeze_eq_iff (by decide)]
  rw [isSelectorText, isSelectorText, hempty, hat]

theorem isBlank_of_mem_rootSelector {c : Char} (h : c ∈ rootSelector) : Text.isBlank c = false := by
  have hall : rootSelector.all (fun c => !Text.isBlank c) = true := by decide
  simpa using List.all_eq_true.1 hall c h

theorem mem_splitSelectors_squeeze {selector t : Text}
    (hselector : ∀ c ∈ selector, Text.isBlank c = false) :
    selector ∈ splitSelectors (squeeze t) ↔ selector ∈ splitSelectors t := by
  have hpiece : ∀ piece, Text.trim (squeeze piece) = selector ↔ Text.trim piece = selector := by
    intro piece
    rw [← Text.squeeze_trim, Text.squeeze_eq_iff hselector]
  have hsplit := Text.splitOn_squeeze (show Text.isBlank ',' = false by decide) t
  simp only [splitSelectors, hsplit, List.mem_filter, List.mem_map, List.map_map, Function.comp,
    hpiece]

end Sheet

/-- Blanks in the selectors do not make a root rule. -/
theorem Rule.isRoot_of_squeeze {rule rule' : Rule}
    (h : squeeze rule'.selectorText = squeeze rule.selectorText) : rule'.isRoot = rule.isRoot := by
  have hroot : ∀ rule : Rule, rule.isRoot = true ↔
      Sheet.rootSelector ∈ Sheet.splitSelectors (squeeze rule.selectorText) := by
    intro rule
    rw [isRoot, List.contains_iff_mem, selectors,
      Sheet.mem_splitSelectors_squeeze fun _ => Sheet.isBlank_of_mem_rootSelector]
  rw [Bool.eq_iff_iff, hroot, hroot, h]

namespace Sheet

/-! ## Scanning -/

variable {sheet sheet' run run' : Text} {opening opening' : Option Opening}

theorem braceless_squeeze_iff {t : Text} : Braceless (squeeze t) ↔ Braceless t := by
  rw [Braceless, Braceless, Text.mem_squeeze_iff (by decide), Text.mem_squeeze_iff (by decide)]

theorem isSelectorText_congr {t u : Text} (h : squeeze t = squeeze u) :
    isSelectorText t = isSelectorText u := by
  rw [← isSelectorText_squeeze, h, isSelectorText_squeeze]

/-- What two rules have in common that differ in blanks alone. -/
def squeezed (rules : List Rule) : List Text := rules.map fun rule => squeeze rule.selectorText

/-- The rule that an opening brace belongs to, if any, depends on blanks as little. -/
theorem squeezed_bind_close? (h : opening'.map (fun o => squeeze o.head) =
      opening.map fun o => squeeze o.head) (stop stop' : Nat) :
    squeezed (opening'.bind (·.close? sheet' stop')).toList =
      squeezed (opening.bind (·.close? sheet stop)).toList := by
  cases opening with
  | none =>
    rw [Option.map_none, Option.map_eq_none_iff] at h
    rw [h]
    rfl
  | some o =>
    obtain ⟨o', rfl, ho⟩ := Option.map_eq_some_iff.1 h
    have hselector : squeeze (Text.trim o'.head) = squeeze (Text.trim o.head) := by
      rw [Text.squeeze_trim, ho, Text.squeeze_trim]
    rw [Option.bind_some, Option.bind_some, Opening.close?, Opening.close?,
      isSelectorText_congr hselector]
    split
    · exact congrArg (fun selectors => [selectors]) hselector
    · rfl

/-- The scan of a squeezed text.  The runs of both scans are squeezed to the same once the next
character is read: blanks that are squeezed away are read by one of the scans alone. -/
theorem scanRules_squeeze {t : Text}
    (hrun : squeeze (t.take 1 ++ run') = squeeze (t.take 1 ++ run))
    (hopening : opening'.map (fun o => squeeze o.head) = opening.map fun o => squeeze o.head)
    (pos pos' : Nat) : squeezed (scanRules sheet' pos' run' opening' (squeeze t)) =
      squeezed (scanRules sheet pos run opening t) := by
  induction t generalizing pos pos' run run' opening opening' with
  | nil => rfl
  | cons c t ih =>
    have hrun : squeeze (c :: run') = squeeze (c :: run) := hrun
    by_cases hblank : Text.isBlank c = true
    · have hne : ∀ {d : Char}, Text.isBlank d = false → c ≠ d := Text.ne_of_isBlank hblank
      rw [scanRules_other (hne (by decide)) (hne (by decide)), if_neg (hne (by decide)),
        Text.squeeze_cons_of_isBlank hblank]
      cases hnext : t.head?.any Text.isBlank with
      | true =>
        obtain ⟨d, hd, hd'⟩ := (Option.any_eq_true _ _).1 hnext
        obtain ⟨t, rfl⟩ := List.head?_eq_some_iff.1 hd
        refine ih ?_ hopening _ _
        show squeeze (d :: run') = squeeze (d :: c :: run)
        rw [Text.squeeze_cons_cons hd' hblank, Text.squeeze_cons_blank hd' hblank]
        exact hrun
      | false =>
        rw [if_neg Bool.false_ne_true, scanRules_other (by decide) (by decide), if_neg (by decide)]
        refine ih (Text.squeeze_append_congr ?_ _) hopening _ _
        rw [← hrun, Text.squeeze_cons_blank rfl hblank]
    · have hblank : Text.isBlank c = false := Bool.eq_false_iff.2 hblank
      have hsame : squeeze run' = squeeze run := by
        rw [Text.squeeze_cons_of_not_isBlank hblank,
          Text.squeeze_cons_of_not_isBlank hblank] at hrun
        exact (List.cons.inj hrun).2
      rw [Text.squeeze_cons_of_not_isBlank hblank]
      by_cases hopen : c = '{'
      · subst hopen
        rw [scanRules_open, scanRules_open]
        refine ih rfl ?_ _ _
        rw [Option.map_some, Option.map_some, Text.squeeze_reverse, Text.squeeze_reverse, hsame]
      · by_cases hclose : c = '}'
        · subst hclose
          rw [scanRules_close, scanRules_close, squeezed, squeezed, List.map_append,
            List.map_append]
          exact congr (congrArg _ (squeezed_bind_close? hopening _ _)) (ih rfl rfl _ _)
        · rw [scanRules_other hopen hclose, scanRules_other hopen hclose]
          split
          · exact ih rfl hopening _ _
          · exact ih (Text.squeeze_append_congr hrun _) hopening _ _

/-- Texts that are squeezed to the same have rules with the same selectors, up to blanks. -/
theorem squeezed_scanRules_congr {t u : Text} (h : squeeze t = squeeze u) (pos pos' : Nat) :
    squeezed (scanRules sheet pos [] none t) = squeezed (scanRules sheet' pos' [] none u) := by
  have hcommon : ∀ (sheet : Text) (pos : Nat) (t : Text),
      squeezed (scanRules sheet pos [] none t) = squeezed (scanRules [] 0 [] none (squeeze t)) :=
    fun _ _ _ => (scanRules_squeeze rfl rfl _ _).symm
  rw [hcommon, h, ← hcommon]

theorem scanRules_eq_nil_of_squeeze {t u : Text} (h : squeeze t = squeeze u)
    (hnone : scanRules [] 0 [] none u = []) : scanRules [] 0 [] none t = [] := by
  have hsame : squeezed (scanRules [] 0 [] none t) = squeezed (scanRules [] 0 [] none u) :=
    squeezed_scanRules_congr h 0 0
  rw [hnone] at hsame
  exact List.map_eq_nil_iff.1 hsame

/-- A text that leads to a rule has none itself, and has one with two braces behind it. -/
theorem Leads.scanRules_eq {lead head : Text} (h : Leads [] none lead head)
    (hselector : isSelectorText (Text.trim head) = true) :
    scanRules [] 0 [] none (lead ++ ['{']) = [] ∧
      squeezed (scanRules [] 0 [] none (lead ++ ['{', '}'])) = [squeeze (Text.trim head)] := by
  have hbehind := h [] 0 none rfl
  refine ⟨hbehind [], ?_⟩
  rw [hbehind ['}'], scanRules_close, Option.bind_some, Opening.close?, if_pos hselector]
  rfl

theorem Leads.scanRules_ne_nil {lead head body : Text} (h : Leads [] none lead head)
    (hselector : isSelectorText (Text.trim head) = true) (hbody : Braceless body) (rest : Text) :
    scanRules [] 0 [] none (lead ++ '{' :: (body ++ '}' :: rest)) ≠ [] := by
  rw [h [] 0 none rfl, scanRules_braceless hbody, Option.bind_some, Opening.close?,
    if_pos hselector]
  exact List.cons_ne_nil _ _

/-- Where the first of two braces at the end of a text stands, if the second one ends a body. -/
theorem eq_or_exists_of_append_braces {t lead body rest : Text} (hbody : Braceless body)
    (h : t ++ ['{', '}'] = lead ++ '{' :: (body ++ '}' :: rest)) :
    lead = t ∨ ∃ rest', t = lead ++ '{' :: (body ++ '}' :: rest') := by
  rcases List.eq_nil_or_concat rest with rfl | ⟨rest, c, rfl⟩
  · have h : (t ++ ['{']) ++ ['}'] = (lead ++ '{' :: body) ++ ['}'] := by simpa using h
    obtain ⟨h, -⟩ := List.append_inj' h rfl
    rcases List.eq_nil_or_concat body with rfl | ⟨body, d, rfl⟩
    · exact .inl (List.append_inj' h rfl).1.symm
    · -- The first brace would stand in the body.
      have h : t ++ ['{'] = (lead ++ '{' :: body) ++ [d] := by simpa using h
      obtain ⟨-, hd⟩ := List.append_inj' h rfl
      obtain ⟨rfl, -⟩ := List.cons.inj hd
      exact absurd (by simp) hbody.1
  · have h : (t ++ ['{']) ++ ['}'] = (lead ++ '{' :: (body ++ '}' :: rest)) ++ [c] := by
      simpa using h
    obtain ⟨h, -⟩ := List.append_inj' h rfl
    rcases List.eq_nil_or_concat rest with rfl | ⟨rest, d, rfl⟩
    · have h : t ++ ['{'] = (lead ++ '{' :: body) ++ ['}'] := by simpa using h
      obtain ⟨-, hbrace⟩ := List.append_inj' h rfl
      cases hbrace
    · have h : t ++ ['{'] = (lead ++ '{' :: (body ++ '}' :: rest)) ++ [d] := by simpa using h
      exact .inr ⟨rest, (List.append_inj' h rfl).1⟩

/-- **A text that is squeezed like one that leads to a rule leads to a rule too**, and with the same
selectors up to blanks. -/
theorem Leads.exists_of_squeeze {lead lead' head : Text} (h : Leads [] none lead head)
    (hselector : isSelectorText (Text.trim head) = true) (hlead : squeeze lead' = squeeze lead) :
    ∃ head', Leads [] none lead' head' ∧
      squeeze (Text.trim head') = squeeze (Text.trim head) := by
  obtain ⟨hnone, hone⟩ := h.scanRules_eq hselector
  -- So does the other text: it has no rule itself, and has one with two braces behind it.
  have hbehind : ∀ back, squeeze (lead' ++ '{' :: back) = squeeze (lead ++ '{' :: back) := by
    intro back
    rw [Text.squeeze_append_cons (by decide), Text.squeeze_append_cons (by decide), hlead]
  have hnone' : scanRules [] 0 [] none (lead' ++ ['{']) = [] :=
    scanRules_eq_nil_of_squeeze (hbehind []) hnone
  have hone' : squeezed (scanRules [] 0 [] none (lead' ++ ['{', '}'])) =
      [squeeze (Text.trim head)] :=
    (squeezed_scanRules_congr (hbehind ['}']) 0 0).trans hone
  obtain ⟨rule, hrule, hhead⟩ := List.map_eq_singleton_iff.1 hone'
  obtain ⟨o, ho, -⟩ | ⟨first, head', rest, hsplit, hleads, body, rest', rfl, hbody, hclose, -⟩ :=
    scanRules_eq_cons hrule
  · cases ho
  · obtain ⟨hselector', rfl⟩ := close?_eq_some hclose
    -- If the brace in front of that rule stood in the text itself, it would have had the rule.
    obtain rfl | ⟨behind, rfl⟩ := eq_or_exists_of_append_braces hbody hsplit
    · exact ⟨head', hleads, hhead⟩
    · rw [List.append_assoc, List.cons_append, List.append_assoc, List.cons_append] at hnone'
      exact absurd hnone' (hleads.scanRules_ne_nil hselector' hbody _)

end Sheet
end CustomProps
