import CustomProps.Proofs.Sheet.Comment
import CustomProps.Sheet.Rewrite

/-!
# How the rules lie in a sheet

Between two rules stands a text in which the scan finds none, up to the opening brace of the second.
What the scan does there depends on neither the positions nor the bodies, so the rules of a sheet
can be found again in a sheet that differs in its bodies.

* `Sheet.Leads` — a text through which the scan comes to the opening brace of a rule.
* `Sheet.Layout` — a sheet cut into such texts and the bodies behind them.
* `Sheet.layout_iff` — every sheet is laid out by its rules, and its comments respect that.
-/

set_option autoImplicit false

namespace CustomProps
namespace Sheet

/-! ## Scanning part by part -/

/-- There is no brace in the text. -/
def Braceless (t : Text) : Prop := '{' ∉ t ∧ '}' ∉ t

instance (t : Text) : Decidable (Braceless t) := inferInstanceAs (Decidable (_ ∧ _))

theorem Braceless.tail {c : Char} {t : Text} (h : Braceless (c :: t)) : Braceless t :=
  ⟨fun hmem => h.1 (List.mem_cons_of_mem c hmem), fun hmem => h.2 (List.mem_cons_of_mem c hmem)⟩

theorem braceless_cons {c : Char} {t : Text} (hopen : c ≠ '{') (hclose : c ≠ '}')
    (h : Braceless t) : Braceless (c :: t) :=
  ⟨by simp [hopen.symm, h.1], by simp [hclose.symm, h.2]⟩

variable {sheet run : Text} {pos : Nat} {opening : Option Opening}

theorem scanRules_open (rest : Text) : scanRules sheet pos run opening ('{' :: rest) =
    scanRules sheet (pos + 1) [] (some ⟨run.reverse, pos + 1⟩) rest := rfl

theorem scanRules_close (rest : Text) : scanRules sheet pos run opening ('}' :: rest) =
    (opening.bind (·.close? sheet pos)).toList ++ scanRules sheet (pos + 1) [] none rest := rfl

/-- Any other character is only added to the run, or ends it. -/
theorem scanRules_other {c : Char} (hopen : c ≠ '{') (hclose : c ≠ '}') (rest : Text) :
    scanRules sheet pos run opening (c :: rest) =
      scanRules sheet (pos + 1) (if c = ';' then [] else c :: run) opening rest := by
  rw [scanRules, if_neg hopen, if_neg hclose]
  split <;> rfl

/-- What stands between two braces has no influence on the rest. -/
theorem scanRules_braceless {body : Text} (h : Braceless body) (rest : Text) :
    scanRules sheet pos run opening (body ++ '}' :: rest) =
      (opening.bind (·.close? sheet (pos + body.length))).toList ++
        scanRules sheet (pos + body.length + 1) [] none rest := by
  induction body generalizing pos run with
  | nil => rfl
  | cons c body ih =>
    have hopen : c ≠ '{' := fun hc => h.1 (hc ▸ List.mem_cons_self)
    have hclose : c ≠ '}' := fun hc => h.2 (hc ▸ List.mem_cons_self)
    rw [List.cons_append, scanRules_other hopen hclose, ih h.tail, List.length_cons,
      show pos + 1 + body.length = pos + (body.length + 1) by omega]

/-- Whether an opening brace belongs to a rule is told by what stands in front of it. -/
theorem close?_eq_none_congr {o o' : Opening} (hhead : o'.head = o.head) {stop : Nat}
    (h : o.close? sheet stop = none) (sheet' : Text) (stop' : Nat) :
    o'.close? sheet' stop' = none := by
  rw [Opening.close?] at h ⊢
  rw [hhead]
  split at h
  · cases h
  · rename_i hselector
    rw [if_neg hselector]

theorem bind_close?_eq_none_congr {opening' : Option Opening}
    (hhead : opening'.map Opening.head = opening.map Opening.head) {stop : Nat}
    (h : opening.bind (·.close? sheet stop) = none) (sheet' : Text) (stop' : Nat) :
    opening'.bind (·.close? sheet' stop') = none := by
  cases opening with
  | none =>
    rw [Option.map_none, Option.map_eq_none_iff] at hhead
    rw [hhead]
    rfl
  | some o =>
    obtain ⟨o', rfl, ho'⟩ := Option.map_eq_some_iff.1 hhead
    exact close?_eq_none_congr ho' h sheet' stop'

/-- A text without rules has none wherever it stands. -/
theorem scanRules_eq_nil_congr {rest : Text} (h : scanRules sheet pos run opening rest = [])
    {opening' : Option Opening} (hhead : opening'.map Opening.head = opening.map Opening.head)
    (sheet' : Text) (pos' : Nat) : scanRules sheet' pos' run opening' rest = [] := by
  induction rest generalizing pos run opening pos' opening' with
  | nil => rfl
  | cons c rest ih =>
    by_cases hopen : c = '{'
    · subst hopen
      rw [scanRules_open] at h ⊢
      have hsame : (some (⟨run.reverse, pos' + 1⟩ : Opening)).map Opening.head =
          (some (⟨run.reverse, pos + 1⟩ : Opening)).map Opening.head := rfl
      exact ih h hsame (pos' + 1)
    · by_cases hclose : c = '}'
      · subst hclose
        rw [scanRules_close, List.append_eq_nil_iff, Option.toList_eq_nil_iff] at h
        rw [scanRules_close, bind_close?_eq_none_congr hhead h.1 sheet' pos', ih h.2 rfl (pos' + 1)]
        rfl
      · rw [scanRules_other hopen hclose] at h ⊢
        exact ih h hhead (pos' + 1)

/-! ## What leads to a rule -/

/-- Having read `run` and a last opening brace with `lastHead` in front of it, the scan comes
through the text `lead` to another opening brace, with `head` in front of that, and meets no
rule. -/
def Leads (run : Text) (lastHead : Option Text) (lead head : Text) : Prop :=
  ∀ (sheet : Text) (pos : Nat) (opening : Option Opening), opening.map Opening.head = lastHead →
    ∀ rest, scanRules sheet pos run opening (lead ++ '{' :: rest) =
      scanRules sheet (pos + lead.length + 1) [] (some ⟨head, pos + lead.length + 1⟩) rest

theorem leads_nil (run : Text) (lastHead : Option Text) : Leads run lastHead [] run.reverse :=
  fun _ _ _ _ _ => rfl

theorem Leads.open {lead head : Text} (run : Text) (lastHead : Option Text)
    (h : Leads [] (some run.reverse) lead head) : Leads run lastHead ('{' :: lead) head := by
  intro sheet pos opening _ rest
  rw [List.cons_append, scanRules_open, h sheet (pos + 1) _ rfl, List.length_cons,
    show pos + 1 + lead.length = pos + (lead.length + 1) by omega]

theorem Leads.close {lead head : Text} {lastHead : Option Text} (run : Text)
    (hlast : ∀ (sheet : Text) (stop : Nat) (opening : Option Opening),
      opening.map Opening.head = lastHead → opening.bind (·.close? sheet stop) = none)
    (h : Leads [] none lead head) : Leads run lastHead ('}' :: lead) head := by
  intro sheet pos opening hopening rest
  rw [List.cons_append, scanRules_close, hlast sheet pos opening hopening,
    h sheet (pos + 1) none rfl, List.length_cons,
    show pos + 1 + lead.length = pos + (lead.length + 1) by omega]
  rfl

theorem Leads.other {c : Char} (hopen : c ≠ '{') (hclose : c ≠ '}') {lead head run : Text}
    {lastHead : Option Text} (h : Leads (if c = ';' then [] else c :: run) lastHead lead head) :
    Leads run lastHead (c :: lead) head := by
  intro sheet pos opening hopening rest
  rw [List.cons_append, scanRules_other hopen hclose, h sheet (pos + 1) opening hopening,
    List.length_cons, show pos + 1 + lead.length = pos + (lead.length + 1) by omega]

/-- Behind an opening brace stand the body of a rule and its closing brace, and then other rules. -/
def EndsRule (sheet : Text) (opening : Opening) (pos : Nat) (rest : Text) (rule : Rule)
    (others : List Rule) : Prop :=
  ∃ body rest', rest = body ++ '}' :: rest' ∧ Braceless body ∧
    opening.close? sheet (pos + body.length) = some rule ∧
    others = scanRules sheet (pos + body.length + 1) [] none rest'

/-- The first rule that is found has its opening brace behind or ahead. -/
theorem scanRules_eq_cons {rest : Text} {rule : Rule} {others : List Rule}
    (h : scanRules sheet pos run opening rest = rule :: others) :
    (∃ o, opening = some o ∧ EndsRule sheet o pos rest rule others) ∨
      ∃ lead head rest', rest = lead ++ '{' :: rest' ∧
        Leads run (opening.map Opening.head) lead head ∧
        EndsRule sheet ⟨head, pos + lead.length + 1⟩ (pos + lead.length + 1) rest' rule others := by
  induction rest generalizing pos run opening with
  | nil => cases h
  | cons c rest ih =>
    by_cases hopen : c = '{'
    · subst hopen
      rw [scanRules_open] at h
      right
      obtain ⟨o, ho, hends⟩ | ⟨lead, head, rest', rfl, hleads, hends⟩ := ih h
      · obtain rfl := Option.some.inj ho
        exact ⟨[], run.reverse, rest, rfl, leads_nil run _, hends⟩
      · refine ⟨'{' :: lead, head, rest', rfl, hleads.open run _, ?_⟩
        rw [List.length_cons, show pos + (lead.length + 1) = pos + 1 + lead.length by omega]
        exact hends
    · by_cases hclose : c = '}'
      · subst hclose
        rw [scanRules_close] at h
        cases hrule : opening.bind (·.close? sheet pos) with
        | some rule' =>
          rw [hrule] at h
          obtain ⟨rfl, rfl⟩ := List.cons.inj h
          obtain ⟨o, ho, hrule⟩ := Option.bind_eq_some_iff.1 hrule
          exact .inl ⟨o, ho, [], rest, rfl, ⟨by simp, by simp⟩, hrule, rfl⟩
        | none =>
          rw [hrule] at h
          right
          obtain ⟨o, ho, -⟩ | ⟨lead, head, rest', rfl, hleads, hends⟩ := ih h
          · cases ho
          · refine ⟨'}' :: lead, head, rest', rfl, hleads.close run ?_, ?_⟩
            · intro sheet' stop' opening' hhead
              exact bind_close?_eq_none_congr hhead hrule sheet' stop'
            · rw [List.length_cons, show pos + (lead.length + 1) = pos + 1 + lead.length by omega]
              exact hends
      · rw [scanRules_other hopen hclose] at h
        obtain ⟨o, ho, body, rest', rfl, hbody, hrule, hothers⟩ |
          ⟨lead, head, rest', rfl, hleads, hends⟩ := ih h
        · refine .inl ⟨o, ho, c :: body, rest', rfl, braceless_cons hopen hclose hbody, ?_, ?_⟩
          · rw [List.length_cons, show pos + (body.length + 1) = pos + 1 + body.length by omega]
            exact hrule
          · rw [List.length_cons, show pos + (body.length + 1) = pos + 1 + body.length by omega]
            exact hothers
        · refine .inr ⟨c :: lead, head, rest', rfl, .other hopen hclose hleads, ?_⟩
          rw [List.length_cons, show pos + (lead.length + 1) = pos + 1 + lead.length by omega]
          exact hends

/-! ## The layout of a sheet -/

/-- The rule behind `lead`, in a text that starts at `pos`. -/
def ruleBehind (pos : Nat) (lead head body : Text) : Rule :=
  ⟨Text.trim head, body, pos + lead.length + 1, pos + lead.length + 1 + body.length⟩

/-- How rules lie in a text that starts at `pos`, behind a closing brace or at the start of a sheet:
`lead` leads to the first one, and there is no brace in its body but the one that ends it. -/
inductive Layout : Nat → Text → List Rule → Prop
  | last {pos : Nat} {t : Text} (hnone : scanRules [] 0 [] none (blankComments t) = []) :
    Layout pos t []
  | rule {pos : Nat} {lead head body rest : Text} {others : List Rule}
    (hleads : Leads [] none (blankComments lead) head)
    (hselector : isSelectorText (Text.trim head) = true)
    (hbody : Braceless (blankComments body))
    (hblank : blankComments (lead ++ '{' :: (body ++ '}' :: rest)) =
      blankComments lead ++ '{' :: (blankComments body ++ '}' :: blankComments rest))
    (hrest : Layout (pos + lead.length + 1 + body.length + 1) rest others) :
    Layout pos (lead ++ '{' :: (body ++ '}' :: rest))
      (ruleBehind pos lead head body :: others)

theorem close?_eq_some {o : Opening} {stop : Nat} {rule : Rule}
    (h : o.close? sheet stop = some rule) : isSelectorText (Text.trim o.head) = true ∧
      rule = ⟨Text.trim o.head, sheet.slice o.start stop, o.start, stop⟩ := by
  rw [Opening.close?] at h
  split at h
  · exact ⟨‹_›, (Option.some.inj h).symm⟩
  · cases h

/-- Cutting a body out of a sheet, and what stands behind it. -/
theorem drop_lead {lead body rest : Text}
    (h : sheet.drop pos = lead ++ '{' :: (body ++ '}' :: rest)) :
    sheet.slice (pos + lead.length + 1) (pos + lead.length + 1 + body.length) = body ∧
      sheet.drop (pos + lead.length + 1 + body.length + 1) = rest := by
  have hbody : sheet.drop (pos + lead.length + 1) = body ++ '}' :: rest := by
    rw [Nat.add_assoc, ← List.drop_drop, h, ← List.drop_drop, List.drop_left, List.drop_one,
      List.tail_cons]
  constructor
  · rw [Text.slice, Nat.add_sub_cancel_left, hbody, List.take_left]
  · rw [Nat.add_assoc, ← List.drop_drop, hbody, ← List.drop_drop, List.drop_left, List.drop_one,
      List.tail_cons]

/-- How the first rule lies. -/
theorem Layout.exists_lead {t : Text} {rule : Rule} {others : List Rule}
    (h : Layout pos t (rule :: others)) :
    ∃ lead head body rest, t = lead ++ '{' :: (body ++ '}' :: rest) ∧
      rule = ruleBehind pos lead head body ∧
      Leads [] none (blankComments lead) head ∧ isSelectorText (Text.trim head) = true ∧
      Braceless (blankComments body) ∧
      blankComments t =
        blankComments lead ++ '{' :: (blankComments body ++ '}' :: blankComments rest) ∧
      Layout (pos + lead.length + 1 + body.length + 1) rest others := by
  cases h with
  | @rule _ lead head body rest _ hleads hselector hbody hblank hrest =>
    exact ⟨lead, head, body, rest, rfl, rfl, hleads, hselector, hbody, hblank, hrest⟩

theorem layout_scanRules {t : Text} (ht : sheet.drop pos = t) {rules : List Rule}
    (h : scanRules sheet pos [] none (blankComments t) = rules) : Layout pos t rules := by
  induction rules generalizing pos t with
  | nil => exact .last (scanRules_eq_nil_congr h rfl [] 0)
  | cons rule others ih =>
    obtain ⟨o, ho, -⟩ |
      ⟨lead', head, rest', hlead, hleads, body', rest'', rfl, hbody, hrule, hothers⟩ :=
      scanRules_eq_cons h
    · cases ho
    · -- Both braces are seen, so they stand in the text itself and part it for blanking too.
      obtain ⟨lead, back, rfl, rfl, hback⟩ :=
        blankComments_eq_append (by decide) (by decide) (by decide) hlead
      obtain ⟨body, rest, rfl, rfl, rfl⟩ :=
        blankComments_eq_append (by decide) (by decide) (by decide) hback
      rw [length_blankComments, length_blankComments] at hrule hothers
      obtain ⟨hselector, rfl⟩ := close?_eq_some hrule
      obtain ⟨hslice, hdrop⟩ := drop_lead ht
      rw [hslice]
      exact .rule hleads hselector hbody hlead (ih hdrop hothers.symm)

theorem Layout.scanRules_eq {t : Text} {rules : List Rule} (h : Layout pos t rules)
    (ht : sheet.drop pos = t) : scanRules sheet pos [] none (blankComments t) = rules := by
  induction h with
  | last hnone => exact scanRules_eq_nil_congr hnone rfl sheet _
  | @rule pos lead head body rest others hleads hselector hbody hblank _ ih =>
    obtain ⟨hslice, hdrop⟩ := drop_lead ht
    have hclose : (⟨head, pos + lead.length + 1⟩ : Opening).close? sheet
        (pos + lead.length + 1 + body.length) = some (ruleBehind pos lead head body) := by
      rw [Opening.close?, if_pos hselector, hslice, ruleBehind]
    rw [hblank, hleads sheet pos none rfl, length_blankComments, scanRules_braceless hbody,
      length_blankComments, Option.bind_some, hclose, ih hdrop]
    rfl

/-- **A sheet is laid out by its rules**, and by nothing else. -/
theorem layout_iff {rs : List Rule} : Layout 0 sheet rs ↔ rules sheet = rs :=
  ⟨fun h => h.scanRules_eq rfl, layout_scanRules rfl⟩

end Sheet
end CustomProps
