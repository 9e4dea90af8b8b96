import CustomProps.Proofs.Sheet.Definitions
import CustomProps.Proofs.Sheet.Splice
import CustomProps.Proofs.Text.Map

/-!
# What the root properties of a sheet are like

* `Rule.hasRootSelector_selectors` — the two ways to tell a root rule agree.
* `Sheet.IsClean` — a value that is trimmed, not blank, and without braces.
* `Sheet.isClean_of_get?_rootProperties` — the root properties of a sheet have clean values.
* `Sheet.mem_of_get?_rootProperties` — the characters of these values.
* `Sheet.LastDefines` — the last piece that defines a name with a value that is not blank.
* `Sheet.mem_rootProperties_iff_lastDefines` — the root properties are what these pieces define.
-/

set_option autoImplicit false

namespace CustomProps

/-- Whoever rewrites a sheet leaves alone just the rules that define root properties. -/
theorem Rule.hasRootSelector_selectors (rule : Rule) :
    Sheet.hasRootSelector rule.selectors = rule.isRoot := by
  have htrimmed : ∀ selector ∈ rule.selectors, Text.trim selector = selector := by
    intro selector hselector
    obtain ⟨piece, -, rfl⟩ := List.mem_map.1 (List.mem_filter.1 hselector).1
    exact Text.trim_trim piece
  rw [Bool.eq_iff_iff, Sheet.hasRootSelector, Rule.isRoot, List.any_eq_true, List.contains_iff_mem]
  constructor
  · rintro ⟨selector, hselector, heq⟩
    rw [htrimmed selector hselector, beq_iff_eq] at heq
    exact heq ▸ hselector
  · intro hroot
    exact ⟨Sheet.rootSelector, hroot, by rw [htrimmed _ hroot, beq_self_eq_true]⟩

theorem Rule.isRoot_congr {rule rule' : Rule} (h : rule'.selectorText = rule.selectorText) :
    rule'.isRoot = rule.isRoot := by
  rw [Rule.isRoot, Rule.isRoot, Rule.selectors, Rule.selectors, h]

namespace Sheet

/-! ## Clean values -/

/-- A value of a property as it should be: it is not blank, it is trimmed, and it shows no brace. -/
structure IsClean (value : Text) : Prop where
  nonBlank?_eq : Text.nonBlank? value = some value
  braceless : Braceless value

theorem property?_eq_some {piece name value : Text} (h : property? piece = some (name, value)) :
    Text.nonBlank? value = some value ∧ ∀ c ∈ value, c ∈ piece := by
  obtain ⟨⟨front, rest, ⟨back, rfl, hname⟩, rfl, -⟩, hne⟩ := property?_eq_some_iff.1 h
  refine ⟨Text.nonBlank?_eq_some_iff.2 ⟨Text.trim_trim rest, hne⟩, fun c hc => ?_⟩
  exact List.mem_append_right front (hname.suffix.subset (Text.mem_of_mem_trim hc))

theorem isClean_of_mem_definitions {body : Text} (hbody : Braceless (blankComments body))
    {name value : Text} (h : (name, value) ∈ definitions body) : IsClean value := by
  rw [definitions_eq] at h
  obtain ⟨piece, hpiece, hproperty⟩ := List.mem_filterMap.1 h
  obtain ⟨hvalue, hchars⟩ := property?_eq_some hproperty
  exact ⟨hvalue, fun hmem => hbody.1 (Text.mem_of_mem_splitOn hpiece (hchars _ hmem)),
    fun hmem => hbody.2 (Text.mem_of_mem_splitOn hpiece (hchars _ hmem))⟩

/-- The values of the root properties of a sheet are clean. -/
theorem isClean_of_get?_rootProperties {sheet name value : Text}
    (h : (rootProperties sheet).get? name = some value) : IsClean value := by
  have hlayout : Layout 0 sheet (rules sheet) := layout_iff.2 rfl
  obtain ⟨rule, hrule, hvalue⟩ := List.mem_flatMap.1 (TextMap.mem_of_get?_ofList h)
  exact isClean_of_mem_definitions
    (hlayout.forall_body rule (List.mem_filter.1 hrule).1).1 hvalue

/-- The characters of a root value stand in the sheet, but for the spaces that comments leave. -/
theorem mem_of_get?_rootProperties {sheet name value : Text}
    (h : (rootProperties sheet).get? name = some value) {c : Char} (hc : c ≠ ' ')
    (hmem : c ∈ value) : c ∈ sheet := by
  obtain ⟨rule, hrule, hvalue⟩ := List.mem_flatMap.1 (TextMap.mem_of_get?_ofList h)
  rw [definitions_eq] at hvalue
  obtain ⟨piece, hpiece, hproperty⟩ := List.mem_filterMap.1 hvalue
  have hblanked := Text.mem_of_mem_splitOn hpiece ((property?_eq_some hproperty).2 c hmem)
  have hbody := mem_of_mem_blankComments hc hblanked
  rw [body_of_mem_rules (List.mem_filter.1 hrule).1] at hbody
  exact List.mem_of_mem_drop (List.mem_of_mem_take hbody)

theorem isSorted_rootProperties (sheet : Text) : (rootProperties sheet).IsSorted :=
  TextMap.isSorted_ofList _

/-! ## The last definition of a name -/

/-- The pieces of the root rules of a sheet, in order. -/
def rootPieces (sheet : Text) : List Text :=
  ((rules sheet).filter (·.isRoot)).flatMap fun rule => Text.splitOn ';' (blankComments rule.body)

/-- The last of the pieces that define the name with a value that is not blank gives it this
value. -/
def LastDefines (pieces : List Text) (name value : Text) : Prop :=
  ∃ before piece after, pieces = before ++ piece :: after ∧
    (Defines piece name value ∧ value ≠ []) ∧
    ∀ later ∈ after, ∀ value', Defines later name value' → value' = []

theorem rootProperties_eq_ofList (sheet : Text) :
    rootProperties sheet = TextMap.ofList ((rootPieces sheet).filterMap property?) := by
  simp only [rootProperties, rootPieces, definitions_eq, List.filterMap_flatMap]

theorem lastDefines_iff {pieces : List Text} {name value : Text} : LastDefines pieces name value ↔
    ∃ before after, pieces.filterMap property? = before ++ (name, value) :: after ∧
      ∀ entry ∈ after, entry.1 ≠ name := by
  constructor
  · rintro ⟨before, piece, after, rfl, hdefines, hafter⟩
    refine ⟨before.filterMap property?, after.filterMap property?, ?_, ?_⟩
    · rw [List.filterMap_append, List.filterMap_cons, property?_eq_some_iff.2 hdefines]
    · rintro ⟨name', value'⟩ hentry rfl
      obtain ⟨later, hlater, hproperty⟩ := List.mem_filterMap.1 hentry
      obtain ⟨hlaterDefines, hne⟩ := property?_eq_some_iff.1 hproperty
      exact hne (hafter later hlater value' hlaterDefines)
  · rintro ⟨before, after, hentries, hafter⟩
    obtain ⟨before', rest, rfl, -, hrest⟩ := List.filterMap_eq_append_iff.1 hentries
    obtain ⟨skipped, piece, after', rfl, -, hpiece, rfl⟩ := List.filterMap_eq_cons_iff.1 hrest
    refine ⟨before' ++ skipped, piece, after', by simp, property?_eq_some_iff.1 hpiece, ?_⟩
    intro later hlater value' hdefines
    refine Decidable.byContradiction fun hne => ?_
    exact hafter (name, value')
      (List.mem_filterMap.2 ⟨later, hlater, property?_eq_some_iff.2 ⟨hdefines, hne⟩⟩) rfl

/-- **A sheet gives to each name the value of its last definition that is not blank**, and no other
name has a value.  So every name is two hyphens and an identifier, and every value is trimmed, not
blank, and without semicolons and braces. -/
theorem mem_rootProperties_iff_lastDefines (sheet : Text) :
    (∀ name value, (name, value) ∈ rootProperties sheet ↔
      LastDefines (rootPieces sheet) name value) ∧
    (∀ name value, (rootProperties sheet).get? name = some value ↔
      (name, value) ∈ rootProperties sheet) ∧
    ∀ name value, (name, value) ∈ rootProperties sheet →
      (['-', '-'] <+: name ∧ 3 ≤ name.length) ∧
        value ≠ [] ∧ Text.trim value = value ∧ ';' ∉ value ∧ '{' ∉ value ∧ '}' ∉ value := by
  have hget : ∀ {name value}, (name, value) ∈ rootProperties sheet ↔
      (rootProperties sheet).get? name = some value := (isSorted_rootProperties sheet).mem_iff
  have hmem : ∀ {name value}, (name, value) ∈ rootProperties sheet ↔
      LastDefines (rootPieces sheet) name value := by
    intro name value
    rw [hget, rootProperties_eq_ofList, TextMap.get?_ofList_eq_some_iff, lastDefines_iff]
  refine ⟨fun _ _ => hmem, fun _ _ => hget.symm, fun name value h => ?_⟩
  obtain ⟨hvalue, hbraceless⟩ := isClean_of_get?_rootProperties (hget.1 h)
  obtain ⟨htrim, hne⟩ := Text.nonBlank?_eq_some_iff.1 hvalue
  obtain ⟨before, piece, after, hpieces, hdefines, -⟩ := hmem.1 h
  obtain ⟨rule, -, hpiece⟩ : ∃ rule ∈ (rules sheet).filter (·.isRoot),
      piece ∈ Text.splitOn ';' (blankComments rule.body) := by
    rw [← List.mem_flatMap, ← rootPieces, hpieces]
    exact List.mem_append_right before List.mem_cons_self
  have hsemi : ';' ∉ value := fun hmem => Text.not_mem_of_mem_splitOn hpiece
    ((property?_eq_some (property?_eq_some_iff.2 hdefines)).2 ';' hmem)
  obtain ⟨⟨front, rest, ⟨back, -, hname⟩, -⟩, -⟩ := hdefines
  obtain ⟨ident, rfl, hident, -⟩ := hname.name_eq
  refine ⟨⟨⟨ident, rfl⟩, ?_⟩, hne, htrim, hsemi, hbraceless⟩
  have hlength := List.length_pos_iff.2 hident
  simp only [List.length_cons]
  omega

end Sheet
end CustomProps
