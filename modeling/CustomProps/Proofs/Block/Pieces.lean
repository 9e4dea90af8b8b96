import CustomProps.Proofs.Block.Characters
import CustomProps.Proofs.Reference.Leftover

/-!
# The pieces of a transformed block

A transformed block is its old declarations, each behind its fallback and closed by a semicolon.
That can be read off the new text again: no declaration holds a semicolon, and neither does a
fallback whose answers hold none, so cutting the new block at its semicolons gives back the very
pieces that were put together.

* `Text.splitOn_flatMap_concat` — pieces that are closed by a separator can be cut apart again.
* `Declaration.property_fallback?`, `Declaration.trim_value_fallback?` — a fallback is a declaration
  of the same property, with a value.
* `Block.entries` — the pieces of a new block, the fallbacks marked.
* `Block.closed` — a block whose declarations are closed, transformed or not.
* `Block.transform_pieces` — the structure of a transformed block.
-/

set_option autoImplicit false

namespace CustomProps

/-- Pieces that are closed by a separator can be cut apart again; an empty one is left behind the
last of them. -/
theorem Text.splitOn_flatMap_concat {sep : Char} {pieces : List Text}
    (h : ∀ piece ∈ pieces, sep ∉ piece) :
    Text.splitOn sep (pieces.flatMap (· ++ [sep])) = pieces ++ [[]] := by
  induction pieces with
  | nil => rfl
  | cons piece pieces ih =>
    obtain ⟨hpiece, hpieces⟩ := List.forall_mem_cons.1 h
    rw [List.flatMap_cons, List.append_assoc, List.singleton_append, Text.splitOn_append,
      Text.splitOn_of_not_mem hpiece, ih hpieces]
    rfl

variable {lookup : Lookup}

/-! ## Fallbacks as declarations -/

namespace Declaration

variable {declaration fallback : Text}

theorem exists_of_fallback? (h : fallback? declaration lookup = some fallback) :
    ∃ text, Reference.fallbackValue? (value declaration) lookup = some text ∧
      fallback = property declaration ++ ':' :: text := by
  rw [fallback?] at h
  split at h
  · obtain ⟨text, htext, rfl⟩ := Option.map_eq_some_iff.1 h
    exact ⟨text, htext, rfl⟩
  · cases h

/-- A reference gives way to the answer for it, or else to its fallback. -/
theorem fallback?_var {front : Text} (lookup : Lookup)
    (hsplit : split declaration = (front, "var(--b,c)".toList))
    (hreference : hasReference declaration = true) :
    fallback? declaration lookup = some (front ++
      ':' :: ((lookup "--b".toList).bind Text.nonBlank?).getD "c".toList) := by
  have hinside : Reference.split? none "var(--b,c)".toList = some ("--b,c".toList, []) := by decide
  have hanswer : Reference.answer? lookup "--b,c".toList =
      (lookup "--b".toList).bind Text.nonBlank? := by
    rw [Reference.answer?, if_neg (by decide),
      show Text.trim (Reference.namePart "--b,c".toList) = "--b".toList by decide]
  rw [fallback?, if_pos hreference, value, property, hsplit]
  cases hvalue : (lookup "--b".toList).bind Text.nonBlank? with
  | none =>
    rw [hvalue] at hanswer
    have hsurvivor : Reference.survivor lookup "--b,c".toList = "c".toList := by
      rw [Reference.survivor, hanswer]
      decide
    rw [Reference.fallbackValue?_of_split? (by decide) (by decide) hinside
      (by rw [hsurvivor]; decide), hanswer, hsurvivor]
    rfl
  | some text =>
    rw [hvalue] at hanswer
    have hsurvivor : Reference.survivor lookup "--b,c".toList = [] := by
      rw [Reference.survivor, hanswer]
    obtain ⟨given, -, htext⟩ := Option.bind_eq_some_iff.1 hvalue
    rw [Reference.fallbackValue?_of_split? (by decide) (by decide) hinside
      (by rw [hsurvivor]; exact List.not_mem_nil), hanswer, hsurvivor, List.append_nil,
      Option.getD_some, Text.nonBlank?_nonBlank? htext]
    rfl

/-- A reference that nothing answers gives way to its fallback. -/
theorem fallback?_reference {front : Text} (hlookup : lookup "--b".toList = none)
    (hsplit : split declaration = (front, "var(--b,c)".toList))
    (hreference : hasReference declaration = true) :
    fallback? declaration lookup = some (front ++ ":c".toList) := by
  rw [fallback?_var lookup hsplit hreference, hlookup]
  rfl

theorem colon_not_mem_property (declaration : Text) : ':' ∉ property declaration := by
  intro hmem
  have hcolon := List.all_eq_true.1 List.all_takeWhile ':' (Text.mem_of_mem_trim hmem)
  exact absurd hcolon (by decide)

/-- A fallback has the property of its declaration. -/
theorem property_fallback? (h : fallback? declaration lookup = some fallback) :
    property fallback = property declaration := by
  obtain ⟨text, -, rfl⟩ := exists_of_fallback? h
  have hcolon : ∀ c ∈ property declaration, (c != ':') = true := by
    intro c hc
    rw [bne_iff_ne]
    rintro rfl
    exact colon_not_mem_property declaration hc
  rw [property, split, List.takeWhile_append_of_pos hcolon, List.takeWhile_cons_of_neg (by decide),
    List.append_nil]
  exact Text.trim_trim _

/-- The value of a fallback is trimmed, and something is left of it. -/
theorem trim_value_fallback? (h : fallback? declaration lookup = some fallback) :
    Text.trim (value fallback) = value fallback ∧ value fallback ≠ [] := by
  obtain ⟨text, htext, rfl⟩ := exists_of_fallback? h
  rw [Reference.value_property_append]
  refine ⟨?_, Reference.fallbackValue?_ne_nil htext⟩
  rw [Reference.fallbackValue?_eq_expand] at htext
  split at htext
  · exact (Text.nonBlank?_eq_some_iff.1 (Text.nonBlank?_nonBlank? htext)).1
  · cases htext

end Declaration

/-! ## The pieces of a block -/

namespace Block

variable {content : Text}

/-- A piece of a new block. -/
structure Entry where
  text : Text
  /-- Was the piece put in front of the declaration behind it? -/
  isFallback : Bool
deriving DecidableEq, Repr

/-- The pieces that a declaration becomes: its fallback, if it has one, and itself. -/
def entriesOf (lookup : Lookup) (d : Text) : List Entry :=
  ((Declaration.fallback? d lookup).map (⟨·, true⟩)).toList ++ [⟨d, false⟩]

/-- The pieces of the new block. -/
def entries (content : Text) (lookup : Lookup) : List Entry :=
  (declarations content).flatMap (entriesOf lookup)

/-- A block whose declarations are closed by semicolons: the new block, or the old one when no
declaration has a fallback. -/
def closed (content : Text) (lookup : Lookup) : Text :=
  (transform content lookup).getD (render (declarations content))

theorem map_text_entries (content : Text) (lookup : Lookup) :
    (entries content lookup).map (·.text) =
      (declarations content).flatMap (withFallback lookup) := by
  rw [entries, List.map_flatMap]
  refine List.flatMap_congr fun d _ => ?_
  rw [withFallback, entriesOf]
  cases Declaration.fallback? d lookup <;> rfl

/-- Without the fallbacks the old declarations are left. -/
theorem map_text_filter_entries (content : Text) (lookup : Lookup) :
    ((entries content lookup).filter (!·.isFallback)).map (·.text) = declarations content := by
  have hone : ∀ d, ((entriesOf lookup d).filter (!·.isFallback)).map (·.text) = [d] := by
    intro d
    rw [entriesOf]
    cases Declaration.fallback? d lookup <;> rfl
  rw [entries, List.filter_flatMap, List.map_flatMap]
  simp only [hone, List.flatMap_singleton']

theorem separator_not_mem_of_mem_declarations {d : Text} (h : d ∈ declarations content) :
    separator ∉ d :=
  Text.not_mem_of_mem_splitOn (List.mem_filter.1 h).1

/-- Where no answer brings a semicolon, no piece of a new block has one. -/
theorem separator_not_mem_withFallback (hvalues : ¬lookup.Brings separator) {d piece : Text}
    (hd : d ∈ declarations content) (hpiece : piece ∈ withFallback lookup d) :
    separator ∉ piece := by
  have hseparator := separator_not_mem_of_mem_declarations hd
  rcases List.mem_append.1 hpiece with hpiece | hpiece
  · intro hmem
    rcases Declaration.mem_of_fallback? (Option.mem_toList.1 hpiece) hmem with h | h | h
    · exact hseparator h
    · exact absurd h (by decide)
    · exact hvalues h
  · rwa [List.mem_singleton.1 hpiece]

theorem transform_eq_some {new : Text} (h : transform content lookup = some new) :
    new = render ((declarations content).flatMap (withFallback lookup)) := by
  rw [transform] at h
  split at h
  · exact (Option.some.inj h).symm
  · cases h

/-- A new block ends with a semicolon. -/
theorem exists_eq_concat_of_transform {new : Text} (h : transform content lookup = some new) :
    ∃ front, new = front ++ [separator] := by
  have hne : (declarations content).flatMap (withFallback lookup) ≠ [] := by
    intro hnil
    rw [List.flatMap_eq_nil_iff] at hnil
    have hnone : transform content lookup = none := by
      rw [transform_eq_none_iff]
      intro d hd
      have := hnil d hd
      simp [withFallback] at this
    rw [hnone] at h
    cases h
  obtain ⟨pieces, last, hlast⟩ := List.eq_nil_or_concat _ |>.resolve_left hne
  refine ⟨render pieces ++ last, ?_⟩
  rw [transform_eq_some h, hlast, List.concat_eq_append, render_append, List.append_assoc]
  exact congrArg (render pieces ++ ·) (List.append_nil _)

/-! ## Blocks put together -/

/-- A block with a single declaration gets its fallback in front. -/
theorem transform_of_declarations {declaration fallback : Text}
    (hdeclarations : declarations content = [declaration])
    (hfallback : Declaration.fallback? declaration lookup = some fallback) :
    transform content lookup = some (render [fallback, declaration]) := by
  rw [transform, hdeclarations, List.any_cons, hfallback, List.flatMap_cons, withFallback,
    hfallback]
  rfl

/-- A block with one reference, answered or not. -/
theorem transform_var (lookup : Lookup) : transform "x:var(--b,c)".toList lookup =
    some ("x:".toList ++ ((lookup "--b".toList).bind Text.nonBlank?).getD "c".toList ++
      ";x:var(--b,c);".toList) := by
  have hdeclarations : declarations "x:var(--b,c)".toList = ["x:var(--b,c)".toList] := by decide
  have hsplit : Declaration.split "x:var(--b,c)".toList = ("x".toList, "var(--b,c)".toList) := by
    decide
  rw [transform_of_declarations hdeclarations
    (Declaration.fallback?_var lookup hsplit (by decide)), render]
  simp [separator]

theorem declarations_append (a b : Text) :
    declarations (a ++ separator :: b) = declarations a ++ declarations b := by
  rw [declarations, Text.splitOn_append, List.filter_append]
  rfl

theorem closed_eq_render (content : Text) (lookup : Lookup) :
    closed content lookup = render ((declarations content).flatMap (withFallback lookup)) := by
  cases h : transform content lookup with
  | some new => rw [closed, h, Option.getD_some, transform_eq_some h]
  | none =>
    have hnone := transform_eq_none_iff.1 h
    have hplain : (declarations content).flatMap (withFallback lookup) =
        (declarations content).flatMap ([·]) := by
      refine List.flatMap_congr fun d hd => ?_
      rw [withFallback, hnone d hd]
      rfl
    rw [closed, h, Option.getD_none, hplain, List.flatMap_singleton']

/-- Closing the declarations of two blocks that are put together is closing those of each. -/
theorem closed_append (a b : Text) (lookup : Lookup) :
    closed (a ++ separator :: b) lookup = closed a lookup ++ closed b lookup := by
  rw [closed_eq_render, closed_eq_render, closed_eq_render, declarations_append,
    List.flatMap_append, render_append]

theorem transform_append_eq_none_iff (a b : Text) (lookup : Lookup) :
    transform (a ++ separator :: b) lookup = none ↔
      transform a lookup = none ∧ transform b lookup = none := by
  rw [transform_eq_none_iff, transform_eq_none_iff, transform_eq_none_iff, declarations_append,
    List.forall_mem_append]

/-! ## The structure of a new block -/

/-- **A new block can be cut into its pieces again.**  There is a new block unless no declaration
has a fallback.  It ends with a semicolon, and if no answer brings one, cutting it at its semicolons
gives each declaration unchanged, its fallback in front of it, and an empty piece at the end; the
declarations that are no fallbacks are the old ones.  A fallback has the property of its declaration
and a value.  Two blocks are transformed together as each of them is on its own. -/
theorem transform_pieces (content : Text) (lookup : Lookup) :
    (transform content lookup = none ↔
      ∀ d ∈ declarations content, Declaration.fallback? d lookup = none) ∧
    (∀ new, transform content lookup = some new → ¬lookup.Brings separator →
      (∃ front, new = front ++ [separator]) ∧
      Text.splitOn separator new = (entries content lookup).map (·.text) ++ [[]] ∧
      ((entries content lookup).filter (!·.isFallback)).map (·.text) = declarations content) ∧
    (∀ d ∈ declarations content, ∀ fallback, Declaration.fallback? d lookup = some fallback →
      Declaration.property fallback = Declaration.property d ∧
      Text.trim (Declaration.value fallback) ≠ []) ∧
    ∀ a b, closed (a ++ separator :: b) lookup = closed a lookup ++ closed b lookup ∧
      (transform (a ++ separator :: b) lookup = none ↔
        transform a lookup = none ∧ transform b lookup = none) := by
  refine ⟨transform_eq_none_iff, fun new hnew hvalues => ?_, fun d _ fallback h => ?_,
    fun a b => ⟨closed_append a b lookup, transform_append_eq_none_iff a b lookup⟩⟩
  · refine ⟨exists_eq_concat_of_transform hnew, ?_, map_text_filter_entries content lookup⟩
    rw [transform_eq_some hnew, map_text_entries, render]
    refine Text.splitOn_flatMap_concat fun piece hpiece => ?_
    obtain ⟨d, hd, hpiece⟩ := List.mem_flatMap.1 hpiece
    exact separator_not_mem_withFallback hvalues hd hpiece
  · obtain ⟨htrim, hne⟩ := Declaration.trim_value_fallback? h
    exact ⟨Declaration.property_fallback? h, by rwa [htrim]⟩

/-- A declaration without a reference, one whose reference gives way to its fallback, and blanks
behind the last semicolon. -/
theorem pieces_of_reference :
    transform "x:y;z:var(--b,c); ".toList (fun _ => none) =
        some "x:y;z:c;z:var(--b,c); ;".toList ∧
      ¬Lookup.Brings (fun _ => none) separator ∧
      Text.splitOn separator "x:y;z:c;z:var(--b,c); ;".toList =
        (entries "x:y;z:var(--b,c); ".toList fun _ => none).map (·.text) ++ [[]] ∧
      entries "x:y;z:var(--b,c); ".toList (fun _ => none) = [⟨"x:y".toList, false⟩,
        ⟨"z:c".toList, true⟩, ⟨"z:var(--b,c)".toList, false⟩, ⟨" ".toList, false⟩] ∧
      Declaration.property "z:c".toList = Declaration.property "z:var(--b,c)".toList ∧
      Text.trim (Declaration.value "z:c".toList) ≠ [] := by
  have hvalues : ¬Lookup.Brings (fun _ => none) separator := by
    rintro ⟨name, answer, hanswer, -⟩
    cases hanswer
  have hdeclarations : declarations "x:y;z:var(--b,c); ".toList =
      ["x:y".toList, "z:var(--b,c)".toList, " ".toList] := by decide
  have hfallback : Declaration.fallback? "z:var(--b,c)".toList (fun _ => none) =
      some "z:c".toList := by
    have hsplit : Declaration.split "z:var(--b,c)".toList =
        ("z".toList, "var(--b,c)".toList) := by decide
    exact Declaration.fallback?_reference rfl hsplit (by decide)
  have hfirst : Declaration.fallback? "x:y".toList (fun _ => none) = none :=
    Declaration.fallback?_eq_none_of_not_hasReference (by decide)
  have hlast : Declaration.fallback? " ".toList (fun _ => none) = none :=
    Declaration.fallback?_eq_none_of_not_hasReference (by decide)
  have hnew : transform "x:y;z:var(--b,c); ".toList (fun _ => none) =
      some "x:y;z:c;z:var(--b,c); ;".toList := by
    rw [transform, hdeclarations]
    simp only [List.any_cons, List.flatMap_cons, withFallback, hfirst, hfallback, hlast]
    rfl
  have hentries : entries "x:y;z:var(--b,c); ".toList (fun _ => none) = [⟨"x:y".toList, false⟩,
      ⟨"z:c".toList, true⟩, ⟨"z:var(--b,c)".toList, false⟩, ⟨" ".toList, false⟩] := by
    rw [entries, hdeclarations]
    simp only [List.flatMap_cons, entriesOf, hfirst, hfallback, hlast]
    rfl
  obtain ⟨-, hpieces, hfallbacks, -⟩ := transform_pieces "x:y;z:var(--b,c); ".toList fun _ => none
  refine ⟨hnew, hvalues, (hpieces _ hnew hvalues).2.1, hentries, hfallbacks _ ?_ _ hfallback⟩
  rw [hdeclarations]
  decide

end Block
end CustomProps
