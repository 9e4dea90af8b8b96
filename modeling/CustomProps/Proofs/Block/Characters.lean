import CustomProps.Block
import CustomProps.Proofs.Reference.Evaluation
import CustomProps.Proofs.Text.Blank

/-!
# Where the characters of a transformed block come from

Transforming makes no characters up: each one of a new block stood in the old one, or is brought by
an answer of the root scope, or separates a property from its value or a declaration from the next.

* `Lookup.Brings` — an answer has the character.
* `Reference.mem_of_fallbackValue?`, `Declaration.mem_of_fallback?`, `Block.mem_of_transform` — the
  characters of a value, of a declaration and of a block.
-/

set_option autoImplicit false

namespace CustomProps

/-- Some answer has the character. -/
def Lookup.Brings (lookup : Lookup) (c : Char) : Prop :=
  ∃ name answer, lookup name = some answer ∧ c ∈ answer

variable {lookup : Lookup} {c : Char}

namespace Reference

theorem brings_of_answer? {inside answer : Text} (h : answer? lookup inside = some answer)
    (hc : c ∈ answer) : lookup.Brings c := by
  rw [answer?] at h
  split at h
  · cases h
  · obtain ⟨text, htext, hanswer⟩ := Option.bind_eq_some_iff.1 h
    exact ⟨_, text, htext, Text.mem_of_nonBlank? hanswer hc⟩

theorem mem_of_survivor {inside : Text} (h : c ∈ survivor lookup inside) : c ∈ inside := by
  obtain ⟨front, hfront, -⟩ := exists_survivor lookup inside
  rw [hfront]
  exact List.mem_append_right front h

/-- By induction on the length, since the expansion goes down into fallbacks. -/
theorem mem_of_expand {before : Option Char} {t : Text} (h : c ∈ expand lookup before t) :
    c ∈ t ∨ lookup.Brings c := by
  induction hn : t.length using Nat.strongRecOn generalizing t before with
  | ind n ih =>
    subst hn
    cases hsplit : split? before t with
    | none =>
      cases t with
      | nil =>
        rw [expand_nil] at h
        cases h
      | cons d cs =>
        rw [expand_of_split?_eq_none hsplit] at h
        rcases List.mem_cons.1 h with rfl | h
        · exact .inl List.mem_cons_self
        · exact (ih cs.length (Nat.lt_succ_self _) h rfl).imp_left (List.mem_cons_of_mem d)
    | some parts =>
      obtain ⟨inside, rest⟩ := parts
      have hlength := length_split? hsplit
      obtain ⟨ht, -⟩ := split?_eq_some hsplit
      rw [expand_of_split?_eq_some hsplit, List.mem_append, List.mem_append] at h
      rcases h with h | h | h
      · cases hanswer : answer? lookup inside with
        | none =>
          rw [hanswer] at h
          cases h
        | some answer =>
          rw [hanswer] at h
          exact .inr (brings_of_answer? hanswer h)
      · have hshort := length_survivor_le lookup inside
        refine (ih _ (by omega) h rfl).imp_left fun hmem => ?_
        rw [ht]
        simp [mem_of_survivor hmem]
      · refine (ih rest.length (by omega) h rfl).imp_left fun hmem => ?_
        rw [ht]
        simp [hmem]

theorem mem_of_fallbackValue? {value text : Text} (h : fallbackValue? value lookup = some text)
    (hc : c ∈ text) : c ∈ value ∨ lookup.Brings c := by
  have hmentioned : Mentioned value := Decidable.byContradiction fun hnot => by
    rw [fallbackValue?_of_not_mentioned hnot] at h
    cases h
  have hbalanced : value.IsBalanced := Decidable.byContradiction fun hnot => by
    rw [fallbackValue?_of_not_balanced hnot] at h
    cases h
  rw [fallbackValue?_of_balanced hbalanced hmentioned] at h
  exact mem_of_expand (Text.mem_of_nonBlank? h hc)

end Reference

namespace Declaration

theorem mem_of_property {declaration : Text} (h : c ∈ property declaration) : c ∈ declaration :=
  (List.takeWhile_prefix _).subset (Text.mem_of_mem_trim h)

theorem mem_of_value {declaration : Text} (h : c ∈ value declaration) : c ∈ declaration :=
  (List.dropWhile_suffix _).subset (List.mem_of_mem_drop h)

theorem mem_of_fallback? {declaration text : Text} (h : fallback? declaration lookup = some text)
    (hc : c ∈ text) : c ∈ declaration ∨ c = ':' ∨ lookup.Brings c := by
  rw [fallback?] at h
  split at h
  · obtain ⟨new, hnew, rfl⟩ := Option.map_eq_some_iff.1 h
    rcases List.mem_append.1 hc with hc | hc
    · exact .inl (mem_of_property hc)
    · rcases List.mem_cons.1 hc with rfl | hc
      · exact .inr (.inl rfl)
      · rcases Reference.mem_of_fallbackValue? hnew hc with hc | hc
        · exact .inl (mem_of_value hc)
        · exact .inr (.inr hc)
  · cases h

end Declaration

namespace Block

theorem mem_of_mem_declarations {content declaration : Text}
    (h : declaration ∈ declarations content) (hc : c ∈ declaration) : c ∈ content :=
  Text.mem_of_mem_splitOn (List.mem_filter.1 h).1 hc

/-- Every character of a transformed block comes from the block or from an answer, or separates. -/
theorem mem_of_transform {content new : Text} (h : transform content lookup = some new)
    (hc : c ∈ new) : c ∈ content ∨ (c = ':' ∨ c = separator) ∨ lookup.Brings c := by
  rw [transform] at h
  split at h
  · obtain rfl := Option.some.inj h
    obtain ⟨piece, hpiece, hc⟩ := List.mem_flatMap.1 hc
    obtain ⟨declaration, hdeclaration, hpiece⟩ := List.mem_flatMap.1 hpiece
    rcases List.mem_append.1 hc with hc | hc
    · rcases List.mem_append.1 hpiece with hpiece | hpiece
      · rcases Declaration.mem_of_fallback? (Option.mem_toList.1 hpiece) hc with hc | hc | hc
        · exact .inl (mem_of_mem_declarations hdeclaration hc)
        · exact .inr (.inl (.inl hc))
        · exact .inr (.inr hc)
      · obtain rfl := List.mem_singleton.1 hpiece
        exact .inl (mem_of_mem_declarations hdeclaration hc)
    · exact .inr (.inl (.inr (List.mem_singleton.1 hc)))
  · cases h

end Block
end CustomProps
