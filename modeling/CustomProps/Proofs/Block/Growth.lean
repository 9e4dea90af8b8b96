import CustomProps.Proofs.Block.Pieces

/-!
# A transformed block has more declarations

Transforming a block drops empty pieces and closes the last one, so the new block need not be longer
than the old one; and a fallback may read just like its declaration, when a root value names its own
reference.  Yet the new block is never the old one: its declarations are counted here, and those
with a fallback count twice.

* `Block.length_declarations_lt` — there are more declarations.
* `Block.ne_of_transform` — so the block is another one.
-/

set_option autoImplicit false

namespace CustomProps

/-- Whatever does not separate stands in some piece. -/
theorem Text.exists_mem_of_mem_splitOn {sep c : Char} {t : Text} (hc : c ∈ t) (hne : c ≠ sep) :
    ∃ piece ∈ Text.splitOn sep t, c ∈ piece := by
  induction t with
  | nil => cases hc
  | cons d cs ih =>
    obtain ⟨first, pieces, hs⟩ := List.exists_cons_of_ne_nil (Text.splitOn_ne_nil sep cs)
    simp only [Text.splitOn, hs] at ih ⊢
    rcases List.mem_cons.1 hc with rfl | hc
    · rw [if_neg hne]
      exact ⟨_, List.mem_cons_self, List.mem_cons_self⟩
    · obtain ⟨piece, hpiece, hmem⟩ := ih hc
      split
      · exact ⟨piece, List.mem_cons_of_mem _ hpiece, hmem⟩
      · rcases List.mem_cons.1 hpiece with rfl | hpiece
        · exact ⟨_, List.mem_cons_self, List.mem_cons_of_mem d hmem⟩
        · exact ⟨piece, List.mem_cons_of_mem _ hpiece, hmem⟩

namespace Block

variable {content new : Text} {lookup : Lookup}

/-- A block is transformed where some declaration has a fallback. -/
theorem isSome_transform (content : Text) (lookup : Lookup) :
    (transform content lookup).isSome =
      (declarations content).any fun d => (Declaration.fallback? d lookup).isSome := by
  rw [transform]
  split
  · rename_i hany
    rw [hany, Option.isSome_some]
  · rename_i hany
    rw [Bool.eq_false_iff.2 hany, Option.isSome_none]

theorem declarations_ne_nil {c : Char} {t : Text} (hc : c ∈ t) (hne : c ≠ separator) :
    declarations t ≠ [] := by
  obtain ⟨piece, hpiece, hmem⟩ := Text.exists_mem_of_mem_splitOn hc hne
  have hpiece' : piece ∈ declarations t := by
    refine List.mem_filter.2 ⟨hpiece, ?_⟩
    rw [Bool.not_eq_true', List.isEmpty_eq_false_iff]
    exact List.ne_nil_of_mem hmem
  exact List.ne_nil_of_mem hpiece'

/-- A declaration with its fallback is nothing but pieces in which something stands. -/
theorem declarations_ne_nil_of_mem_withFallback {d piece : Text} (hd : d ∈ declarations content)
    (hpiece : piece ∈ withFallback lookup d) : declarations piece ≠ [] := by
  rcases List.mem_append.1 hpiece with hpiece | hpiece
  · obtain ⟨text, -, rfl⟩ := Declaration.exists_of_fallback? (Option.mem_toList.1 hpiece)
    exact declarations_ne_nil (List.mem_append_right _ List.mem_cons_self) (by decide)
  · obtain rfl := List.mem_singleton.1 hpiece
    have hseparator := separator_not_mem_of_mem_declarations hd
    cases piece with
    | nil => exact absurd (List.mem_filter.1 hd).2 (by decide)
    | cons c cs =>
      exact declarations_ne_nil List.mem_cons_self (List.ne_of_not_mem_cons hseparator).symm

/-- Closed pieces in which something stands give at least one declaration each. -/
theorem length_le_length_declarations_render {pieces : List Text}
    (h : ∀ piece ∈ pieces, declarations piece ≠ []) :
    pieces.length ≤ (declarations (render pieces)).length := by
  induction pieces with
  | nil => exact Nat.zero_le _
  | cons piece pieces ih =>
    obtain ⟨hpiece, hpieces⟩ := List.forall_mem_cons.1 h
    have hrender : render (piece :: pieces) = piece ++ separator :: render pieces := by
      rw [render, List.flatMap_cons, List.append_assoc]
      rfl
    have hrest := ih hpieces
    have hfirst := List.length_pos_iff.2 hpiece
    rw [hrender, declarations_append, List.length_append, List.length_cons]
    omega

theorem length_flatMap_withFallback (ds : List Text) (lookup : Lookup) :
    (ds.flatMap (withFallback lookup)).length =
      ds.length + ds.countP fun d => (Declaration.fallback? d lookup).isSome := by
  induction ds with
  | nil => rfl
  | cons d ds ih =>
    rw [List.flatMap_cons, List.length_append, ih, withFallback, List.countP_cons]
    cases Declaration.fallback? d lookup <;> simp <;> omega

/-- **A transformed block has more declarations than the old one.** -/
theorem length_declarations_lt (h : transform content lookup = some new) :
    (declarations content).length < (declarations new).length := by
  have hfallback : 0 < (declarations content).countP fun d =>
      (Declaration.fallback? d lookup).isSome := by
    have hany := isSome_transform content lookup
    rw [h, Option.isSome_some] at hany
    exact List.countP_pos_iff.2 (List.any_eq_true.1 hany.symm)
  have hcount := length_flatMap_withFallback (declarations content) lookup
  have hpieces : ∀ piece ∈ (declarations content).flatMap (withFallback lookup),
      declarations piece ≠ [] := by
    intro piece hpiece
    obtain ⟨d, hd, hpiece⟩ := List.mem_flatMap.1 hpiece
    exact declarations_ne_nil_of_mem_withFallback hd hpiece
  have hlength := length_le_length_declarations_render hpieces
  rw [transform_eq_some h]
  omega

theorem ne_of_transform (h : transform content lookup = some new) : new ≠ content := by
  rintro rfl
  exact Nat.lt_irrefl _ (length_declarations_lt h)

end Block
end CustomProps
