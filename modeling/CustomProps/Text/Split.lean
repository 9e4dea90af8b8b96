import CustomProps.Text.Basic

/-!
# Splitting and joining

Splitting at a separating character yields one piece more than there are separators, and joining
the pieces with the separator gives the text back.  Nothing here depends on what a text is made of,
so loose texts and bytes are split and joined in the same way.
-/

set_option autoImplicit false

namespace CustomProps
namespace Text

variable {α : Type}

/-- The pieces between the separators; never empty. -/
def splitOn [DecidableEq α] (sep : α) : List α → List (List α)
  | [] => [[]]
  | c :: cs =>
    if c = sep then [] :: splitOn sep cs
    else
      match splitOn sep cs with
      | [] => [[c]]
      | piece :: pieces => (c :: piece) :: pieces

/-- The pieces, one after the other, with the separator between them. -/
def joinWith (sep : α) : List (List α) → List α
  | [] => []
  | [piece] => piece
  | piece :: next :: pieces => piece ++ sep :: joinWith sep (next :: pieces)

variable [DecidableEq α]

theorem splitOn_ne_nil (sep : α) (t : List α) : splitOn sep t ≠ [] := by
  cases t with
  | nil => simp [splitOn]
  | cons c cs =>
    simp only [splitOn]
    split
    · simp
    · split <;> simp

theorem splitOn_append (sep : α) (t u : List α) :
    splitOn sep (t ++ sep :: u) = splitOn sep t ++ splitOn sep u := by
  induction t with
  | nil => simp [splitOn]
  | cons c t ih =>
    rw [List.cons_append, splitOn, splitOn, ih]
    split
    · rfl
    · obtain ⟨piece, pieces, h⟩ := List.exists_cons_of_ne_nil (splitOn_ne_nil sep t)
      rw [h]
      rfl

theorem joinWith_splitOn (sep : α) (t : List α) : joinWith sep (splitOn sep t) = t := by
  induction t with
  | nil => rfl
  | cons c cs ih =>
    obtain ⟨piece, pieces, h⟩ := List.exists_cons_of_ne_nil (splitOn_ne_nil sep cs)
    rw [h] at ih
    simp only [splitOn, h]
    split
    · rename_i hc
      subst hc
      simp [joinWith, ih]
    · cases pieces with
      | nil => simpa [joinWith] using ih
      | cons next pieces => simpa [joinWith] using ih

theorem splitOn_of_not_mem {sep : α} {t : List α} (h : sep ∉ t) : splitOn sep t = [t] := by
  induction t with
  | nil => rfl
  | cons c cs ih =>
    obtain ⟨hc, hcs⟩ := List.ne_and_not_mem_of_not_mem_cons h
    rw [splitOn, if_neg hc.symm, ih hcs]

theorem splitOn_joinWith {sep : α} {pieces : List (List α)} (hne : pieces ≠ [])
    (h : ∀ piece ∈ pieces, sep ∉ piece) : splitOn sep (joinWith sep pieces) = pieces := by
  induction pieces with
  | nil => exact absurd rfl hne
  | cons piece pieces ih =>
    obtain ⟨hpiece, hpieces⟩ := List.forall_mem_cons.1 h
    cases pieces with
    | nil => exact splitOn_of_not_mem hpiece
    | cons next pieces =>
      rw [joinWith, splitOn_append, splitOn_of_not_mem hpiece, ih nofun hpieces]
      rfl

theorem not_mem_of_mem_splitOn {sep : α} {t piece : List α} (h : piece ∈ splitOn sep t) :
    sep ∉ piece := by
  induction t generalizing piece with
  | nil => simp_all [splitOn]
  | cons c cs ih =>
    obtain ⟨first, pieces, hs⟩ := List.exists_cons_of_ne_nil (splitOn_ne_nil sep cs)
    simp only [splitOn, hs] at h
    split at h
    · rcases List.mem_cons.1 h with rfl | h
      · simp
      · exact ih (hs ▸ h)
    · rename_i hc
      rcases List.mem_cons.1 h with rfl | h
      · have := @ih first (by simp [hs])
        simp [this, Ne.symm hc]
      · exact ih (by simp [hs, h])

/-- The pieces of a text have no characters but those of the text. -/
theorem mem_of_mem_splitOn {sep : α} {t piece : List α} (h : piece ∈ splitOn sep t) {c : α}
    (hc : c ∈ piece) : c ∈ t := by
  induction t generalizing piece with
  | nil =>
    rw [splitOn, List.mem_singleton] at h
    rwa [h] at hc
  | cons d cs ih =>
    rw [splitOn] at h
    split at h
    · rcases List.mem_cons.1 h with rfl | h
      · cases hc
      · exact List.mem_cons_of_mem d (ih h hc)
    · obtain ⟨first, pieces, hs⟩ := List.exists_cons_of_ne_nil (splitOn_ne_nil sep cs)
      rw [hs] at h
      rcases List.mem_cons.1 h with rfl | h
      · rcases List.mem_cons.1 hc with rfl | hc
        · exact List.mem_cons_self
        · exact List.mem_cons_of_mem d (ih (hs ▸ List.mem_cons_self) hc)
      · exact List.mem_cons_of_mem d (ih (hs ▸ List.mem_cons_of_mem first h) hc)

end Text
end CustomProps
