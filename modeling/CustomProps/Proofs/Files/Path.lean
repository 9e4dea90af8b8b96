import CustomProps.Files.Path

/-!
# Paths as texts

The normal form of a path, written out, leads back to the path.

* `Path.IsNormal` — what reading a path makes of every text.
* `Path.ofLoose_toText` — a path in normal form can be read back from its text.
* `Path.IsNormal.toText_ne_nil` — no path in normal form is written as the empty text.
-/

set_option autoImplicit false

namespace CustomProps
namespace Path

/-- At most two slashes come first, and every name says something and holds none. -/
structure IsNormal (path : Path) : Prop where
  root : path.root ∈ [[], [slash], [slash, slash]]
  names : ∀ name ∈ path.names, (!name.isEmpty && name != here) = true
  slash : ∀ name ∈ path.names, slash ∉ name

theorem rootOf_mem {slashes : LooseText} (h : ∀ letter ∈ slashes, letter = slash) :
    rootOf slashes ∈ [[], [slash], [slash, slash]] := by
  match slashes, h with
  | [], _ => decide
  | [c], h =>
    rw [h c (by simp)]
    decide
  | [c, d], h =>
    rw [h c (by simp), h d (by simp)]
    decide
  | c :: d :: e :: rest, _ =>
    rw [rootOf, if_neg (by simp)]
    decide

theorem isNormal_ofLoose (t : LooseText) : (ofLoose t).IsNormal where
  root := rootOf_mem fun c hc => beq_iff_eq.1 (List.all_eq_true.1 List.all_takeWhile c hc)
  names _ h := (List.mem_filter.1 h).2
  slash _ h := slash_not_mem_names h

variable {path : Path}

/-- The names, written out, do not start with a slash. -/
theorem IsNormal.takeWhile_joinWith (h : path.IsNormal) :
    (Text.joinWith Path.slash path.names).takeWhile (· == Path.slash) = [] := by
  obtain ⟨-, hnames, hslash⟩ := h
  match path.names, hnames, hslash with
  | [], _, _ => rfl
  | [] :: _, hnames, _ => exact absurd (hnames [] List.mem_cons_self) (by decide)
  | (c :: cs) :: names, _, hslash =>
    have hc : Path.slash ≠ c :=
      (List.ne_and_not_mem_of_not_mem_cons (hslash _ List.mem_cons_self)).1
    cases names <;> simp [Text.joinWith, hc.symm]

/-- Splitting at the slashes finds the names again. -/
theorem IsNormal.filter_splitOn_joinWith (h : path.IsNormal) :
    (Text.splitOn Path.slash (Text.joinWith Path.slash path.names)).filter
      (fun name => !name.isEmpty && name != here) = path.names := by
  by_cases hempty : path.names = []
  · rw [hempty]
    rfl
  · rw [Text.splitOn_joinWith hempty h.slash]
    exact List.filter_eq_self.2 h.names

/-- **A path can be read back from its text.** -/
theorem IsNormal.ofLoose_toText (h : path.IsNormal) : ofLoose path.toText = path := by
  obtain ⟨root, names⟩ := path
  have hroot := h.root
  have htakeWhile := h.takeWhile_joinWith
  have hnames := h.filter_splitOn_joinWith
  dsimp only at hroot htakeWhile hnames
  rw [toText]
  dsimp only
  split
  · rename_i hempty
    rw [Bool.and_eq_true, List.isEmpty_iff, List.isEmpty_iff] at hempty
    rw [hempty.1, hempty.2]
    decide
  · simp only [List.mem_cons, List.not_mem_nil, or_false] at hroot
    rcases hroot with rfl | rfl | rfl <;>
      simp [ofLoose, Text.splitOn, htakeWhile, hnames, rootOf]

theorem IsNormal.toText_ne_nil (h : path.IsNormal) : path.toText ≠ [] := by
  intro hnil
  have hback := h.ofLoose_toText
  rw [hnil] at hback
  rw [← hback] at hnil
  cases hnil

end Path
end CustomProps
