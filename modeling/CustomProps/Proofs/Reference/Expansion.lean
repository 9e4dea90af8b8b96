import CustomProps.Declaration
import CustomProps.Proofs.Reference.Pairing

/-!
# Expanding references by recursion

What a value looks like once its references are replaced, said by reading it from left to right and
going down into fallbacks.  Nothing here knows of positions or edits.

* `Reference.StartsAt` — a reference starts at a position of a text: `var(` stands there and is not
  the end of a longer identifier.
* `Reference.split?` — a reference at the start of a text, cut into what its parentheses enclose and
  what follows.
* `Reference.expand` — the expansion of a text.
-/

set_option autoImplicit false

namespace CustomProps
namespace Reference

/-! ## Where references start -/

/-- A reference starts at position `i`: there stands `var(`, and no character of an identifier in
front of it. -/
def StartsAt (t : Text) (i : Nat) : Prop :=
  Declaration.referenceOpening.isPrefixOf (t.drop i) = true ∧ afterIdent t i = false

instance (t : Text) (i : Nat) : Decidable (StartsAt t i) := inferInstanceAs (Decidable (_ ∧ _))

theorem afterIdent_append_length (x y : Text) :
    afterIdent (x ++ y) x.length = x.getLast?.any Text.isIdent := by
  rcases List.eq_nil_or_concat x with rfl | ⟨x, c, rfl⟩
  · rfl
  · rw [List.concat_eq_append, List.length_append, List.length_singleton, List.getLast?_concat]
    show ((x ++ [c] ++ y)[x.length]?).any Text.isIdent = _
    rw [List.append_assoc, List.getElem?_append_right (Nat.le_refl _), Nat.sub_self]
    rfl

/-- A keyword with its parenthesis starts a reference unless an identifier goes on into it. -/
theorem startsAt_append_length (x y : Text) :
    StartsAt (x ++ (Declaration.referenceOpening ++ y)) x.length ↔
      x.getLast?.any Text.isIdent = false := by
  rw [StartsAt, afterIdent_append_length, List.drop_left]
  exact and_iff_right (List.isPrefixOf_iff_prefix.2 (List.prefix_append _ _))

/-- A reference starts somewhere in the text. -/
def Mentioned (t : Text) : Prop := ∃ i, StartsAt t i

theorem StartsAt.lt_length {t : Text} {i : Nat} (h : StartsAt t i) : i + 3 < t.length := by
  have hlen := (List.isPrefixOf_iff_prefix.1 h.1).length_le
  rw [List.length_drop] at hlen
  have h4 : Declaration.referenceOpening.length = 4 := rfl
  omega

theorem mentioned_iff_exists_lt {t : Text} : Mentioned t ↔ ∃ i, i < t.length ∧ StartsAt t i := by
  constructor
  · rintro ⟨i, hi⟩
    have := hi.lt_length
    exact ⟨i, by omega, hi⟩
  · rintro ⟨i, -, hi⟩
    exact ⟨i, hi⟩

instance (t : Text) : Decidable (Mentioned t) :=
  decidable_of_iff (∃ i, i < t.length ∧ StartsAt t i) mentioned_iff_exists_lt.symm

/-! ## Taking a reference apart -/

/-- A reference at the start of a text: what its parentheses enclose, and what follows.  `before` is
the character in front of the text, if there is one. -/
def split? (before : Option Char) : Text → Option (Text × Text)
  | 'v' :: 'a' :: 'r' :: '(' :: cs =>
    if before.any Text.isIdent then none
    else (Text.closing? 0 cs).map fun k => (cs.take k, cs.drop (k + 1))
  | _ => none

/-- The name, up to the first comma. -/
def namePart (inside : Text) : Text := inside.takeWhile (· != ',')

/-- The fallback behind the first comma, if there is a comma. -/
def fallbackPart? (inside : Text) : Option Text := (inside.dropWhile (· != ',')).tail?

/-- The trimmed answer for the name; none when the name is blank, or the answer is. -/
def answer? (lookup : Lookup) (inside : Text) : Option Text :=
  if Text.trim (namePart inside) = [] then none
  else (lookup (Text.trim (namePart inside))).bind Text.nonBlank?

theorem length_split? {before : Option Char} {t inside rest : Text}
    (h : split? before t = some (inside, rest)) : inside.length + rest.length < t.length := by
  unfold split? at h
  split at h
  · split at h
    · cases h
    · obtain ⟨k, -, hk⟩ := Option.map_eq_some_iff.1 h
      obtain ⟨rfl, rfl⟩ := Prod.mk.inj hk
      simp only [List.length_take, List.length_drop, List.length_cons]
      omega
  · cases h

theorem length_fallbackPart? {inside fallback : Text} (h : fallbackPart? inside = some fallback) :
    fallback.length < inside.length := by
  have hsuffix := (List.dropWhile_suffix (l := inside) (· != ',')).length_le
  cases hd : inside.dropWhile (· != ',') with
  | nil => simp [fallbackPart?, hd] at h
  | cons c cs =>
    rw [hd, List.length_cons] at hsuffix
    rw [fallbackPart?, hd, List.tail?_cons, Option.some.injEq] at h
    subst h
    omega

/-! ## Expansion -/

/-- The text with its references replaced, by the answer for their name or else by the expansion of
their fallback.  `before` is the character in front of the text, if there is one. -/
def expand (lookup : Lookup) (before : Option Char) : (t : Text) → Text
  | [] => []
  | c :: cs =>
    match _h : split? before (c :: cs) with
    | none => c :: expand lookup (some c) cs
    | some (inside, rest) =>
      let replacement :=
        match answer? lookup inside with
        | some answer => answer
        | none =>
          match _hf : fallbackPart? inside with
          | some fallback => expand lookup none (Text.trimLeft fallback)
          | none => []
      replacement ++ expand lookup (some ')') rest
termination_by t => t.length
decreasing_by
  · simp
  · have hlen := length_split? _h
    have hfallback := length_fallbackPart? _hf
    have htrim := (List.dropWhile_suffix (l := fallback) Text.isBlank).length_le
    simp only [Text.trimLeft]
    omega
  · have hlen := length_split? _h
    omega

end Reference
end CustomProps
