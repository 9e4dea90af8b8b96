import CustomProps.Block
import CustomProps.Proofs.Sheet.Visible

/-!
# Cutting a body into pieces

Transforming a body cuts it at every semicolon, also at those in comments.  So a visible declaration
can be lost, when a cut lies in a comment that stands in front of it or in it.

* `Sheet.chain`, `Sheet.transformed` — the pieces of a body, and what becomes of them.
* `Sheet.IsHarmless` — where the cuts do no harm: a piece that is dropped, and a fallback that is
  put in front of its piece, stand between comments or in one that starts a declaration.
* `Sheet.shows_transform` — then all that was visible is visible again.
-/

set_option autoImplicit false

namespace CustomProps
namespace Sheet

/-! ## Pieces -/

/-- The pieces, each behind a semicolon. -/
def chain (pieces : List Text) : Text := pieces.flatMap (Block.separator :: ·)

theorem chain_append (ps qs : List Text) : chain (ps ++ qs) = chain ps ++ chain qs :=
  List.flatMap_append

theorem chain_cons (p : Text) (ps : List Text) :
    chain (p :: ps) = Block.separator :: (p ++ chain ps) := by
  rw [chain, List.flatMap_cons, List.cons_append, chain]

theorem chain_eq_joinWith {ps : List Text} (h : ps ≠ []) :
    chain ps = Block.separator :: Text.joinWith Block.separator ps := by
  induction ps with
  | nil => exact absurd rfl h
  | cons p ps ih =>
    rw [chain_cons]
    cases ps with
    | nil =>
      rw [Text.joinWith]
      exact congrArg _ (List.append_nil p)
    | cons q qs => rw [ih (by simp), Text.joinWith]

theorem chain_splitOn (t : Text) :
    chain (Text.splitOn Block.separator t) = Block.separator :: t := by
  rw [chain_eq_joinWith (Text.splitOn_ne_nil _ t), Text.joinWith_splitOn]

theorem cons_render (ds : List Text) :
    Block.separator :: Block.render ds = chain ds ++ [Block.separator] := by
  induction ds with
  | nil => rfl
  | cons d ds ih =>
    rw [chain_cons, List.cons_append, List.append_assoc, ← ih]
    simp [Block.render]

/-- What becomes of the pieces of a body. -/
def transformed (lookup : Lookup) (pieces : List Text) : Text :=
  chain ((pieces.filter (!·.isEmpty)).flatMap (Block.withFallback lookup)) ++ [Block.separator]

theorem transformed_nil_cons (lookup : Lookup) (qs : List Text) :
    transformed lookup ([] :: qs) = transformed lookup qs := rfl

theorem transformed_cons {q : Text} (hq : q ≠ []) (lookup : Lookup) (qs : List Text) :
    transformed lookup (q :: qs) =
      chain (Block.withFallback lookup q) ++ transformed lookup qs := by
  have hfilter : (q :: qs).filter (!·.isEmpty) = q :: qs.filter (!·.isEmpty) :=
    List.filter_cons_of_pos (by simp [hq])
  rw [transformed, hfilter, List.flatMap_cons, chain_append, List.append_assoc, transformed]

theorem exists_transformed_eq (lookup : Lookup) (qs : List Text) :
    ∃ t, transformed lookup qs = Block.separator :: t := by
  rw [transformed, ← cons_render]
  exact ⟨_, rfl⟩

/-! ## Harmless cuts -/

/-- The piece behind `front` starts in a comment that starts a declaration: one that is open there,
or one that it opens itself. -/
def StartsInComment (front piece : Text) : Prop :=
  OpensAtStart front ∨ ¬Opens front ∧ ¬Closes piece ∧ ∃ blanks inside,
    piece = blanks ++ '/' :: '*' :: inside ∧ ∀ c ∈ blanks, Text.isBlank c = true

/-- What happens to the piece behind `front` does no harm.  If it is dropped, no comment is open
there but one that starts a declaration.  A fallback stands between comments, closes its own and
shows no brace, or all of it stands in a comment that starts a declaration. -/
structure HarmlessBehind (lookup : Lookup) (front piece : Text) : Prop where
  dropped : piece = [] → ¬Opens front ∨ OpensAtStart front
  fallback : ∀ text, Declaration.fallback? piece lookup = some text →
    ¬Opens front ∧ ¬Opens text ∧ Braceless (blankComments text) ∨
      StartsInComment front piece ∧ ¬Closes text

/-- What happens to the pieces of a body does no harm. -/
def IsHarmless (lookup : Lookup) (body : Text) : Prop :=
  ∀ ps piece qs, Text.splitOn Block.separator body = ps ++ piece :: qs →
    HarmlessBehind lookup (chain ps) piece

theorem trimRight_cons {c : Char} (hc : Text.isBlank c = false) (t : Text) :
    Text.trimRight (c :: t) = c :: Text.trimRight t := by
  rw [Text.trimRight, Text.trimRight, List.reverse_cons, List.dropWhile_append]
  split
  · rename_i hempty
    rw [List.dropWhile_cons_of_neg (by simp [hc]), List.isEmpty_iff.1 hempty]
    rfl
  · simp

/-- The fallback of a piece that starts a comment starts one. -/
theorem exists_fallback?_eq {lookup : Lookup} {blanks inside text : Text}
    (hblanks : ∀ c ∈ blanks, Text.isBlank c = true)
    (h : Declaration.fallback? (blanks ++ '/' :: '*' :: inside) lookup = some text) :
    ∃ inside', text = '/' :: '*' :: inside' := by
  have hcolon : ∀ c ∈ blanks, (c != ':') = true := by
    intro c hc
    rw [bne_iff_ne]
    rintro rfl
    exact absurd (hblanks ':' hc) (by decide)
  have hproperty : Declaration.property (blanks ++ '/' :: '*' :: inside) =
      '/' :: '*' :: Text.trimRight (inside.takeWhile (· != ':')) := by
    rw [Declaration.property, Declaration.split, List.takeWhile_append_of_pos hcolon,
      List.takeWhile_cons_of_pos (by decide), List.takeWhile_cons_of_pos (by decide), Text.trim,
      Text.trimLeft, List.dropWhile_append_of_pos hblanks, List.dropWhile_cons_of_neg (by decide),
      trimRight_cons (by decide), trimRight_cons (by decide)]
  rw [Declaration.fallback?] at h
  split at h
  · obtain ⟨value, -, rfl⟩ := Option.map_eq_some_iff.1 h
    rw [hproperty]
    exact ⟨_, rfl⟩
  · cases h

variable {lookup : Lookup} {front piece : Text}

theorem HarmlessBehind.shows_drop (h : HarmlessBehind lookup front []) {t : Text}
    (hclosed : ¬Opens (front ++ Block.separator :: Block.separator :: t)) :
    Shows (front ++ Block.separator :: Block.separator :: t) (front ++ Block.separator :: t) := by
  rcases h.dropped rfl with hfront | hfront
  · exact Sheet.shows_drop hfront t
  · exact hfront.shows_drop hclosed

theorem HarmlessBehind.shows_insert (h : HarmlessBehind lookup front piece) {text t : Text}
    (htext : Declaration.fallback? piece lookup = some text)
    (hclosed : ¬Opens (front ++ Block.separator :: (piece ++ Block.separator :: t))) :
    Shows (front ++ Block.separator :: (piece ++ Block.separator :: t))
      (front ++ Block.separator ::
        (text ++ Block.separator :: (piece ++ Block.separator :: t))) := by
  obtain ⟨hfront, hopens, hbraces⟩ |
    ⟨hfront | ⟨hfront, hpiece, blanks, inside, rfl, hblanks⟩, hcloses⟩ := h.fallback text htext
  · exact Sheet.shows_insert hfront hopens hbraces _
  · exact hfront.shows_insert hcloses hclosed
  · obtain ⟨inside', rfl⟩ := exists_fallback?_eq hblanks htext
    have hinside' : ¬Closes inside' := fun hinside' =>
      hcloses (hinside'.trans ⟨['/', '*'], [], by simp⟩)
    exact shows_insert_commented hfront hblanks hpiece hinside' hclosed

/-- The transformed pieces of the rest of a body show, behind what stands in front, what the pieces
themselves show. -/
theorem shows_transformed {ps qs : List Text} (hclosed : ¬Opens (chain (ps ++ qs)))
    (h : ∀ xs piece ys, qs = xs ++ piece :: ys →
      HarmlessBehind lookup (chain (ps ++ xs)) piece) :
    Shows (chain (ps ++ qs)) (chain ps ++ transformed lookup qs) := by
  induction qs generalizing ps with
  | nil =>
    rw [List.append_nil] at hclosed ⊢
    exact shows_terminate hclosed
  | cons q qs ih =>
    have hharmless := h [] q qs rfl
    rw [List.append_nil] at hharmless
    have hassoc : ps ++ q :: qs = (ps ++ [q]) ++ qs := by simp
    obtain ⟨t, ht⟩ := exists_transformed_eq lookup qs
    have hfront : chain (ps ++ [q]) ++ transformed lookup qs =
        chain ps ++ Block.separator :: (q ++ Block.separator :: t) := by
      rw [chain_append, chain_cons, ht]
      simp [chain]
    -- What stands behind the piece is transformed first, so that only this piece is left.
    have hrest : Shows (chain (ps ++ q :: qs))
        (chain ps ++ Block.separator :: (q ++ Block.separator :: t)) := by
      rw [← hfront, hassoc]
      refine ih (by rwa [← hassoc]) fun xs piece ys hqs => ?_
      have hpiece := h (q :: xs) piece ys (by rw [hqs, List.cons_append])
      rwa [show ps ++ q :: xs = ps ++ [q] ++ xs by simp] at hpiece
    have hbehind := hrest.closed hclosed
    refine hrest.trans ?_
    by_cases hq : q = []
    · subst hq
      rw [transformed_nil_cons, ht]
      exact hharmless.shows_drop hbehind
    · rw [transformed_cons hq, ht]
      cases hfallback : Declaration.fallback? q lookup with
      | none =>
        have heq : Block.withFallback lookup q = [q] := by
          rw [Block.withFallback, hfallback]
          rfl
        rw [heq, chain_cons]
        simp only [chain, List.flatMap_nil, List.append_nil]
        exact Shows.refl _
      | some text =>
        have heq : Block.withFallback lookup q = [text, q] := by
          rw [Block.withFallback, hfallback]
          rfl
        have hinsert := hharmless.shows_insert hfallback hbehind
        rw [heq, chain_cons, chain_cons]
        simpa [chain] using hinsert

/-- A semicolon in front changes nothing. -/
theorem shows_of_cons_separator {t t' : Text}
    (h : Shows (Block.separator :: t) (Block.separator :: t')) : Shows t t' := by
  have hopens : ∀ u, Opens (Block.separator :: u) ↔ Opens u :=
    opens_append_separator not_opens_nil
  have hvisible : ∀ u, visible (Block.separator :: u) = visible u :=
    visible_append_separator not_opens_nil
  have hbraceless : ∀ u, Braceless (blankComments (Block.separator :: u)) ↔
      Braceless (blankComments u) := fun u =>
    (braceless_append_separator not_opens_nil u).trans
      (and_iff_right ⟨by simp [blankComments_nil], by simp [blankComments_nil]⟩)
  obtain ⟨hsublist, hclosed, hbraces⟩ := h
  rw [hvisible, hvisible] at hsublist
  rw [hopens, hopens] at hclosed
  rw [hbraceless, hbraceless] at hbraces
  exact ⟨hsublist, hclosed, hbraces⟩

/-- **Where the cuts are harmless, all that was visible is visible again.** -/
theorem shows_transform {body new : Text} (hclosed : ¬Opens body)
    (hharmless : IsHarmless lookup body) (h : Block.transform body lookup = some new) :
    Shows body new := by
  have hpieces : chain ([] ++ Text.splitOn Block.separator body) = Block.separator :: body := by
    rw [List.nil_append, chain_splitOn]
  have hnew : chain [] ++ transformed lookup (Text.splitOn Block.separator body) =
      Block.separator :: new := by
    rw [Block.transform] at h
    split at h
    · rw [← Option.some.inj h, cons_render]
      rfl
    · cases h
  have hopen : ¬Opens (chain ([] ++ Text.splitOn Block.separator body)) := by
    rwa [hpieces, opens_cons_of_ne (by decide : Block.separator ≠ '/')]
  have hshows : Shows (chain ([] ++ Text.splitOn Block.separator body))
      (chain [] ++ transformed lookup (Text.splitOn Block.separator body)) :=
    shows_transformed hopen hharmless
  rw [hpieces, hnew] at hshows
  exact shows_of_cons_separator hshows

end Sheet
end CustomProps
