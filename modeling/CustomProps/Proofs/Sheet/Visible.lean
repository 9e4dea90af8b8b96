import CustomProps.Block
import CustomProps.Proofs.Sheet.Splice

/-!
# Visible declarations

The visible declarations of a body are those that stand in no comment.  A piece that is put into a
body, or dropped from it, changes none of them when it stands between comments and closes its own,
or when all of it stands in a comment that starts a declaration.  In a comment further behind, even
blanks would change the declaration around it.

* `Sheet.visible` — the visible declarations of a body.
* `Sheet.Shows` — a body that shows what another one shows.
* `Sheet.shows_insert`, `Sheet.shows_drop` — pieces between comments.
* `Sheet.OpensAtStart` — a text that ends in a comment that starts a declaration.
-/

set_option autoImplicit false

namespace CustomProps
namespace Sheet

/-! ## Seen pieces -/

/-- The pieces of a text, trimmed; blank ones are none. -/
def seen (t : Text) : List Text :=
  ((Text.splitOn Block.separator t).map Text.trim).filter (!·.isEmpty)

/-- The declarations of a body that stand in no comment. -/
def visible (body : Text) : List Text := seen (blankComments body)

theorem visible_nil : visible [] = [] := rfl

theorem seen_append (t u : Text) : seen (t ++ Block.separator :: u) = seen t ++ seen u := by
  rw [seen, Text.splitOn_append, List.map_append, List.filter_append, seen, seen]

theorem trim_cons_of_isBlank {c : Char} (hc : Text.isBlank c = true) (t : Text) :
    Text.trim (c :: t) = Text.trim t := by
  rw [Text.trim, Text.trimLeft, List.dropWhile_cons_of_pos hc, Text.trim, Text.trimLeft]

/-- Blanks at the start are not seen. -/
theorem seen_blanks_append {blanks : Text} (hblanks : ∀ c ∈ blanks, Text.isBlank c = true)
    (t : Text) : seen (blanks ++ t) = seen t := by
  induction blanks with
  | nil => rfl
  | cons c blanks ih =>
    obtain ⟨hc, hblanks⟩ := List.forall_mem_cons.1 hblanks
    have hne : c ≠ Block.separator := by
      rintro rfl
      exact absurd hc (by decide)
    rw [← ih hblanks, List.cons_append, seen, seen, Text.splitOn, if_neg hne]
    obtain ⟨piece, pieces, h⟩ :=
      List.exists_cons_of_ne_nil (Text.splitOn_ne_nil Block.separator (blanks ++ t))
    rw [h, List.map_cons, List.map_cons, trim_cons_of_isBlank hc]

/-! ## Behind a text that leaves no comment open -/

section

variable {front : Text} (h : ¬Opens front) (t : Text)

include h

theorem blankComments_append_separator :
    blankComments (front ++ Block.separator :: t) =
      blankComments front ++ Block.separator :: blankComments t :=
  blankComments_append_char h (by decide) (by decide) t

theorem opens_append_separator : Opens (front ++ Block.separator :: t) ↔ Opens t :=
  opens_append_char h (by decide) (by decide) t

theorem visible_append_separator :
    visible (front ++ Block.separator :: t) = visible front ++ visible t := by
  rw [visible, blankComments_append_separator h, seen_append, visible, visible]

theorem braceless_append_separator :
    Braceless (blankComments (front ++ Block.separator :: t)) ↔
      Braceless (blankComments front) ∧ Braceless (blankComments t) := by
  have hopen : '{' ≠ Block.separator := by decide
  have hclose : '}' ≠ Block.separator := by decide
  rw [blankComments_append_separator h]
  simp only [Braceless, List.mem_append, List.mem_cons, hopen, hclose, false_or, not_or]
  exact and_and_and_comm

end

/-! ## Showing as much -/

/-- Whatever is visible in one body is visible in the other, which neither leaves a comment open nor
shows a brace unless the first does. -/
structure Shows (t t' : Text) : Prop where
  visible : (visible t).Sublist (visible t')
  closed : ¬Opens t → ¬Opens t'
  braceless : Braceless (blankComments t) → Braceless (blankComments t')

theorem Shows.refl (t : Text) : Shows t t := ⟨List.Sublist.refl _, id, id⟩

theorem Shows.trans {t t' t'' : Text} (h : Shows t t') (h' : Shows t' t'') : Shows t t'' :=
  ⟨h.visible.trans h'.visible, h'.closed ∘ h.closed, h'.braceless ∘ h.braceless⟩

variable {front : Text}

/-- A last semicolon may be added. -/
theorem shows_terminate (h : ¬Opens front) : Shows front (front ++ [Block.separator]) where
  visible := by
    have hvisible : visible (front ++ [Block.separator]) = visible front := by
      rw [visible_append_separator h, visible_nil, List.append_nil]
    exact hvisible ▸ List.Sublist.refl _
  closed _ := by
    rw [opens_append_separator h]
    exact not_opens_nil
  braceless hb := (braceless_append_separator h []).2 ⟨hb, ⟨by simp [blankComments_nil],
    by simp [blankComments_nil]⟩⟩

/-- An empty piece may be dropped. -/
theorem shows_drop (h : ¬Opens front) (t : Text) :
    Shows (front ++ Block.separator :: Block.separator :: t) (front ++ Block.separator :: t) := by
  have hnil : Block.separator :: t = [] ++ Block.separator :: t := rfl
  have hvisible : visible (front ++ Block.separator :: Block.separator :: t) =
      visible (front ++ Block.separator :: t) := by
    rw [visible_append_separator h, visible_append_separator h, hnil,
      visible_append_separator not_opens_nil, visible_nil, List.nil_append]
  refine ⟨?_, ?_, ?_⟩
  · exact hvisible ▸ List.Sublist.refl _
  · rw [opens_append_separator h, opens_append_separator h, hnil,
      opens_append_separator not_opens_nil]
    exact id
  · rw [braceless_append_separator h, braceless_append_separator h, hnil,
      braceless_append_separator not_opens_nil]
    exact fun hb => ⟨hb.1, hb.2.2⟩

/-- A piece may be added that closes its comments. -/
theorem shows_insert (h : ¬Opens front) {piece : Text} (hpiece : ¬Opens piece)
    (hbraces : Braceless (blankComments piece)) (t : Text) :
    Shows (front ++ Block.separator :: t)
      (front ++ Block.separator :: (piece ++ Block.separator :: t)) := by
  refine ⟨?_, ?_, ?_⟩
  · rw [visible_append_separator h, visible_append_separator h, visible_append_separator hpiece]
    exact (List.sublist_append_right _ _).append_left _
  · rw [opens_append_separator h, opens_append_separator h, opens_append_separator hpiece]
    exact id
  · rw [braceless_append_separator h, braceless_append_separator h,
      braceless_append_separator hpiece]
    exact fun hb => ⟨hb.1, hbraces, hb.2⟩

/-! ## In a comment -/

section

variable {blanks : Text} (hblanks : ∀ c ∈ blanks, Text.isBlank c = true)

include hblanks

theorem blankComments_blanks_append (t : Text) :
    blankComments (blanks ++ t) = blanks ++ blankComments t := by
  induction blanks with
  | nil => rfl
  | cons c blanks ih =>
    obtain ⟨hc, hblanks⟩ := List.forall_mem_cons.1 hblanks
    have hother : ¬StartsComment (c :: (blanks ++ t)) := by
      rintro ⟨u, hu⟩
      obtain ⟨rfl, -⟩ := List.cons.inj hu
      exact absurd hc (by decide)
    rw [List.cons_append, blankComments_other hother, ih hblanks, List.cons_append]

theorem opens_blanks_append (t : Text) : Opens (blanks ++ t) ↔ Opens t := by
  induction blanks with
  | nil => rfl
  | cons c blanks ih =>
    obtain ⟨hc, hblanks⟩ := List.forall_mem_cons.1 hblanks
    have hne : c ≠ '/' := by
      rintro rfl
      exact absurd hc (by decide)
    rw [List.cons_append, opens_cons_of_ne hne, ih hblanks]

theorem isBlank_append_replicate (n : Nat) :
    ∀ c ∈ blanks ++ List.replicate n ' ', Text.isBlank c = true := by
  intro c hc
  rcases List.mem_append.1 hc with hc | hc
  · exact hblanks c hc
  · rw [List.eq_of_mem_replicate hc]
    decide

theorem braceless_blanks_append (t : Text) : Braceless (blanks ++ t) ↔ Braceless t := by
  have hopen : '{' ∉ blanks := fun h => absurd (hblanks '{' h) (by decide)
  have hclose : '}' ∉ blanks := fun h => absurd (hblanks '}' h) (by decide)
  rw [Braceless, List.mem_append, List.mem_append, or_iff_right hopen, or_iff_right hclose,
    Braceless]

variable {inside : Text} (hinside : ¬Closes inside) (rest : Text)

include hinside

theorem blankComments_commented :
    blankComments (blanks ++ '/' :: '*' :: (inside ++ '*' :: '/' :: rest)) =
      (blanks ++ List.replicate (inside.length + 4) ' ') ++ blankComments rest := by
  rw [blankComments_blanks_append hblanks, blankComments_comment hinside, List.append_assoc]

theorem visible_commented :
    visible (blanks ++ '/' :: '*' :: (inside ++ '*' :: '/' :: rest)) = visible rest := by
  rw [visible, blankComments_commented hblanks hinside,
    seen_blanks_append (isBlank_append_replicate hblanks _), visible]

theorem opens_commented :
    Opens (blanks ++ '/' :: '*' :: (inside ++ '*' :: '/' :: rest)) ↔ Opens rest := by
  rw [opens_blanks_append hblanks, opens_comment hinside]

theorem braceless_commented :
    Braceless (blankComments (blanks ++ '/' :: '*' :: (inside ++ '*' :: '/' :: rest))) ↔
      Braceless (blankComments rest) := by
  rw [blankComments_commented hblanks hinside,
    braceless_blanks_append (isBlank_append_replicate hblanks _)]

end

/-- A comment that starts a declaration may be any other such comment. -/
theorem shows_commented (h : ¬Opens front) {blanks blanks' inside inside' : Text}
    (hblanks : ∀ c ∈ blanks, Text.isBlank c = true) (hinside : ¬Closes inside)
    (hblanks' : ∀ c ∈ blanks', Text.isBlank c = true) (hinside' : ¬Closes inside') (rest : Text) :
    Shows
      (front ++ Block.separator :: (blanks ++ '/' :: '*' :: (inside ++ '*' :: '/' :: rest)))
      (front ++ Block.separator :: (blanks' ++ '/' :: '*' :: (inside' ++ '*' :: '/' :: rest))) := by
  have hvisible : visible (front ++ Block.separator ::
      (blanks ++ '/' :: '*' :: (inside ++ '*' :: '/' :: rest))) =
      visible (front ++ Block.separator ::
        (blanks' ++ '/' :: '*' :: (inside' ++ '*' :: '/' :: rest))) := by
    rw [visible_append_separator h, visible_append_separator h, visible_commented hblanks hinside,
      visible_commented hblanks' hinside']
  refine ⟨?_, ?_, ?_⟩
  · exact hvisible ▸ List.Sublist.refl _
  · rw [opens_append_separator h, opens_append_separator h, opens_commented hblanks hinside,
      opens_commented hblanks' hinside']
    exact id
  · rw [braceless_append_separator h, braceless_append_separator h,
      braceless_commented hblanks hinside, braceless_commented hblanks' hinside']
    exact id

theorem closes_append_separator {t u : Text} :
    Closes (t ++ Block.separator :: u) ↔ Closes t ∨ Closes u := by
  have hhead : (Block.separator :: u).head? ≠ some '/' := by simp [Block.separator]
  have hne : ¬(Block.separator = '*' ∧ ∃ v, u = '/' :: v) := fun h => absurd h.1 (by decide)
  rw [closes_append hhead, closes_cons, or_iff_right hne]

/-- A comment that is open at the end of a text is closed behind it, if at all. -/
theorem exists_first_of_not_opens {blanks inside rest : Text} (hfront : ¬Opens front)
    (hblanks : ∀ c ∈ blanks, Text.isBlank c = true) (hinside : ¬Closes inside)
    (h : ¬Opens (front ++ Block.separator ::
      ((blanks ++ '/' :: '*' :: inside) ++ Block.separator :: rest))) :
    ∃ more rest', rest = more ++ '*' :: '/' :: rest' ∧ ¬Closes more := by
  refine Closes.exists_first (Classical.byContradiction fun hrest => ?_)
  have hunclosed : ¬Closes (inside ++ Block.separator :: rest) := by
    rw [closes_append_separator]
    exact not_or.2 ⟨hinside, hrest⟩
  refine h ?_
  rw [opens_append_separator hfront, List.append_assoc, opens_blanks_append hblanks]
  exact opens_unclosed hunclosed

/-- A comment that starts a declaration, but for blanks, is open at the end of the text. -/
def OpensAtStart (t : Text) : Prop :=
  ∃ before blanks inside, t = before ++ Block.separator :: (blanks ++ '/' :: '*' :: inside) ∧
    ¬Opens before ∧ (∀ c ∈ blanks, Text.isBlank c = true) ∧ ¬Closes inside

theorem OpensAtStart.shows_insert (h : OpensAtStart front) {piece : Text} (hpiece : ¬Closes piece)
    {t : Text} (hclosed : ¬Opens (front ++ Block.separator :: t)) :
    Shows (front ++ Block.separator :: t)
      (front ++ Block.separator :: (piece ++ Block.separator :: t)) := by
  obtain ⟨before, blanks, inside, rfl, hbefore, hblanks, hinside⟩ := h
  rw [List.append_assoc, List.cons_append] at hclosed ⊢
  obtain ⟨more, rest, rfl, hmore⟩ := exists_first_of_not_opens hbefore hblanks hinside hclosed
  have hshort : ¬Closes (inside ++ Block.separator :: more) := by
    rw [closes_append_separator]
    exact not_or.2 ⟨hinside, hmore⟩
  have hlong : ¬Closes (inside ++ Block.separator :: (piece ++ Block.separator :: more)) := by
    rw [closes_append_separator, closes_append_separator]
    exact not_or.2 ⟨hinside, not_or.2 ⟨hpiece, hmore⟩⟩
  have hshows := shows_commented hbefore hblanks hshort hblanks hlong rest
  simpa using hshows

theorem OpensAtStart.shows_drop (h : OpensAtStart front) {t : Text}
    (hclosed : ¬Opens (front ++ Block.separator :: Block.separator :: t)) :
    Shows (front ++ Block.separator :: Block.separator :: t) (front ++ Block.separator :: t) := by
  obtain ⟨before, blanks, inside, rfl, hbefore, hblanks, hinside⟩ := h
  have hempty : ¬Closes (inside ++ [Block.separator]) := by
    rw [closes_append_separator]
    exact not_or.2 ⟨hinside, not_closes_nil⟩
  obtain ⟨more, rest, rfl, hmore⟩ :=
    exists_first_of_not_opens hbefore hblanks hempty (by simpa using hclosed)
  have hshort : ¬Closes (inside ++ Block.separator :: more) := by
    rw [closes_append_separator]
    exact not_or.2 ⟨hinside, hmore⟩
  have hlong : ¬Closes (inside ++ Block.separator :: ([] ++ Block.separator :: more)) := by
    rw [closes_append_separator, closes_append_separator]
    exact not_or.2 ⟨hinside, not_or.2 ⟨not_closes_nil, hmore⟩⟩
  have hshows := shows_commented hbefore hblanks hlong hblanks hshort rest
  simpa using hshows

/-- Where a piece starts a comment, a piece may be added that starts one too. -/
theorem shows_insert_commented (h : ¬Opens front) {blanks inside inside' : Text}
    (hblanks : ∀ c ∈ blanks, Text.isBlank c = true)
    (hpiece : ¬Closes (blanks ++ '/' :: '*' :: inside)) (hinside' : ¬Closes inside') {t : Text}
    (hclosed : ¬Opens (front ++ Block.separator ::
      ((blanks ++ '/' :: '*' :: inside) ++ Block.separator :: t))) :
    Shows
      (front ++ Block.separator :: ((blanks ++ '/' :: '*' :: inside) ++ Block.separator :: t))
      (front ++ Block.separator :: ('/' :: '*' :: inside' ++ Block.separator ::
        ((blanks ++ '/' :: '*' :: inside) ++ Block.separator :: t))) := by
  have hinside : ¬Closes inside := fun hcloses =>
    hpiece (hcloses.trans ⟨blanks ++ ['/', '*'], [], by simp⟩)
  obtain ⟨more, rest, rfl, hmore⟩ := exists_first_of_not_opens h hblanks hinside hclosed
  have hshort : ¬Closes (inside ++ Block.separator :: more) := by
    rw [closes_append_separator]
    exact not_or.2 ⟨hinside, hmore⟩
  have hlong : ¬Closes (inside' ++ Block.separator ::
      ((blanks ++ '/' :: '*' :: inside) ++ Block.separator :: more)) := by
    rw [closes_append_separator, closes_append_separator]
    exact not_or.2 ⟨hinside', not_or.2 ⟨hpiece, hmore⟩⟩
  have hshows := shows_commented h hblanks hshort (List.forall_mem_nil _) hlong rest
  simpa using hshows

end Sheet
end CustomProps
