import CustomProps.Proofs.Sheet.Innermost

/-!
# The comments of a text, by their positions

Comments are found from left to right, so whether a mark counts depends on all that stands in front
of it.  This file lists them by positions instead, without a scan: every opening mark that is closed
later belongs to a comment, and comments do not overlap.  There is one such list, and blanking
changes what lies in it and nothing else.

* `Sheet.ListsComments` — what it means for a list to be that of the comments of a text.
* `Sheet.ListsComments.eq` — there is no more than one such list.
* `Sheet.exists_listsComments` — there is one, and blanking follows it.
* `Sheet.blankComments_blankComments` — blanking leaves no comment.
* `Sheet.blankComments_body` — the body of a rule is blanked on its own as it is within the sheet.
* `Sheet.blankComments_local` — all of this at once.
-/

set_option autoImplicit false

namespace CustomProps
namespace Sheet

/-! ## Lists of comments -/

/-- An opening mark stands at the position. -/
def OpensAt (t : Text) (i : Nat) : Prop := t[i]? = some '/' ∧ t[i + 1]? = some '*'

/-- A closing mark stands at the position. -/
def ClosesAt (t : Text) (i : Nat) : Prop := t[i]? = some '*' ∧ t[i + 1]? = some '/'

/-- A comment, by the positions of its two marks. -/
structure Comment where
  /-- The position of the opening mark. -/
  start : Nat
  /-- The position of the closing mark. -/
  closing : Nat

namespace Comment

/-- The position behind the comment. -/
def stop (c : Comment) : Nat := c.closing + 2

/-- The position lies in the comment, its marks included. -/
def Holds (c : Comment) (i : Nat) : Prop := c.start ≤ i ∧ i < c.stop

instance (c : Comment) (i : Nat) : Decidable (c.Holds i) := inferInstanceAs (Decidable (_ ∧ _))

/-- The same comment in a text that has `n` more characters in front. -/
def shift (n : Nat) (c : Comment) : Comment := ⟨n + c.start, n + c.closing⟩

/-- The marks stand in the text, the closing one is the first that starts at least two characters
behind the opening one. -/
structure IsWritten (t : Text) (c : Comment) : Prop where
  opens : OpensAt t c.start
  le_closing : c.start + 2 ≤ c.closing
  closes : ClosesAt t c.closing
  first : ∀ i, c.start + 2 ≤ i → i < c.closing → ¬ClosesAt t i

end Comment

/-- The comments of a text, in order: none overlaps another, and an opening mark that is closed
later starts one or stands in one. -/
structure ListsComments (t : Text) (comments : List Comment) : Prop where
  written : ∀ c ∈ comments, c.IsWritten t
  ascending : comments.Pairwise fun c d => c.stop ≤ d.start
  complete : ∀ i j, OpensAt t i → i + 2 ≤ j → ClosesAt t j → ∃ c ∈ comments, c.Holds i

variable {t front rest : Text} {comments comments' lead : List Comment} {i j : Nat}

theorem closes_iff_exists_closesAt : Closes t ↔ ∃ i, ClosesAt t i := by
  rw [Closes, List.infix_iff_getElem?]
  constructor
  · rintro ⟨k, -, h⟩
    refine ⟨k, ?_, ?_⟩
    · simpa using h 0 (by decide)
    · simpa [Nat.add_comm] using h 1 (by decide)
  · rintro ⟨k, hstar, hslash⟩
    have hlt := (List.getElem?_eq_some_iff.1 hslash).1
    refine ⟨k, by simp only [List.length_cons, List.length_nil]; omega, fun i hi => ?_⟩
    have hmark : i < 2 := hi
    obtain rfl | rfl : i = 0 ∨ i = 1 := by omega
    · simpa using hstar
    · simpa [Nat.add_comm] using hslash

theorem getElem?_append_add (front rest : Text) (i : Nat) :
    (front ++ rest)[front.length + i]? = rest[i]? := by
  rw [List.getElem?_append_right (Nat.le_add_right _ _), Nat.add_sub_cancel_left]

theorem opensAt_append : OpensAt (front ++ rest) (front.length + i) ↔ OpensAt rest i := by
  rw [OpensAt, OpensAt, Nat.add_assoc, getElem?_append_add, getElem?_append_add]

theorem closesAt_append : ClosesAt (front ++ rest) (front.length + i) ↔ ClosesAt rest i := by
  rw [ClosesAt, ClosesAt, Nat.add_assoc, getElem?_append_add, getElem?_append_add]

namespace Comment

variable {c d : Comment}

theorem holds_shift {n : Nat} : (c.shift n).Holds (n + i) ↔ c.Holds i := by
  simp only [Holds, stop, shift]
  omega

theorem not_holds_shift {n : Nat} (hi : i < n) : ¬(c.shift n).Holds i := by
  simp only [Holds, stop, shift]
  omega

theorem IsWritten.shift (h : c.IsWritten rest) (front : Text) :
    (c.shift front.length).IsWritten (front ++ rest) where
  opens := opensAt_append.2 h.opens
  le_closing := by
    have := h.le_closing
    simp only [Comment.shift]
    omega
  closes := closesAt_append.2 h.closes
  first i hle hlt := by
    simp only [Comment.shift] at hle hlt
    obtain ⟨k, rfl⟩ := Nat.exists_eq_add_of_le (show front.length ≤ i by omega)
    exact mt closesAt_append.1 (h.first k (by omega) (by omega))

theorem IsWritten.start_lt_stop (h : c.IsWritten t) : c.start < c.stop := by
  have := h.le_closing
  simp only [stop]
  omega

/-- A comment is known by where it starts. -/
theorem IsWritten.eq (hc : c.IsWritten t) (hd : d.IsWritten t) (h : c.start = d.start) :
    c = d := by
  have hclosing : c.closing = d.closing := by
    rcases Nat.lt_trichotomy c.closing d.closing with hlt | heq | hlt
    · exact absurd hc.closes (hd.first _ (h ▸ hc.le_closing) hlt)
    · exact heq
    · exact absurd hd.closes (hc.first _ (h ▸ hd.le_closing) hlt)
  cases c
  cases d
  cases h
  cases hclosing
  rfl

end Comment

/-! ## One list -/

theorem ListsComments.stop_le (h : ListsComments t comments) {c d : Comment} (hc : c ∈ comments)
    (hd : d ∈ comments) (hlt : c.start < d.start) : c.stop ≤ d.start := by
  have hinOrder : comments.Pairwise fun c d => c.start < d.start → c.stop ≤ d.start := by
    refine h.ascending.imp ?_
    intro c d hcd _
    exact hcd
  refine hinOrder.forall_of_forall_of_flip (fun c _ hlt => absurd hlt (Nat.lt_irrefl _)) ?_
    hc hd hlt
  refine h.ascending.imp_of_mem fun hc _ hcd hlt => ?_
  exact absurd hlt (Nat.not_lt.2 ((h.written _ hc).start_lt_stop.le.trans hcd))

/-- By induction on where a comment starts: it is in any list of the comments.  Otherwise it would
start within an earlier comment of the other list, which is in both. -/
theorem ListsComments.mem (h : ListsComments t comments) (h' : ListsComments t comments')
    {c : Comment} (hc : c ∈ comments) : c ∈ comments' := by
  induction hn : c.start using Nat.strongRecOn generalizing comments comments' c with
  | ind n ih =>
    subst hn
    have hwritten := h.written c hc
    obtain ⟨d, hd, hle, hlt⟩ :=
      h'.complete c.start c.closing hwritten.opens hwritten.le_closing hwritten.closes
    rcases Nat.lt_or_eq_of_le hle with hstart | hstart
    · have hstop := h.stop_le (ih d.start hstart h' h hd rfl) hc hstart
      exact absurd hlt (Nat.not_lt.2 hstop)
    · rwa [← (h'.written d hd).eq hwritten hstart]

/-- **A text lists its comments in one way only.** -/
theorem ListsComments.eq (h : ListsComments t comments) (h' : ListsComments t comments') :
    comments = comments' := by
  have hascending : ∀ {cs : List Comment}, ListsComments t cs →
      cs.Pairwise fun c d => c.start < d.start := fun hcs =>
    hcs.ascending.imp_of_mem fun hc _ hcd =>
      Nat.lt_of_lt_of_le (hcs.written _ hc).start_lt_stop hcd
  have hirrefl : Std.Irrefl fun c d : Comment => c.start < d.start :=
    ⟨fun c => Nat.lt_irrefl c.start⟩
  have hantisymm : Std.Antisymm fun c d : Comment => c.start < d.start :=
    ⟨fun _ _ hcd hdc => absurd hcd (Nat.lt_asymm hdc)⟩
  exact (hascending h).eq_of_mem_iff (hascending h') fun c => ⟨h.mem h', h'.mem h⟩

/-! ## What blanking changes -/

/-- The text is blanked where the comments are, and nowhere else. -/
def BlankedBy (comments : List Comment) (t blanked : Text) : Prop :=
  ∀ i, blanked[i]? = if ∃ c ∈ comments, c.Holds i then some ' ' else t[i]?

theorem exists_holds_append_iff (hstop : ∀ c ∈ lead, c.stop ≤ front.length) :
    (∃ c ∈ lead ++ comments.map (·.shift front.length), c.Holds (front.length + i)) ↔
      ∃ c ∈ comments, c.Holds i := by
  constructor
  · rintro ⟨c, hc, hholds⟩
    rcases List.mem_append.1 hc with hc | hc
    · have := hstop c hc
      have := hholds.2
      omega
    · obtain ⟨d, hd, rfl⟩ := List.mem_map.1 hc
      exact ⟨d, hd, Comment.holds_shift.1 hholds⟩
  · rintro ⟨c, hc, hholds⟩
    exact ⟨_, List.mem_append_right lead (List.mem_map_of_mem hc), Comment.holds_shift.2 hholds⟩

theorem exists_holds_append_iff_of_lt (hi : i < front.length) :
    (∃ c ∈ lead ++ comments.map (·.shift front.length), c.Holds i) ↔ ∃ c ∈ lead, c.Holds i := by
  constructor
  · rintro ⟨c, hc, hholds⟩
    rcases List.mem_append.1 hc with hc | hc
    · exact ⟨c, hc, hholds⟩
    · obtain ⟨d, -, rfl⟩ := List.mem_map.1 hc
      exact absurd hholds (Comment.not_holds_shift hi)
  · rintro ⟨c, hc, hholds⟩
    exact ⟨c, List.mem_append_left _ hc, hholds⟩

/-- The comments of a text put together, if those of its front part end there and nothing else is
opened there. -/
theorem ListsComments.append (hwritten : ∀ c ∈ lead, c.IsWritten (front ++ rest))
    (hascending : lead.Pairwise fun c d => c.stop ≤ d.start)
    (hstop : ∀ c ∈ lead, c.stop ≤ front.length)
    (hcomplete : ∀ i, i < front.length → OpensAt (front ++ rest) i → ∃ c ∈ lead, c.Holds i)
    (h : ListsComments rest comments) :
    ListsComments (front ++ rest) (lead ++ comments.map (·.shift front.length)) where
  written c hc := by
    rcases List.mem_append.1 hc with hc | hc
    · exact hwritten c hc
    · obtain ⟨d, hd, rfl⟩ := List.mem_map.1 hc
      exact (h.written d hd).shift front
  ascending := by
    refine List.pairwise_append.2 ⟨hascending, List.pairwise_map.2 ?_, fun c hc d hd => ?_⟩
    · refine h.ascending.imp fun hcd => ?_
      simp only [Comment.stop, Comment.shift] at hcd ⊢
      omega
    · obtain ⟨e, -, rfl⟩ := List.mem_map.1 hd
      exact Nat.le_trans (hstop c hc) (Nat.le_add_right _ _)
  complete i j hopens hij hcloses := by
    rcases Nat.lt_or_ge i front.length with hi | hi
    · exact (exists_holds_append_iff_of_lt hi).2 (hcomplete i hi hopens)
    · obtain ⟨k, rfl⟩ := Nat.exists_eq_add_of_le hi
      obtain ⟨m, rfl⟩ := Nat.exists_eq_add_of_le (show front.length ≤ j by omega)
      rw [exists_holds_append_iff hstop]
      exact h.complete k m (opensAt_append.1 hopens) (by omega) (closesAt_append.1 hcloses)

theorem BlankedBy.append {blankedFront blankedRest : Text}
    (hlength : blankedFront.length = front.length) (hstop : ∀ c ∈ lead, c.stop ≤ front.length)
    (hfront : BlankedBy lead front blankedFront) (hrest : BlankedBy comments rest blankedRest) :
    BlankedBy (lead ++ comments.map (·.shift front.length)) (front ++ rest)
      (blankedFront ++ blankedRest) := by
  intro i
  rcases Nat.lt_or_ge i front.length with hi | hi
  · rw [List.getElem?_append_left (hlength ▸ hi), List.getElem?_append_left hi, hfront i]
    simp only [exists_holds_append_iff_of_lt hi]
  · obtain ⟨k, rfl⟩ := Nat.exists_eq_add_of_le hi
    have hblanked := getElem?_append_add blankedFront blankedRest k
    rw [hlength] at hblanked
    simp only [hblanked, getElem?_append_add, exists_holds_append_iff hstop]
    exact hrest k

theorem blankedBy_nil (t : Text) : BlankedBy [] t t := by
  intro i
  rw [if_neg]
  rintro ⟨c, hc, -⟩
  cases hc

/-- A comment at the start of a text. -/
theorem isWritten_comment {inside : Text} (h : ¬Closes inside) (rest : Text) :
    Comment.IsWritten (['/', '*'] ++ (inside ++ (['*', '/'] ++ rest))) ⟨0, inside.length + 2⟩ where
  opens := ⟨rfl, rfl⟩
  le_closing := Nat.le_add_left _ _
  closes := by
    show ClosesAt (['/', '*'] ++ (inside ++ (['*', '/'] ++ rest))) (inside.length + 2)
    rw [Nat.add_comm, show 2 = (['/', '*'] : Text).length from rfl, closesAt_append,
      ← Nat.add_zero inside.length, closesAt_append]
    exact ⟨rfl, rfl⟩
  first i hle hlt hcloses := by
    obtain ⟨k, rfl⟩ := Nat.exists_eq_add_of_le hle
    rw [Nat.zero_add, show 2 = (['/', '*'] : Text).length from rfl, closesAt_append] at hcloses
    obtain ⟨hstar, hslash⟩ := hcloses
    dsimp only at hlt
    rw [List.getElem?_append_left (by omega)] at hstar
    rcases Nat.lt_or_ge (k + 1) inside.length with hk | hk
    · rw [List.getElem?_append_left hk] at hslash
      exact h (closes_iff_exists_closesAt.2 ⟨k, hstar, hslash⟩)
    · -- what stands right behind the inside is the star of the closing mark
      rw [List.getElem?_append_right hk, show k + 1 - inside.length = 0 by omega] at hslash
      cases hslash

theorem blankedBy_comment (inside : Text) :
    BlankedBy [⟨0, inside.length + 2⟩] (['/', '*'] ++ (inside ++ ['*', '/']))
      (List.replicate (inside.length + 4) ' ') := by
  intro i
  have hlength : (['/', '*'] ++ (inside ++ ['*', '/'])).length = inside.length + 4 := by
    simp only [List.length_append, List.length_cons, List.length_nil]
    omega
  have hholds : (∃ c ∈ [(⟨0, inside.length + 2⟩ : Comment)], c.Holds i) ↔
      i < inside.length + 4 := by
    simp only [List.mem_singleton, exists_eq_left, Comment.Holds, Comment.stop]
    omega
  simp only [List.getElem?_replicate, hholds]
  split
  · rfl
  · exact (List.getElem?_eq_none (by omega)).symm

/-- **Every text has a list of its comments, and blanking follows it.** -/
theorem exists_listsComments (t : Text) :
    ∃ comments, ListsComments t comments ∧ BlankedBy comments t (blankComments t) := by
  induction t using comment_induction with
  | nil =>
    refine ⟨[], ⟨nofun, .nil, fun i j hopens => ?_⟩, blankedBy_nil []⟩
    cases hopens.1
  | comment inside rest hinside ih =>
    obtain ⟨comments, hlists, hblanked⟩ := ih
    have hsplit : '/' :: '*' :: (inside ++ '*' :: '/' :: rest) =
        (['/', '*'] ++ (inside ++ ['*', '/'])) ++ rest := by
      simp
    have hlength : (['/', '*'] ++ (inside ++ ['*', '/'])).length = inside.length + 4 := by
      simp only [List.length_append, List.length_cons, List.length_nil]
      omega
    have hstop : ∀ c ∈ [(⟨0, inside.length + 2⟩ : Comment)],
        c.stop ≤ (['/', '*'] ++ (inside ++ ['*', '/'])).length := by
      intro c hc
      rw [List.mem_singleton.1 hc, hlength]
      exact Nat.le_refl _
    rw [blankComments_comment hinside, hsplit]
    refine ⟨_, .append (fun c hc => ?_) (List.pairwise_singleton _ _) hstop (fun i hi _ => ?_)
      hlists, .append (by rw [List.length_replicate, hlength]) hstop (blankedBy_comment inside)
      hblanked⟩
    · rw [List.mem_singleton.1 hc, List.append_assoc, List.append_assoc]
      exact isWritten_comment hinside rest
    · exact ⟨_, List.mem_singleton_self _, Nat.zero_le i, by rwa [hlength] at hi⟩
  | unclosed rest hrest =>
    refine ⟨[], ⟨nofun, .nil, fun i j _ hij hcloses => ?_⟩, ?_⟩
    · obtain ⟨k, rfl⟩ := Nat.exists_eq_add_of_le (show 2 ≤ j by omega)
      have hbehind : ClosesAt (['/', '*'] ++ rest) ((['/', '*'] : Text).length + k) := hcloses
      exact absurd (closes_iff_exists_closesAt.2 ⟨k, closesAt_append.1 hbehind⟩) hrest
    · rw [blankComments_unclosed hrest]
      exact blankedBy_nil _
  | other c rest hother ih =>
    obtain ⟨comments, hlists, hblanked⟩ := ih
    rw [blankComments_other hother]
    show ∃ comments, ListsComments ([c] ++ rest) comments ∧
      BlankedBy comments ([c] ++ rest) ([c] ++ blankComments rest)
    refine ⟨[] ++ comments.map (·.shift [c].length), .append nofun .nil nofun
      (fun i hi hopens => ?_) hlists, .append rfl nofun (blankedBy_nil [c]) hblanked⟩
    obtain rfl : i = 0 := Nat.lt_one_iff.1 hi
    obtain ⟨hslash, hstar⟩ := hopens
    cases rest with
    | nil => cases hstar
    | cons d rest =>
      obtain rfl : c = '/' := Option.some.inj hslash
      obtain rfl : d = '*' := Option.some.inj hstar
      exact absurd ⟨rest, rfl⟩ hother

/-- One slash does not both open and close a comment, and a mark that is never closed stays. -/
example : blankComments "a/*/b*/c/*d".toList = "a      c/*d".toList := by decide

/-! ## Blanking once more -/

theorem blankComments_replicate_append (n : Nat) (t : Text) :
    blankComments (List.replicate n ' ' ++ t) = List.replicate n ' ' ++ blankComments t := by
  induction n with
  | zero => rfl
  | succ n ih =>
    have hother : ¬StartsComment (' ' :: (List.replicate n ' ' ++ t)) := by
      rintro ⟨u, hu⟩
      cases hu
    rw [List.replicate_succ, List.cons_append, blankComments_other hother, ih, List.cons_append]

/-- **Blanking leaves no comment.**  The spaces keep apart what stands around them, so no new mark
comes about. -/
theorem blankComments_blankComments (t : Text) :
    blankComments (blankComments t) = blankComments t := by
  induction t using comment_induction with
  | nil => rfl
  | comment inside rest hinside ih =>
    rw [blankComments_comment hinside, blankComments_replicate_append, ih]
  | unclosed rest hrest => rw [blankComments_unclosed hrest, blankComments_unclosed hrest]
  | other c rest hother ih =>
    rw [blankComments_other hother,
      blankComments_other (not_startsComment_blankComments hother), ih]

/-! ## The bodies of the rules -/

variable {sheet : Text} {rule : Rule}

theorem eq_take_append {k : Nat} {c : Char} (h : t[k]? = some c) :
    t = t.take k ++ c :: t.drop (k + 1) := by
  obtain ⟨hlt, rfl⟩ := List.getElem?_eq_some_iff.1 h
  rw [← List.drop_eq_getElem_cons hlt, List.take_append_drop]

/-- **The body of a rule is blanked on its own as it is within the sheet.**  Both braces are seen,
so they part the sheet for blanking. -/
theorem blankComments_body (h : rule ∈ rules sheet) :
    blankComments rule.body = (blankComments sheet).slice rule.start rule.stop := by
  obtain ⟨k, e, hpair, rfl, -⟩ := mem_rules_iff.1 h
  obtain ⟨front, back, rfl, hfront, hback⟩ := blankComments_eq_append (by decide) (by decide)
    (by decide) (eq_take_append hpair.opening)
  have hlength : front.length = k := by
    have hlt := (List.getElem?_eq_some_iff.1 hpair.opening).1
    rw [← length_blankComments front, hfront, List.length_take_of_le (Nat.le_of_lt hlt)]
  obtain ⟨m, rfl⟩ := Nat.exists_eq_add_of_le (Nat.succ_le_of_lt hpair.lt)
  have hclosing : (blankComments back)[m]? = some '}' := by
    rw [hback, List.getElem?_drop]
    exact hpair.closing
  obtain ⟨body, later, rfl, hbody, -⟩ := blankComments_eq_append (by decide) (by decide)
    (by decide) (eq_take_append hclosing)
  have hlength' : body.length = m := by
    have hlt := (List.getElem?_eq_some_iff.1 hclosing).1
    rw [← length_blankComments body, hbody, List.length_take_of_le (Nat.le_of_lt hlt)]
  subst hlength hlength'
  have hdrop : (front ++ '{' :: (body ++ '}' :: later)).drop 0 =
      front ++ '{' :: (body ++ '}' :: later) := rfl
  have hslice := (drop_lead hdrop).1
  rw [Nat.zero_add] at hslice
  show blankComments (Text.slice _ (front.length + 1) (front.length + 1 + body.length)) =
    Text.slice _ (front.length + 1) (front.length + 1 + body.length)
  rw [hslice, hbody, hback, Text.slice, Nat.add_sub_cancel_left]

/-- No comment goes on beyond an end of the body of a rule: the braces there are seen. -/
theorem BlankedBy.apart_or_inside (h : BlankedBy comments sheet (blankComments sheet))
    (hrule : rule ∈ rules sheet) {c : Comment} (hc : c ∈ comments) :
    c.stop < rule.start ∨ rule.stop < c.start ∨ rule.start ≤ c.start ∧ c.stop ≤ rule.stop := by
  have hseen : ∀ {k : Nat} {brace : Char}, brace ≠ ' ' →
      (blankComments sheet)[k]? = some brace → ¬c.Holds k := by
    intro k brace hbrace hk hholds
    rw [h k, if_pos ⟨c, hc, hholds⟩] at hk
    exact hbrace (Option.some.inj hk).symm
  obtain ⟨k, e, hpair, rfl, -⟩ := mem_rules_iff.1 hrule
  have hopening := hseen (by decide) hpair.opening
  have hclosing := hseen (by decide) hpair.closing
  have hlt := hpair.lt
  simp only [Comment.Holds] at hopening hclosing
  show c.stop < k + 1 ∨ e < c.start ∨ k + 1 ≤ c.start ∧ c.stop ≤ e
  omega

/-- **Blanking is local and stable.**  It keeps the length, and doing it again changes nothing.
What it changes are the comments, as they are found from left to right: these characters become
spaces and no other one is changed.  The body of each rule is blanked on its own as it is within the
sheet, and no comment goes on beyond an end of it. -/
theorem blankComments_local (sheet : Text) :
    (blankComments sheet).length = sheet.length ∧
    blankComments (blankComments sheet) = blankComments sheet ∧
    ∃ comments, (∀ listed, ListsComments sheet listed ↔ listed = comments) ∧
      BlankedBy comments sheet (blankComments sheet) ∧
      ∀ rule ∈ rules sheet,
        blankComments rule.body = (blankComments sheet).slice rule.start rule.stop ∧
        ∀ c ∈ comments, c.stop < rule.start ∨ rule.stop < c.start ∨
          rule.start ≤ c.start ∧ c.stop ≤ rule.stop := by
  obtain ⟨comments, hlists, hblanked⟩ := exists_listsComments sheet
  refine ⟨length_blankComments sheet, blankComments_blankComments sheet, comments,
    fun listed => ⟨fun h => h.eq hlists, fun h => h ▸ hlists⟩, hblanked, fun rule hrule => ?_⟩
  exact ⟨blankComments_body hrule, fun c hc => hblanked.apart_or_inside hrule hc⟩

end Sheet
end CustomProps
