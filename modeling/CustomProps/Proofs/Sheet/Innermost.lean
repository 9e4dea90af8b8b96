import CustomProps.Proofs.Sheet.Bodies
import Mathlib.Data.List.DropRight
import Mathlib.Data.List.Sort

/-!
# The rules are the innermost pairs of braces

The scan reads a sheet once and remembers no more than the last brace and the characters since the
last break.  That is enough to find every opening brace whose next brace is a closing one, however
the other braces are nested and whether or not they balance.

* `Sheet.headAt` — what stands in front of a position, back to the last break.
* `Sheet.IsInnermostPair` — an opening brace whose next brace is a closing one.
* `Sheet.IsInnermost` — what it means for a rule that it stands in a sheet.
* `Sheet.Remembers` — the scan has kept what it has to know of the text behind it.
* `Sheet.rules_eq_iff_innermost` — the scan finds these rules, in order, and nothing else.
-/

set_option autoImplicit false

namespace CustomProps
namespace Sheet

/-! ## Pairs of braces -/

/-- The characters that end the text in front of a brace. -/
def isBreak (c : Char) : Bool := c == '{' || c == '}' || c == ';'

/-- What stands in front of the position `k`, back to the last break. -/
def headAt (t : Text) (k : Nat) : Text := (t.take k).rtakeWhile fun c => !isBreak c

/-- There is an opening brace at `k`, and no other brace behind it. -/
structure IsLastOpening (t : Text) (k : Nat) : Prop where
  opening : t[k]? = some '{'
  braceless : ∀ i, k < i → t[i]? ≠ some '{' ∧ t[i]? ≠ some '}'

/-- There is an opening brace at `k`, and the next brace is a closing one, at `e`. -/
structure IsInnermostPair (t : Text) (k e : Nat) : Prop where
  lt : k < e
  opening : t[k]? = some '{'
  closing : t[e]? = some '}'
  braceless : ∀ i, k < i → i < e → t[i]? ≠ some '{' ∧ t[i]? ≠ some '}'

/-- The rule that stands between an opening brace at `k` and a closing one at `e`, if `t` is the
sheet without its comments. -/
def ruleAt (t sheet : Text) (k e : Nat) : Rule :=
  ⟨Text.trim (headAt t k), sheet.slice (k + 1) e, k + 1, e⟩

/-- The rule stands in the sheet: its body lies between an innermost pair of braces, and what stands
in front of them, trimmed, is not empty and does not start with an at sign. -/
def IsInnermost (sheet : Text) (rule : Rule) : Prop :=
  ∃ k e, IsInnermostPair (blankComments sheet) k e ∧
    rule = ruleAt (blankComments sheet) sheet k e ∧
    rule.selectorText ≠ [] ∧ rule.selectorText.head? ≠ some '@'

variable {sheet front run rest t : Text} {opening : Option Opening} {k e : Nat} {c : Char}
  {rule : Rule}

theorem headAt_append (hk : k ≤ front.length) (rest : Text) :
    headAt (front ++ rest) k = headAt front k := by
  rw [headAt, List.take_append_of_le_length hk, headAt]

theorem headAt_length (t : Text) : headAt t t.length = t.rtakeWhile fun c => !isBreak c := by
  rw [headAt, List.take_length]

theorem isSelectorText_iff {selectorText : Text} :
    isSelectorText selectorText = true ↔ selectorText ≠ [] ∧ selectorText.head? ≠ some '@' := by
  rw [isSelectorText, Bool.and_eq_true, Bool.not_eq_true', List.isEmpty_eq_false_iff, bne_iff_ne]

theorem IsLastOpening.lt_length (h : IsLastOpening t k) : k < t.length :=
  (List.getElem?_eq_some_iff.1 h.opening).1

theorem IsLastOpening.unique {k' : Nat} (h : IsLastOpening t k) (h' : IsLastOpening t k') :
    k = k' := by
  rcases Nat.lt_trichotomy k k' with hlt | heq | hlt
  · exact absurd h'.opening (h.braceless k' hlt).1
  · exact heq
  · exact absurd h.opening (h'.braceless k hlt).1

/-- An opening brace is the last brace where it is read. -/
theorem isLastOpening_concat_open : IsLastOpening (front ++ ['{']) k ↔ k = front.length := by
  have hself : IsLastOpening (front ++ ['{']) front.length := by
    refine ⟨List.getElem?_concat_length, fun i hi => ?_⟩
    rw [List.getElem?_eq_none (by rw [List.length_append]; exact hi)]
    exact ⟨nofun, nofun⟩
  exact ⟨fun h => h.unique hself, fun h => h ▸ hself⟩

/-- Behind a closing brace the last brace is not an opening one. -/
theorem not_isLastOpening_concat_close : ¬IsLastOpening (front ++ ['}']) k := by
  intro h
  have hlt := h.lt_length
  rw [List.length_append, List.length_singleton] at hlt
  rcases Nat.lt_succ_iff_lt_or_eq.1 hlt with hlt | rfl
  · exact (h.braceless front.length hlt).2 List.getElem?_concat_length
  · exact absurd (List.getElem?_concat_length.symm.trans h.opening) (by decide)

/-- Any other character leaves the last brace what it is. -/
theorem isLastOpening_concat_other (hopen : c ≠ '{') (hclose : c ≠ '}') :
    IsLastOpening (front ++ [c]) k ↔ IsLastOpening front k := by
  have hget : ∀ (i : Nat) (d : Char), d = '{' ∨ d = '}' →
      ((front ++ [c])[i]? = some d ↔ front[i]? = some d) := by
    intro i d hd
    rcases Nat.lt_trichotomy i front.length with hlt | rfl | hlt
    · rw [List.getElem?_append_left hlt]
    · rw [List.getElem?_concat_length, List.getElem?_eq_none (Nat.le_refl _), Option.some.injEq]
      refine iff_of_false ?_ nofun
      rintro rfl
      exact hd.elim hopen hclose
    · have hend : (front ++ [c]).length ≤ i := by
        rw [List.length_append]
        exact hlt
      rw [List.getElem?_eq_none hend, List.getElem?_eq_none (Nat.le_of_lt hlt)]
  have hbrace := fun i => hget i '{' (.inl rfl)
  have hbrace' := fun i => hget i '}' (.inr rfl)
  constructor
  · rintro ⟨hopening, hbraceless⟩
    refine ⟨(hbrace k).1 hopening, fun i hi => ?_⟩
    exact ⟨mt (hbrace i).2 (hbraceless i hi).1, mt (hbrace' i).2 (hbraceless i hi).2⟩
  · rintro ⟨hopening, hbraceless⟩
    refine ⟨(hbrace k).2 hopening, fun i hi => ?_⟩
    exact ⟨mt (hbrace i).1 (hbraceless i hi).1, mt (hbrace' i).1 (hbraceless i hi).2⟩

/-- A closing brace ends a pair just when the last brace in front of it is an opening one. -/
theorem isInnermostPair_close :
    IsInnermostPair (front ++ '}' :: rest) k front.length ↔ IsLastOpening front k := by
  have hfront : ∀ {i}, i < front.length → (front ++ '}' :: rest)[i]? = front[i]? :=
    fun hi => List.getElem?_append_left hi
  constructor
  · rintro ⟨hlt, hopening, -, hbraceless⟩
    refine ⟨hfront hlt ▸ hopening, fun i hi => ?_⟩
    rcases Nat.lt_or_ge i front.length with hi' | hi'
    · exact hfront hi' ▸ hbraceless i hi hi'
    · rw [List.getElem?_eq_none hi']
      exact ⟨nofun, nofun⟩
  · intro h
    refine ⟨h.lt_length, (hfront h.lt_length).trans h.opening, ?_, fun i hi hi' => ?_⟩
    · rw [List.getElem?_append_right (Nat.le_refl _), Nat.sub_self]
      rfl
    · rw [hfront hi']
      exact h.braceless i hi

/-! ## What the scan remembers -/

/-- Behind `front`, the scan has the run since the last break and the last brace, if that was an
opening one. -/
structure Remembers (front run : Text) (opening : Option Opening) : Prop where
  run_eq : run.reverse = headAt front front.length
  opening_iff : ∀ o, opening = some o ↔
    ∃ k, IsLastOpening front k ∧ o = ⟨headAt front k, k + 1⟩

theorem remembers_nil : Remembers [] [] none where
  run_eq := rfl
  opening_iff o := by
    refine iff_of_false nofun ?_
    rintro ⟨k, hlast, -⟩
    cases hlast.opening

theorem reverse_nil_eq_headAt (hc : isBreak c = true) :
    ([] : Text).reverse = headAt (front ++ [c]) (front ++ [c]).length := by
  rw [headAt_length, List.rtakeWhile_concat_neg _ _ _ (by simp [hc])]
  rfl

theorem Remembers.open (h : Remembers front run opening) :
    Remembers (front ++ ['{']) [] (some ⟨run.reverse, front.length + 1⟩) where
  run_eq := reverse_nil_eq_headAt rfl
  opening_iff o := by
    rw [Option.some.injEq]
    simp only [isLastOpening_concat_open, exists_eq_left]
    rw [headAt_append (Nat.le_refl _), ← h.run_eq, eq_comm]

theorem Remembers.close (front : Text) : Remembers (front ++ ['}']) [] none where
  run_eq := reverse_nil_eq_headAt rfl
  opening_iff o := by
    refine iff_of_false nofun ?_
    rintro ⟨k, hlast, -⟩
    exact not_isLastOpening_concat_close hlast

theorem Remembers.other (h : Remembers front run opening) (hopen : c ≠ '{') (hclose : c ≠ '}') :
    Remembers (front ++ [c]) (if c = ';' then [] else c :: run) opening where
  run_eq := by
    split
    · rename_i hc
      exact reverse_nil_eq_headAt (by rw [hc]; rfl)
    · rename_i hc
      have hbreak : isBreak c = false := by simp [isBreak, hopen, hclose, hc]
      rw [headAt_length, List.rtakeWhile_concat_pos _ _ _ (by simp [hbreak]), ← headAt_length,
        ← h.run_eq, List.reverse_cons]
  opening_iff o := by
    rw [h.opening_iff]
    refine exists_congr fun k => ?_
    rw [isLastOpening_concat_other hopen hclose]
    refine and_congr_right fun hlast => ?_
    rw [headAt_append (Nat.le_of_lt hlast.lt_length)]

/-! ## What the scan finds -/

theorem close?_eq_some_iff {o : Opening} {stop : Nat} :
    o.close? sheet stop = some rule ↔ rule = ⟨Text.trim o.head, sheet.slice o.start stop, o.start,
      stop⟩ ∧ isSelectorText rule.selectorText = true := by
  constructor
  · intro h
    obtain ⟨hselector, rfl⟩ := close?_eq_some h
    exact ⟨rfl, hselector⟩
  · rintro ⟨rfl, hselector⟩
    exact if_pos hselector

/-- At a closing brace the scan finds the rule of the pair that ends there. -/
theorem Remembers.close?_iff (h : Remembers front run opening) (rest : Text) :
    opening.bind (·.close? sheet front.length) = some rule ↔
      ∃ k, IsInnermostPair (front ++ '}' :: rest) k front.length ∧
        rule = ruleAt (front ++ '}' :: rest) sheet k front.length ∧
        isSelectorText rule.selectorText = true := by
  have hrule : ∀ {k}, IsLastOpening front k → ruleAt (front ++ '}' :: rest) sheet k front.length =
      ⟨Text.trim (headAt front k), sheet.slice (k + 1) front.length, k + 1, front.length⟩ := by
    intro k hlast
    rw [ruleAt, headAt_append (Nat.le_of_lt hlast.lt_length)]
  rw [Option.bind_eq_some_iff]
  simp only [h.opening_iff, close?_eq_some_iff, isInnermostPair_close]
  constructor
  · rintro ⟨o, ⟨k, hlast, rfl⟩, hr, hselector⟩
    exact ⟨k, hlast, hr.trans (hrule hlast).symm, hselector⟩
  · rintro ⟨k, hlast, hr, hselector⟩
    exact ⟨_, ⟨k, hlast, rfl⟩, hr.trans (hrule hlast), hselector⟩

/-- A pair ends at a closing brace, so not where another character stands. -/
theorem lt_stop_iff (hc : c ≠ '}') {p : Nat → Nat → Prop} :
    (∃ k e, front.length ≤ e ∧ IsInnermostPair (front ++ c :: rest) k e ∧ p k e) ↔
      ∃ k e, front.length + 1 ≤ e ∧ IsInnermostPair (front ++ c :: rest) k e ∧ p k e := by
  refine exists_congr fun k => exists_congr fun e => and_congr_left fun ⟨hpair, _⟩ => ?_
  refine ⟨fun hle => Nat.lt_of_le_of_ne hle ?_, Nat.le_of_succ_le⟩
  rintro rfl
  have hclosing := hpair.closing
  rw [List.getElem?_append_right (Nat.le_refl _), Nat.sub_self] at hclosing
  exact hc (Option.some.inj hclosing)

/-- By induction on the rest: the scan finds the rules of the pairs that end in it. -/
theorem mem_scanRules_iff (h : Remembers front run opening) :
    rule ∈ scanRules sheet front.length run opening rest ↔
      ∃ k e, front.length ≤ e ∧ IsInnermostPair (front ++ rest) k e ∧
        rule = ruleAt (front ++ rest) sheet k e ∧ isSelectorText rule.selectorText = true := by
  induction rest generalizing front run opening with
  | nil =>
    refine iff_of_false List.not_mem_nil ?_
    rintro ⟨k, e, hle, hpair, -⟩
    have hlt := (List.getElem?_eq_some_iff.1 hpair.closing).1
    rw [List.append_nil] at hlt
    omega
  | cons c rest ih =>
    have hnext : ∀ {run' opening'}, Remembers (front ++ [c]) run' opening' →
        (rule ∈ scanRules sheet (front.length + 1) run' opening' rest ↔
          ∃ k e, front.length + 1 ≤ e ∧ IsInnermostPair (front ++ c :: rest) k e ∧
            rule = ruleAt (front ++ c :: rest) sheet k e ∧
            isSelectorText rule.selectorText = true) := by
      intro run' opening' h'
      have hrest := ih h'
      rwa [List.length_append, List.length_singleton, List.append_assoc, List.singleton_append]
        at hrest
    by_cases hopen : c = '{'
    · subst hopen
      rw [scanRules_open, lt_stop_iff (by decide)]
      exact hnext h.open
    · by_cases hclose : c = '}'
      · subst hclose
        rw [scanRules_close, List.mem_append, Option.mem_toList, h.close?_iff rest,
          hnext (.close front)]
        constructor
        · rintro (⟨k, hfound⟩ | ⟨k, e, hle, hfound⟩)
          · exact ⟨k, front.length, Nat.le_refl _, hfound⟩
          · exact ⟨k, e, Nat.le_of_succ_le hle, hfound⟩
        · rintro ⟨k, e, hle, hfound⟩
          rcases Nat.eq_or_lt_of_le hle with rfl | hlt
          · exact .inl ⟨k, hfound⟩
          · exact .inr ⟨k, e, hlt, hfound⟩
      · rw [scanRules_other hopen hclose, lt_stop_iff hclose]
        exact hnext (h.other hopen hclose)

theorem mem_rules_iff : rule ∈ rules sheet ↔ IsInnermost sheet rule := by
  rw [rules, show (0 : Nat) = ([] : Text).length from rfl, mem_scanRules_iff remembers_nil]
  simp only [List.length_nil, Nat.zero_le, true_and, List.nil_append, isSelectorText_iff]
  rfl

/-- **The rules of a sheet are its innermost pairs of braces with selectors in front.**  In order
and each once they are the rules of the opening braces whose next brace is a closing one, as far as
what stands in front of them, back to the last brace or semicolon, is not blank and does not start
with an at sign.  Comments count for none of this, and the other braces may be nested and balanced
or not. -/
theorem rules_eq_iff_innermost {rs : List Rule} : rules sheet = rs ↔
    rs.Pairwise (·.start < ·.start) ∧ ∀ rule, rule ∈ rs ↔ IsInnermost sheet rule := by
  have hantisymm : Std.Antisymm fun r r' : Rule => r.start < r'.start :=
    ⟨fun _ _ h h' => absurd h (Nat.lt_asymm h')⟩
  obtain ⟨hranges, hbefore⟩ := pairwise_rules sheet
  have hascending : (rules sheet).Pairwise (·.start < ·.start) := by
    refine hbefore.imp_of_mem fun hr _ h => ?_
    exact Nat.lt_of_le_of_lt (hranges _ hr).1 h
  constructor
  · rintro rfl
    exact ⟨hascending, fun _ => mem_rules_iff⟩
  · rintro ⟨hpairwise, hmem⟩
    refine hascending.eq_of_mem_iff hpairwise fun rule => ?_
    rw [mem_rules_iff, hmem]

end Sheet
end CustomProps
