import CustomProps.Proofs.Reference.Nesting

/-!
# Live and dead references

Whether a reference is dead is told, while the edits are gathered, by looking whether its keyword is
removed already.  This file says it without edits: a reference is live unless its keyword stands in
the name of a live reference, or in the fallback of a live one that has an answer.

* `Reference.Buries` — one reference lies where another one leaves nothing.
* `Reference.IsLive` — no live reference buries the reference.
* `Reference.covers_plan_start_iff` — the edits of a reference remove the keywords that it buries.
* `Reference.mem_live_iff` — the references that are resolved are the live ones.
* `Reference.live_congr` — only the answers for live references matter.
-/

set_option autoImplicit false

namespace CustomProps
namespace Reference

variable {value : Text} {pairs : List (Nat × Nat)} {lookup lookup' : Lookup} {r s : Reference}

/-! ## Live references -/

/-- The references of a value; none when its parentheses do not balance. -/
def references (value : Text) : List Reference := (all? value).getD []

/-- The scope has a value for the name of the reference, and it is not blank. -/
def HasAnswer (value : Text) (lookup : Lookup) (r : Reference) : Prop :=
  ∃ answer, lookup (r.name value) = some answer ∧ Text.trim answer ≠ []

/-- The reference is answered by the scope.  A blank name is not asked for. -/
def IsAnswered (value : Text) (lookup : Lookup) (r : Reference) : Prop :=
  r.name value ≠ [] ∧ HasAnswer value lookup r

/-- The keyword of `r` stands in the name of `s`. -/
def LiesInName (s r : Reference) : Prop :=
  s.openParen < r.start ∧ r.start < s.comma.getD s.closeParen

/-- The keyword of `r` stands in the fallback of `s`. -/
def LiesInFallback (s r : Reference) : Prop :=
  ∃ comma, s.comma = some comma ∧ comma < r.start ∧ r.start < s.closeParen

/-- Nothing is left of `s` where `r` stands: in its name, or in its fallback if it is answered. -/
def Buries (answered : Reference → Prop) (s r : Reference) : Prop :=
  s.LiesInName r ∨ s.LiesInFallback r ∧ answered s

/-- The reference is one of the value, and no live reference that starts earlier buries it. -/
def IsLive (value : Text) (answered : Reference → Prop) (r : Reference) : Prop :=
  r ∈ references value ∧ ∀ s ∈ references value, ∀ _ : s.start < r.start,
    IsLive value answered s → ¬Buries answered s r
termination_by r.start

/-- A live one of the given references buries the reference. -/
def IsBuried (value : Text) (answered : Reference → Prop) (refs : List Reference)
    (r : Reference) : Prop :=
  ∃ s ∈ refs, IsLive value answered s ∧ Buries answered s r

theorem isBuried_append_singleton {answered : Reference → Prop} {refs : List Reference} :
    IsBuried value answered (refs ++ [s]) r ↔
      IsBuried value answered refs r ∨ IsLive value answered s ∧ Buries answered s r := by
  simp only [IsBuried, List.mem_append, List.mem_singleton, or_and_right, exists_or,
    exists_eq_left]

/-- The trimmed answer of a scope.  A scope that has none answers as if it had a blank one. -/
def trimmedAnswer (lookup : Lookup) (name : Text) : Text := Text.trim ((lookup name).getD [])

theorem bind_nonBlank?_eq (lookup : Lookup) (name : Text) : (lookup name).bind Text.nonBlank? =
    if trimmedAnswer lookup name = [] then none else some (trimmedAnswer lookup name) := by
  rw [trimmedAnswer]
  cases lookup name with
  | none => rfl
  | some answer =>
    rw [Option.bind_some, Option.getD_some, Text.nonBlank?]
    split <;> simp_all

theorem hasAnswer_iff : HasAnswer value lookup r ↔ trimmedAnswer lookup (r.name value) ≠ [] := by
  rw [HasAnswer, trimmedAnswer]
  cases lookup (r.name value) with
  | none => simp [Text.trim_nil]
  | some answer => simp

theorem isAnswered_iff : IsAnswered value lookup r ↔ (r.rootValue? value lookup).isSome := by
  rw [IsAnswered, hasAnswer_iff, rootValue?, bind_nonBlank?_eq]
  split
  · simp [*]
  · split <;> simp [*]

/-! ## What a reference buries -/

/-- Of the keywords inside a reference those survive that stand behind its comma, if it has no
answer. -/
theorem lt_survivor_iff {inside : Text} {m : Nat} (hm : inside[m]? = some 'v') :
    m + (survivor lookup inside).length < inside.length ↔
      m < (namePart inside).length ∨ (answer? lookup inside).isSome := by
  have hlt := (List.getElem?_eq_some_iff.1 hm).1
  rw [survivor]
  cases answer? lookup inside with
  | some answer => simp [hlt]
  | none =>
    simp only [Option.isSome_none, Bool.false_eq_true, or_false]
    cases hf : fallbackPart? inside with
    | none => simp [Text.trimLeft, namePart_of_none hf, hlt]
    | some fallback =>
      obtain ⟨blanks, hblanks, hblank⟩ := Text.exists_trimLeft fallback
      have hinside := namePart_append_of_some hf
      have hlength := congrArg List.length hinside
      have hfallback := congrArg List.length hblanks
      rw [List.length_append, List.length_cons] at hlength
      rw [List.length_append] at hfallback
      rw [Option.getD_some]
      refine ⟨fun h => Nat.lt_of_not_le fun hle => ?_, fun h => by omega⟩
      -- between the name and the surviving part stand the comma and blanks, but no keyword
      rw [← hinside, List.getElem?_append_right hle] at hm
      cases hk : m - (namePart inside).length with
      | zero =>
        rw [hk, List.getElem?_cons_zero] at hm
        exact absurd (Option.some.inj hm) (by decide)
      | succ k =>
        rw [hk, List.getElem?_cons_succ, hblanks, List.getElem?_append_left (by omega)] at hm
        exact absurd (hblank _ (List.mem_of_getElem? hm)) (by decide)

theorem getD_comma_placed (i : Nat) (inside : Text) :
    (placed i inside).comma.getD (placed i inside).closeParen =
      i + 4 + (namePart inside).length := by
  rw [placed]
  cases hf : fallbackPart? inside with
  | none => rw [namePart_of_none hf]; rfl
  | some fallback => rfl

/-- A reference buries the keywords between its parentheses that do not survive. -/
theorem buries_placed_iff {x inside y : Text} {m : Nat}
    (hvalue : value = x ++ (Declaration.referenceOpening ++ (inside ++ ')' :: y)))
    (hstart : r.start = x.length + 4 + m) (hm : inside[m]? = some 'v') :
    Buries (IsAnswered value lookup) (placed x.length inside) r ↔
      m + (survivor lookup inside).length < inside.length := by
  have hlt := (List.getElem?_eq_some_iff.1 hm).1
  have hopen : (placed x.length inside).openParen = x.length + 3 := rfl
  have hclose : (placed x.length inside).closeParen = x.length + 4 + inside.length := rfl
  have hname : (placed x.length inside).LiesInName r ↔ m < (namePart inside).length := by
    rw [LiesInName, getD_comma_placed, hopen]
    omega
  rw [lt_survivor_iff hm, Buries, isAnswered_iff, rootValue?_placed hvalue, hname]
  refine or_congr_right' fun hbehind => and_iff_right_of_imp fun _ => ?_
  cases hf : fallbackPart? inside with
  | none =>
    rw [namePart_of_none hf] at hbehind
    exact absurd hlt hbehind
  | some fallback =>
    refine ⟨x.length + 4 + (namePart inside).length, by rw [placed, hf]; rfl, ?_, by omega⟩
    rcases Nat.lt_or_eq_of_le (Nat.le_of_not_lt hbehind) with h | h
    · omega
    · -- at the place of the comma stands no keyword
      rw [← namePart_append_of_some hf, ← h, List.getElem?_append_right (Nat.le_refl _),
        Nat.sub_self, List.getElem?_cons_zero] at hm
      exact absurd (Option.some.inj hm) (by decide)

theorem getElem?_start (h : StartsAt value r.start) : value[r.start]? = some 'v' := by
  obtain ⟨z, hz⟩ := List.isPrefixOf_iff_prefix.1 h.1
  have hfirst : (value.drop r.start)[0]? = value[r.start + 0]? := List.getElem?_drop
  rw [Nat.add_zero, ← hz] at hfirst
  exact hfirst.symm

/-- **The edits of a reference remove the keywords that it buries.** -/
theorem covers_plan_start_iff {i j : Nat} (hpairs : parentheses value = some pairs)
    (hs : standing? value pairs i = some s) (hr : standing? value pairs j = some r) (hij : i < j)
    (edits : EditSet) :
    (s.plan (s.resolve value lookup) value edits).covers r.start = true ↔
      edits.covers r.start = true ∨ Buries (IsAnswered value lookup) s r := by
  have hnested := isBefore_or_encloses hpairs hs hr hij
  obtain ⟨hwritten, rfl⟩ := isWritten_of_standing? hpairs hr
  have hchar := getElem?_start hwritten.startsAt
  obtain ⟨x, inside, y, hvalue, rfl, rfl⟩ := placed_of_standing? hpairs hs
  have hopen : (placed x.length inside).openParen = x.length + 3 := rfl
  have hclose : (placed x.length inside).closeParen = x.length + 4 + inside.length := rfl
  rw [covers_plan hvalue]
  refine or_congr_right ?_
  rcases hnested with h | ⟨h, hend⟩
  · have hcomma : (placed x.length inside).comma.getD (placed x.length inside).closeParen ≤
        x.length + 4 + inside.length := by
      rw [getD_comma_placed]
      exact Nat.add_le_add_left (List.takeWhile_prefix _).length_le _
    rw [IsBefore, hclose] at h
    refine ⟨fun hcovers => by omega, ?_⟩
    rintro (⟨-, hname⟩ | ⟨⟨_, -, -, hfallback⟩, -⟩) <;> omega
  · have hlt := hwritten.openParen_lt
    rw [hwritten.openParen_eq] at hlt
    obtain ⟨m, hm⟩ := Nat.exists_eq_add_of_le (show x.length + 4 ≤ r.start by omega)
    have hinside : inside[m]? = some 'v' := by
      rw [hm, hvalue, List.getElem?_append_right (by omega),
        List.getElem?_append_right (by simp [Declaration.referenceOpening, keyword]; omega),
        List.getElem?_append_left] at hchar
      · rw [← hchar]
        congr 1
        simp [Declaration.referenceOpening, keyword]
        omega
      · simp [Declaration.referenceOpening, keyword]
        omega
    rw [buries_placed_iff hvalue hm hinside]
    omega

/-! ## The references that are resolved -/

theorem references_eq (hpairs : parentheses value = some pairs) :
    references value = standingFrom value pairs 0 value.length := by
  rw [references, all?_eq_standingFrom hpairs, Option.getD_some]

theorem standing?_of_mem_references (hpairs : parentheses value = some pairs)
    (hr : r ∈ references value) : standing? value pairs r.start = some r := by
  rw [references_eq hpairs] at hr
  obtain ⟨i, -, hi⟩ := List.mem_filterMap.1 hr
  rwa [start_of_standing? hi]

theorem pairwise_references (hpairs : parentheses value = some pairs) :
    (references value).Pairwise (·.start < ·.start) :=
  references_eq hpairs ▸ (lists_standingFrom hpairs).ascending

/-- What buries a reference has to be looked for among those in front of it only. -/
theorem isLive_iff_not_isBuried {answered : Reference → Prop} {front rest : List Reference}
    (hascending : (references value).Pairwise (·.start < ·.start))
    (hrefs : references value = front ++ r :: rest) :
    IsLive value answered r ↔ ¬IsBuried value answered front r := by
  rw [hrefs] at hascending
  obtain ⟨-, hrest, hfront⟩ := List.pairwise_append.1 hascending
  rw [IsLive, hrefs]
  constructor
  · rintro ⟨-, h⟩ ⟨s, hs, hlive, hburies⟩
    exact h s (List.mem_append_left _ hs) (hfront s hs r List.mem_cons_self) hlive hburies
  · intro h
    refine ⟨by simp, fun s hs hlt hlive hburies => ?_⟩
    rcases List.mem_append.1 hs with hs | hs
    · exact h ⟨s, hs, hlive, hburies⟩
    · rcases List.mem_cons.1 hs with rfl | hs
      · exact absurd hlt (Nat.lt_irrefl _)
      · exact absurd hlt (Nat.lt_asymm ((List.pairwise_cons.1 hrest).1 s hs))

/-- The references are gone through in order.  `done` are those gone through, and of the others
exactly those are removed that a live one of `done` buries. -/
theorem mem_liveAfter_iff (hpairs : parentheses value = some pairs) {edits : EditSet}
    {done rest : List Reference} (hrefs : references value = done ++ rest)
    (hcovers : ∀ r ∈ rest, edits.covers r.start = true ↔
      IsBuried value (IsAnswered value lookup) done r) (p : Reference × Resolution) :
    p ∈ liveAfter value lookup edits rest ↔ p.1 ∈ rest ∧
      IsLive value (IsAnswered value lookup) p.1 ∧ p.2 = p.1.resolve value lookup := by
  induction rest generalizing edits done with
  | nil => simp [liveAfter]
  | cons r rest ih =>
    have hascending := pairwise_references hpairs
    have hlive : IsLive value (IsAnswered value lookup) r ↔
      ¬IsBuried value (IsAnswered value lookup) done r := isLive_iff_not_isBuried hascending hrefs
    rw [← hcovers r List.mem_cons_self] at hlive
    have hrefs' : references value = (done ++ [r]) ++ rest := by simp [hrefs]
    rw [liveAfter]
    split
    · rename_i hr
      have hdead : ¬IsLive value (IsAnswered value lookup) r := fun h => hlive.1 h hr
      rw [ih hrefs' fun t ht => by
        rw [hcovers t (List.mem_cons_of_mem r ht), isBuried_append_singleton,
          or_iff_left fun h => hdead h.1]]
      refine and_congr_left fun h => (List.mem_cons.trans (or_iff_right fun hp => ?_)).symm
      exact hdead (hp ▸ h.1)
    · rename_i hr
      have hstanding : ∀ s ∈ r :: rest, standing? value pairs s.start = some s := fun s hs =>
        standing?_of_mem_references hpairs (hrefs ▸ List.mem_append_right done hs)
      rw [hrefs] at hascending
      have hbehind := (List.pairwise_cons.1 (List.pairwise_append.1 hascending).2.1).1
      dsimp only
      rw [List.mem_cons, ih hrefs' fun t ht => by
        rw [covers_plan_start_iff hpairs (hstanding r List.mem_cons_self)
          (hstanding t (List.mem_cons_of_mem r ht)) (hbehind t ht),
          hcovers t (List.mem_cons_of_mem r ht), isBuried_append_singleton,
          and_iff_right (hlive.2 hr)]]
      constructor
      · rintro (rfl | ⟨hp, hrest⟩)
        · exact ⟨List.mem_cons_self, hlive.2 hr, rfl⟩
        · exact ⟨List.mem_cons_of_mem r hp, hrest⟩
      · rintro ⟨hp, hplive, hresolve⟩
        rcases List.mem_cons.1 hp with hp | hp
        · exact .inl (Prod.ext hp (by rw [hresolve, hp]))
        · exact .inr ⟨hp, hplive, hresolve⟩

theorem references_eq_nil (h : parentheses value = none) : references value = [] := by
  rw [references, all?_eq_none_iff.2 h]
  rfl

/-- **The references that are resolved are the live ones.** -/
theorem mem_live_iff {p : Reference × Resolution} : p ∈ live value lookup ↔
    IsLive value (IsAnswered value lookup) p.1 ∧ p.2 = p.1.resolve value lookup := by
  cases hpairs : parentheses value with
  | none =>
    rw [live_eq_nil_of_all?_eq_none (all?_eq_none_iff.2 hpairs), IsLive, references_eq_nil hpairs]
    simp
  | some pairs =>
    have h : p ∈ liveAfter value lookup .empty (references value) ↔ _ := mem_liveAfter_iff hpairs
      (List.nil_append (references value)).symm
      (fun r _ => by simp [EditSet.covers_empty, IsBuried]) p
    rw [live, ← references, h]
    refine and_iff_right_of_imp fun h => ?_
    rw [IsLive] at h
    exact h.1.1

theorem isLive_iff_mem : IsLive value (IsAnswered value lookup) r ↔
    r ∈ (live value lookup).map Prod.fst := by
  simp only [List.mem_map, mem_live_iff, Prod.exists, exists_and_right, exists_eq_right]

instance : Decidable (IsLive value (IsAnswered value lookup) r) :=
  decidable_of_iff _ isLive_iff_mem.symm

/-- What stands in the fallback of a reference that is answered is dead. -/
example : ¬IsLive "var(--a,var(--b))".toList
    (IsAnswered "var(--a,var(--b))".toList fun _ => some "1".toList) ⟨8, 11, 15, none⟩ := by decide

/-! ## What the answers are for -/

/-- Only the answers for the references that are resolved matter. -/
theorem liveAfter_congr {edits : EditSet} {refs : List Reference}
    (h : ∀ p ∈ liveAfter value lookup edits refs,
      trimmedAnswer lookup' (p.1.name value) = trimmedAnswer lookup (p.1.name value)) :
    liveAfter value lookup' edits refs = liveAfter value lookup edits refs := by
  induction refs generalizing edits with
  | nil => rfl
  | cons r refs ih =>
    rw [liveAfter] at h
    rw [liveAfter, liveAfter]
    split
    · rename_i hr
      rw [if_pos hr] at h
      exact ih h
    · rename_i hr
      rw [if_neg hr] at h
      obtain ⟨hr, hrefs⟩ := List.forall_mem_cons.1 h
      have hresolve : r.resolve value lookup' = r.resolve value lookup := by
        rw [resolve, resolve, rootValue?, rootValue?, bind_nonBlank?_eq, bind_nonBlank?_eq, hr]
      dsimp only
      rw [hresolve, ih hrefs]

/-- Scopes that answer alike for the live references resolve the same references alike. -/
theorem live_congr (h : ∀ r, IsLive value (IsAnswered value lookup) r →
    trimmedAnswer lookup' (r.name value) = trimmedAnswer lookup (r.name value)) :
    live value lookup' = live value lookup :=
  liveAfter_congr fun p hp => h p.1 (isLive_iff_mem.2 (List.mem_map_of_mem hp))

theorem fallbackValue?_congr (h : ∀ r, IsLive value (IsAnswered value lookup) r →
    trimmedAnswer lookup' (r.name value) = trimmedAnswer lookup (r.name value)) :
    fallbackValue? value lookup' = fallbackValue? value lookup := by
  rw [fallbackValue?, fallbackValue?, live_congr h]

end Reference
end CustomProps
