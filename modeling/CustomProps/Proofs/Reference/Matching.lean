import CustomProps.Reference.Pairing
import Mathlib.Data.Int.Order.Basic
import Mathlib.Order.Lattice

/-!
# The only pairing without crossings

Opening and closing positions can be paired in several ways.  Pairing takes for each closing
position the latest opening one that waits, and that is the only way in which no two pairs cross:
the closing position that comes first and the last opening one in front of it belong together in any
such pairing, and what is left can be paired in the same way again.

* `Pairing.IsMatching` — pairs without crossings, one for each position.
* `Pairing.IsReady` — the state between two closing positions, and `Pairing.IsReady.close_cons`,
  what the next one does to it.
* `Pairing.pair_matching` — when there is a pairing, and that it is the only one without crossings.
-/

set_option autoImplicit false

namespace CustomProps
namespace Pairing

variable {α : Type} [LinearOrder α] {waiting opens opens' closes : List α} {pairs : List (α × α)}
  {P : α → α → Prop} {o c : α}

/-! ## Pairs without crossings -/

/-- Every opening position has one closing partner behind it, and every closing position one opening
partner; of two pairs the second lies behind the first or inside it. -/
structure IsMatching (opens closes : List α) (P : α → α → Prop) : Prop where
  mem : ∀ a b, P a b → a ∈ opens ∧ b ∈ closes
  lt : ∀ a b, P a b → a < b
  closing : ∀ a ∈ opens, ∃! b, P a b
  opening : ∀ b ∈ closes, ∃! a, P a b
  apart : ∀ a b c d, P a b → P c d → a < c → b < c ∨ d < b

/-- The order in which the opening positions are listed does not matter. -/
theorem IsMatching.of_perm (h : IsMatching opens closes P) (hperm : opens'.Perm opens) :
    IsMatching opens' closes P where
  mem a b hab := ⟨hperm.mem_iff.2 (h.mem a b hab).1, (h.mem a b hab).2⟩
  lt := h.lt
  closing a ha := h.closing a (hperm.mem_iff.1 ha)
  opening := h.opening
  apart := h.apart

/-- An innermost pair in front of all other closing positions can be added. -/
theorem IsMatching.cons (h : IsMatching opens closes P) (hoc : o < c)
    (hopens : ∀ a ∈ opens, a < o ∨ c < a) (hcloses : ∀ b ∈ closes, c < b) :
    IsMatching (o :: opens) (c :: closes) fun a b => (a = o ∧ b = c) ∨ P a b := by
  have ho : ∀ b, ¬P o b := fun b hob => by
    rcases hopens o (h.mem o b hob).1 with hlt | hlt
    · exact lt_irrefl o hlt
    · exact lt_asymm hoc hlt
  have hc : ∀ a, ¬P a c := fun a hac => lt_irrefl c (hcloses c (h.mem a c hac).2)
  refine ⟨?_, ?_, ?_, ?_, ?_⟩
  · rintro a b (⟨rfl, rfl⟩ | hab)
    · exact ⟨List.mem_cons_self, List.mem_cons_self⟩
    · exact (h.mem a b hab).imp (List.mem_cons_of_mem o) (List.mem_cons_of_mem c)
  · rintro a b (⟨rfl, rfl⟩ | hab)
    · exact hoc
    · exact h.lt a b hab
  · intro a ha
    rcases List.mem_cons.1 ha with rfl | ha
    · exact ⟨c, .inl ⟨rfl, rfl⟩, fun b hb => hb.elim And.right fun hab => absurd hab (ho b)⟩
    · obtain ⟨b, hab, hunique⟩ := h.closing a ha
      refine ⟨b, .inr hab, ?_⟩
      rintro d (⟨rfl, rfl⟩ | had)
      · exact absurd hab (ho b)
      · exact hunique d had
  · intro b hb
    rcases List.mem_cons.1 hb with rfl | hb
    · exact ⟨o, .inl ⟨rfl, rfl⟩, fun a ha => ha.elim And.left fun hab => absurd hab (hc a)⟩
    · obtain ⟨a, hab, hunique⟩ := h.opening b hb
      refine ⟨a, .inr hab, ?_⟩
      rintro d (⟨rfl, rfl⟩ | hdb)
      · exact absurd hab (hc a)
      · exact hunique d hdb
  · rintro a b d e (⟨rfl, rfl⟩ | hab) (⟨rfl, rfl⟩ | hde) had
    · exact absurd had (lt_irrefl _)
    · exact .inl ((hopens d (h.mem d e hde).1).resolve_left (lt_asymm had))
    · exact .inr (hcloses b (h.mem a b hab).2)
    · exact h.apart a b d e hab hde had

/-- **In any pairing without crossings the first closing position belongs to the last opening one in
front of it**, and the other pairs have no crossings either. -/
theorem IsMatching.uncons (h : IsMatching (o :: opens) (c :: closes) P) (hoc : o < c)
    (hopens : ∀ a ∈ opens, a < o ∨ c < a) (hcloses : ∀ b ∈ closes, c < b) :
    P o c ∧ IsMatching opens closes fun a b => P a b ∧ a ≠ o := by
  obtain ⟨a, hac, hopening⟩ := h.opening c List.mem_cons_self
  obtain ⟨b, hob, hclosing⟩ := h.closing o List.mem_cons_self
  have hao : a = o := by
    by_contra hne
    have ha := (List.mem_cons.1 (h.mem a c hac).1).resolve_left hne
    have hlt : a < o := (hopens a ha).resolve_right (lt_asymm (h.lt a c hac))
    have hbc : b ≠ c := by
      rintro rfl
      exact hne (hopening o hob).symm
    have hcb := hcloses b ((List.mem_cons.1 (h.mem o b hob).2).resolve_left hbc)
    rcases h.apart a c o b hac hob hlt with hco | hbc
    · exact lt_asymm hoc hco
    · exact lt_asymm hcb hbc
  subst hao
  have hother : ∀ d e, P d e → (d ≠ a ↔ e ≠ c) := by
    refine fun d e hde => not_congr ⟨?_, ?_⟩
    · rintro rfl
      exact (hclosing e hde).trans (hclosing c hac).symm
    · rintro rfl
      exact hopening d hde
  have ha : a ∉ opens := fun ha => by
    rcases hopens a ha with hlt | hlt
    · exact lt_irrefl a hlt
    · exact lt_asymm hoc hlt
  have hc : c ∉ closes := fun hc => lt_irrefl c (hcloses c hc)
  refine ⟨hac, fun d e hde => ⟨?_, ?_⟩, fun d e hde => h.lt d e hde.1, fun d hd => ?_,
    fun e he => ?_, fun d e f g hde hfg => h.apart d e f g hde.1 hfg.1⟩
  · exact (List.mem_cons.1 (h.mem d e hde.1).1).resolve_left hde.2
  · exact (List.mem_cons.1 (h.mem d e hde.1).2).resolve_left ((hother d e hde.1).1 hde.2)
  · obtain ⟨e, hde, hunique⟩ := h.closing d (List.mem_cons_of_mem a hd)
    exact ⟨e, ⟨hde, fun hda => ha (hda ▸ hd)⟩, fun f hdf => hunique f hdf.1⟩
  · obtain ⟨d, hde, hunique⟩ := h.opening e (List.mem_cons_of_mem c he)
    exact ⟨d, ⟨hde, (hother d e hde).2 fun hec => hc (hec ▸ he)⟩, fun f hfe => hunique f hfe.1⟩

/-! ## From one closing position to the next -/

/-- The state between two closing positions: what waits stands in front of all the rest, the latest
first, and no position is both an opening and a closing one. -/
structure IsReady (waiting opens closes : List α) : Prop where
  descending : waiting.Pairwise (· > ·)
  ascending : opens.Pairwise (· < ·)
  ascending_closes : closes.Pairwise (· < ·)
  lt_opens : ∀ w ∈ waiting, ∀ o ∈ opens, w < o
  lt_closes : ∀ w ∈ waiting, ∀ c ∈ closes, w < c
  disjoint : ∀ o ∈ opens, o ∉ closes

/-- Behind the opening positions in front of `c` come only such that stand behind it. -/
theorem lt_of_mem_dropWhile (hopens : opens.Pairwise (· < ·)) (hc : c ∉ opens) {a : α}
    (ha : a ∈ opens.dropWhile (· < c)) : c < a := by
  induction opens with
  | nil => cases ha
  | cons b opens ih =>
    obtain ⟨hb, hopens⟩ := List.pairwise_cons.1 hopens
    obtain ⟨hcb, hc⟩ := List.ne_and_not_mem_of_not_mem_cons hc
    by_cases hbc : b < c
    · rw [List.dropWhile_cons_of_pos (by simpa using hbc)] at ha
      exact ih hopens hc ha
    · rw [List.dropWhile_cons_of_neg (by simpa using hbc)] at ha
      have hlt : c < b := lt_of_le_of_ne (not_lt.1 hbc) hcb
      rcases List.mem_cons.1 ha with rfl | ha
      · exact hlt
      · exact hlt.trans (hb a ha)

/-- The next closing position finds nothing waiting, or it takes the last opening position in front
of it and leaves the state ready for the rest. -/
theorem IsReady.close_cons (h : IsReady waiting opens (c :: closes)) :
    (close waiting opens (c :: closes) = none ∧ ∀ a ∈ waiting ++ opens, c < a) ∨
    ∃ o waiting' opens',
      close waiting opens (c :: closes) = (close waiting' opens' closes).map ((o, c) :: ·) ∧
      (waiting ++ opens).Perm (o :: (waiting' ++ opens')) ∧ o < c ∧
      (∀ a ∈ waiting' ++ opens', a < o ∨ c < a) ∧ IsReady waiting' opens' closes := by
  have hbehind : ∀ a ∈ opens.dropWhile (· < c), c < a := fun a ha =>
    lt_of_mem_dropWhile h.ascending (fun hc => h.disjoint c hc List.mem_cons_self) ha
  have hfront : ∀ a ∈ opens.takeWhile (· < c), a < c := fun a ha => by
    simpa using List.all_eq_true.1 List.all_takeWhile a ha
  obtain ⟨hc, hcloses⟩ := List.pairwise_cons.1 h.ascending_closes
  rw [close]
  have hsplit : opens = opens.takeWhile (· < c) ++ opens.dropWhile (· < c) :=
    List.takeWhile_append_dropWhile.symm
  generalize opens.takeWhile (· < c) = front, opens.dropWhile (· < c) = back at *
  subst hsplit
  obtain ⟨hascending, hback, -⟩ := List.pairwise_append.1 h.ascending
  -- what waits now, the latest first, all of it in front of `c`
  have hstack : (front.reverse ++ waiting).Pairwise (· > ·) ∧
      ∀ a ∈ front.reverse ++ waiting, a < c := by
    refine ⟨List.pairwise_append.2 ⟨List.pairwise_reverse.2 hascending, h.descending, ?_⟩, ?_⟩
    · intro a ha w hw
      exact h.lt_opens w hw a (List.mem_append_left back (List.mem_reverse.1 ha))
    · intro a ha
      rcases List.mem_append.1 ha with ha | ha
      · exact hfront a (List.mem_reverse.1 ha)
      · exact h.lt_closes a ha c List.mem_cons_self
  have hperm : (waiting ++ (front ++ back)).Perm (front.reverse ++ waiting ++ back) := by
    rw [← List.append_assoc]
    refine List.Perm.append_right back (List.perm_append_comm.trans ?_)
    exact List.Perm.append_right waiting (List.reverse_perm front).symm
  generalize front.reverse ++ waiting = stack at hstack hperm
  cases stack with
  | nil => exact .inl ⟨rfl, fun a ha => hbehind a (hperm.mem_iff.1 ha)⟩
  | cons o waiting' =>
    obtain ⟨hdescending, hlt⟩ := hstack
    obtain ⟨ho, hdescending⟩ := List.pairwise_cons.1 hdescending
    have hoc := hlt o List.mem_cons_self
    have hwaiting : ∀ w ∈ waiting', w < c := fun w hw => hlt w (List.mem_cons_of_mem o hw)
    refine .inr ⟨o, waiting', back, rfl, hperm, hoc, fun a ha => ?_, hdescending, hback, hcloses,
      fun w hw a ha => (hwaiting w hw).trans (hbehind a ha),
      fun w hw d hd => (hwaiting w hw).trans (hc d hd),
      fun a ha had => h.disjoint a (List.mem_append_right front ha) (List.mem_cons_of_mem c had)⟩
    exact (List.mem_append.1 ha).imp (ho a) (hbehind a)

/-! ## Pairing -/

/-- Where there are no positions there is nothing to pair. -/
theorem isMatching_nil : IsMatching [] [] fun a b => (a, b) ∈ ([] : List (α × α)) where
  mem _ _ := nofun
  lt _ _ := nofun
  closing _ := nofun
  opening _ := nofun
  apart _ _ _ _ := nofun

/-- A pairing is one without crossings, and each opening position has one entry in it. -/
theorem IsReady.isMatching (h : IsReady waiting opens closes)
    (hlength : waiting.length + opens.length = closes.length)
    (hpairs : close waiting opens closes = some pairs) :
    IsMatching (waiting ++ opens) closes (fun a b => (a, b) ∈ pairs) ∧
      (pairs.map Prod.fst).Perm (waiting ++ opens) := by
  induction closes generalizing waiting opens pairs with
  | nil =>
    obtain ⟨rfl, rfl⟩ : waiting = [] ∧ opens = [] := by
      rwa [List.length_nil, Nat.add_eq_zero_iff, List.length_eq_zero_iff,
        List.length_eq_zero_iff] at hlength
    obtain rfl := Option.some.inj hpairs
    exact ⟨isMatching_nil, .nil⟩
  | cons c closes ih =>
    obtain ⟨hnone, -⟩ | ⟨o, waiting', opens', hclose, hperm, hoc, hopens, hready⟩ := h.close_cons
    · rw [hnone] at hpairs
      cases hpairs
    · rw [hclose] at hpairs
      obtain ⟨rest, hrest, rfl⟩ := Option.map_eq_some_iff.1 hpairs
      have hcount := hperm.length_eq
      rw [List.length_append, List.length_cons, List.length_append] at hcount
      rw [List.length_cons] at hlength
      obtain ⟨hmatching, hfirsts⟩ := ih hready (by omega) hrest
      have hcloses := (List.pairwise_cons.1 h.ascending_closes).1
      refine ⟨?_, (hfirsts.cons o).trans hperm.symm⟩
      have hcons := (hmatching.cons hoc hopens hcloses).of_perm hperm
      simpa only [List.mem_cons, Prod.mk.injEq] using hcons

/-- No other pairs have no crossings. -/
theorem IsReady.eq_of_isMatching (h : IsReady waiting opens closes)
    (hpairs : close waiting opens closes = some pairs)
    (hmatching : IsMatching (waiting ++ opens) closes P) (a b : α) : P a b ↔ (a, b) ∈ pairs := by
  induction closes generalizing waiting opens pairs P with
  | nil =>
    obtain rfl := Option.some.inj hpairs
    exact ⟨fun hab => absurd (hmatching.mem a b hab).2 List.not_mem_nil, nofun⟩
  | cons c closes ih =>
    obtain ⟨hnone, -⟩ | ⟨o, waiting', opens', hclose, hperm, hoc, hopens, hready⟩ := h.close_cons
    · rw [hnone] at hpairs
      cases hpairs
    · rw [hclose] at hpairs
      obtain ⟨rest, hrest, rfl⟩ := Option.map_eq_some_iff.1 hpairs
      have hcloses := (List.pairwise_cons.1 h.ascending_closes).1
      obtain ⟨hocP, hothers⟩ := (hmatching.of_perm hperm.symm).uncons hoc hopens hcloses
      rw [List.mem_cons, Prod.mk.injEq, ← ih hready hrest hothers]
      by_cases hao : a = o
      · subst hao
        obtain ⟨d, -, hunique⟩ := hmatching.closing a (hperm.mem_iff.2 List.mem_cons_self)
        refine ⟨fun hab => .inl ⟨rfl, (hunique b hab).trans (hunique c hocP).symm⟩, ?_⟩
        rintro (⟨-, rfl⟩ | ⟨hab, -⟩)
        · exact hocP
        · exact hab
      · simp only [hao, false_and, false_or, ne_eq, not_false_eq_true, and_true]

/-! ## When there is no pairing -/

/-- Of ascending positions at most `k` stand in front of `c` just when the one with the number `k`
does not. -/
theorem countP_lt_le_iff (hopens : opens.Pairwise (· < ·)) (k : Nat) :
    opens.countP (· < c) ≤ k ↔ ∀ o, opens[k]? = some o → ¬o < c := by
  induction opens generalizing k with
  | nil => simp
  | cons b opens ih =>
    obtain ⟨hb, hopens⟩ := List.pairwise_cons.1 hopens
    by_cases hbc : b < c
    · rw [List.countP_cons_of_pos (by simpa using hbc)]
      cases k with
      | zero => simp [hbc]
      | succ k => rw [Nat.add_le_add_iff_right, ih hopens, List.getElem?_cons_succ]
    · have hall : ∀ a ∈ b :: opens, ¬a < c := by
        refine List.forall_mem_cons.2 ⟨hbc, fun a ha hac => hbc ((hb a ha).trans hac)⟩
      have hzero : (b :: opens).countP (· < c) = 0 :=
        List.countP_eq_zero.2 fun a ha => by simpa using hall a ha
      rw [hzero]
      exact ⟨fun _ a ha => hall a (List.mem_of_getElem? ha), fun _ => Nat.zero_le k⟩

/-- There is no pairing just when some closing position has too few opening ones in front of it. -/
theorem IsReady.close_eq_none_iff (h : IsReady waiting opens closes) :
    close waiting opens closes = none ↔
      ∃ k c, closes[k]? = some c ∧ (waiting ++ opens).countP (· < c) ≤ k := by
  induction closes generalizing waiting opens with
  | nil => simp [close]
  | cons c closes ih =>
    obtain ⟨hnone, hbehind⟩ | ⟨o, waiting', opens', hclose, hperm, hoc, -, hready⟩ := h.close_cons
    · refine iff_of_true hnone ⟨0, c, rfl, Nat.le_of_eq (List.countP_eq_zero.2 fun a ha => ?_)⟩
      simpa using (hbehind a ha).le
    · have hcount : ∀ d, o < d → (waiting ++ opens).countP (· < d) =
          (waiting' ++ opens').countP (· < d) + 1 := by
        intro d hod
        rw [hperm.countP_eq, List.countP_cons_of_pos (by simpa using hod)]
      have hcloses := (List.pairwise_cons.1 h.ascending_closes).1
      rw [hclose, Option.map_eq_none_iff, ih hready]
      constructor
      · rintro ⟨k, d, hd, hle⟩
        have hod := hoc.trans (hcloses d (List.mem_of_getElem? hd))
        exact ⟨k + 1, d, hd, by rw [hcount d hod]; exact Nat.succ_le_succ hle⟩
      · rintro ⟨k, d, hd, hle⟩
        cases k with
        | zero =>
          obtain rfl := Option.some.inj hd
          rw [hcount c hoc] at hle
          exact absurd hle (Nat.not_succ_le_zero _)
        | succ k =>
          have hod := hoc.trans (hcloses d (List.mem_of_getElem? hd))
          rw [hcount d hod] at hle
          exact ⟨k, d, hd, Nat.le_of_succ_le_succ hle⟩

/-! ## The pairing of ascending positions -/

/-- **Pairing finds the only pairs without crossings.**  Let the opening and the closing positions
ascend, and let none be both.  There is no pairing just when the numbers of positions differ or some
closing position stands in front of the opening one with the same number.  Otherwise the pairing has
one entry for each opening position, its pairs do not cross, and no other pairs do not cross. -/
theorem pair_matching (hopens : opens.Pairwise (· < ·)) (hcloses : closes.Pairwise (· < ·))
    (hdisjoint : ∀ o ∈ opens, o ∉ closes) :
    (pair opens closes = none ↔ opens.length ≠ closes.length ∨
      ∃ (k : Nat) (o c : α), opens[k]? = some o ∧ closes[k]? = some c ∧ c < o) ∧
    ∀ pairs, pair opens closes = some pairs →
      (pairs.map Prod.fst).Nodup ∧ IsMatching opens closes (fun a b => (a, b) ∈ pairs) ∧
      ∀ P, IsMatching opens closes P → ∀ a b, P a b ↔ (a, b) ∈ pairs := by
  have hready : IsReady [] opens closes :=
    ⟨.nil, hopens, hcloses, fun _ hw => absurd hw List.not_mem_nil,
      fun _ hw => absurd hw List.not_mem_nil, hdisjoint⟩
  by_cases hlength : opens.length = closes.length
  · rw [pair, if_pos hlength]
    refine ⟨?_, fun pairs hpairs => ?_⟩
    · rw [hready.close_eq_none_iff, List.nil_append, or_iff_right (not_not_intro hlength)]
      refine exists_congr fun k => ⟨?_, ?_⟩
      · rintro ⟨c, hc, hle⟩
        have hk : k < opens.length := hlength ▸ (List.getElem?_eq_some_iff.1 hc).1
        have ho := List.getElem?_eq_getElem hk
        have hne : opens[k] ≠ c := fun heq =>
          hdisjoint c (heq ▸ List.getElem_mem hk) (List.mem_of_getElem? hc)
        have hnlt := (countP_lt_le_iff hopens k).1 hle _ ho
        exact ⟨opens[k], c, ho, hc, lt_of_le_of_ne (not_lt.1 hnlt) hne.symm⟩
      · rintro ⟨o, c, ho, hc, hlt⟩
        refine ⟨c, hc, (countP_lt_le_iff hopens k).2 fun a ha => ?_⟩
        obtain rfl := Option.some.inj (ho.symm.trans ha)
        exact lt_asymm hlt
    · obtain ⟨hmatching, hperm⟩ := hready.isMatching (by rwa [List.length_nil, Nat.zero_add]) hpairs
      refine ⟨hperm.nodup_iff.2 (hopens.imp ne_of_lt), hmatching, fun P hP => ?_⟩
      exact hready.eq_of_isMatching hpairs hP
  · rw [pair, if_neg hlength]
    exact ⟨iff_of_true rfl (.inl hlength), fun pairs hpairs =>
      absurd hpairs.symm (Option.some_ne_none pairs)⟩

/-- Two nested pairs and one behind them, of which some positions are negative. -/
theorem pair_matching_nested :
    let opens : List Int := [-5, -2, 4]
    let closes : List Int := [-1, 0, 9]
    let pairs := [(-2, -1), (-5, 0), (4, 9)]
    opens.Pairwise (· < ·) ∧ closes.Pairwise (· < ·) ∧ (∀ o ∈ opens, o ∉ closes) ∧
      pair opens closes = some pairs ∧ IsMatching opens closes (fun a b => (a, b) ∈ pairs) ∧
      ∀ P, IsMatching opens closes P → P (-5) 0 ∧ ¬P (-5) (-1) := by
  intro opens closes pairs
  have hopens : opens.Pairwise (· < ·) := by decide
  have hcloses : closes.Pairwise (· < ·) := by decide
  have hdisjoint : ∀ o ∈ opens, o ∉ closes := by decide
  have hpairs : pair opens closes = some pairs := by decide
  obtain ⟨-, hmatching, honly⟩ := (pair_matching hopens hcloses hdisjoint).2 pairs hpairs
  refine ⟨hopens, hcloses, hdisjoint, hpairs, hmatching, fun P hP => ?_⟩
  rw [honly P hP, honly P hP]
  decide

end Pairing
end CustomProps
