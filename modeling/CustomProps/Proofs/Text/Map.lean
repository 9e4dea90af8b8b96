import CustomProps.Text.Map

/-!
# Maps and their values

* `TextMap.IsSorted` — the names ascend, so each stands there once.
* `TextMap.ext_iff` — sorted maps are equal when they give every name the same value.
* `TextMap.get?_ofList_eq_some_iff` — a list of entries gives to a name the value listed last for
it.
-/

set_option autoImplicit false

namespace CustomProps

namespace Text

theorem not_before_self (a : Text) : ¬a.before a := by
  rw [before, decide_eq_true_eq]
  exact List.lt_irrefl a

theorem before_trans {a b c : Text} (hab : a.before b) (hbc : b.before c) : a.before c := by
  rw [before, decide_eq_true_eq] at hab hbc ⊢
  exact List.lt_trans hab hbc

theorem before_of_not_before {a b : Text} (hne : a ≠ b) (h : ¬a.before b) : b.before a := by
  rw [before, decide_eq_true_eq] at h ⊢
  exact Decidable.byContradiction fun hba =>
    hne (List.le_antisymm (List.not_lt.1 hba) (List.not_lt.1 h))

end Text

namespace TextMap

variable {β : Type} {map : TextMap β}

/-- The names ascend. -/
def IsSorted (map : TextMap β) : Prop := map.Pairwise fun a b => a.1.before b.1

theorem isSorted_empty : (empty : TextMap β).IsSorted := .nil

theorem mem_insert {name : Text} {value : β} {entry : Text × β}
    (h : entry ∈ map.insert name value) : entry = (name, value) ∨ entry ∈ map := by
  induction map with
  | nil => exact .inl (List.mem_singleton.1 h)
  | cons first rest ih =>
    obtain ⟨n, v⟩ := first
    rw [insert] at h
    split at h
    · exact (List.mem_cons.1 h).imp_right (List.mem_cons_of_mem _)
    · split at h
      · exact List.mem_cons.1 h
      · rcases List.mem_cons.1 h with rfl | h
        · exact .inr List.mem_cons_self
        · exact (ih h).imp_right (List.mem_cons_of_mem _)

theorem IsSorted.insert (h : map.IsSorted) (name : Text) (value : β) :
    (map.insert name value).IsSorted := by
  induction map with
  | nil => exact List.pairwise_singleton _ _
  | cons first rest ih =>
    obtain ⟨n, v⟩ := first
    obtain ⟨hfirst, hrest⟩ := List.pairwise_cons.1 h
    rw [TextMap.insert]
    split
    · rename_i heq
      subst heq
      exact .cons hfirst hrest
    · rename_i hne
      split
      · rename_i hbefore
        refine .cons (fun entry hentry => ?_) h
        rcases List.mem_cons.1 hentry with rfl | hentry
        · exact hbefore
        · exact Text.before_trans hbefore (hfirst entry hentry)
      · rename_i hnot
        refine .cons (fun entry hentry => ?_) (ih hrest)
        rcases mem_insert hentry with rfl | hentry
        · exact Text.before_of_not_before hne hnot
        · exact hfirst entry hentry

theorem mem_of_get? {name : Text} {value : β} (h : map.get? name = some value) :
    (name, value) ∈ map := by
  obtain ⟨front, back, hmap, -⟩ := List.lookup_eq_some_iff.1 h
  rw [hmap]
  simp

/-- The first name of a sorted map does not come again. -/
theorem IsSorted.get?_tail {name : Text} {value : β} {rest : TextMap β}
    (h : IsSorted ((name, value) :: rest)) : rest.get? name = none := by
  rw [Option.eq_none_iff_forall_ne_some]
  intro other hother
  exact Text.not_before_self name ((List.pairwise_cons.1 h).1 (name, other) (mem_of_get? hother))

/-- The entries of a sorted map are the values that it gives. -/
theorem IsSorted.mem_iff {name : Text} {value : β} (h : map.IsSorted) :
    (name, value) ∈ map ↔ map.get? name = some value := by
  refine ⟨fun hmem => ?_, mem_of_get?⟩
  induction map with
  | nil => cases hmem
  | cons first rest ih =>
    obtain ⟨n, v⟩ := first
    rw [get?_cons]
    rcases List.mem_cons.1 hmem with heq | hmem
    · obtain ⟨rfl, rfl⟩ := Prod.mk.inj heq
      exact if_pos rfl
    · have hrest := ih (List.pairwise_cons.1 h).2 hmem
      rw [if_neg]
      · exact hrest
      · rintro rfl
        cases h.get?_tail.symm.trans hrest

/-- Two sorted maps that give each other's first names a value start with the same name. -/
theorem IsSorted.first_eq {n m : Text} {v w : β} {rest others : TextMap β}
    (h : IsSorted ((n, v) :: rest)) (h' : IsSorted ((m, w) :: others))
    (hget : ∀ name, get? ((n, v) :: rest) name = get? ((m, w) :: others) name) : n = m := by
  refine Decidable.byContradiction fun hne => ?_
  have hn : others.get? n = some v := by
    have hsame := hget n
    rw [get?_cons, get?_cons, if_pos rfl, if_neg hne] at hsame
    exact hsame.symm
  have hm : rest.get? m = some w := by
    have hsame := hget m
    rw [get?_cons, get?_cons, if_pos rfl, if_neg (Ne.symm hne)] at hsame
    exact hsame
  have hnm := (List.pairwise_cons.1 h).1 (m, w) (mem_of_get? hm)
  have hmn := (List.pairwise_cons.1 h').1 (n, v) (mem_of_get? hn)
  exact Text.not_before_self n (Text.before_trans hnm hmn)

/-- Sorted maps are equal just when they give every name the same value. -/
theorem IsSorted.ext_iff {map' : TextMap β} (h : map.IsSorted) (h' : map'.IsSorted) :
    map = map' ↔ ∀ name, map.get? name = map'.get? name := by
  refine ⟨fun heq _ => by rw [heq], fun hget => ?_⟩
  induction map generalizing map' with
  | nil =>
    cases map' with
    | nil => rfl
    | cons first rest =>
      have hsame := hget first.1
      rw [get?_cons, if_pos rfl] at hsame
      cases hsame
  | cons first rest ih =>
    obtain ⟨n, v⟩ := first
    cases map' with
    | nil =>
      have hsame := hget n
      rw [get?_cons, if_pos rfl] at hsame
      cases hsame
    | cons first' others =>
      obtain ⟨m, w⟩ := first'
      obtain rfl := h.first_eq h' hget
      have hvalue := hget n
      rw [get?_cons, get?_cons, if_pos rfl, if_pos rfl, Option.some.injEq] at hvalue
      subst hvalue
      refine congrArg _ (ih (List.pairwise_cons.1 h).2 (List.pairwise_cons.1 h').2 fun name => ?_)
      have hsame := hget name
      rw [get?_cons, get?_cons] at hsame
      split at hsame
      · rename_i heq
        rw [heq, h.get?_tail, h'.get?_tail]
      · exact hsame

/-! ## Maps from lists -/

theorem isSorted_ofList (entries : List (Text × β)) : (ofList entries).IsSorted := by
  rw [ofList]
  generalize hstart : (empty : TextMap β) = start
  have hsorted : start.IsSorted := hstart ▸ isSorted_empty
  clear hstart
  induction entries generalizing start with
  | nil => exact hsorted
  | cons entry entries ih => exact ih _ (hsorted.insert entry.1 entry.2)

/-- The last entry of a name counts, so the first one from behind. -/
theorem get?_ofList (entries : List (Text × β)) (name : Text) :
    (ofList entries).get? name = entries.reverse.lookup name := by
  have hfold : ∀ start : TextMap β,
      (entries.foldl (fun map entry => map.insert entry.1 entry.2) start).get? name =
        (entries.reverse.lookup name).or (start.get? name) := by
    induction entries with
    | nil => exact fun _ => rfl
    | cons entry entries ih =>
      intro start
      have hsingle : [entry].lookup name = if name = entry.1 then some entry.2 else none :=
        get?_cons entry.1 entry.2 [] name
      rw [List.foldl_cons, ih, get?_insert, List.reverse_cons, List.lookup_append, hsingle,
        Option.or_assoc]
      split <;> rfl
  exact (hfold empty).trans Option.or_none

/-- A name is given the value of its last entry. -/
theorem get?_ofList_eq_some_iff {entries : List (Text × β)} {name : Text} {value : β} :
    (ofList entries).get? name = some value ↔ ∃ before after,
      entries = before ++ (name, value) :: after ∧ ∀ entry ∈ after, entry.1 ≠ name := by
  rw [get?_ofList, List.lookup_eq_some_iff]
  constructor
  · rintro ⟨after, before, hentries, hafter⟩
    refine ⟨before.reverse, after.reverse, ?_, fun entry hentry => ?_⟩
    · rw [← List.reverse_reverse entries, hentries]
      simp
    · have hne := hafter entry (List.mem_reverse.1 hentry)
      exact Ne.symm (bne_iff_ne.1 hne)
  · rintro ⟨before, after, rfl, hafter⟩
    refine ⟨after.reverse, before.reverse, by simp, fun entry hentry => ?_⟩
    exact bne_iff_ne.2 (hafter entry (List.mem_reverse.1 hentry)).symm

/-- What a name is given is listed for it. -/
theorem mem_of_get?_ofList {entries : List (Text × β)} {name : Text} {value : β}
    (h : (ofList entries).get? name = some value) : (name, value) ∈ entries := by
  obtain ⟨before, after, rfl, -⟩ := get?_ofList_eq_some_iff.1 h
  exact List.mem_append_right before List.mem_cons_self

end TextMap
end CustomProps
