import CustomProps.Proofs.Session.Sound

/-!
# Looking at scopes and memos

Whatever is only a question leaves a session sound and changes no answer.  It fails only where a
scope is asked whose path never reaches the system.

* `Session.Along` — what holds of a session and the one that a computation leads to.
* `Session.Looks` — a computation that leads from sound sessions to sound ones and only looks.
* `Session.refresh_eq` — a look at a scope.
* `Transformer.IsFaithful` — what transforms blocks as the scopes are now.
* `Session.find?_eq_some` — what is found in a memo is right.
* `Session.keepResult_spec` — and so is what is kept.
-/

set_option autoImplicit false

namespace CustomProps
namespace Session

variable {α β : Type} {s : Session}

/-! ## Computations that may fail -/

/-- A part that succeeds is followed by the rest. -/
theorem bind_of_ok {m : LookM α} {a : α} {later : Session} (h : m s = (.ok a, later))
    (next : α → LookM β) : (m >>= next) s = next a later := by
  show (ExceptT.bindCont next (m s).1 (m s).2) = _
  rw [h]
  rfl

/-- A part that fails is followed by nothing. -/
theorem bind_of_error {m : LookM α} {error : FileError} {later : Session}
    (h : m s = (.error error, later)) (next : α → LookM β) :
    (m >>= next) s = (.error error, later) := by
  show (ExceptT.bindCont next (m s).1 (m s).2) = _
  rw [h]
  rfl

theorem map_apply (read : α → β) (m : LookM α) (s : Session) :
    (do return read (← m) : LookM β) s = ((m s).1.map read, (m s).2) := by
  cases hm : (m s).1 with
  | ok a => exact bind_of_ok (Prod.ext hm rfl) _
  | error error => exact bind_of_error (Prod.ext hm rfl) _

theorem lift_apply (m : SessionM α) (s : Session) :
    (liftM m : LookM α) s = (.ok (m s).1, (m s).2) :=
  rfl

/-- A step is done as it acts, and answered by the error if it fails. -/
theorem perform_eq (step : Step) (s : Session) :
    perform step s = (match (act step s).1 with
      | .ok answer => answer
      | .error error => .raised error, (act step s).2) := by
  show (match (act step s).1 with
    | .ok answer => (Pure.pure answer : SessionM Answer)
    | .error error => Pure.pure (.raised error)) (act step s).2 = _
  cases (act step s).1 <;> rfl

theorem perform_snd (step : Step) (s : Session) : (perform step s).2 = (act step s).2 := by
  rw [perform_eq]

/-! ## What holds along a computation -/

/-- Whatever the session, the computation leads to one that the relation allows. -/
def Along (r : Session → Session → Prop) (m : SessionM α) : Prop := ∀ s : Session, r s (m s).2

namespace Along

variable {r : Session → Session → Prop} [IsPreorder Session r]

theorem pure (a : α) : Along r (pure a : SessionM α) := fun s => refl_of r s

theorem get : Along r (MonadState.get : SessionM Session) := fun s => refl_of r s

theorem bind {m : SessionM α} {next : α → SessionM β} (hm : Along r m)
    (hnext : ∀ a, Along r (next a)) : Along r (m >>= next : SessionM β) :=
  fun s => trans_of r (hm s) (hnext (m s).1 (m s).2)

omit [IsPreorder Session r] in
theorem lift {m : SessionM α} (hm : Along r m) : Along r (liftM m : LookM α) := hm

theorem pureLook (a : α) : Along r (Pure.pure a : LookM α) := .pure (Except.ok a)

theorem bindLook {m : LookM α} {next : α → LookM β} (hm : Along r m)
    (hnext : ∀ a, Along r (next a)) : Along r (m >>= next : LookM β) := by
  have hcont : ∀ outcome, Along r (ExceptT.bindCont next outcome) := by
    intro outcome
    cases outcome with
    | ok a => exact hnext a
    | error error => exact .pure (Except.error error)
  exact Along.bind hm hcont

theorem mapM {f : α → LookM β} : ∀ l : List α, (∀ a ∈ l, Along r (f a)) →
    Along r (l.mapM f : LookM (List β))
  | [], _ => .pureLook []
  | a :: l, hf => by
    have hrest := Along.mapM l fun b hb => hf b (List.mem_cons_of_mem a hb)
    rw [List.mapM_cons]
    exact (hf a List.mem_cons_self).bindLook fun b => hrest.bindLook fun bs => .pureLook (b :: bs)

end Along

/-! ## Questions -/

/-- Leads from sound sessions to sound ones that only looked. -/
def LooksTo (s later : Session) : Prop := s.IsSound → later.IsSound ∧ s.Looked later

instance : IsPreorder Session LooksTo where
  refl s hs := ⟨hs, .refl s⟩
  trans _ _ _ h h' hs := ⟨(h' (h hs).1).1, (h hs).2.trans (h' (h hs).1).2⟩

/-- Leads from sound sessions to sound ones and only looks at them. -/
abbrev Looks (m : SessionM α) : Prop := Along LooksTo m

/-- A list of questions is answered as if each were the only one, up to the first that fails. -/
theorem mapM_fst (f : α → LookM β) (failure : Session → α → Option FileError)
    (answer : Session → α → β) (hf : ∀ a, Looks (f a))
    (hanswer : ∀ a (s : Session), s.IsSound → (f a s).1 = settle (failure s a) (answer s a))
    (hlooked : ∀ (s later : Session), s.Looked later →
      failure later = failure s ∧ answer later = answer s) :
    ∀ (l : List α) (s : Session), s.IsSound →
      ((l.mapM f : LookM (List β)) s).1 = settle (l.findSome? (failure s)) (l.map (answer s))
  | [], _, _ => rfl
  | a :: l, s, hs => by
    obtain ⟨hsound, hlater⟩ := hf a s hs
    have hrest := mapM_fst f failure answer hf hanswer hlooked l (f a s).2 hsound
    rw [(hlooked s _ hlater).1, (hlooked s _ hlater).2] at hrest
    have hfirst := hanswer a s hs
    rw [List.mapM_cons, List.findSome?_cons, List.map_cons]
    cases hfailure : failure s a with
    | some error =>
      rw [hfailure] at hfirst
      rw [bind_of_error (Prod.ext hfirst rfl)]
      rfl
    | none =>
      rw [hfailure] at hfirst
      rw [bind_of_ok (Prod.ext hfirst rfl)]
      cases hfailures : l.findSome? (failure s) with
      | some error =>
        rw [hfailures] at hrest
        rw [bind_of_error (Prod.ext hrest rfl)]
        rfl
      | none =>
        rw [hfailures] at hrest
        rw [bind_of_ok (Prod.ext hrest rfl)]
        rfl

/-! ## Scopes -/

theorem IsSound.of_looked {later : Session} (h : s.IsSound) (hlooked : s.Looked later)
    (hmemos : later.memos = s.memos) : later.IsSound :=
  h.continue hlooked.continues (fun slot hslot => ⟨slot, hmemos ▸ hslot, rfl, fun _ he => he⟩)
    hlooked.plugins

/-- Writing back a scope that took its look is a look. -/
theorem looked_set (s : Session) (k : Nat) (journal : List Event) :
    s.Looked { s with scopes := s.scopes.set k (s.scopeNow k), journal } where
  files := rfl
  scopes j := by
    show (s.scopes.set k (s.scopeNow k))[j]? = _ ∨ (s.scopes.set k (s.scopeNow k))[j]? = _
    rw [List.getElem?_set]
    split
    · rename_i hjk
      subst hjk
      split
      · rename_i hlt
        right
        rw [scopeNow, List.getElem?_eq_getElem hlt]
        rfl
      · rename_i hle
        left
        rw [List.getElem?_eq_none (Nat.le_of_not_lt hle)]
    · exact .inl rfl
  memos _ := rfl
  plugins := rfl

theorem looked_journal (s : Session) (journal : List Event) :
    s.Looked { s with journal } :=
  ⟨rfl, fun _ => .inl rfl, fun _ => rfl, rfl⟩

theorem looks_note (events : List Event) : Looks (note events) := by
  intro s hs
  exact ⟨hs.of_looked (looked_journal s _) rfl, looked_journal s _⟩

/-- A scope that is not there is empty, and one that is refused stays as it is, so that a look comes
to writing back the scope as it is now in any case. -/
theorem refresh_eq (k : Nat) (s : Session) :
    ∃ journal, refresh k s = (settle (s.refusal? k) (s.scopeNow k),
      { s with scopes := s.scopes.set k (s.scopeNow k), journal }) := by
  unfold refresh
  cases hk : s.scopes[k]? with
  | none =>
    have hnow : s.scopeNow k = .empty := by
      rw [scopeNow, hk]
      rfl
    have hrefusal : s.refusal? k = none := by
      rw [refusal?, hk]
      rfl
    have hset : s.scopes.set k (s.scopeNow k) = s.scopes :=
      List.set_eq_of_length_le (List.getElem?_eq_none_iff.1 hk)
    refine ⟨s.journal, ?_⟩
    rw [hset, hrefusal, hnow]
    rfl
  | some scope =>
    rw [scopeNow_eq hk, refusal?_eq hk]
    dsimp only
    cases hrefusal : scope.refusal? with
    | none =>
      obtain ⟨events, hrefresh⟩ := Scope.exists_refresh_eq s.files hrefusal
      rw [hrefresh]
      exact ⟨_, rfl⟩
    | some error =>
      obtain ⟨hlt, hget⟩ := List.getElem?_eq_some_iff.1 hk
      have hset : s.scopes.set k scope = s.scopes := by
        rw [← hget, List.set_getElem_self]
      rw [Scope.refresh_of_refusal? hrefusal, Scope.looked_of_refusal? hrefusal, hset]
      exact ⟨s.journal, rfl⟩

theorem refresh_fst (k : Nat) (s : Session) :
    (refresh k s).1 = settle (s.refusal? k) (s.scopeNow k) := by
  obtain ⟨journal, heq⟩ := refresh_eq k s
  rw [heq]

theorem looked_refresh (k : Nat) (s : Session) : s.Looked (refresh k s).2 := by
  obtain ⟨journal, heq⟩ := refresh_eq k s
  rw [heq]
  exact looked_set s k journal

theorem memos_refresh (k : Nat) (s : Session) : (refresh k s).2.memos = s.memos := by
  obtain ⟨journal, heq⟩ := refresh_eq k s
  rw [heq]

theorem looks_refresh (k : Nat) : Looks (refresh k) := fun s hs =>
  ⟨hs.of_looked (looked_refresh k s) (memos_refresh k s), looked_refresh k s⟩

theorem version_eq (k : Nat) (s : Session) :
    version k s = (settle (s.refusal? k) (s.scopeNow k).version, (refresh k s).2) :=
  (map_apply Scope.version (refresh k) s).trans (by rw [refresh_fst, map_settle])

theorem lookup_eq (k : Nat) (name : Text) (s : Session) :
    lookup k name s = (settle (s.refusal? k) (s.answers k name), (refresh k s).2) :=
  (map_apply (fun scope : Scope => scope.get? name) (refresh k) s).trans
    (by rw [refresh_fst, map_settle, answers])

theorem looks_version (k : Nat) : Looks (version k) :=
  (looks_refresh k).bindLook fun _ => .pureLook _

theorem looks_lookup (k : Nat) (name : Text) : Looks (lookup k name) :=
  (looks_refresh k).bindLook fun _ => .pureLook _

theorem looks_consult (k : Nat) (result : Lookup → α) (trace : Lookup → List Moment) :
    Looks (consult k result trace) := by
  intro s hs
  have heq : ∃ journal, (consult k result trace s).2 = { s with journal } ∨
      (consult k result trace s).2 =
        { s with scopes := s.scopes.set k (s.scopeNow k), journal } := by
    rw [consult, scopeNow]
    dsimp only
    cases hrefusal : (s.scopes[k]?.getD .empty).refusal? with
    | none =>
      obtain ⟨events, hrefresh⟩ := Scope.exists_refresh_eq s.files hrefusal
      rw [hrefresh]
      dsimp only
      split
      · exact ⟨_, .inr rfl⟩
      · exact ⟨_, .inl rfl⟩
    | some error =>
      rw [Scope.refresh_of_refusal? hrefusal]
      exact ⟨_, .inl rfl⟩
  show (consult k result trace s).2.IsSound ∧ s.Looked (consult k result trace s).2
  obtain ⟨journal, heq | heq⟩ := heq <;> rw [heq]
  · exact ⟨hs.of_looked (looked_journal s journal) rfl, looked_journal s journal⟩
  · exact ⟨hs.of_looked (looked_set s k journal) rfl, looked_set s k journal⟩

theorem looks_transform (k : Nat) (content : Text) : Looks (transform k content) :=
  looks_consult k _ _

theorem looks_declarationFallback (k : Nat) (declaration : Text) :
    Looks (declarationFallback k declaration) :=
  looks_consult k _ _

end Session

/-! ## Transformers -/

/-- Transforms blocks as the scopes are now, and only looks at the session. -/
structure Transformer.IsFaithful (transformer : Transformer) : Prop where
  looks : ∀ k content, Session.Looks (transformer k content)
  fst_eq : ∀ k content (s : Session), (transformer k content s).1 =
    settle (s.failure? k (Block.trace content)) (Block.transform content (s.answers k))

namespace Session

variable {α β : Type} {s : Session} {transformer : Transformer}

theorem isFaithful_transform : Transformer.IsFaithful transform := ⟨looks_transform, transform_fst⟩

/-- Having the runs of transformers counted changes nothing else. -/
theorem looked_runs (s : Session) (runs : List (Nat × Text)) : s.Looked { s with runs } :=
  ⟨rfl, fun _ => .inl rfl, fun _ => rfl, rfl⟩

theorem counting_eq (j : Nat) (transformer : Transformer) (k : Nat) (content : Text) (s : Session) :
    counting j transformer k content s =
      transformer k content { s with runs := s.runs ++ [(j, content)] } :=
  rfl

theorem isFaithful_counting (h : transformer.IsFaithful) (j : Nat) :
    (counting j transformer).IsFaithful where
  looks k content s hs := by
    have hlooked := looked_runs s (s.runs ++ [(j, content)])
    obtain ⟨hsound, hlooked'⟩ := h.looks k content _ (hs.of_looked hlooked rfl)
    exact ⟨hsound, hlooked.trans hlooked'⟩
  fst_eq k content s := by
    have hlooked := looked_runs s (s.runs ++ [(j, content)])
    rw [counting_eq, h.fst_eq, hlooked.failure?, hlooked.answers]

/-! ## Memos -/

/-- The memo of a number, if it is there, or an empty one. -/
def slotAt (s : Session) (j : Nat) : MemoSlot := s.memos[j]?.getD ⟨0, .empty⟩

theorem slotAt_eq {j : Nat} {slot : MemoSlot} (h : s.memos[j]? = some slot) :
    s.slotAt j = slot := by
  rw [slotAt, h, Option.getD_some]

theorem memoSlot_eq (j : Nat) (s : Session) : memoSlot j s = (s.slotAt j, s) := rfl

theorem Looked.scope_slotAt {later : Session} (h : s.Looked later) (j : Nat) :
    (later.slotAt j).scope = (s.slotAt j).scope := by
  have hscope := h.memos j
  rw [slotAt, slotAt]
  cases hslot : s.memos[j]? with
  | none =>
    rw [hslot, Option.map_none, Option.map_eq_none_iff] at hscope
    rw [hscope]
  | some slot =>
    rw [hslot] at hscope
    obtain ⟨slot', hslot', heq⟩ := Option.map_eq_some_iff.1 hscope
    rw [hslot']
    exact heq

/-- A memo may change as long as it stays sound. -/
theorem sound_modifyMemo (hs : s.IsSound) (j : Nat) (change : Memo → Memo)
    (hchange : ∀ slot scope, s.memos[j]? = some slot → s.scopes[slot.scope]? = some scope →
      slot.memo.IsSound scope → (change slot.memo).IsSound scope) :
    (modifyMemo j change s).2.IsSound ∧ s.Looked (modifyMemo j change s).2 := by
  have hget : ∀ i : Nat, (modifyMemo j change s).2.memos[i]? =
      (s.memos[i]?).map fun slot => { slot with
        memo := (if j = i then change else id) slot.memo } := by
    intro i
    show (s.memos.modify j fun slot => { slot with memo := change slot.memo })[i]? = _
    rw [List.getElem?_modify]
    split <;> simp
  have hlooked : s.Looked (modifyMemo j change s).2 := by
    refine ⟨rfl, fun _ => .inl rfl, fun i => ?_, rfl⟩
    rw [hget]
    cases s.memos[i]? <;> rfl
  refine ⟨⟨fun slot' hslot' => ?_, fun plugin hplugin i hi => ?_⟩, hlooked⟩
  · obtain ⟨i, hi⟩ := List.mem_iff_getElem?.1 hslot'
    rw [hget] at hi
    obtain ⟨slot, hslot, rfl⟩ := Option.map_eq_some_iff.1 hi
    obtain ⟨scope, hscope, hsound⟩ := hs.memos slot (List.mem_of_getElem? hslot)
    refine ⟨scope, hscope, ?_⟩
    dsimp only
    split
    · rename_i hij
      subst hij
      exact hchange slot scope hslot hscope hsound
    · exact hsound
  · obtain ⟨slot, hslot', hscope⟩ := hs.plugins plugin hplugin i hi
    obtain ⟨slot', hi', hscope'⟩ := hlooked.continues.memos i slot hslot'
    exact ⟨slot', hi', hscope'.trans hscope⟩

/-- Counting and forgetting keep no new results. -/
theorem looks_modifyMemo {j : Nat} {change : Memo → Memo}
    (hentries : ∀ memo, (change memo).entries ⊆ memo.entries) : Looks (modifyMemo j change) := by
  intro s hs
  refine sound_modifyMemo hs j change fun slot scope _ _ hsound entry hentry => ?_
  exact hsound entry (hentries slot.memo hentry)

theorem looks_countHit (j : Nat) : Looks (modifyMemo j (·.countHit)) :=
  looks_modifyMemo fun memo => List.Subset.refl memo.entries

theorem looks_countMiss (j : Nat) : Looks (modifyMemo j (·.countMiss)) :=
  looks_modifyMemo fun memo => List.Subset.refl memo.entries

theorem looks_forget (j : Nat) : Looks (modifyMemo j (·.clear)) :=
  looks_modifyMemo fun memo => List.nil_subset memo.entries

theorem looks_memoSlot (j : Nat) : Looks (memoSlot j) := fun s hs => ⟨hs, .refl s⟩

theorem isSound_store {memo : Memo} {scope : Scope} (h : memo.IsSound scope) (content : Text) :
    (memo.store ⟨content, scope.version⟩ (Block.transform content scope.get?)).IsSound scope := by
  intro entry hentry
  simp only [Memo.store] at hentry
  split at hentry
  · exact h entry hentry
  · rcases List.mem_append.1 hentry with hentry | hentry
    · exact h entry hentry
    · obtain rfl := List.mem_singleton.1 hentry
      exact ⟨Nat.le_refl _, fun _ => rfl⟩

/-- The scope stands as it is after a look at the files. -/
def HasLooked (s : Session) (k : Nat) : Prop := ∀ scope, s.scopes[k]? = some scope →
  scope = s.scopeNow k

theorem hasLooked_refresh (k : Nat) (s : Session) : (refresh k s).2.HasLooked k := by
  obtain ⟨journal, heq⟩ := refresh_eq k s
  rw [heq]
  intro scope hscope
  rw [(looked_set s k journal).scopeNow k]
  obtain ⟨hlt, -⟩ := List.getElem?_eq_some_iff.1 hscope
  rw [List.length_set] at hlt
  rw [List.getElem?_set_self hlt] at hscope
  exact (Option.some.inj hscope).symm

theorem HasLooked.of_looked {k : Nat} {later : Session} (h : s.HasLooked k)
    (hlooked : s.Looked later) : later.HasLooked k := by
  intro scope hscope
  rw [hlooked.scopeNow k]
  rcases hlooked.scopes k with hk | hk
  · exact h scope (hk ▸ hscope)
  · rw [hk] at hscope
    obtain ⟨scope', hscope', rfl⟩ := Option.map_eq_some_iff.1 hscope
    rw [scopeNow_eq hscope']

/-- What is found is right. -/
theorem find?_eq_some {j k version : Nat} {content : Text} {result : Option Text} (hs : s.IsSound)
    (hj : (s.slotAt j).scope = k) (hk : s.HasLooked k) (hversion : (s.scopeNow k).version = version)
    (hfind : (s.slotAt j).memo.find? ⟨content, version⟩ = some result) :
    result = Block.transform content (s.answers k) := by
  subst hj hversion
  cases hslot : s.memos[j]? with
  | none =>
    rw [slotAt, hslot] at hfind
    cases hfind
  | some slot =>
    rw [slotAt_eq hslot] at hk hfind ⊢
    obtain ⟨front, back, hentries, -⟩ := List.lookup_eq_some_iff.1 hfind
    obtain ⟨scope, hscope, hsound⟩ := hs.memos slot (List.mem_of_getElem? hslot)
    obtain ⟨-, hresult⟩ := hsound
      (⟨content, (s.scopeNow slot.scope).version⟩, result) (by rw [hentries]; simp)
    rw [hk scope hscope] at hresult
    exact hresult rfl

/-- A result that is right is kept, or the one that is there already, which is the same. -/
theorem keepResult_spec (j : Nat) (content : Text) (hs : s.IsSound)
    (hk : s.HasLooked (s.slotAt j).scope) :
    let key : MemoKey := ⟨content, (s.scopeNow (s.slotAt j).scope).version⟩
    let result := Block.transform content (s.answers (s.slotAt j).scope)
    (keepResult j key result s).1 = result ∧ (keepResult j key result s).2.IsSound ∧
      s.Looked (keepResult j key result s).2 := by
  intro key result
  obtain ⟨hsound, hlooked⟩ := sound_modifyMemo hs j (·.store key result)
    fun slot scope hslot hscope hslotSound => by
      rw [slotAt_eq hslot] at hk
      have hnow : scope = s.scopeNow (s.slotAt j).scope := by
        rw [slotAt_eq hslot]
        exact hk scope hscope
      have hstored := isSound_store hslotSound content
      rwa [hnow] at hstored ⊢
  refine ⟨?_, hsound, hlooked⟩
  show (((modifyMemo j (·.store key result) s).2.slotAt j).memo.find? key).getD result = result
  cases hfind : ((modifyMemo j (·.store key result) s).2.slotAt j).memo.find? key with
  | none => rfl
  | some kept =>
    have hscope := hlooked.scope_slotAt j
    have hkept := find?_eq_some hsound hscope (hk.of_looked hlooked)
      (congrArg Scope.version (hlooked.scopeNow _)) hfind
    rw [Option.getD_some, hkept, hlooked.answers]

end Session
end CustomProps
