import CustomProps.Proofs.Scope.Version
import CustomProps.Session.Step

/-!
# Sound sessions

A session is sound when no memo keeps a wrong result: what is kept under the present version of a
scope is what the scope gives now, and nothing is kept under a version that is still to come.

* `Session.IsSound` — the invariant.
* `Session.Continues` — what every change of a session has in common: scopes advance, memos and
  plugins stay with their scopes.
* `Session.Looked` — what a question can change: a scope may have taken its look at the files.
* `Session.refusal?` — why nobody can look at the files for a scope, if so.
* `Session.consult_fst` — a question to a scope is answered as the scope is now, or it fails.
-/

set_option autoImplicit false

namespace CustomProps

/-- Nothing is kept under a version to come, and what is kept under the present one is right. -/
def Memo.IsSound (memo : Memo) (scope : Scope) : Prop :=
  ∀ entry ∈ memo.entries, entry.1.version ≤ scope.version ∧
    (entry.1.version = scope.version → entry.2 = Block.transform entry.1.content scope.get?)

theorem Memo.IsSound.advance {memo : Memo} {scope later : Scope} (h : memo.IsSound scope)
    (hlater : scope.Advances later) : memo.IsSound later := by
  intro entry hentry
  obtain ⟨hle, hresult⟩ := h entry hentry
  rcases hlater with hlt | ⟨hversion, hget⟩
  · exact ⟨by omega, fun heq => by omega⟩
  · rw [← hversion, ← hget]
    exact ⟨hle, hresult⟩

namespace Session

/-! ## What a scope answers now -/

/-- A scope as it is when it looks at the files now. -/
def scopeNow (s : Session) (k : Nat) : Scope := (s.scopes[k]?.getD .empty).looked s.files

theorem scopeNow_eq {s : Session} {k : Nat} {scope : Scope} (h : s.scopes[k]? = some scope) :
    s.scopeNow k = scope.looked s.files := by
  rw [scopeNow, h, Option.getD_some]

/-- The answers of a scope now. -/
def answers (s : Session) (k : Nat) : Lookup := (s.scopeNow k).get?

/-- Why nobody can look at the files for a scope: the path of its sheet never reaches the system. -/
def refusal? (s : Session) (k : Nat) : Option FileError := (s.scopes[k]?.getD .empty).refusal?

theorem refusal?_eq {s : Session} {k : Nat} {scope : Scope} (h : s.scopes[k]? = some scope) :
    s.refusal? k = scope.refusal? := by
  rw [refusal?, h, Option.getD_some]

/-- Why a question to a scope with this trace fails: the scope is asked, and nobody can look. -/
def failure? (s : Session) (k : Nat) (trace : Lookup → List Moment) : Option FileError :=
  if Trace.asks (trace (s.answers k)) = true then s.refusal? k else none

theorem consult_fst {α : Type} (k : Nat) (result : Lookup → α) (trace : Lookup → List Moment)
    (s : Session) :
    (consult k result trace s).1 = settle (s.failure? k trace) (result (s.answers k)) := by
  rw [consult, failure?, refusal?, answers, scopeNow]
  dsimp only
  cases hrefusal : (s.scopes[k]?.getD .empty).refusal? with
  | none =>
    obtain ⟨events, hrefresh⟩ := Scope.exists_refresh_eq s.files hrefusal
    rw [hrefresh, ite_self]
    rfl
  | some error =>
    rw [Scope.refresh_of_refusal? hrefusal, Scope.looked_of_refusal? hrefusal]
    dsimp only
    split <;> rfl

theorem transform_fst (k : Nat) (content : Text) (s : Session) :
    (transform k content s).1 =
      settle (s.failure? k (Block.trace content)) (Block.transform content (s.answers k)) :=
  consult_fst k _ _ s

theorem declarationFallback_fst (k : Nat) (declaration : Text) (s : Session) :
    (declarationFallback k declaration s).1 = settle (s.failure? k (Declaration.trace declaration))
      (Declaration.fallback? declaration (s.answers k)) :=
  consult_fst k _ _ s

theorem failure?_eq_none {s : Session} {k : Nat} (h : s.refusal? k = none)
    (trace : Lookup → List Moment) : s.failure? k trace = none := by
  rw [failure?, h, ite_self]

/-! ## The invariant -/

/-- No memo keeps a wrong result, and the memo of a plugin is over the scope of the plugin. -/
structure IsSound (s : Session) : Prop where
  memos : ∀ slot ∈ s.memos, ∃ scope, s.scopes[slot.scope]? = some scope ∧
    slot.memo.IsSound scope
  plugins : ∀ plugin ∈ s.plugins, ∀ j, plugin.memo = some j →
    ∃ slot, s.memos[j]? = some slot ∧ slot.scope = plugin.scope

/-- Scopes advance, memos stay with their scopes, and plugins are only added. -/
structure Continues (s later : Session) : Prop where
  scopes : ∀ (k : Nat) (scope : Scope), s.scopes[k]? = some scope →
    ∃ scope', later.scopes[k]? = some scope' ∧ scope.Advances scope' ∧
      scope'.refusal? = scope.refusal?
  memos : ∀ (j : Nat) (slot : MemoSlot), s.memos[j]? = some slot →
    ∃ slot', later.memos[j]? = some slot' ∧ slot'.scope = slot.scope
  plugins : ∀ (p : Nat) (plugin : Plugin), s.plugins[p]? = some plugin →
    later.plugins[p]? = some plugin

/-- No more happened than that scopes took a look at the files and memos were used. -/
structure Looked (s later : Session) : Prop where
  files : later.files = s.files
  scopes : ∀ k : Nat, later.scopes[k]? = s.scopes[k]? ∨
    later.scopes[k]? = s.scopes[k]?.map (·.looked s.files)
  memos : ∀ j : Nat, (later.memos[j]?).map (·.scope) = (s.memos[j]?).map (·.scope)
  plugins : later.plugins = s.plugins

variable {s later last : Session}

theorem Continues.refl (s : Session) : s.Continues s where
  scopes _ scope h := ⟨scope, h, .refl scope, rfl⟩
  memos _ slot h := ⟨slot, h, rfl⟩
  plugins _ _ h := h

theorem Continues.trans (h : s.Continues later) (h' : later.Continues last) :
    s.Continues last where
  scopes k scope hk := by
    obtain ⟨scope', hk', hadvances, hrefusal⟩ := h.scopes k scope hk
    obtain ⟨scope'', hk'', hadvances', hrefusal'⟩ := h'.scopes k scope' hk'
    exact ⟨scope'', hk'', hadvances.trans hadvances', hrefusal'.trans hrefusal⟩
  memos j slot hj := by
    obtain ⟨slot', hj', hscope⟩ := h.memos j slot hj
    obtain ⟨slot'', hj'', hscope'⟩ := h'.memos j slot' hj'
    exact ⟨slot'', hj'', hscope'.trans hscope⟩
  plugins p plugin hp := h'.plugins p plugin (h.plugins p plugin hp)

theorem Looked.refl (s : Session) : s.Looked s := ⟨rfl, fun _ => .inl rfl, fun _ => rfl, rfl⟩

theorem Looked.trans (h : s.Looked later) (h' : later.Looked last) : s.Looked last where
  files := h'.files.trans h.files
  scopes k := by
    rcases h'.scopes k with hk' | hk' <;> rw [hk']
    · exact h.scopes k
    · right
      rw [h.files]
      rcases h.scopes k with hk | hk <;> rw [hk]
      cases s.scopes[k]? with
      | none => rfl
      | some scope => rw [Option.map_some, Option.map_some, Scope.looked_looked]
  memos j := (h'.memos j).trans (h.memos j)
  plugins := h'.plugins.trans h.plugins

theorem Looked.continues (h : s.Looked later) : s.Continues later where
  scopes k scope hk := by
    rcases h.scopes k with hk' | hk' <;> rw [hk', hk]
    · exact ⟨scope, rfl, .refl scope, rfl⟩
    · exact ⟨_, rfl, Scope.advances_looked s.files scope, Scope.refusal?_looked s.files scope⟩
  memos j slot hj := by
    have hscope := h.memos j
    rw [hj, Option.map_some] at hscope
    exact Option.map_eq_some_iff.1 hscope
  plugins _ _ hp := h.plugins ▸ hp

/-- Having looked changes no answer. -/
theorem Looked.scopeNow (h : s.Looked later) (k : Nat) : later.scopeNow k = s.scopeNow k := by
  rw [Session.scopeNow, Session.scopeNow, h.files]
  rcases h.scopes k with hk | hk <;> rw [hk]
  cases s.scopes[k]? with
  | none => rfl
  | some scope => rw [Option.map_some, Option.getD_some, Option.getD_some, Scope.looked_looked]

theorem Looked.refusal? (h : s.Looked later) (k : Nat) : later.refusal? k = s.refusal? k := by
  rw [Session.refusal?, Session.refusal?]
  rcases h.scopes k with hk | hk <;> rw [hk]
  cases s.scopes[k]? with
  | none => rfl
  | some scope => exact Scope.refusal?_looked s.files scope

theorem Looked.answers (h : s.Looked later) (k : Nat) : later.answers k = s.answers k :=
  congrArg Scope.get? (h.scopeNow k)

theorem Looked.failure? (h : s.Looked later) (k : Nat) (trace : Lookup → List Moment) :
    later.failure? k trace = s.failure? k trace := by
  rw [Session.failure?, Session.failure?, h.answers, h.refusal?]

/-- Where a session continues a sound one without keeping new results, it is sound. -/
theorem IsSound.continue (h : s.IsSound) (hcontinues : s.Continues later)
    (hmemos : ∀ slot' ∈ later.memos, ∃ slot ∈ s.memos, slot'.scope = slot.scope ∧
      slot'.memo.entries ⊆ slot.memo.entries)
    (hplugins : later.plugins = s.plugins) : later.IsSound where
  memos slot' hslot' := by
    obtain ⟨slot, hslot, hscope, hentries⟩ := hmemos slot' hslot'
    obtain ⟨scope, hk, hsound⟩ := h.memos slot hslot
    obtain ⟨scope', hk', hadvances, -⟩ := hcontinues.scopes _ scope hk
    refine ⟨scope', hscope ▸ hk', fun entry hentry => ?_⟩
    exact hsound.advance hadvances entry (hentries hentry)
  plugins plugin hplugin j hj := by
    rw [hplugins] at hplugin
    obtain ⟨slot, hslot, hscope⟩ := h.plugins plugin hplugin j hj
    obtain ⟨slot', hslot', hscope'⟩ := hcontinues.memos j slot hslot
    exact ⟨slot', hslot', hscope'.trans hscope⟩

end Session
end CustomProps
