import CustomProps.Proofs.Session.Look

/-!
# Memos and plugins answer what the scopes give now

A memo finds what it has kept or transforms the block anew, a plugin asks its memo or its scope, and
a sheet is rewritten with the replies of a plugin.  The answers are those of the scopes at that
moment, with a memo or without.

* `Session.fetch_spec` — a memo answers what the scope gives now.
* `Session.replyNow`, `Session.callFailure?` — what a plugin has to reply, and why it cannot.
* `Session.call_spec` — a plugin replies so.
* `Session.rewrite_spec` — and so is a sheet rewritten.
-/

set_option autoImplicit false

namespace CustomProps
namespace Session

variable {s : Session} {transformer : Transformer} {j : Nat} {content : Text}

/-! ## Memos -/

theorem memoKey_eq (slot : MemoSlot) (content : Text) (s : Session) :
    memoKey slot content s = (settle (s.refusal? slot.scope)
      ⟨content, (s.scopeNow slot.scope).version⟩, (refresh slot.scope s).2) :=
  (map_apply _ (version slot.scope) s).trans (by rw [version_eq, map_settle])

/-- Without a look there is no key, and no answer. -/
theorem fetch_of_refusal? {error : FileError} (h : s.refusal? (s.slotAt j).scope = some error)
    (transformer : Transformer) (content : Text) :
    fetch transformer j content s = (.error error, (refresh (s.slotAt j).scope s).2) := by
  have hkey := memoKey_eq (s.slotAt j) content s
  rw [h] at hkey
  exact (bind_of_ok (lift_apply (memoSlot j) s) _).trans (bind_of_error hkey _)

/-- A result that is kept is the answer, and counted. -/
theorem fetch_of_find?_eq_some (hrefusal : s.refusal? (s.slotAt j).scope = none)
    {result : Option Text}
    (hfind : (s.slotAt j).memo.find? ⟨content, (s.scopeNow (s.slotAt j).scope).version⟩ =
      some result) (transformer : Transformer) :
    fetch transformer j content s =
      (.ok result, (modifyMemo j (·.countHit) (refresh (s.slotAt j).scope s).2).2) := by
  have hkey := memoKey_eq (s.slotAt j) content s
  rw [hrefusal] at hkey
  refine (bind_of_ok (lift_apply (memoSlot j) s) _).trans ((bind_of_ok hkey _).trans ?_)
  rw [memoSlot_eq, hfind]
  rfl

/-- Without a result the block is transformed. -/
theorem fetch_of_find?_eq_none (hrefusal : s.refusal? (s.slotAt j).scope = none)
    (hfind : (s.slotAt j).memo.find? ⟨content, (s.scopeNow (s.slotAt j).scope).version⟩ = none)
    (transformer : Transformer) :
    fetch transformer j content s =
      fetchAnew transformer j (s.slotAt j) ⟨content, (s.scopeNow (s.slotAt j).scope).version⟩
        (refresh (s.slotAt j).scope s).2 := by
  have hkey := memoKey_eq (s.slotAt j) content s
  rw [hrefusal] at hkey
  refine (bind_of_ok (lift_apply (memoSlot j) s) _).trans ((bind_of_ok hkey _).trans ?_)
  rw [memoSlot_eq, hfind]

/-- The session in which a block is transformed that a memo has no result for. -/
def afterMiss (j size : Nat) (s : Session) : Session :=
  (note [.memoMiss size] (modifyMemo j (·.countMiss) s).2).2

theorem afterMiss_spec (j size : Nat) (hs : s.IsSound) :
    (afterMiss j size s).IsSound ∧ s.Looked (afterMiss j size s) :=
  ((looks_countMiss j).bind fun _ => looks_note [.memoMiss size]) s hs

/-- The result of transforming the block is kept. -/
theorem fetchAnew_of_ok {slot : MemoSlot} {key : MemoKey} {result : Option Text} {later : Session}
    (h : transformer slot.scope key.content (afterMiss j slot.memo.size s) = (.ok result, later)) :
    fetchAnew transformer j slot key s =
      (.ok (keepResult j key result later).1, (keepResult j key result later).2) :=
  (bind_of_ok h _).trans (lift_apply (keepResult j key result) later)

/-- What is kept anew is right. -/
theorem fetchAnew_spec (htransformer : transformer.IsFaithful) (content : Text) (hs : s.IsSound)
    (slot : MemoSlot) (hslot : slot.scope = (s.slotAt j).scope) (hk : s.HasLooked slot.scope)
    (hrefusal : s.refusal? slot.scope = none) :
    let outcome := fetchAnew transformer j slot ⟨content, (s.scopeNow slot.scope).version⟩ s
    outcome.1 = .ok (Block.transform content (s.answers slot.scope)) ∧ outcome.2.IsSound ∧
      s.Looked outcome.2 := by
  intro outcome
  obtain ⟨hsound, hmissed⟩ := afterMiss_spec j slot.memo.size hs
  have hresult := htransformer.fst_eq slot.scope content (afterMiss j slot.memo.size s)
  rw [hmissed.failure?, failure?_eq_none hrefusal, hmissed.answers] at hresult
  obtain ⟨hsound', hlooked⟩ := htransformer.looks slot.scope content _ hsound
  have hdone := hmissed.trans hlooked
  have hscope := (hdone.scope_slotAt j).trans hslot.symm
  obtain ⟨hkept, hsound'', hlooked'⟩ := keepResult_spec j content hsound'
    (by rw [hscope]; exact hk.of_looked hdone)
  rw [hscope, hdone.scopeNow, hdone.answers] at hkept hsound'' hlooked'
  have heq : outcome = _ := fetchAnew_of_ok (Prod.ext hresult rfl)
  rw [heq]
  exact ⟨congrArg Except.ok hkept, hsound'', hdone.trans hlooked'⟩

/-- **A memo answers what its scope gives now.** -/
theorem fetch_spec (htransformer : transformer.IsFaithful) (j : Nat) (content : Text)
    (hs : s.IsSound) :
    (fetch transformer j content s).1 = settle (s.refusal? (s.slotAt j).scope)
        (Block.transform content (s.answers (s.slotAt j).scope)) ∧
      (fetch transformer j content s).2.IsSound ∧ s.Looked (fetch transformer j content s).2 := by
  obtain ⟨hsound, hlooked⟩ := looks_refresh (s.slotAt j).scope s hs
  have hasked := hasLooked_refresh (s.slotAt j).scope s
  have hslot : (refresh (s.slotAt j).scope s).2.slotAt j = s.slotAt j := by
    rw [slotAt, memos_refresh, ← slotAt]
  cases hrefusal : s.refusal? (s.slotAt j).scope with
  | some error =>
    rw [fetch_of_refusal? hrefusal]
    exact ⟨rfl, hsound, hlooked⟩
  | none =>
    cases hfind : (s.slotAt j).memo.find?
        ⟨content, (s.scopeNow (s.slotAt j).scope).version⟩ with
    | some result =>
      obtain ⟨hsound', hlooked'⟩ := looks_countHit j _ hsound
      rw [fetch_of_find?_eq_some hrefusal hfind]
      refine ⟨congrArg Except.ok ?_, hsound', hlooked.trans hlooked'⟩
      have hmemo := congrArg (·.memo.find? ⟨content, (s.scopeNow (s.slotAt j).scope).version⟩) hslot
      have hright := find?_eq_some hsound (congrArg MemoSlot.scope hslot) hasked
        (congrArg Scope.version (hlooked.scopeNow _)) (hmemo.trans hfind)
      rw [hright, hlooked.answers]
    | none =>
      rw [fetch_of_find?_eq_none hrefusal hfind]
      have hanew := fetchAnew_spec htransformer content hsound (s.slotAt j) (j := j)
        (by rw [hslot]) hasked (by rw [hlooked.refusal?, hrefusal])
      rw [hlooked.scopeNow, hlooked.answers] at hanew
      exact ⟨hanew.1, hanew.2.1, hlooked.trans hanew.2.2⟩

theorem looks_fetch (htransformer : transformer.IsFaithful) (j : Nat) (content : Text) :
    Looks (fetch transformer j content) :=
  fun _ hs => (fetch_spec htransformer j content hs).2

theorem holds_eq (j : Nat) (content : Text) (s : Session) :
    holds j content s = (settle (s.refusal? (s.slotAt j).scope)
      ((s.slotAt j).memo.contains ⟨content, (s.scopeNow (s.slotAt j).scope).version⟩),
      (refresh (s.slotAt j).scope s).2) := by
  have hkey := map_apply (s.slotAt j).memo.contains (memoKey (s.slotAt j) content) s
  rw [memoKey_eq, map_settle] at hkey
  exact (bind_of_ok (lift_apply (memoSlot j) s) _).trans hkey

theorem looks_holds (j : Nat) (content : Text) : Looks (holds j content) := by
  intro s hs
  rw [holds_eq]
  exact looks_refresh _ s hs

/-! ## Plugins -/

/-- What a plugin has to reply, without any memo. -/
def replyNow (s : Session) (p : Nat) (phase : Int) (content : Text) (selectors : List Text) :
    Option Text :=
  match s.plugins[p]? with
  | none => none
  | some plugin =>
    if plugin.accepts phase selectors then Block.transform content (s.answers plugin.scope)
    else none

/-- Why a plugin cannot reply: nobody can look at its scope.  With a memo it has to look at it in
any case, for the sake of the version; without one, when the block asks for a value. -/
def callFailure? (s : Session) (p : Nat) (phase : Int) (content : Text) (selectors : List Text) :
    Option FileError :=
  match s.plugins[p]? with
  | none => none
  | some plugin =>
    if plugin.accepts phase selectors then
      if plugin.memo.isSome then s.refusal? plugin.scope
      else s.failure? plugin.scope (Block.trace content)
    else none

/-- All scopes, memos and plugins of two sessions answer alike. -/
structure Alike (s later : Session) : Prop where
  answers : ∀ k, later.answers k = s.answers k
  refusal? : ∀ k, later.refusal? k = s.refusal? k
  scopes : ∀ j, (later.slotAt j).scope = (s.slotAt j).scope
  plugins : later.plugins = s.plugins

/-- Having looked changes no answer. -/
theorem Looked.alike {later : Session} (h : s.Looked later) : s.Alike later :=
  ⟨h.answers, h.refusal?, h.scope_slotAt, h.plugins⟩

namespace Alike

variable {later : Session}

theorem failure? (h : s.Alike later) (k : Nat) (trace : Lookup → List Moment) :
    later.failure? k trace = s.failure? k trace := by
  rw [Session.failure?, Session.failure?, h.answers, h.refusal?]

theorem replyNow (h : s.Alike later) (p : Nat) (phase : Int) (content : Text)
    (selectors : List Text) :
    later.replyNow p phase content selectors = s.replyNow p phase content selectors := by
  rw [Session.replyNow, Session.replyNow, h.plugins]
  cases s.plugins[p]? with
  | none => rfl
  | some plugin =>
    dsimp only
    rw [h.answers]

theorem callFailure? (h : s.Alike later) (p : Nat) (phase : Int) (content : Text)
    (selectors : List Text) :
    later.callFailure? p phase content selectors = s.callFailure? p phase content selectors := by
  rw [Session.callFailure?, Session.callFailure?, h.plugins]
  cases s.plugins[p]? with
  | none => rfl
  | some plugin =>
    dsimp only
    rw [h.refusal?, h.failure?]

end Alike

/-- A plugin replies wherever its scope can be looked at. -/
theorem callFailure?_eq_none {p : Nat} {plugin : Plugin} (hp : s.plugins[p]? = some plugin)
    (hrefusal : s.refusal? plugin.scope = none) (phase : Int) (content : Text)
    (selectors : List Text) : s.callFailure? p phase content selectors = none := by
  rw [callFailure?, hp]
  dsimp only
  rw [hrefusal, failure?_eq_none hrefusal, ite_self, ite_self]

theorem call_eq (p : Nat) (phase : Int) (content : Text) (selectors : List Text) (s : Session) :
    call p phase content selectors s =
      (match s.plugins[p]? with
      | none => return none
      | some plugin =>
        if plugin.accepts phase selectors then
          match plugin.memo with
          | some memo => fetch transform memo content
          | none => transform plugin.scope content
        else return none : LookM (Option Text)) s :=
  rfl

/-- **A plugin replies what its scope gives now, with a memo or without.** -/
theorem call_spec (p : Nat) (phase : Int) (content : Text) (selectors : List Text)
    (hs : s.IsSound) :
    (call p phase content selectors s).1 = settle (s.callFailure? p phase content selectors)
        (s.replyNow p phase content selectors) ∧
      (call p phase content selectors s).2.IsSound ∧
      s.Looked (call p phase content selectors s).2 := by
  rw [call_eq, callFailure?, replyNow]
  cases hplugin : s.plugins[p]? with
  | none => exact ⟨rfl, hs, .refl s⟩
  | some plugin =>
    dsimp only
    split
    · cases hmemo : plugin.memo with
      | none => exact ⟨transform_fst _ _ s, looks_transform plugin.scope content s hs⟩
      | some j =>
        obtain ⟨slot, hslot, hscope⟩ := hs.plugins plugin (List.mem_of_getElem? hplugin) j hmemo
        have hfetch := fetch_spec isFaithful_transform j content hs
        rw [slotAt_eq hslot, hscope] at hfetch
        exact hfetch
    · exact ⟨rfl, hs, .refl s⟩

theorem looks_call (p : Nat) (phase : Int) (content : Text) (selectors : List Text) :
    Looks (call p phase content selectors) :=
  fun _ hs => (call_spec p phase content selectors hs).2

/-! ## Rewriting -/

/-- The rules of a sheet with the replies to them. -/
def replies (s : Session) (p : Nat) (sheet : Text) : List (Rule × Option Text) :=
  (Sheet.rules sheet).map fun rule =>
    (rule, s.replyNow p Phase.selectorBlock.code rule.body rule.selectors)

/-- Why a sheet cannot be rewritten: the plugin cannot reply about some rule. -/
def rewriteFailure? (s : Session) (p : Nat) (sheet : Text) : Option FileError :=
  (Sheet.rules sheet).findSome? fun rule =>
    s.callFailure? p Phase.selectorBlock.code rule.body rule.selectors

/-- A sheet can be rewritten wherever the scope of the plugin can be looked at. -/
theorem rewriteFailure?_eq_none {p : Nat} {plugin : Plugin} (hp : s.plugins[p]? = some plugin)
    (hrefusal : s.refusal? plugin.scope = none) (sheet : Text) :
    s.rewriteFailure? p sheet = none :=
  List.findSome?_eq_none_iff.2 fun _ _ => callFailure?_eq_none hp hrefusal _ _ _

/-- Asks a plugin about a rule of a sheet. -/
def askAbout (p : Nat) (sheet : Text) (rule : Rule) : LookM (Rule × Option Text) := do
  return (rule, ← reply p (Sheet.callOf sheet rule))

theorem looks_askAbout (p : Nat) (sheet : Text) (rule : Rule) : Looks (askAbout p sheet rule) :=
  (looks_call p _ _ _).bindLook fun _ => .pureLook _

theorem askAbout_fst (p : Nat) (sheet : Text) (rule : Rule) (hs : s.IsSound) :
    (askAbout p sheet rule s).1 =
      settle (s.callFailure? p Phase.selectorBlock.code rule.body rule.selectors)
        (rule, s.replyNow p Phase.selectorBlock.code rule.body rule.selectors) := by
  rw [askAbout, map_apply, reply, (call_spec p _ _ _ hs).1, map_settle]
  rfl

theorem rewrite_eq (p : Nat) (sheet : Text) (report : Report) :
    rewrite p sheet report = (do
      let answered ← (Sheet.rules sheet).mapM (askAbout p sheet)
      note [.rewrote (report.addSheet answered).rulesTransformed
        (report.addSheet answered).rulesSeen]
      return (Sheet.splice sheet answered, report.addSheet answered) : LookM (Text × Report)) := by
  rw [rewrite, Sheet.rewrite, bind_assoc]
  rfl

/-- **A sheet is rewritten with what the scope of the plugin gives now.** -/
theorem rewrite_spec (p : Nat) (sheet : Text) (report : Report) (hs : s.IsSound) :
    (rewrite p sheet report s).1 = settle (s.rewriteFailure? p sheet)
        (Sheet.splice sheet (s.replies p sheet), report.addSheet (s.replies p sheet)) ∧
      (rewrite p sheet report s).2.IsSound ∧ s.Looked (rewrite p sheet report s).2 := by
  have hanswered : ((Sheet.rules sheet).mapM (askAbout p sheet) s).1 =
      settle (s.rewriteFailure? p sheet) (s.replies p sheet) := by
    refine mapM_fst _ (fun s rule =>
        s.callFailure? p Phase.selectorBlock.code rule.body rule.selectors)
      (fun s rule => (rule, s.replyNow p Phase.selectorBlock.code rule.body rule.selectors))
      (looks_askAbout p sheet) (fun rule s hs => askAbout_fst p sheet rule hs) ?_ _ s hs
    intro s later hlooked
    exact ⟨funext fun rule => hlooked.alike.callFailure? p _ _ _,
      funext fun rule => by rw [hlooked.alike.replyNow]⟩
  rw [rewrite_eq]
  refine ⟨?_, ?_⟩
  · cases hfailure : s.rewriteFailure? p sheet with
    | some error =>
      rw [hfailure] at hanswered
      rw [bind_of_error (Prod.ext hanswered rfl)]
      rfl
    | none =>
      rw [hfailure] at hanswered
      rw [bind_of_ok (Prod.ext hanswered rfl)]
      rfl
  · exact ((Along.mapM _ fun rule _ => looks_askAbout p sheet rule).bindLook fun answered =>
      (looks_note _).lift.bindLook fun _ => .pureLook _) s hs

theorem looks_rewrite (p : Nat) (sheet : Text) (report : Report) :
    Looks (rewrite p sheet report) :=
  fun _ hs => (rewrite_spec p sheet report hs).2

end Session
end CustomProps
