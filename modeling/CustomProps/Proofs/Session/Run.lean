import CustomProps.Proofs.Session.Reply

/-!
# Runs of a session

Whatever is made and done in a session, in any order, sound sessions stay sound, and scopes, memos
and plugins stay where they are.  The exception is a change behind the back of a scope, which no
version tells.

* `Step.IsTold`, `Step.IsQuestion` — the steps that go behind nobody's back, and those that only
  ask.
* `Session.Reaches` — one session comes of another by making scopes, memos and plugins and by steps
  that are told.
* `Session.Reaches.keeps` — such a run leads from sound sessions to sound ones.
* `Session.replyAnew` — what a plugin has to reply, the block transformed anew.
-/

set_option autoImplicit false

namespace CustomProps

/-- Every step but those that change a scope behind its back. -/
def Step.IsTold : Step → Prop
  | .poke .. | .unpoke .. => False
  | _ => True

/-- The steps that only ask, or make a memo forget. -/
def Step.IsQuestion : Step → Prop
  | .lookup .. | .version .. | .fetch .. | .holds .. | .forget .. | .transform .. | .call ..
  | .nativeCalls | .rewrite .. => True
  | .set .. | .remove .. | .clear .. | .poke .. | .unpoke .. | .write .. | .delete .. => False

namespace Session

variable {α β : Type} {s : Session}

/-! ## Questions -/

/-- The report is nobody's business. -/
theorem LooksTo.of_report {later : Session} (h : s.LooksTo later) (report : Report) :
    s.LooksTo { later with report } := fun hs =>
  ⟨⟨(h hs).1.memos, (h hs).1.plugins⟩, (h hs).2.trans ⟨rfl, fun _ => .inl rfl, fun _ => rfl, rfl⟩⟩

theorem looks_rewriteKept (p : Nat) (sheet : Text) : Looks (rewriteKept p sheet) := by
  intro s
  have hlooks := looks_rewrite p sheet s.report s
  rw [rewriteKept]
  split
  · rename_i heq
    rw [heq] at hlooks
    exact hlooks.of_report _
  · rename_i heq
    rw [heq] at hlooks
    exact hlooks.of_report _

theorem looks_act {step : Step} (h : step.IsQuestion) : Looks (act step) := by
  cases step with
  | lookup k name => exact (looks_lookup k name).bindLook fun _ => .pureLook _
  | version k => exact (looks_version k).bindLook fun _ => .pureLook _
  | fetch j content =>
    refine (looks_fetch (isFaithful_counting isFaithful_transform j) j content).bindLook fun _ =>
      (looks_memoSlot j).lift.bindLook fun _ => ?_
    exact Along.get.lift.bindLook fun _ => .pureLook _
  | holds j content => exact (looks_holds j content).bindLook fun _ => .pureLook _
  | forget j =>
    exact (looks_forget j).lift.bindLook fun _ => (looks_memoSlot j).lift.bindLook fun _ =>
      .pureLook _
  | transform k content => exact (looks_transform k content).bindLook fun _ => .pureLook _
  | call p phase content selectors =>
    exact (looks_call p phase content selectors).bindLook fun _ => .pureLook _
  | nativeCalls => exact Along.get.lift.bindLook fun _ => .pureLook _
  | rewrite p sheet keepReport =>
    cases keepReport with
    | true => exact looks_rewriteKept p sheet
    | false => exact (looks_rewrite p sheet _).bindLook fun _ => .pureLook _
  | set | remove | clear | poke | unpoke | write | delete => exact h.elim

theorem looks_perform {step : Step} (h : step.IsQuestion) : Looks (perform step) := by
  intro s
  rw [perform_snd]
  exact looks_act h s

/-- What holds along each step holds along all of them. -/
theorem along_performAll {r : Session → Session → Prop} [IsPreorder Session r] {steps : List Step}
    (h : ∀ step ∈ steps, Along r (perform step)) : Along r (performAll steps) := by
  induction steps with
  | nil => exact .pure _
  | cons step steps ih =>
    obtain ⟨hstep, hsteps⟩ := List.forall_mem_cons.1 h
    intro s
    rw [performAll_cons_snd]
    exact trans_of r (hstep s) (ih hsteps _)

theorem looks_performAll {questions : List Step} (h : ∀ step ∈ questions, step.IsQuestion) :
    Looks (performAll questions) :=
  along_performAll fun step hstep => looks_perform (h step hstep)

/-! ## Changes -/

/-- Leads from sound sessions to sound ones that continue them. -/
def KeepsTo (s later : Session) : Prop := s.IsSound → later.IsSound ∧ s.Continues later

instance : IsPreorder Session KeepsTo where
  refl s hs := ⟨hs, .refl s⟩
  trans _ _ _ h h' hs := ⟨(h' (h hs).1).1, (h hs).2.trans (h' (h hs).1).2⟩

/-- Leads from sound sessions to sound ones and continues them. -/
abbrev Keeps (m : SessionM α) : Prop := Along KeepsTo m

theorem Looks.keeps {m : SessionM α} (hm : Looks m) : Keeps m := fun s hs =>
  ⟨(hm s hs).1, (hm s hs).2.continues⟩

theorem keeps_modifyScope (k : Nat) {change : Mapping → Mapping}
    (hchange : ∀ scope : Scope, scope.Advances (scope.modifyMapping change)) :
    Keeps (modifyScope k (.modifyMapping change)) := by
  intro s hs
  have hcontinues : s.Continues (modifyScope k (.modifyMapping change) s).2 := by
    refine ⟨fun j scope hj => ?_, fun _ slot hslot => ⟨slot, hslot, rfl⟩, fun _ _ h => h⟩
    show ∃ scope', (s.scopes.modify k (.modifyMapping change))[j]? = some scope' ∧ _
    rw [List.getElem?_modify, hj]
    refine ⟨_, rfl, ?_⟩
    split
    · exact ⟨hchange scope, scope.refusal?_modifyMapping change⟩
    · exact ⟨.refl scope, rfl⟩
  exact ⟨hs.continue hcontinues (fun slot hslot => ⟨slot, hslot, rfl, fun _ h => h⟩) rfl,
    hcontinues⟩

theorem keeps_modifyThenVersion (k : Nat) {change : Mapping → Mapping}
    (hchange : ∀ scope : Scope, scope.Advances (scope.modifyMapping change)) :
    Keeps (modifyThenVersion k change) :=
  (keeps_modifyScope k hchange).lift.bindLook fun _ =>
    Looks.keeps ((looks_version k).bindLook fun _ => .pureLook _)

/-- A change of a mapping is followed by a look at the version. -/
theorem looked_modifyThenVersion (k : Nat) (change : Mapping → Mapping) (s : Session) :
    (modifyScope k (.modifyMapping change) s).2.Looked (modifyThenVersion k change s).2 := by
  have hact : modifyThenVersion k change s = _ :=
    (bind_of_ok (lift_apply (modifyScope k (.modifyMapping change)) s) _).trans
      (map_apply Answer.number (version k) _)
  rw [hact, version_eq]
  exact looked_refresh k _

/-- The files may change in any way. -/
theorem keeps_modifyFiles (change : FileSystem → FileSystem) :
    Keeps (modify fun s => { s with files := change s.files } : SessionM Unit) := fun _ hs =>
  ⟨⟨hs.memos, hs.plugins⟩, fun _ scope h => ⟨scope, h, .refl scope, rfl⟩,
    fun _ slot h => ⟨slot, h, rfl⟩, fun _ _ h => h⟩

theorem keeps_act {step : Step} (h : step.IsTold) : Keeps (act step) := by
  cases step with
  | set k name value => exact keeps_modifyThenVersion k (Scope.advances_set name value)
  | remove k name => exact keeps_modifyThenVersion k (Scope.advances_remove name)
  | clear k => exact keeps_modifyThenVersion k Scope.advances_clear
  | write path entry time =>
    exact (keeps_modifyFiles (·.install path entry time)).lift.bindLook fun _ => .pureLook _
  | delete path =>
    exact (keeps_modifyFiles (·.remove path)).lift.bindLook fun _ => .pureLook _
  | poke | unpoke => exact h.elim
  | lookup | version | fetch | holds | forget | transform | call | nativeCalls | rewrite =>
    refine Looks.keeps (looks_act ?_)
    trivial

theorem keeps_perform {step : Step} (h : step.IsTold) : Keeps (perform step) := by
  intro s
  rw [perform_snd]
  exact keeps_act h s

/-! ## Making scopes, memos and plugins -/

theorem keeps_addScope (scope : Scope) : Keeps (addScope scope) := by
  intro s hs
  have hcontinues : s.Continues (addScope scope s).2 := by
    refine ⟨fun k scope' hk => ⟨scope', ?_, .refl scope', rfl⟩, fun _ slot h => ⟨slot, h, rfl⟩,
      fun _ _ h => h⟩
    exact (List.getElem?_append_left (List.getElem?_eq_some_iff.1 hk).1).trans hk
  exact ⟨hs.continue hcontinues (fun slot hslot => ⟨slot, hslot, rfl, fun _ h => h⟩) rfl,
    hcontinues⟩

/-- A memo that was never asked is sound over any scope. -/
theorem addMemo_spec (hs : s.IsSound) {k : Nat} (hk : k < s.scopes.length) :
    (addMemo k s).2.IsSound ∧ s.Continues (addMemo k s).2 := by
  have hcontinues : s.Continues (addMemo k s).2 := by
    refine ⟨fun _ scope h => ⟨scope, h, .refl scope, rfl⟩, fun j slot hj => ⟨slot, ?_, rfl⟩,
      fun _ _ h => h⟩
    exact (List.getElem?_append_left (List.getElem?_eq_some_iff.1 hj).1).trans hj
  refine ⟨⟨fun slot hslot => ?_, fun plugin hplugin j hj => ?_⟩, hcontinues⟩
  · rcases List.mem_append.1 hslot with hslot | hslot
    · exact hs.memos slot hslot
    · obtain rfl := List.mem_singleton.1 hslot
      refine ⟨s.scopes[k], List.getElem?_eq_getElem hk, fun entry hentry => ?_⟩
      cases hentry
  · obtain ⟨slot, hslot, hscope⟩ := hs.plugins plugin hplugin j hj
    obtain ⟨slot', hslot', hscope'⟩ := hcontinues.memos j slot hslot
    exact ⟨slot', hslot', hscope'.trans hscope⟩

theorem registerPlugin_spec (hs : s.IsSound) (plugin : Plugin)
    (hplugin : ∀ j, plugin.memo = some j → ∃ slot, s.memos[j]? = some slot ∧
      slot.scope = plugin.scope) :
    (registerPlugin plugin s).2.IsSound ∧ s.Continues (registerPlugin plugin s).2 := by
  refine ⟨⟨hs.memos, fun other hother => ?_⟩, ?_⟩
  · rcases List.mem_append.1 hother with hother | hother
    · exact hs.plugins other hother
    · obtain rfl := List.mem_singleton.1 hother
      exact hplugin
  · refine ⟨fun _ scope h => ⟨scope, h, .refl scope, rfl⟩, fun _ slot h => ⟨slot, h, rfl⟩,
      fun p other hp => ?_⟩
    exact (List.getElem?_append_left (List.getElem?_eq_some_iff.1 hp).1).trans hp

theorem pluginScope_spec (hs : s.IsSound) (options : Options) {scope : Option Nat}
    (hscope : ∀ k, scope = some k → k < s.scopes.length) :
    (pluginScope options scope s).1 = scope.getD s.scopes.length ∧
      (pluginScope options scope s).1 < (pluginScope options scope s).2.scopes.length ∧
      (pluginScope options scope s).2.plugins = s.plugins ∧
      (pluginScope options scope s).2.IsSound ∧ s.Continues (pluginScope options scope s).2 := by
  cases scope with
  | none =>
    refine ⟨rfl, ?_, rfl, keeps_addScope _ s hs⟩
    show s.scopes.length < (s.scopes ++ [scopeOfOptions options]).length
    rw [List.length_append]
    exact Nat.lt_succ_self _
  | some k => exact ⟨rfl, hscope k rfl, rfl, hs, .refl s⟩

theorem pluginMemo_spec (hs : s.IsSound) (useCache : Bool) {k : Nat} (hk : k < s.scopes.length) :
    (∀ j, (pluginMemo useCache k s).1 = some j →
        ∃ slot, (pluginMemo useCache k s).2.memos[j]? = some slot ∧ slot.scope = k) ∧
      (pluginMemo useCache k s).2.plugins = s.plugins ∧
      (pluginMemo useCache k s).2.IsSound ∧ s.Continues (pluginMemo useCache k s).2 := by
  cases useCache with
  | true =>
    refine ⟨fun j hj => ⟨⟨k, .empty⟩, ?_, rfl⟩, rfl, addMemo_spec hs hk⟩
    obtain rfl : s.memos.length = j := Option.some.inj hj
    exact List.getElem?_concat_length
  | false => exact ⟨fun j hj => absurd (show none = some j from hj) nofun, rfl, hs, .refl s⟩

theorem noteDisabled_fst (disabled : Bool) (s : Session) :
    (noteDisabled disabled s).1 = disabled := by
  cases disabled <;> rfl

theorem looks_noteDisabled (disabled : Bool) : Looks (noteDisabled disabled) := by
  cases disabled with
  | true => exact (looks_note _).bind fun _ => .pure true
  | false => exact .pure false

theorem askNative_fst (native : Option Bool) (s : Session) :
    (askNative native s).1 = native.getD false := by
  cases native <;> rfl

theorem looks_askNative (native : Option Bool) : Looks (askNative native) := by
  cases native with
  | none => exact .pure false
  | some answer => exact fun s hs => ⟨⟨hs.memos, hs.plugins⟩, rfl, fun _ => .inl rfl,
      fun _ => rfl, rfl⟩

/-- A plugin is registered with its scope and its memo, disabled or not for good. -/
theorem addPlugin_spec (hs : s.IsSound) (options : Options) {scope : Option Nat}
    (native : Option Bool) (hscope : ∀ k, scope = some k → k < s.scopes.length) :
    (addPlugin options scope native s).2.IsSound ∧
      s.Continues (addPlugin options scope native s).2 ∧
      ∃ memo, (addPlugin options scope native s).2.plugins[(addPlugin options scope native s).1]? =
        some ⟨options.skipSupported && native.getD false, scope.getD s.scopes.length, memo⟩ := by
  obtain ⟨hk, hlt, hplugins, hsound, hcontinues⟩ := pluginScope_spec hs options hscope
  generalize hchosen : pluginScope options scope s = chosen at hk hlt hplugins hsound hcontinues
  obtain ⟨hmemo, hplugins', hsound', hcontinues'⟩ := pluginMemo_spec hsound options.useCache hlt
  generalize hkept : pluginMemo options.useCache chosen.1 chosen.2 = kept
    at hmemo hplugins' hsound' hcontinues'
  obtain ⟨hsound'', hlooked⟩ := ((looks_askNative native).bind fun supported =>
    looks_noteDisabled (options.skipSupported && supported)) kept.2 hsound'
  have hdisabled : ((askNative native >>= fun supported =>
      noteDisabled (options.skipSupported && supported)) kept.2).1 =
        (options.skipSupported && native.getD false) := by
    show (noteDisabled (options.skipSupported && (askNative native kept.2).1) _).1 = _
    rw [noteDisabled_fst, askNative_fst]
  generalize hnoted : (askNative native >>= fun supported =>
    noteDisabled (options.skipSupported && supported)) kept.2 = noted
    at hsound'' hlooked hdisabled
  have heq : addPlugin options scope native s =
      registerPlugin ⟨noted.1, chosen.1, kept.1⟩ noted.2 := by
    rw [← hnoted, ← hkept, ← hchosen]
    rfl
  obtain ⟨hsoundPlugin, hcontinuesPlugin⟩ := registerPlugin_spec hsound''
    ⟨noted.1, chosen.1, kept.1⟩ fun j hj => by
      obtain ⟨slot, hslot, hslotScope⟩ := hmemo j hj
      obtain ⟨slot', hslot', hslotScope'⟩ := hlooked.continues.memos j slot hslot
      exact ⟨slot', hslot', hslotScope'.trans hslotScope⟩
  rw [heq]
  refine ⟨hsoundPlugin, ((hcontinues.trans hcontinues').trans hlooked.continues).trans
    hcontinuesPlugin, kept.1, ?_⟩
  rw [← hdisabled, ← hk]
  exact List.getElem?_concat_length

/-! ## Runs -/

/-- One session comes of another by making scopes, memos and plugins over scopes that are there, and
by steps that are told, in any order. -/
inductive Reaches (s : Session) : Session → Prop
  | refl : Reaches s s
  | scope {later : Session} (scope : Scope) (h : Reaches s later) :
    Reaches s (addScope scope later).2
  | memo {later : Session} (k : Nat) (hk : k < later.scopes.length) (h : Reaches s later) :
    Reaches s (addMemo k later).2
  | plugin {later : Session} (options : Options) (scope : Option Nat) (native : Option Bool)
    (hscope : ∀ k, scope = some k → k < later.scopes.length) (h : Reaches s later) :
    Reaches s (addPlugin options scope native later).2
  | step {later : Session} (step : Step) (hstep : step.IsTold) (h : Reaches s later) :
    Reaches s (perform step later).2

/-- **A run leads from sound sessions to sound ones and continues them.** -/
theorem Reaches.keeps {later : Session} (h : s.Reaches later) (hs : s.IsSound) :
    later.IsSound ∧ s.Continues later := by
  induction h with
  | refl => exact ⟨hs, .refl s⟩
  | scope scope _ ih =>
    obtain ⟨hsound, hcontinues⟩ := keeps_addScope scope _ ih.1
    exact ⟨hsound, ih.2.trans hcontinues⟩
  | memo k hk _ ih =>
    obtain ⟨hsound, hcontinues⟩ := addMemo_spec ih.1 hk
    exact ⟨hsound, ih.2.trans hcontinues⟩
  | plugin options scope native hscope _ ih =>
    obtain ⟨hsound, hcontinues, -⟩ := addPlugin_spec ih.1 options native hscope
    exact ⟨hsound, ih.2.trans hcontinues⟩
  | step step hstep _ ih =>
    obtain ⟨hsound, hcontinues⟩ := keeps_perform hstep _ ih.1
    exact ⟨hsound, ih.2.trans hcontinues⟩

theorem isSound_ofFiles (files : FileSystem) : (ofFiles files).IsSound where
  memos _ h := absurd h List.not_mem_nil
  plugins _ h := absurd h List.not_mem_nil

/-- What a plugin made with the options over a scope has to reply: nothing when it is disabled, in
any phase but that of blocks, and for root rules; else the block transformed anew. -/
def replyAnew (options : Options) (native : Option Bool) (k : Nat) (phase : Int) (content : Text)
    (selectors : List Text) : LookM (Option Text) :=
  if options.skipSupported = true ∧ native = some true ∨ phase ≠ Phase.selectorBlock.code ∨
      Sheet.hasRootSelector selectors = true then return none
  else transform k content

theorem replyNow_eq_replyAnew {p k : Nat} {options : Options}
    {native : Option Bool} {memo : Option Nat}
    (hp : s.plugins[p]? = some ⟨options.skipSupported && native.getD false, k, memo⟩)
    (hrefusal : s.refusal? k = none) (phase : Int) (content : Text) (selectors : List Text) :
    (replyAnew options native k phase content selectors s).1 =
      .ok (s.replyNow p phase content selectors) := by
  have hnative : native.getD false = true ↔ native = some true := by
    cases native <;> simp
  have haccepts : Plugin.accepts ⟨options.skipSupported && native.getD false, k, memo⟩ phase
      selectors = true ↔ ¬(options.skipSupported = true ∧ native = some true ∨
        phase ≠ Phase.selectorBlock.code ∨ Sheet.hasRootSelector selectors = true) := by
    rw [← hnative, Plugin.accepts, Bool.and_eq_true, Bool.and_eq_true, beq_iff_eq]
    cases options.skipSupported <;> cases native.getD false <;>
      cases Sheet.hasRootSelector selectors <;> simp
  rw [replyNow, hp, replyAnew]
  dsimp only
  split
  · rename_i h
    rw [if_neg fun hc => haccepts.1 hc h]
    rfl
  · rename_i h
    rw [if_pos (haccepts.2 h), transform_fst, failure?_eq_none hrefusal, settle_none]

/-- Rewriting without effects. -/
theorem rewrite_pure (answer : Call → Option Text) (sheet : Text) (report : Report) :
    Id.run (Sheet.rewrite (fun c => pure (answer c)) sheet report) =
      let answered := (Sheet.rules sheet).map fun rule => (rule, answer (Sheet.callOf sheet rule))
      (Sheet.splice sheet answered, report.addSheet answered) := by
  have hmap : Id.run ((Sheet.rules sheet).mapM fun rule =>
      pure (rule, answer (Sheet.callOf sheet rule))) =
      (Sheet.rules sheet).map fun rule => (rule, answer (Sheet.callOf sheet rule)) := by
    rw [List.mapM_pure]
    rfl
  dsimp only
  rw [← hmap]
  rfl

end Session
end CustomProps
