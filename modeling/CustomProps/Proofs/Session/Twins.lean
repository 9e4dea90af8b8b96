import CustomProps.Proofs.Block.Pieces
import CustomProps.Proofs.Session.Run

/-!
# Memos cannot be observed

A memo and a plugin answer what transforming the block anew would give at that moment, and nobody
can tell from an answer what was asked before.  For the second part two runs are compared that make
the same scopes, memos and plugins and the same changes, while each asks what it likes in between.
Their answers are the same, provided that every change of a sheet shows in the time or the size of
its file.  Otherwise a sheet that was looked at misses a change that another one sees.

* `Session.SameAnswers` — two sessions give the same answers.
* `Session.Twins` — two runs that differ only in what they ask.
* `Scope.Agrees`, `Session.Agree` — scopes and sessions as such runs find them.
* `Session.Twins.agree` — each step of either run keeps them so.
* `Session.answers_uncached` — memos cannot be observed.
* `Session.not_sameAnswers_unnoticed` — but who has looked is blind to a change that does not show.
-/

set_option autoImplicit false

namespace CustomProps

/-! ## Agreeing scopes -/

namespace Scope

/-- Nobody has looked at the sheet of the scope, if it has one. -/
def IsNew (scope : Scope) : Prop := ∀ sheet, scope = .sheet sheet → sheet = .ofPath sheet.path

/-- The path of the file that a scope looks at, if it looks at one. -/
def path? : Scope → Option Path
  | sheet s => some s.path
  | _ => none

/-- A scope that no look can change agrees with itself.  Two sheets of one path agree if both are up
to date, provided that the files tell what is there. -/
inductive Agrees (seen : List FileSystem) : Scope → Scope → Prop
  | same {scope : Scope} (h : ∀ files, scope.looked files = scope) : Agrees seen scope scope
  | sheets {s t : RootSheet} (hpath : t.path = s.path) (hrefusal : s.path.refusal? = none)
    (h : (∀ earlier ∈ seen, ∀ later ∈ seen, earlier.Tells later s.path) →
      s.IsUpToDate seen ∧ t.IsUpToDate seen) : Agrees seen (.sheet s) (.sheet t)

variable {seen : List FileSystem} {a b scope : Scope} {files : FileSystem}

theorem IsNew.agrees (h : scope.IsNew) : scope.Agrees seen scope := by
  cases scope with
  | sheet s =>
    cases hrefusal : s.path.refusal? with
    | none =>
      refine .sheets rfl hrefusal fun _ => ?_
      rw [h s rfl]
      exact ⟨RootSheet.isUpToDate_ofPath _ _, RootSheet.isUpToDate_ofPath _ _⟩
    | some error => exact .same fun files => looked_of_refusal? hrefusal
  | _ => exact .same fun _ => rfl

theorem Agrees.symm (h : a.Agrees seen b) : b.Agrees seen a := by
  cases h with
  | same h => exact .same h
  | sheets hpath hrefusal h =>
    refine .sheets hpath.symm (hpath ▸ hrefusal) fun htells => (h ?_).symm
    exact hpath ▸ htells

theorem Agrees.mono {later : List FileSystem} (h : a.Agrees seen b) (hseen : seen ⊆ later) :
    a.Agrees later b := by
  cases h with
  | same h => exact .same h
  | sheets hpath hrefusal h =>
    refine .sheets hpath hrefusal fun htells => ?_
    obtain ⟨hs, ht⟩ := h fun earlier hearlier later hlater =>
      htells earlier (hseen hearlier) later (hseen hlater)
    exact ⟨hs.mono hseen, ht.mono hseen⟩

/-- One of the two may take a look. -/
theorem Agrees.looked (h : a.Agrees seen b) (hfiles : files ∈ seen) :
    (a.looked files).Agrees seen b := by
  cases h with
  | same h =>
    rw [h files]
    exact .same h
  | @sheets s t hpath hrefusal h =>
    have hlooked := s.path_looked files
    refine .sheets (hpath.trans hlooked.symm) (hlooked ▸ hrefusal) fun htells => ?_
    rw [hlooked] at htells
    obtain ⟨hs, ht⟩ := h htells
    exact ⟨hs.looked hfiles fun earlier hearlier => htells earlier hearlier files hfiles, ht⟩

theorem Agrees.modifyMapping (h : a.Agrees seen b) (change : Mapping → Mapping) :
    (a.modifyMapping change).Agrees seen (b.modifyMapping change) := by
  cases h with
  | same h =>
    cases a with
    | mapping m => exact .same fun _ => rfl
    | _ => exact .same h
  | sheets hpath hrefusal h => exact .sheets hpath hrefusal h

theorem Agrees.refusal? (h : a.Agrees seen b) : b.refusal? = a.refusal? := by
  cases h with
  | same h => rfl
  | sheets hpath hrefusal h => exact congrArg Path.refusal? hpath

/-- Scopes that agree answer the same as soon as both have looked. -/
theorem Agrees.get? (h : a.Agrees seen b) (hfiles : files ∈ seen)
    (htells : ∀ path ∈ a.path?, ∀ earlier ∈ seen, ∀ later ∈ seen, earlier.Tells later path) :
    (b.looked files).get? = (a.looked files).get? := by
  cases h with
  | same h => rfl
  | @sheets s t hpath hrefusal h =>
    have htells := htells s.path rfl
    obtain ⟨hs, ht⟩ := h htells
    have hnow : ∀ earlier ∈ seen, earlier.Tells files s.path := fun earlier hearlier =>
      htells earlier hearlier files hfiles
    have hleft := congrArg RootSheet.properties (RootSheet.looked_eq hs hrefusal hnow)
    have hright := congrArg RootSheet.properties
      (RootSheet.looked_eq ht (hpath ▸ hrefusal) (hpath ▸ hnow))
    exact (get?_sheet hright).trans (hpath ▸ (get?_sheet hleft).symm)

end Scope

namespace Session

variable {α β : Type} {s t later : Session} {seen : List FileSystem} {scope : Scope}

/-! ## The same answers -/

/-- Two sessions give the same answers. -/
structure SameAnswers (s t : Session) : Prop where
  lookup : ∀ k name, (lookup k name t).1 = (lookup k name s).1
  transform : ∀ k content, (transform k content t).1 = (transform k content s).1
  fetch : ∀ j content, (fetch Session.transform j content t).1 =
    (fetch Session.transform j content s).1
  call : ∀ p phase content selectors,
    (call p phase content selectors t).1 = (call p phase content selectors s).1
  rewrite : ∀ p sheet report, (rewrite p sheet report t).1 = (rewrite p sheet report s).1

/-- Where no memo keeps a wrong result the answers are those of the scopes. -/
theorem Alike.sameAnswers (h : s.Alike t) (hs : s.IsSound) (ht : t.IsSound) :
    s.SameAnswers t where
  lookup k name := by rw [lookup_eq, lookup_eq, h.refusal?, h.answers]
  transform k content := by rw [transform_fst, transform_fst, h.failure?, h.answers]
  fetch j content := by
    rw [(fetch_spec isFaithful_transform j content ht).1,
      (fetch_spec isFaithful_transform j content hs).1, h.scopes, h.refusal?, h.answers]
  call p phase content selectors := by
    rw [(call_spec p phase content selectors ht).1, (call_spec p phase content selectors hs).1,
      h.callFailure?, h.replyNow]
  rewrite p sheet report := by
    have hreplies : t.replies p sheet = s.replies p sheet := by
      rw [replies, replies]
      simp only [h.replyNow]
    have hfailure : t.rewriteFailure? p sheet = s.rewriteFailure? p sheet := by
      rw [rewriteFailure?, rewriteFailure?]
      simp only [h.callFailure?]
    rw [(rewrite_spec p sheet report ht).1, (rewrite_spec p sheet report hs).1, hreplies, hfailure]

/-! ## Agreeing sessions -/

/-- The files are the same and have been seen, the scopes agree, the memos are over the same scopes,
and the plugins are the same. -/
structure Agree (seen : List FileSystem) (s t : Session) : Prop where
  files : t.files = s.files
  now : s.files ∈ seen
  length : t.scopes.length = s.scopes.length
  scopes : ∀ k : Nat,
    (s.scopes[k]?.getD .empty).Agrees seen (t.scopes[k]?.getD .empty)
  memos : t.memos.map (·.scope) = s.memos.map (·.scope)
  plugins : t.plugins = s.plugins

/-- The files tell what is there, wherever a scope of the session looks. -/
def Tells (s : Session) (seen : List FileSystem) : Prop :=
  ∀ scope ∈ s.scopes, ∀ path ∈ scope.path?,
    ∀ earlier ∈ seen, ∀ later ∈ seen, earlier.Tells later path

instance (s : Session) (seen : List FileSystem) : Decidable (s.Tells seen) :=
  inferInstanceAs (Decidable (∀ scope ∈ s.scopes, ∀ path ∈ scope.path?,
    ∀ earlier ∈ seen, ∀ later ∈ seen, earlier.Tells later path))

theorem Looked.length_scopes (h : s.Looked later) : later.scopes.length = s.scopes.length := by
  have hnone : ∀ k : Nat, later.scopes[k]? = none ↔ s.scopes[k]? = none := by
    intro k
    rcases h.scopes k with hk | hk <;> rw [hk]
    exact Option.map_eq_none_iff
  simp only [List.getElem?_eq_none_iff] at hnone
  exact Nat.le_antisymm ((hnone _).2 (Nat.le_refl _)) ((hnone _).1 (Nat.le_refl _))

namespace Agree

theorem symm (h : Agree seen s t) : Agree seen t s where
  files := h.files.symm
  now := h.files ▸ h.now
  length := h.length.symm
  scopes k := (h.scopes k).symm
  memos := h.memos.symm
  plugins := h.plugins.symm

/-- Only one of the two looks. -/
theorem looked (h : Agree seen s t) (hlooked : s.Looked later) : Agree seen later t where
  files := h.files.trans hlooked.files.symm
  now := hlooked.files ▸ h.now
  length := h.length.trans hlooked.length_scopes.symm
  scopes k := by
    have hagrees := h.scopes k
    rcases hlooked.scopes k with hk | hk <;> rw [hk]
    · exact hagrees
    · rw [show Scope.empty = Scope.empty.looked s.files from rfl, Option.getD_map]
      exact hagrees.looked h.now
  memos := h.memos.trans (List.ext_getElem? fun j => by
    rw [List.getElem?_map, List.getElem?_map, hlooked.memos])
  plugins := h.plugins.trans hlooked.plugins.symm

theorem length_memos (h : Agree seen s t) : t.memos.length = s.memos.length := by
  rw [← List.length_map (f := (·.scope)), h.memos, List.length_map]

/-- **Sessions that agree answer alike**, if the files tell what is there. -/
theorem alike (h : Agree seen s t) (htells : s.Tells seen) : s.Alike t where
  answers k := by
    rw [answers, answers, scopeNow, scopeNow, h.files]
    refine (h.scopes k).get? h.now ?_
    cases hs : s.scopes[k]? with
    | none =>
      intro path hpath
      cases hpath
    | some scope => exact htells scope (List.mem_of_getElem? hs)
  refusal? k := (h.scopes k).refusal?
  scopes j := by
    have hscope : t.memos[j]?.map (·.scope) = s.memos[j]?.map (·.scope) := by
      rw [← List.getElem?_map, ← List.getElem?_map, h.memos]
    rw [slotAt, slotAt, ← Option.getD_map MemoSlot.scope, ← Option.getD_map MemoSlot.scope, hscope]
  plugins := h.plugins

/-! ### Making and changing -/

theorem addScope (h : Agree seen s t) (hnew : scope.IsNew) :
    Agree seen (addScope scope s).2 (addScope scope t).2 where
  files := h.files
  now := h.now
  length := by
    show (t.scopes ++ [scope]).length = (s.scopes ++ [scope]).length
    rw [List.length_append, List.length_append, h.length]
  scopes k := by
    show ((s.scopes ++ [scope])[k]?.getD .empty).Agrees seen
      ((t.scopes ++ [scope])[k]?.getD .empty)
    rw [List.getElem?_append, List.getElem?_append, h.length]
    split
    · exact h.scopes k
    · cases k - s.scopes.length with
      | zero => exact hnew.agrees
      | succ n => exact .same fun _ => rfl
  memos := h.memos
  plugins := h.plugins

theorem addMemo (h : Agree seen s t) (k : Nat) :
    Agree seen (addMemo k s).2 (addMemo k t).2 where
  files := h.files
  now := h.now
  length := h.length
  scopes := h.scopes
  memos := by
    show (t.memos ++ [_]).map _ = (s.memos ++ [_]).map _
    rw [List.map_append, List.map_append, h.memos]
  plugins := h.plugins

theorem registerPlugin (h : Agree seen s t) (plugin : Plugin) :
    Agree seen (registerPlugin plugin s).2 (registerPlugin plugin t).2 where
  files := h.files
  now := h.now
  length := h.length
  scopes := h.scopes
  memos := h.memos
  plugins := congrArg (· ++ [plugin]) h.plugins

theorem modifyScope (h : Agree seen s t) (k : Nat) (change : Mapping → Mapping) :
    Agree seen (modifyScope k (.modifyMapping change) s).2
      (modifyScope k (.modifyMapping change) t).2 where
  files := h.files
  now := h.now
  length := by
    show (t.scopes.modify _ _).length = (s.scopes.modify _ _).length
    rw [List.length_modify, List.length_modify, h.length]
  scopes j := by
    show ((s.scopes.modify k (.modifyMapping change))[j]?.getD .empty).Agrees seen
      ((t.scopes.modify k (.modifyMapping change))[j]?.getD .empty)
    rw [List.getElem?_modify, List.getElem?_modify]
    split
    · rw [show Scope.empty = Scope.empty.modifyMapping change from rfl, Option.map_eq_map,
        Option.getD_map, Option.getD_map]
      exact (h.scopes j).modifyMapping change
    · simpa using h.scopes j
  memos := h.memos
  plugins := h.plugins

/-- The files change for both. -/
theorem modifyFiles (h : Agree seen s t) (files : FileSystem) :
    Agree (files :: seen) { s with files } { t with files } where
  files := rfl
  now := List.mem_cons_self
  length := h.length
  scopes k := (h.scopes k).mono (List.subset_cons_self files seen)
  memos := h.memos
  plugins := h.plugins

theorem mono {wider : List FileSystem} (h : Agree seen s t) (hseen : seen ⊆ wider) :
    Agree wider s t :=
  ⟨h.files, hseen h.now, h.length, fun k => (h.scopes k).mono hseen, h.memos, h.plugins⟩

/-- Where only the journal and the count of native calls change, nothing else does. -/
theorem note (h : Agree seen s t) (calls calls' : Nat) (journal journal' : List Event) :
    Agree seen { s with nativeCalls := calls, journal }
      { t with nativeCalls := calls', journal := journal' } :=
  ⟨h.files, h.now, h.length, h.scopes, h.memos, h.plugins⟩

end Agree

/-- Answers the same in sessions that agree, and leads to sessions that agree. -/
def Conforms (m : SessionM α) : Prop :=
  ∀ (seen : List FileSystem) (s t : Session), Agree seen s t →
    (m t).1 = (m s).1 ∧ Agree seen (m s).2 (m t).2

namespace Conforms

theorem pure (a : α) : Conforms (pure a : SessionM α) := fun _ _ _ h => ⟨rfl, h⟩

theorem bind {m : SessionM α} {next : α → SessionM β} (hm : Conforms m)
    (hnext : ∀ a, Conforms (next a)) : Conforms (m >>= next : SessionM β) := by
  intro seen s t h
  obtain ⟨hanswer, hagree⟩ := hm seen s t h
  show (next (m t).1 (m t).2).1 = (next (m s).1 (m s).2).1 ∧
    Agree seen (next (m s).1 (m s).2).2 (next (m t).1 (m t).2).2
  rw [hanswer]
  exact hnext _ seen _ _ hagree

theorem addScope (hnew : scope.IsNew) : Conforms (addScope scope) :=
  fun _ _ _ h => ⟨h.length, h.addScope hnew⟩

theorem addMemo (k : Nat) : Conforms (addMemo k) := fun _ _ _ h => ⟨h.length_memos, h.addMemo k⟩

theorem note (events : List Event) : Conforms (note events) := fun _ s t h =>
  ⟨rfl, h.note s.nativeCalls t.nativeCalls _ _⟩

theorem isNew_scopeOfOptions (options : Options) : (scopeOfOptions options).IsNew := by
  rw [scopeOfOptions]
  split
  · exact nofun
  · exact nofun
  · rintro sheet hsheet
    cases hsheet
    rfl

theorem addPlugin (options : Options) (scope : Option Nat) (native : Option Bool) :
    Conforms (addPlugin options scope native) := by
  have hscope : Conforms (pluginScope options scope) := by
    cases scope with
    | none => exact .addScope (isNew_scopeOfOptions options)
    | some k => exact .pure k
  have hmemo : ∀ k, Conforms (pluginMemo options.useCache k) := by
    intro k
    rw [pluginMemo]
    split
    · exact (addMemo k).bind fun j => .pure (some j)
    · exact .pure none
  have hnative : Conforms (askNative native) := by
    cases native with
    | none => exact .pure false
    | some answer => exact fun _ s t h => ⟨rfl, h.note _ _ s.journal t.journal⟩
  have hdisabled : ∀ disabled, Conforms (noteDisabled disabled) := by
    intro disabled
    cases disabled with
    | true => exact (note _).bind fun _ => .pure true
    | false => exact .pure false
  refine hscope.bind fun k => (hmemo k).bind fun memo => hnative.bind fun supported =>
    (hdisabled _).bind fun disabled => fun _ s t h => ⟨congrArg List.length h.plugins, ?_⟩
  exact h.registerPlugin _

end Conforms

/-! ## Two runs -/

/-- Two runs over the same files make the same scopes, memos and plugins, and the same changes, in
the same order.  In between each asks what it likes.  The file systems on the way are collected. -/
inductive Twins (files : FileSystem) : List FileSystem → Session → Session → Prop
  | start : Twins files [files] (ofFiles files) (ofFiles files)
  | scope {seen : List FileSystem} {s t : Session} (scope : Scope) (hnew : scope.IsNew)
    (h : Twins files seen s t) : Twins files seen (addScope scope s).2 (addScope scope t).2
  | memo {seen : List FileSystem} {s t : Session} (k : Nat) (hk : k < s.scopes.length)
    (h : Twins files seen s t) : Twins files seen (addMemo k s).2 (addMemo k t).2
  | plugin {seen : List FileSystem} {s t : Session} (options : Options) (scope : Option Nat)
    (native : Option Bool) (hscope : ∀ k, scope = some k → k < s.scopes.length)
    (h : Twins files seen s t) :
    Twins files seen (addPlugin options scope native s).2 (addPlugin options scope native t).2
  | change {seen : List FileSystem} {s t : Session} (step : Step) (htold : step.IsTold)
    (hchange : ¬step.IsQuestion) (h : Twins files seen s t) :
    Twins files ((perform step s).2.files :: seen) (perform step s).2 (perform step t).2
  | left {seen : List FileSystem} {s t : Session} (step : Step) (hstep : step.IsQuestion)
    (h : Twins files seen s t) : Twins files seen (perform step s).2 t
  | right {seen : List FileSystem} {s t : Session} (step : Step) (hstep : step.IsQuestion)
    (h : Twins files seen s t) : Twins files seen s (perform step t).2

theorem Agree.modifyThenVersion (h : Agree seen s t) (k : Nat) (change : Mapping → Mapping) :
    Agree seen (modifyThenVersion k change s).2 (modifyThenVersion k change t).2 :=
  (((h.modifyScope k change).looked (looked_modifyThenVersion k change s)).symm.looked
    (looked_modifyThenVersion k change t)).symm

/-- A change that is told keeps two runs in agreement. -/
theorem Agree.perform {step : Step} (h : Agree seen s t) (htold : step.IsTold)
    (hchange : ¬step.IsQuestion) :
    Agree ((perform step s).2.files :: seen) (perform step s).2 (perform step t).2 := by
  rw [perform_snd, perform_snd]
  cases step with
  | set k name value =>
    exact (h.modifyThenVersion k (·.set name value)).mono (List.subset_cons_self _ seen)
  | remove k name =>
    exact (h.modifyThenVersion k (·.remove name)).mono (List.subset_cons_self _ seen)
  | clear k => exact (h.modifyThenVersion k (·.clear)).mono (List.subset_cons_self _ seen)
  | write path entry time =>
    have hfiles := h.modifyFiles (s.files.install path entry time)
    show Agree _ _ { t with files := t.files.install path entry time }
    rw [h.files]
    exact hfiles
  | delete path =>
    have hfiles := h.modifyFiles (s.files.remove path)
    show Agree _ _ { t with files := t.files.remove path }
    rw [h.files]
    exact hfiles
  | poke | unpoke => exact htold.elim
  | lookup | version | fetch | holds | forget | transform | call | nativeCalls | rewrite =>
    exact absurd trivial hchange

/-- **Two runs that differ in questions only stay in agreement**, and no memo of either keeps a
wrong result. -/
theorem Twins.agree {files : FileSystem} (h : Twins files seen s t) :
    s.IsSound ∧ t.IsSound ∧ Agree seen s t := by
  induction h with
  | start =>
    have hsound := isSound_ofFiles files
    exact ⟨hsound, hsound, rfl, List.mem_cons_self, rfl, fun _ => .same fun _ => rfl, rfl, rfl⟩
  | scope scope hnew _ ih =>
    obtain ⟨hs, ht, hagree⟩ := ih
    exact ⟨(keeps_addScope scope _ hs).1, (keeps_addScope scope _ ht).1, hagree.addScope hnew⟩
  | memo k hk _ ih =>
    obtain ⟨hs, ht, hagree⟩ := ih
    exact ⟨(addMemo_spec hs hk).1, (addMemo_spec ht (hagree.length ▸ hk)).1, hagree.addMemo k⟩
  | plugin options scope native hscope _ ih =>
    obtain ⟨hs, ht, hagree⟩ := ih
    exact ⟨(addPlugin_spec hs options native hscope).1,
      (addPlugin_spec ht options native fun k hk => hagree.length ▸ hscope k hk).1,
      (Conforms.addPlugin options scope native _ _ _ hagree).2⟩
  | change step htold hchange _ ih =>
    obtain ⟨hs, ht, hagree⟩ := ih
    exact ⟨(keeps_perform htold _ hs).1, (keeps_perform htold _ ht).1,
      hagree.perform htold hchange⟩
  | left step hstep _ ih =>
    obtain ⟨hs, ht, hagree⟩ := ih
    obtain ⟨hsound, hlooked⟩ := looks_perform hstep _ hs
    exact ⟨hsound, ht, hagree.looked hlooked⟩
  | right step hstep _ ih =>
    obtain ⟨hs, ht, hagree⟩ := ih
    obtain ⟨hsound, hlooked⟩ := looks_perform hstep _ ht
    exact ⟨hs, hsound, (hagree.symm.looked hlooked).symm⟩

/-! ## The answers of memos and plugins -/

/-- A memo answers what transforming the block anew gives. -/
theorem fetch_addMemo (hs : s.IsSound) {k : Nat} (hk : k < s.scopes.length)
    (hlater : (addMemo k s).2.Reaches later) (hrefusal : later.refusal? k = none)
    (content : Text) : ∃ answer,
      (fetch transform (addMemo k s).1 content later).1 = .ok answer ∧
        (transform k content later).1 = .ok answer := by
  obtain ⟨hmade, -⟩ := addMemo_spec hs hk
  obtain ⟨hsound, hcontinues⟩ := hlater.keeps hmade
  obtain ⟨slot, hslot, hscope⟩ :=
    hcontinues.memos s.memos.length ⟨k, .empty⟩ List.getElem?_concat_length
  have hfetch := (fetch_spec isFaithful_transform s.memos.length content hsound).1
  rw [slotAt_eq hslot, hscope, hrefusal] at hfetch
  refine ⟨_, hfetch, ?_⟩
  rw [transform_fst, failure?_eq_none hrefusal, settle_none]

/-- A plugin replies what transforming the block anew gives, and rewrites a sheet so. -/
theorem call_addPlugin (hs : s.IsSound) (options : Options) {scope : Option Nat}
    (native : Option Bool) (hscope : ∀ k, scope = some k → k < s.scopes.length)
    (hlater : (addPlugin options scope native s).2.Reaches later)
    (hrefusal : later.refusal? (scope.getD s.scopes.length) = none) :
    let p := (addPlugin options scope native s).1
    let anew := replyAnew options native (scope.getD s.scopes.length)
    (∀ phase content selectors, ∃ answer, (call p phase content selectors later).1 = .ok answer ∧
      (anew phase content selectors later).1 = .ok answer) ∧
    ∀ sheet report, ∃ replies : Call → Option Text,
      (∀ c, (anew Phase.selectorBlock.code c.content c.selectors later).1 = .ok (replies c)) ∧
      (rewrite p sheet report later).1 =
        .ok (Id.run (Sheet.rewrite (fun c => pure (replies c)) sheet report)) := by
  obtain ⟨hmade, -, memo, hplugin⟩ := addPlugin_spec hs options native hscope
  obtain ⟨hsound, hcontinues⟩ := hlater.keeps hmade
  have hp := hcontinues.plugins _ _ hplugin
  intro p anew
  refine ⟨fun phase content selectors => ?_, fun sheet report => ?_⟩
  · have hcall := (call_spec p phase content selectors hsound).1
    rw [callFailure?_eq_none hp hrefusal] at hcall
    exact ⟨_, hcall, replyNow_eq_replyAnew hp hrefusal phase content selectors⟩
  · refine ⟨fun c => later.replyNow p Phase.selectorBlock.code c.content c.selectors,
      fun c => replyNow_eq_replyAnew hp hrefusal _ _ _, ?_⟩
    rw [(rewrite_spec p sheet report hsound).1, rewriteFailure?_eq_none hp hrefusal, rewrite_pure]
    rfl

/-- **Memos cannot be observed.**  At any point of a run, wherever its scope can be looked at,

* a memo answers what transforming the block anew would give at that moment;
* a plugin replies so too, where it transforms at all, and so do the rules of a sheet that it
  rewrites;
* questions asked just before, to whomever, change no answer.

And if every change of a sheet shows in the time or the size of its file, then two runs that make
the same scopes, memos, plugins and changes give the same answers, whatever was asked in each of
them. -/
theorem answers_uncached (files : FileSystem) :
    (∀ s, (ofFiles files).Reaches s →
      (∀ k < s.scopes.length, ∀ later, (addMemo k s).2.Reaches later → later.refusal? k = none →
        ∀ content, ∃ answer, (fetch transform (addMemo k s).1 content later).1 = .ok answer ∧
          (transform k content later).1 = .ok answer) ∧
      (∀ (options : Options) (scope : Option Nat) (native : Option Bool),
        (∀ k, scope = some k → k < s.scopes.length) →
        ∀ later, (addPlugin options scope native s).2.Reaches later →
        later.refusal? (scope.getD s.scopes.length) = none →
        let p := (addPlugin options scope native s).1
        let anew := replyAnew options native (scope.getD s.scopes.length)
        (∀ phase content selectors, ∃ answer,
          (call p phase content selectors later).1 = .ok answer ∧
            (anew phase content selectors later).1 = .ok answer) ∧
        ∀ sheet report, ∃ replies : Call → Option Text,
          (∀ c, (anew Phase.selectorBlock.code c.content c.selectors later).1 = .ok (replies c)) ∧
          (rewrite p sheet report later).1 =
            .ok (Id.run (Sheet.rewrite (fun c => pure (replies c)) sheet report))) ∧
      ∀ questions : List Step, (∀ step ∈ questions, step.IsQuestion) →
        s.SameAnswers (performAll questions s).2) ∧
    ∀ seen s t, Twins files seen s t → s.Tells seen → s.SameAnswers t := by
  refine ⟨fun s hs => ?_, fun seen s t h htells => ?_⟩
  · obtain ⟨hsound, -⟩ := hs.keeps (isSound_ofFiles files)
    refine ⟨fun k hk later hlater hrefusal => fetch_addMemo hsound hk hlater hrefusal,
      fun options scope native hscope later hlater hrefusal =>
        call_addPlugin hsound options native hscope hlater hrefusal, fun questions h => ?_⟩
    obtain ⟨hsound', hlooked⟩ := looks_performAll h s hsound
    exact hlooked.alike.sameAnswers hsound hsound'
  · obtain ⟨hs, ht, hagree⟩ := h.agree
    exact (hagree.alike htells).sameAnswers hs ht

/-! ### A file with a value -/

/-- A file that gives a property a value. -/
def giving (value : String) : Int → Entry :=
  .file (encodeText (":root".toList ++ Text.braced ("--b:" ++ value)))

/-- Writes the file with a value, at a time. -/
def give (value : String) (time : Int) : Step := .write (.ofText "r.css".toList) (giving value) time

/-- A session with the file and a scope over it. -/
def withSheet : Session :=
  (addScope (.sheet (.ofPath (.ofText "r.css".toList)))
    (perform (give "red" 5) (ofFiles (.emptyAt 0))).2).2

/-- A session with a memo over the scope. -/
def overSheet : Session := (addMemo 0 withSheet).2

theorem twins_overSheet : Twins (.emptyAt 0) [overSheet.files, .emptyAt 0] overSheet overSheet := by
  have hnew : Scope.IsNew (.sheet (.ofPath (.ofText "r.css".toList))) := by
    intro sheet hsheet
    cases hsheet
    rfl
  exact .memo 0 (by decide +kernel) (.scope _ hnew (.change _ trivial id .start))

/-- A file is written anew with a value of the same length at the same time: who has looked before
goes on with the old value, and who has not sees the new one. -/
theorem not_sameAnswers_unnoticed :
    let block := "x:var(--b,c)".toList
    let asked := (perform (give "tan" 5) (perform (.fetch 0 block) overSheet).2).2
    let unasked := (perform (give "tan" 5) overSheet).2
    (∃ seen, Twins (.emptyAt 0) seen asked unasked) ∧
      (fetch transform 0 block asked).1 = .ok (some "x:red;x:var(--b,c);".toList) ∧
      (fetch transform 0 block unasked).1 = .ok (some "x:tan;x:var(--b,c);".toList) ∧
      ¬asked.SameAnswers unasked := by
  intro block asked unasked
  have htwins : Twins (.emptyAt 0) _ asked unasked :=
    .change (give "tan" 5) trivial id (.left (.fetch 0 block) trivial twins_overSheet)
  obtain ⟨hasked, hunasked, -⟩ := htwins.agree
  have hold := (fetch_spec isFaithful_transform 0 block hasked).1
  have hnew := (fetch_spec isFaithful_transform 0 block hunasked).1
  rw [Block.transform_var] at hold hnew
  have hred : (fetch transform 0 block asked).1 = .ok (some "x:red;x:var(--b,c);".toList) :=
    hold.trans (by decide +kernel)
  have htan : (fetch transform 0 block unasked).1 = .ok (some "x:tan;x:var(--b,c);".toList) :=
    hnew.trans (by decide +kernel)
  refine ⟨⟨_, htwins⟩, hred, htan, fun hsame => ?_⟩
  exact absurd (htan.symm.trans ((hsame.fetch 0 block).trans hred)) (by decide)

/-- A result is kept, the file is written anew, and the new result is kept: the memo always answers
what the file gives, and so does a plugin.  A run that asked nothing before gives the same
answers. -/
theorem answers_uncached_rewritten :
    let block := "x:var(--b,c)".toList
    let kept := (perform (.fetch 0 block) overSheet).2
    let changed := (perform (give "tan" 6) kept).2
    let keptAgain := (perform (.fetch 0 block) changed).2
    let unasked := (perform (give "tan" 6) overSheet).2
    ((holds 0 block kept).1 = .ok true ∧
      (fetch transform 0 block kept).1 = .ok (some "x:red;x:var(--b,c);".toList)) ∧
    ((holds 0 block changed).1 = .ok false ∧
      (fetch transform 0 block changed).1 = .ok (some "x:tan;x:var(--b,c);".toList)) ∧
    ((holds 0 block keptAgain).1 = .ok true ∧
      (fetch transform 0 block keptAgain).1 = .ok (some "x:tan;x:var(--b,c);".toList)) ∧
    ((call 0 Phase.selectorBlock.code block [".a".toList]
        (addPlugin ⟨false, true, none⟩ (some 0) none keptAgain).2).1 =
      .ok (some "x:tan;x:var(--b,c);".toList)) ∧
    ∃ seen, Twins (.emptyAt 0) seen keptAgain unasked ∧ keptAgain.Tells seen ∧
      keptAgain.SameAnswers unasked := by
  intro block kept changed keptAgain unasked
  have hs : (ofFiles (.emptyAt 0)).Reaches withSheet := .scope _ (.step _ trivial .refl)
  have hkept : overSheet.Reaches kept := .step _ trivial .refl
  have hchanged : overSheet.Reaches changed := .step _ trivial hkept
  have hkeptAgain : overSheet.Reaches keptAgain := .step _ trivial hchanged
  have hmemo := ((answers_uncached (.emptyAt 0)).1 withSheet hs).1 0 (by decide +kernel)
  have hfetch : ∀ later answer, overSheet.Reaches later → later.refusal? 0 = none →
      "x:".toList ++ ((later.answers 0 "--b".toList).bind Text.nonBlank?).getD "c".toList ++
        ";x:var(--b,c);".toList = answer →
      (fetch transform 0 block later).1 = .ok (some answer) := by
    intro later answer hlater hrefusal hanswer
    obtain ⟨result, hresult, hanew⟩ := hmemo later hlater hrefusal block
    rw [transform_fst, failure?_eq_none hrefusal, Block.transform_var, hanswer] at hanew
    exact hresult.trans hanew.symm
  have hcall : (call 0 Phase.selectorBlock.code block [".a".toList]
      (addPlugin ⟨false, true, none⟩ (some 0) none keptAgain).2).1 =
        .ok (some "x:tan;x:var(--b,c);".toList) := by
    have hreaches : (ofFiles (.emptyAt 0)).Reaches keptAgain :=
      .step _ trivial (.step _ trivial (.step _ trivial (.memo 0 (by decide +kernel) hs)))
    have hrefusal : (addPlugin ⟨false, true, none⟩ (some 0) none keptAgain).2.refusal? 0 =
        none := by
      decide +kernel
    obtain ⟨reply, hreply, hanew⟩ := (((answers_uncached (.emptyAt 0)).1 keptAgain hreaches).2.1
      ⟨false, true, none⟩ (some 0) none (fun k hk => Option.some.inj hk ▸ by decide +kernel) _ .refl
      hrefusal).1 Phase.selectorBlock.code block [".a".toList]
    rw [replyAnew, if_neg (by decide)] at hanew
    have hnow := transform_fst 0 block (addPlugin ⟨false, true, none⟩ (some 0) none keptAgain).2
    rw [failure?_eq_none hrefusal, Block.transform_var] at hnow
    exact hreply.trans (hanew.symm.trans (hnow.trans (by decide +kernel)))
  have htwins : Twins (.emptyAt 0) [changed.files, overSheet.files, .emptyAt 0] keptAgain unasked :=
    .left _ trivial (.change (give "tan" 6) trivial id (.left _ trivial twins_overSheet))
  have htells : keptAgain.Tells [changed.files, overSheet.files, .emptyAt 0] := by
    decide +kernel
  exact ⟨⟨by decide +kernel, hfetch kept _ hkept (by decide +kernel) (by decide +kernel)⟩,
    ⟨by decide +kernel, hfetch changed _ hchanged (by decide +kernel) (by decide +kernel)⟩,
    ⟨by decide +kernel, hfetch keptAgain _ hkeptAgain (by decide +kernel) (by decide +kernel)⟩,
    hcall, _, htwins, htells, (answers_uncached (.emptyAt 0)).2 _ _ _ htwins htells⟩

end Session
end CustomProps
