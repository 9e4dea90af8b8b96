import CustomProps.Proofs.Session.Rereading
import CustomProps.Proofs.Session.Run

/-!
# Versions identify scopes

Who has read the version of a scope need not ask it for its values again until the version is
another: at no moment of a run does a version stand for other values than at an earlier one.  How
the version moves depends on the kind of scope.  That of a mapping counts the changes that are made
to it.  That of a sheet counts the looks at its file that found other values than the look before.
Where nobody can look at the file, no version is read.

* `Observation` — a version that was read, and the values right after.
* `Session.precedes_observe` — a version read again stands for the same values.
* `Session.scopes_performAll_mapping` — what a run makes of a mapping.
* `Session.isChain_observationsAlong` — consecutive observations of a sheet.
* `Session.versions_identify_scopes` — all this together.
-/

set_option autoImplicit false

namespace CustomProps

/-- What came of reading the version of a scope, and of asking it for each name right after. -/
structure Observation where
  version : Except FileError Nat
  answers : Text → Except FileError (Option Text)

namespace Observation

/-- If a version was read, one is read later too.  It has not fallen, and if it is the same then so
are the values. -/
def Precedes (earlier later : Observation) : Prop :=
  ∀ n, earlier.version = .ok n → ∃ n', later.version = .ok n' ∧ n ≤ n' ∧
    (n = n' → later.answers = earlier.answers)

/-- The version is the next one if some value is another, and the same otherwise. -/
def CountsChange (earlier later : Observation) : Prop :=
  ∃ n, earlier.version = .ok n ∧
    (later.answers = earlier.answers ∧ later.version = .ok n ∨
      later.answers ≠ earlier.answers ∧ later.version = .ok (n + 1))

/-- A version and values were told. -/
def told (n : Nat) (values : Lookup) : Observation := ⟨.ok n, fun name => .ok (values name)⟩

/-- Nothing was observed yet: no name has a value. -/
def fresh : Observation := told 0 fun _ => none

/-- Nobody could look. -/
def refused (error : FileError) : Observation := ⟨.error error, fun _ => .error error⟩

theorem told_answers_inj {n n' : Nat} {values values' : Lookup} :
    (told n values).answers = (told n' values').answers ↔ values = values' :=
  ⟨fun h => funext fun name => Except.ok.inj (congrFun h name), fun h => h ▸ rfl⟩

end Observation

/-! ## Changes of a mapping -/

/-- What a step makes of the mapping that is the scope of the given number. -/
def Step.onMapping (k : Nat) (mapping : Mapping) : Step → Mapping
  | .set i name value => if i = k then mapping.set name value else mapping
  | .remove i name => if i = k then mapping.remove name else mapping
  | .clear i => if i = k then mapping.clear else mapping
  | _ => mapping

/-- By how much a step raises the version of that mapping: by one if it gives a property a value,
takes away one that is there, or takes all away. -/
def Step.growth (k : Nat) (mapping : Mapping) : Step → Nat
  | .set i _ _ | .clear i => if i = k then 1 else 0
  | .remove i name => if i = k ∧ mapping.values.has name = true then 1 else 0
  | _ => 0

theorem Step.version_onMapping (k : Nat) (m : Mapping) (step : Step) :
    (step.onMapping k m).version = m.version + step.growth k m := by
  cases step with
  | set i name value =>
    rw [onMapping, growth]
    split <;> rfl
  | remove i name =>
    rw [onMapping, growth]
    by_cases hi : i = k
    · simp only [hi, if_true, true_and, Mapping.version_remove]
    · simp only [hi, if_false, false_and, Nat.add_zero]
  | clear i =>
    rw [onMapping, growth]
    split <;> rfl
  | _ => rfl

/-! ## The properties of a sheet -/

namespace RootSheet

/-- The properties are those that some file has. -/
def IsServed (sheet : RootSheet) : Prop :=
  ∃ (files : FileSystem) (path : Path), sheet.properties = files.rootPropertiesAt path

/-- Who has not looked yet knows no properties, as if there were no file. -/
theorem isServed_ofPath (path : Path) : (ofPath path).IsServed :=
  ⟨.emptyAt 0, ⟨[], []⟩, rfl⟩

theorem IsServed.looked {sheet : RootSheet} (h : sheet.IsServed) (files : FileSystem) :
    (sheet.looked files).IsServed := by
  rcases looked_cases files sheet with ⟨hsame, -⟩ | ⟨hnow, -⟩
  · obtain ⟨earlier, path, hproperties⟩ := h
    exact ⟨earlier, path, hsame.trans hproperties⟩
  · exact ⟨files, sheet.path, hnow⟩

/-- Sheets that answer the same have the same properties. -/
theorem IsServed.properties_eq {sheet later : RootSheet} (h : sheet.IsServed)
    (hlater : later.IsServed) (hget : (Scope.sheet later).get? = (Scope.sheet sheet).get?) :
    later.properties = sheet.properties := by
  obtain ⟨files, path, hproperties⟩ := h
  obtain ⟨files', path', hproperties'⟩ := hlater
  rw [Scope.get?_sheet hproperties, Scope.get?_sheet hproperties'] at hget
  rw [hproperties, hproperties', FileSystem.rootPropertiesAt_eq_iff]
  exact congrFun hget

end RootSheet

namespace Session

variable {s later : Session} {k : Nat} {m : Mapping} {sheet : RootSheet}

/-! ## Observations -/

/-- Reads the version of a scope and, right after, its values. -/
def observe (k : Nat) (s : Session) : Observation where
  version := (version k s).1
  answers name := (lookup k name (version k s).2).1

/-- What is observed is the scope after a look at the files. -/
theorem observe_of_refusal?_eq_none (h : s.refusal? k = none) :
    observe k s = .told (s.scopeNow k).version (s.answers k) := by
  have hlooked := looked_refresh k s
  rw [observe, Observation.told, version_eq, h]
  congr
  funext name
  rw [lookup_eq, hlooked.refusal?, h, hlooked.answers, settle_none]

theorem observe_of_refusal? {error : FileError} (h : s.refusal? k = some error) :
    observe k s = .refused error := by
  have hlooked := looked_refresh k s
  rw [observe, Observation.refused, version_eq, h]
  congr
  funext name
  rw [lookup_eq, hlooked.refusal?, h, settle_some]

/-- A scope that was looked at advances, whatever happens to it, and nothing comes in the way of
looking again. -/
theorem advances_scopeNow (hk : k < s.scopes.length) (hs : s.IsSound)
    (h : (version k s).2.Reaches later) :
    (s.scopeNow k).Advances (later.scopeNow k) ∧ later.refusal? k = s.refusal? k := by
  rw [version_eq] at h
  obtain ⟨hsound, hlooked⟩ := looks_refresh k s hs
  obtain ⟨-, hcontinues⟩ := Reaches.keeps h hsound
  have hscope : (refresh k s).2.scopes[k]? = some (s.scopeNow k) := by
    obtain ⟨journal, heq⟩ := refresh_eq k s
    rw [heq]
    exact List.getElem?_set_self hk
  obtain ⟨scope, hlater, hadvances, hrefusal⟩ := hcontinues.scopes k _ hscope
  rw [scopeNow_eq hlater, refusal?_eq hlater, hrefusal, ← hlooked.refusal? k, refusal?_eq hscope]
  exact ⟨hadvances.trans (Scope.advances_looked later.files scope), rfl⟩

/-- **A version that is read again stands for the same values.** -/
theorem precedes_observe (hk : k < s.scopes.length) (hs : s.IsSound)
    (h : (version k s).2.Reaches later) : (observe k s).Precedes (observe k later) := by
  obtain ⟨hadvances, hsame⟩ := advances_scopeNow hk hs h
  intro n hn
  cases hrefusal : s.refusal? k with
  | some error =>
    rw [observe_of_refusal? hrefusal] at hn
    cases hn
  | none =>
    rw [observe_of_refusal?_eq_none hrefusal] at hn ⊢
    rw [observe_of_refusal?_eq_none (hsame.trans hrefusal)]
    obtain rfl := Except.ok.inj hn
    refine ⟨_, rfl, hadvances.version_le, fun heq => Observation.told_answers_inj.2 ?_⟩
    rcases hadvances with hlt | ⟨-, hget⟩
    · exact absurd heq (Nat.ne_of_lt hlt)
    · exact hget.symm

/-! ## Mappings -/

theorem version_mapping (hk : s.scopes[k]? = some (.mapping m)) :
    (version k s).1 = .ok m.version := by
  rw [version_eq, refusal?_eq hk, scopeNow_eq hk]
  rfl

/-- Being asked changes no mapping. -/
theorem Looked.scope_mapping (h : s.Looked later) (hk : s.scopes[k]? = some (.mapping m)) :
    later.scopes[k]? = some (.mapping m) := by
  rcases h.scopes k with hsame | hlooked
  · rw [hsame, hk]
  · rw [hlooked, hk]
    rfl

theorem scopes_modifyThenVersion (hk : s.scopes[k]? = some (.mapping m)) (i : Nat)
    (change : Mapping → Mapping) :
    (modifyThenVersion i change s).2.scopes[k]? =
      some (.mapping (if i = k then change m else m)) := by
  have hchanged : (modifyScope i (.modifyMapping change) s).2.scopes[k]? =
      some (.mapping (if i = k then change m else m)) := by
    show (s.scopes.modify i _)[k]? = _
    rw [List.getElem?_modify, hk, Option.map_eq_map, Option.map_some]
    split <;> rfl
  exact (looked_modifyThenVersion i change s).scope_mapping hchanged

theorem scopes_perform_mapping (hs : s.IsSound) (hk : s.scopes[k]? = some (.mapping m))
    {step : Step} (h : step.IsTold) :
    (perform step s).2.scopes[k]? = some (.mapping (step.onMapping k m)) := by
  rw [perform_snd]
  cases step with
  | set i name value => exact scopes_modifyThenVersion hk i _
  | remove i name => exact scopes_modifyThenVersion hk i _
  | clear i => exact scopes_modifyThenVersion hk i _
  | write | delete => exact hk
  | poke | unpoke => exact h.elim
  | lookup | version | fetch | holds | forget | transform | call | nativeCalls | rewrite =>
    refine (looks_act ?_ s hs).2.scope_mapping hk
    trivial

/-- By induction on the steps: a mapping goes through the changes that are made to it. -/
theorem scopes_performAll_mapping {steps : List Step} (hsteps : ∀ step ∈ steps, step.IsTold)
    (hs : s.IsSound) (hk : s.scopes[k]? = some (.mapping m)) :
    (performAll steps s).2.IsSound ∧ (performAll steps s).2.scopes[k]? =
      some (.mapping (steps.foldl (Step.onMapping k) m)) := by
  induction steps generalizing s m with
  | nil => exact ⟨hs, hk⟩
  | cons step steps ih =>
    obtain ⟨hstep, hrest⟩ := List.forall_mem_cons.1 hsteps
    rw [performAll_cons_snd, List.foldl_cons]
    exact ih hrest (keeps_perform hstep s hs).1 (scopes_perform_mapping hs hk hstep)

/-! ## Sheets -/

/-- What is observed at a step: a question is an observation, a change of the files is none. -/
def observed (k : Nat) (s : Session) : SheetStep → List Observation
  | .lookup _ | .version => [observe k s]
  | .write .. | .delete _ => []

/-- What is observed along a run of changes of the files and of questions to a sheet. -/
def observationsAlong (k : Nat) : Session → List SheetStep → List Observation
  | _, [] => []
  | s, step :: steps =>
    observed k s step ++ observationsAlong k (perform (step.toStep k) s).2 steps

/-- One look at the file after another. -/
theorem countsChange_looked (h : sheet.IsServed) (files : FileSystem) :
    Observation.CountsChange (.told sheet.version (Scope.sheet sheet).get?)
      (.told (sheet.looked files).version (Scope.sheet (sheet.looked files)).get?) := by
  refine ⟨_, rfl, ?_⟩
  rcases RootSheet.looked_cases files sheet with ⟨hsame, hversion⟩ | ⟨-, hne, hversion⟩
  · refine .inl ⟨Observation.told_answers_inj.2 (funext fun name => ?_), congrArg _ hversion⟩
    show ((sheet.looked files).properties.get? name).bind _ = _
    rw [hsame]
    rfl
  · refine .inr ⟨fun hsame => ?_, congrArg _ hversion⟩
    exact hne (h.properties_eq (h.looked files) (Observation.told_answers_inj.1 hsame))

/-- By induction on the steps: the properties served stay those of some file. -/
theorem isChain_observationsAlong (steps : List SheetStep)
    (hs : s.scopes[k]? = some (.sheet sheet)) (hrefusal : s.refusal? k = none)
    (hserved : sheet.IsServed) :
    List.IsChain Observation.CountsChange
      (.told sheet.version (Scope.sheet sheet).get? :: observationsAlong k s steps) := by
  induction steps generalizing s sheet with
  | nil => exact List.IsChain.singleton _
  | cons step steps ih =>
    obtain ⟨-, hscopes⟩ := refresh_sheet hs
    have hobserved : observe k s =
        .told (sheet.looked s.files).version (Scope.sheet (sheet.looked s.files)).get? := by
      rw [observe_of_refusal?_eq_none hrefusal, answers, scopeNow_eq hs]
      rfl
    have hrest := ih hscopes (((looked_refresh k s).refusal? k).trans hrefusal)
      (hserved.looked s.files)
    rw [observationsAlong]
    cases step with
    | write place entry time =>
      exact ih (s := { s with files := s.files.install place entry time }) hs hrefusal hserved
    | delete place =>
      exact ih (s := { s with files := s.files.remove place }) hs hrefusal hserved
    | lookup name =>
      rw [observed, hobserved, SheetStep.toStep, perform_lookup]
      exact List.isChain_cons_cons.2 ⟨countsChange_looked hserved s.files, hrest⟩
    | version =>
      rw [observed, hobserved, SheetStep.toStep, perform_version]
      exact List.isChain_cons_cons.2 ⟨countsChange_looked hserved s.files, hrest⟩

/-- By induction on the steps: nobody can look. -/
theorem observationsAlong_refused (steps : List SheetStep) {error : FileError}
    (hrefusal : s.refusal? k = some error) :
    ∀ o ∈ observationsAlong k s steps, o = .refused error := by
  induction steps generalizing s with
  | nil => exact fun _ h => absurd h List.not_mem_nil
  | cons step steps ih =>
    have hrest := ih (((looked_refresh k s).refusal? k).trans hrefusal)
    rw [observationsAlong]
    cases step with
    | write place entry time =>
      exact ih (s := { s with files := s.files.install place entry time }) hrefusal
    | delete place => exact ih (s := { s with files := s.files.remove place }) hrefusal
    | lookup name =>
      rw [observed, SheetStep.toStep, perform_lookup]
      exact List.forall_mem_cons.2 ⟨observe_of_refusal? hrefusal, hrest⟩
    | version =>
      rw [observed, SheetStep.toStep, perform_version]
      exact List.forall_mem_cons.2 ⟨observe_of_refusal? hrefusal, hrest⟩

/-- **Versions identify scopes.**  Let nothing be changed behind the back of a scope.

* A version can be read wherever the files can be looked at for the scope.  Of two moments of a run
  the later one has no lower version, and where the versions are the same the values are the same.
* The version of a mapping grows by one with each value that is given, each property that was there
  and is taken away, and each time that all are taken away, and with nothing else.
* A sheet that was never asked stands for no values.  From there each observation has the version of
  the one before, or the next if it finds other values.  Only where the path never reaches the
  system nothing is observed at all. -/
theorem versions_identify_scopes {files : FileSystem} {s : Session}
    (hs : (ofFiles files).Reaches s) :
    (∀ k < s.scopes.length, (s.refusal? k = none → ∃ n, (observe k s).version = .ok n) ∧
      ∀ later, (version k s).2.Reaches later → (observe k s).Precedes (observe k later)) ∧
    (∀ (m : Mapping) (steps : List Step), (∀ step ∈ steps, step.IsTold) →
      let k := (addScope (.mapping m) s).1
      let later := (performAll steps (addScope (.mapping m) s).2).2
      let now := steps.foldl (Step.onMapping k) m
      (version k later).1 = .ok now.version ∧ ∀ step : Step, step.IsTold →
        (version k (perform step later).2).1 = .ok (now.version + step.growth k now)) ∧
    ∀ (path : Path) (steps : List SheetStep),
      let observations := observationsAlong (addScope (.sheet (.ofPath path)) s).1
        (addScope (.sheet (.ofPath path)) s).2 steps
      (path.refusal? = none → List.IsChain Observation.CountsChange (.fresh :: observations)) ∧
      ∀ error, path.refusal? = some error → ∀ o ∈ observations, o = .refused error := by
  obtain ⟨hsound, -⟩ := hs.keeps (isSound_ofFiles files)
  refine ⟨fun k hk => ⟨fun hrefusal => ?_, fun later hlater => precedes_observe hk hsound hlater⟩,
    fun m steps hsteps => ?_, fun path steps => ?_⟩
  · rw [observe_of_refusal?_eq_none hrefusal]
    exact ⟨_, rfl⟩
  · intro k later now
    obtain ⟨hlater, hnow⟩ := scopes_performAll_mapping (k := k) (m := m) hsteps
      (keeps_addScope (.mapping m) s hsound).1 List.getElem?_concat_length
    refine ⟨version_mapping hnow, fun step hstep => ?_⟩
    rw [version_mapping (scopes_perform_mapping hlater hnow hstep), Step.version_onMapping]
  · have hscope : (addScope (.sheet (.ofPath path)) s).2.scopes[s.scopes.length]? =
        some (.sheet (.ofPath path)) := List.getElem?_concat_length
    exact ⟨fun hpath => isChain_observationsAlong steps hscope ((refusal?_eq hscope).trans hpath)
        (RootSheet.isServed_ofPath path),
      fun error herror => observationsAlong_refused steps ((refusal?_eq hscope).trans herror)⟩

/-- A name is taken away from a mapping that does not have it: the version stays, and so do the
values.  In another mapping it is there, and the version rises. -/
theorem versions_identify_scopes_removed :
    let s := (addScope (.mapping (.ofValues .empty)) (ofFiles (.emptyAt 0))).2
    let later := (perform (.remove 0 ['a']) (version 0 s).2).2
    let steps : List Step := [.set 1 ['a'] (.text ['b'])]
    let other := (performAll steps (addScope (.mapping (.ofValues .empty)) s).2).2
    (ofFiles (.emptyAt 0)).Reaches s ∧ 0 < s.scopes.length ∧ (version 0 s).2.Reaches later ∧
      (observe 0 s).version = .ok 0 ∧ (observe 0 later).version = .ok 0 ∧
      (observe 0 s).answers = (observe 0 later).answers ∧
      (∀ step ∈ steps, step.IsTold) ∧
      (version 1 other).1 = .ok 1 ∧ (version 1 (perform (.remove 1 ['a']) other).2).1 = .ok 2 := by
  intro s later steps other
  have hs : (ofFiles (.emptyAt 0)).Reaches s := .scope _ .refl
  have hlater : (version 0 s).2.Reaches later := .step _ trivial .refl
  have hsteps : ∀ step ∈ steps, step.IsTold := List.forall_mem_singleton.2 trivial
  obtain ⟨hidentify, hgrows, -⟩ := versions_identify_scopes hs
  obtain ⟨n, hn, -, hsame⟩ := (hidentify 0 Nat.one_pos).2 later hlater 0 rfl
  obtain ⟨hversion, hgrowth⟩ := hgrows (.ofValues .empty) steps hsteps
  refine ⟨hs, Nat.one_pos, hlater, rfl, rfl, ?_, hsteps, hversion,
    hgrowth (.remove 1 ['a']) trivial⟩
  exact (hsame (Except.ok.inj hn)).symm

end Session
end CustomProps
