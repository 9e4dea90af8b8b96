import CustomProps.Proofs.CommandLine.Transform

/-!
# How a run ends

A run meets a fault that it reports, or a fault that nobody handles, or none, and then there is a
result.  Which of these it is depends on the files that the command names.  The sheet of the root
scope may be missing or unreadable, but if it is looked at, its path has to reach the system.

* `TransformRequest.Declines`, `TransformRequest.Raises` — the faults that are reported, and those
  that are not handled.
* `TransformRequest.Yields` — the transformed sheet, where there is none of these.
* `TransformRequest.declines_or_raises_or_yields` — there is nothing else.
* `DeclarationRequest.run_eq` — what the other command comes to.
* `CommandLine.run_ending_iff` — how a run ends, fault by fault.
-/

set_option autoImplicit false

namespace CustomProps
namespace CommandLine

variable {files : FileSystem} {environment : Environment} {limits : JsonLimits} {verbose : Bool}

/-! ## The command `transform` -/

namespace TransformRequest

variable {request : TransformRequest}

/-- The fault that a request meets and reports: the input is not there, or the file of options is
not there or holds no options. -/
inductive Declines (request : TransformRequest) (files : FileSystem) (limits : JsonLimits) :
    Event → Prop
  | input (h : files.pathExists (.ofText request.input) = .ok false) :
    Declines request files limits (.inputMissing (.ofText request.input))
  | configMissing (hinput : files.pathExists (.ofText request.input) = .ok true)
    (h : request.optionsIn files limits = .error (.unreadable .notFound)) :
    Declines request files limits (.configMissing (request.config.getD []))
  | configNotJson (hinput : files.pathExists (.ofText request.input) = .ok true)
    (h : request.optionsIn files limits = .error (.notRead .notJson)) :
    Declines request files limits (.configInvalid (request.config.getD []))
  | configInvalid (hinput : files.pathExists (.ofText request.input) = .ok true)
    {faults : List OptionFault} (h : request.optionsIn files limits = .error (.invalid faults)) :
    Declines request files limits (.configInvalid (request.config.getD []))

/-- The fault that a request meets and does not handle: the path of the input, or a name in it, is
too long; the file of options cannot be read, though something may be there, or is too much for a
reader of JSON; the options being valid, the input is there and cannot be read; or, when all of
these were read, nobody can look at the sheet of the root scope. -/
inductive Raises (request : TransformRequest) (files : FileSystem) (limits : JsonLimits) :
    Failure → Prop
  | path (h : files.locate (.ofText request.input) = .error .nameTooLong) :
    Raises request files limits (.file .nameTooLong)
  | config {error : FileError} (hinput : files.pathExists (.ofText request.input) = .ok true)
    (h : request.optionsIn files limits = .error (.unreadable error)) (hne : error ≠ .notFound) :
    Raises request files limits (.file error)
  | configJson {error : JsonError} (hinput : files.pathExists (.ofText request.input) = .ok true)
    (h : request.optionsIn files limits = .error (.notRead error)) (hne : error ≠ .notJson) :
    Raises request files limits (.json error)
  | input {error : FileError} {options : Options}
    (hinput : files.pathExists (.ofText request.input) = .ok true)
    (hoptions : request.optionsIn files limits = .ok options)
    (h : files.readText (.ofText request.input) = .error error) :
    Raises request files limits (.file error)
  | root {error : FileError} {options : Options} {text : Text}
    (hoptions : request.optionsIn files limits = .ok options)
    (htext : files.textAt? (.ofText request.input) = some text)
    (hlooks : Sheet.Looks (options.useCache && !request.noCache) text)
    (h : (rootPath request.input request.root options.rootStylesheet).refusal? = some error) :
    Raises request files limits (.file error)

/-- The transformed sheet: both the options and the text of the input can be read, and nobody needs
to look at a sheet of the root scope whose path never reaches the system. -/
inductive Yields (request : TransformRequest) (files : FileSystem) (limits : JsonLimits) :
    Text → Prop
  | transformed {options : Options} {text : Text}
    (hoptions : request.optionsIn files limits = .ok options)
    (htext : files.textAt? (.ofText request.input) = some text)
    (hroot : rootFailure? (rootPath request.input request.root options.rootStylesheet)
      (options.useCache && !request.noCache) text = none) :
    Yields request files limits (Sheet.transform text
      (files.rootPropertiesAt (rootPath request.input request.root options.rootStylesheet)).get?)

theorem rootFailure?_eq_some_iff {root : Path} {useCache : Bool} {sheet : Text}
    {error : FileError} : rootFailure? root useCache sheet = some error ↔
      Sheet.Looks useCache sheet ∧ root.refusal? = some error := by
  rw [rootFailure?]
  split
  · rename_i hlooks
    exact (and_iff_right hlooks).symm
  · rename_i hlooks
    exact iff_of_false (Option.some_ne_none _).symm fun h => hlooks h.1

theorem load_eq_error {error : OptionsError}
    (h : request.optionsIn files environment.limits = .error error) :
    Options.load files (request.config.map .ofText) environment = .error error := by
  rw [load_eq_bind, h]
  rfl

theorem withoutOptions_unreadable {error : FileError} (h : error ≠ .notFound) (typed : Text) :
    withoutOptions files typed (.unreadable error) =
      .ended files (.uncaught (.file error)) [] := by
  cases error with
  | notFound => exact absurd rfl h
  | _ => rfl

theorem withoutOptions_notRead {error : JsonError} (h : error ≠ .notJson) (typed : Text) :
    withoutOptions files typed (.notRead error) = .ended files (.uncaught (.json error)) [] := by
  cases error with
  | notJson => exact absurd rfl h
  | _ => rfl

theorem run_of_optionsIn_eq_error (hinput : files.pathExists (.ofText request.input) = .ok true)
    {error : OptionsError} (h : request.optionsIn files environment.limits = .error error) :
    request.run environment files = withoutOptions files (request.config.getD []) error := by
  rw [run, hinput, load_eq_error h]

/-- A fault that is reported is all that happens. -/
theorem Declines.run_eq {event : Event} (h : request.Declines files environment.limits event) :
    request.run environment files = .ended files (.status 1) [event] := by
  cases h with
  | input h => rw [run, h]
  | configMissing hinput h => exact run_of_optionsIn_eq_error hinput h
  | configNotJson hinput h => exact run_of_optionsIn_eq_error hinput h
  | configInvalid hinput h => exact run_of_optionsIn_eq_error hinput h

/-- A fault that is not handled ends the run. -/
theorem Raises.run_eq (hroot : request.root ≠ some []) {failure : Failure}
    (h : request.Raises files environment.limits failure) :
    ∃ journal, request.run environment files = .ended files (.uncaught failure) journal := by
  cases h with
  | path h =>
    refine ⟨[], ?_⟩
    rw [run, FileSystem.pathExists_eq_error_iff.2 ⟨rfl, h⟩]
  | config hinput h hne =>
    exact ⟨[], (run_of_optionsIn_eq_error hinput h).trans (withoutOptions_unreadable hne _)⟩
  | configJson hinput h hne =>
    exact ⟨[], (run_of_optionsIn_eq_error hinput h).trans (withoutOptions_notRead hne _)⟩
  | input hinput hoptions h =>
    obtain ⟨skipSupported, journal, hload⟩ := load_eq hoptions
    refine ⟨journal, ?_⟩
    rw [run, hinput, hload]
    dsimp only
    rw [transformInput, h]
  | root hoptions htext hlooks h =>
    obtain ⟨journal, hrun⟩ := TransformRequest.run_eq hroot htext hoptions
    rw [rootFailure?_eq_some_iff.2 ⟨hlooks, h⟩] at hrun
    exact ⟨journal, hrun⟩

/-- There is one result at most. -/
theorem Yields.eq {result result' : Text} (h : request.Yields files limits result)
    (h' : request.Yields files limits result') : result = result' := by
  obtain ⟨hoptions, htext, -⟩ := h
  obtain ⟨hoptions', htext', -⟩ := h'
  obtain rfl := Except.ok.inj (hoptions.symm.trans hoptions')
  obtain rfl := Option.some.inj (htext.symm.trans htext')
  rfl

/-- A result is handed out. -/
theorem Yields.run_eq (hroot : request.root ≠ some []) {result : Text}
    (h : request.Yields files environment.limits result) :
    ∃ journal, request.run environment files = request.deliver files result journal := by
  obtain ⟨hoptions, htext, hnone⟩ := h
  obtain ⟨journal, hrun⟩ := TransformRequest.run_eq hroot htext hoptions
  rw [hnone] at hrun
  exact ⟨journal, hrun⟩

/-- **What a request meets**: a fault that is reported, one that is not handled, or none, and then
there is a result. -/
theorem declines_or_raises_or_yields (request : TransformRequest) (files : FileSystem)
    (limits : JsonLimits) :
    (∃ event, request.Declines files limits event) ∨
      (∃ failure, request.Raises files limits failure) ∨
      ∃ result, request.Yields files limits result := by
  cases hinput : files.pathExists (.ofText request.input) with
  | error error =>
    obtain ⟨-, hlocate⟩ := FileSystem.pathExists_eq_error_iff.1 hinput
    exact .inr (.inl ⟨_, .path hlocate⟩)
  | ok found =>
  cases found with
  | false => exact .inl ⟨_, .input hinput⟩
  | true =>
  cases hoptions : request.optionsIn files limits with
  | error error =>
    cases error with
    | unreadable error =>
      by_cases hne : error = .notFound
      · subst hne
        exact .inl ⟨_, .configMissing hinput hoptions⟩
      · exact .inr (.inl ⟨_, .config hinput hoptions hne⟩)
    | notRead error =>
      by_cases hne : error = .notJson
      · subst hne
        exact .inl ⟨_, .configNotJson hinput hoptions⟩
      · exact .inr (.inl ⟨_, .configJson hinput hoptions hne⟩)
    | invalid faults => exact .inl ⟨_, .configInvalid hinput hoptions⟩
  | ok options =>
  right
  cases hread : files.readText (.ofText request.input) with
  | error error => exact .inl ⟨_, .input hinput hoptions hread⟩
  | ok text =>
    have htext := FileSystem.readText_eq_ok_iff.1 hread
    cases hroot : rootFailure? (rootPath request.input request.root options.rootStylesheet)
        (options.useCache && !request.noCache) text with
    | some error =>
      obtain ⟨hlooks, hrefusal⟩ := rootFailure?_eq_some_iff.1 hroot
      exact .inl ⟨_, .root hoptions htext hlooks hrefusal⟩
    | none => exact .inr ⟨_, .transformed hoptions htext hroot⟩

/-- Where the result can be written, handing it out succeeds. -/
theorem ending_deliver {result : Text} {journal : List Event}
    (hout : ∀ out, request.out = some out → files.CanWrite (.ofText out)) :
    (request.deliver files result journal).ending = .status 0 := by
  cases hdryRun : request.dryRun with
  | true =>
    rw [deliver, hdryRun]
    rfl
  | false =>
    cases hcase : request.out with
    | none => rw [deliver_of_out_eq_none hdryRun hcase]
    | some out =>
      rw [deliver_of_out_eq_some hdryRun hcase (writeResult_snd_eq_ok_iff.2 (hout out hcase))]
      rfl

end TransformRequest

/-! ## The command `declaration` -/

namespace DeclarationRequest

variable {request : DeclarationRequest}

/-- The answers of the root scope: those of the sheet that is named, or none. -/
def lookup (request : DeclarationRequest) (files : FileSystem) : Lookup :=
  request.root.elim (fun _ => none) fun root => (files.rootPropertiesAt (.ofText root)).get?

/-- The fallback of the declaration under that scope. -/
def fallback? (request : DeclarationRequest) (files : FileSystem) : Option Text :=
  Declaration.fallback? request.declaration (request.lookup files)

/-- Why nobody can look at the sheet that is named, when the declaration asks for a value. -/
def failure? (request : DeclarationRequest) : Option FileError :=
  if Trace.asks (Declaration.trace request.declaration fun _ => none) = true then
    request.root.bind fun root => (Path.ofText root).refusal?
  else none

/-- The session in which the declaration is looked at. -/
def session (request : DeclarationRequest) (files : FileSystem) : Session :=
  (Session.addScope request.scope (.ofFiles files)).2

theorem isSound_session (request : DeclarationRequest) (files : FileSystem) :
    (request.session files).IsSound :=
  ⟨nofun, nofun⟩

theorem answers_session (request : DeclarationRequest) (files : FileSystem) :
    (request.session files).answers 0 = request.lookup files := by
  obtain ⟨declaration, root⟩ := request
  cases root with
  | none => rfl
  | some root =>
    have hscope : (session ⟨declaration, some root⟩ files).scopes[0]? =
        some (.sheet (.ofPath (.ofText root))) := rfl
    exact Session.answers_ofPath hscope

theorem refusal?_session (request : DeclarationRequest) (files : FileSystem) :
    (request.session files).refusal? 0 =
      request.root.bind fun root => (Path.ofText root).refusal? := by
  obtain ⟨declaration, root⟩ := request
  cases root <;> rfl

/-- A scope that nobody can look at has no answers. -/
theorem failure?_session (request : DeclarationRequest) (files : FileSystem) :
    (request.session files).failure? 0 (Declaration.trace request.declaration) =
      request.failure? := by
  rw [Session.failure?, failure?, answers_session, refusal?_session, lookup]
  cases request.root with
  | none => rfl
  | some root =>
    rw [Option.bind_some, Option.elim_some]
    cases herror : (Path.ofText root).refusal? with
    | none => rw [ite_self, ite_self]
    | some error =>
      rw [FileSystem.rootPropertiesAt_of_refusal? herror]
      rfl

/-- The fallback is printed; a declaration without one is reported. -/
theorem run_eq (request : DeclarationRequest) (files : FileSystem) :
    ∃ journal, request.run files = request.failure?.elim
      ((request.fallback? files).elim
        (.ended files (.status 1) (journal ++ [.noFallbackAvailable request.declaration]))
        fun text => ⟨.status 0, text ++ ['\n'], journal, files⟩)
      fun error => .ended files (.uncaught (.file error)) journal := by
  obtain ⟨later, hlater⟩ : ∃ later, Session.declarationFallback 0 request.declaration
      (request.session files) = (settle request.failure? (request.fallback? files), later) := by
    refine ⟨_, Prod.ext ?_ rfl⟩
    rw [Session.declarationFallback_fst, failure?_session, answers_session]
    rfl
  obtain ⟨-, hlooked⟩ := Session.looks_declarationFallback 0 request.declaration
    (request.session files) (request.isSound_session files)
  rw [hlater] at hlooked
  obtain rfl : later.files = files := hlooked.files
  have haction : (do
      let scope ← Session.addScope request.scope
      Session.declarationFallback scope request.declaration : LookM (Option Text))
        (.ofFiles later.files) = (settle request.failure? (request.fallback? later.files), later) :=
    hlater
  refine ⟨later.journal, ?_⟩
  rw [run, haction]
  cases request.failure? with
  | some error => rfl
  | none => cases request.fallback? later.files <;> rfl

end DeclarationRequest

/-! ## Commands -/

namespace Command

/-- The file that is to take the result, if there is one. -/
def out? : Command → Option Text
  | transform request => request.out
  | declaration _ => none

/-- The fault that a command meets and reports.  For `declaration` that is a declaration without a
fallback, even if the sheet of the root scope cannot be read. -/
def Declines (files : FileSystem) (limits : JsonLimits) (event : Event) : Command → Prop
  | transform request => request.Declines files limits event
  | declaration request => request.failure? = none ∧ request.fallback? files = none ∧
    event = .noFallbackAvailable request.declaration

/-- The fault that a command meets and does not handle; for `declaration` that is a sheet of the
root scope that it needs to look at when nobody can. -/
def Raises (files : FileSystem) (limits : JsonLimits) (failure : Failure) : Command → Prop
  | transform request => request.Raises files limits failure
  | declaration request => ∃ error, request.failure? = some error ∧ failure = .file error

variable {command : Command}

theorem Declines.run_eq {event : Event} (h : command.Declines files environment.limits event) :
    ∃ printed journal later,
      command.run environment files = ⟨.status 1, printed, journal ++ [event], later⟩ := by
  cases command with
  | transform request => exact ⟨[], [], files, TransformRequest.Declines.run_eq h⟩
  | declaration request =>
    obtain ⟨hlooks, hnone, rfl⟩ := h
    obtain ⟨journal, hrun⟩ := request.run_eq files
    rw [hlooks, hnone] at hrun
    exact ⟨[], journal, files, hrun⟩

theorem Declines.isShown {event : Event} (h : command.Declines files limits event)
    (verbose : Bool) : event.isShown verbose = true := by
  have hlevel : (event.level != .debug) = true := by
    cases command with
    | transform request => cases h <;> rfl
    | declaration request =>
      obtain ⟨-, -, rfl⟩ := h
      rfl
  rw [Event.isShown, hlevel, Bool.or_true]

theorem Raises.ending_run
    (hroot : ∀ request, command = .transform request → request.root ≠ some []) {failure : Failure}
    (h : command.Raises files environment.limits failure) :
    (command.run environment files).ending = .uncaught failure := by
  cases command with
  | transform request =>
    obtain ⟨journal, hrun⟩ := TransformRequest.Raises.run_eq (hroot request rfl) h
    exact congrArg Outcome.ending hrun
  | declaration request =>
    obtain ⟨error, hfailure, rfl⟩ := h
    obtain ⟨journal, hrun⟩ := request.run_eq files
    rw [hfailure] at hrun
    exact congrArg Outcome.ending hrun

/-- A command that meets no fault succeeds, if it can write its result. -/
theorem ending_run (hroot : ∀ request, command = .transform request → request.root ≠ some [])
    (hout : ∀ out, command.out? = some out → files.CanWrite (.ofText out))
    (hdeclines : ∀ event, ¬command.Declines files environment.limits event)
    (hraises : ∀ failure, ¬command.Raises files environment.limits failure) :
    (command.run environment files).ending = .status 0 := by
  cases command with
  | transform request =>
    obtain ⟨event, h⟩ | ⟨failure, h⟩ | ⟨result, h⟩ :=
      request.declines_or_raises_or_yields files environment.limits
    · exact absurd h (hdeclines event)
    · exact absurd h (hraises failure)
    · obtain ⟨journal, hrun⟩ := h.run_eq (hroot request rfl)
      rw [run, hrun]
      exact TransformRequest.ending_deliver hout
  | declaration request =>
    obtain ⟨journal, hrun⟩ := request.run_eq files
    cases hfailure : request.failure? with
    | some error => exact absurd ⟨error, hfailure, rfl⟩ (hraises _)
    | none =>
      cases hfallback : request.fallback? files with
      | none => exact absurd ⟨hfailure, hfallback, rfl⟩ (hdeclines _)
      | some text =>
        rw [run, hrun, hfailure, hfallback]
        rfl

end Command

theorem logLines_concat (verbose : Bool) (journal : List Event) {event : Event}
    (h : event.isShown verbose = true) :
    logLines verbose (journal ++ [event]) =
      logLines verbose journal ++ Text.lines event.line.toList := by
  rw [logLines, logLines, List.filter_append, List.flatMap_append, List.filter_singleton, h]
  exact congrArg _ (List.flatMap_singleton _ _)

/-- Where a fault that is reported ends a run with status 1, one that nobody handles with the error
and none with status 0, the ending tells what was met. -/
theorem Ending.iff_of_cases {ending : Ending} {declines : Event → Prop} {raises : Failure → Prop}
    (hdeclines : ∀ event, declines event → ending = .status 1)
    (hraises : ∀ failure, raises failure → ending = .uncaught failure)
    (hsucceeds : (∀ event, ¬declines event) → (∀ failure, ¬raises failure) →
      ending = .status 0) :
    (∀ failure, ending = .uncaught failure ↔ raises failure) ∧
      (ending = .status 1 ↔ ∃ event, declines event) ∧
      (ending = .status 0 ↔ (∀ event, ¬declines event) ∧ ∀ failure, ¬raises failure) := by
  have hcases : (∃ event, declines event) ∨ (∃ failure, raises failure) ∨
      ending = .status 0 := by
    by_cases hd : ∃ event, declines event
    · exact .inl hd
    · by_cases hr : ∃ failure, raises failure
      · exact .inr (.inl hr)
      · exact .inr (.inr (hsucceeds (not_exists.1 hd) (not_exists.1 hr)))
  refine ⟨fun failure => ⟨fun h => ?_, hraises failure⟩, ⟨fun h => ?_, ?_⟩,
    ⟨fun h => ⟨fun event hd => ?_, fun failure hr => ?_⟩, fun h => hsucceeds h.1 h.2⟩⟩
  · obtain ⟨event, hd⟩ | ⟨failure', hr⟩ | hsuccess := hcases
    · cases h.symm.trans (hdeclines event hd)
    · obtain rfl := Ending.uncaught.inj (h.symm.trans (hraises failure' hr))
      exact hr
    · cases h.symm.trans hsuccess
  · obtain hd | ⟨failure, hr⟩ | hsuccess := hcases
    · exact hd
    · cases h.symm.trans (hraises failure hr)
    · cases h.symm.trans hsuccess
  · rintro ⟨event, hd⟩
    exact hdeclines event hd
  · cases h.symm.trans (hdeclines event hd)
  · cases h.symm.trans (hraises failure hr)

/-- **Which faults are reported, and which are not handled.**  Let a command be one that can write
its result.  Its run ends with status 1 just when it meets a fault that is reported, and the last
thing it logs is the report; it ends with an error that nobody handles just when it meets such a
fault; and in all other cases it ends with status 0.  The sheet of the root scope does not come
into it, unless nobody can look at it when somebody needs to. -/
theorem run_ending_iff {arguments : List Text} {command : Command}
    (hcommand : readArguments arguments = .ok (.command verbose command))
    (hout : ∀ out, command.out? = some out → files.CanWrite (.ofText out))
    (environment : Environment) :
    let after := run arguments environment files
    (∀ failure, after.ending = .uncaught failure ↔
        command.Raises files environment.limits failure) ∧
      (after.ending = .status 1 ↔ ∃ event, command.Declines files environment.limits event) ∧
      (after.ending = .status 0 ↔
        (∀ event, ¬command.Declines files environment.limits event) ∧
          ∀ failure, ¬command.Raises files environment.limits failure) ∧
      ∀ event, command.Declines files environment.limits event →
        ∃ before, after.log = before ++ Text.lines event.line.toList := by
  intro after
  have hroot : ∀ request, command = .transform request → request.root ≠ some [] := by
    rintro request rfl
    exact ne_some_nil_of_readArguments hcommand request.root (by simp)
  have hafter : after = _ := run_of_command hcommand environment files
  have hdeclines : ∀ event, command.Declines files environment.limits event →
      after.ending = .status 1 ∧
        ∃ before, after.log = before ++ Text.lines event.line.toList := by
    intro event h
    obtain ⟨printed, journal, later, hrun⟩ := h.run_eq
    rw [hafter, hrun]
    exact ⟨rfl, _, logLines_concat verbose journal (h.isShown verbose)⟩
  have hraises : ∀ failure, command.Raises files environment.limits failure →
      after.ending = .uncaught failure := by
    intro failure h
    rw [hafter]
    exact h.ending_run hroot
  have hsucceeds : (∀ event, ¬command.Declines files environment.limits event) →
      (∀ failure, ¬command.Raises files environment.limits failure) →
        after.ending = .status 0 := by
    intro hnone hnone'
    rw [hafter]
    exact Command.ending_run hroot hout hnone hnone'
  obtain ⟨huncaught, hreported, hdone⟩ :=
    Ending.iff_of_cases (fun event h => (hdeclines event h).1) hraises hsucceeds
  exact ⟨huncaught, hreported, hdone, fun event h => (hdeclines event h).2⟩

/-- A file of options that does not hold UTF-8 ends the run with an error that nobody handles. -/
theorem run_ending_notUtf8 :
    let input := "a.css".toList
    let out := "b.css".toList
    let config := "o.json".toList
    let install (path : Text) (bytes : ByteArray) (files : FileSystem) :=
      files.install (.ofText path) (.file bytes) none
    let files := install config ⟨#[255]⟩ (install input (encodeText []) (.emptyAt 0))
    let environment : Environment := ⟨none, ⟨4300, 1000⟩⟩
    let arguments := [transformName, "--config".toList, config, "--out".toList, out, input]
    let request : TransformRequest := ⟨input, some out, none, some config, false, false, false⟩
    readArguments arguments = .ok (.command false (.transform request)) ∧
      files.CanWrite (.ofText out) ∧
      request.Raises files environment.limits (.file .notUtf8) ∧
      (run arguments environment files).ending = .uncaught (.file .notUtf8) := by
  intro input out config install files environment arguments request
  have hcommand : readArguments arguments = .ok (.command false (.transform request)) := by
    decide +kernel
  have hout : files.CanWrite (.ofText out) :=
    TransformRequest.writeResult_snd_eq_ok_iff.1
      (show (TransformRequest.writeResult files (.ofText out) []).2 = .ok () by decide +kernel)
  have hinput : files.pathExists (.ofText input) = .ok true := by decide +kernel
  have hconfig : request.optionsIn files environment.limits = .error (.unreadable .notUtf8) := by
    decide +kernel
  have hraises : request.Raises files environment.limits (.file .notUtf8) :=
    .config hinput hconfig nofun
  obtain ⟨hending, -⟩ :=
    run_ending_iff hcommand (fun out h => Option.some.inj h ▸ hout) environment
  exact ⟨hcommand, hout, hraises, (hending (.file .notUtf8)).2 hraises⟩

end CommandLine
end CustomProps
