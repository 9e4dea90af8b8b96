import CustomProps.CommandLine.Run
import CustomProps.Proofs.CommandLine.Arguments
import CustomProps.Proofs.Files.Path
import CustomProps.Proofs.Files.Writing
import CustomProps.Proofs.Scope.RootSheet
import CustomProps.Proofs.Session.RootScope
import CustomProps.Proofs.Sheet.Bodies

/-!
# The result of `transform`

What `transform` prints or writes depends on the text of the input and on one root scope alone: the
root properties of one file, as they are when the command starts.  Neither the memo, nor the
question whether the engine knows custom properties, nor the place of the result can be told from
it.  Only where the path of that file never reaches the system the memo makes a difference: it asks
for the version of the scope in any case.

* `Sheet.transform` — a sheet with its bodies transformed under a root scope.
* `Sheet.Looks` — the root scope is looked at on the way.
* `TransformRequest.rootPath` — the file that provides the root scope.
* `CommandLine.run_transform` — what a run prints or writes.
-/

set_option autoImplicit false

namespace CustomProps

/-! ## The sheet -/

namespace Sheet

/-- The sheet with the bodies of all but the root rules transformed under a root scope with the
given answers, where that leads to anything. -/
def transform (sheet : Text) (lookup : Lookup) : Text :=
  fill (gaps sheet) ((rules sheet).map fun rule =>
    if rule.isRoot then rule.body else (Block.transform rule.body lookup).getD rule.body)

/-- A sheet with one reference, answered or not. -/
theorem transform_var (lookup : Lookup) :
    transform (".a".toList ++ Text.braced "x:var(--b,c)") lookup =
      ".a".toList ++ '{' :: ("x:".toList ++ ((lookup "--b".toList).bind Text.nonBlank?).getD
        "c".toList ++ ";x:var(--b,c);".toList ++ ['}']) := by
  have hrules : rules (".a".toList ++ Text.braced "x:var(--b,c)") =
      [⟨".a".toList, "x:var(--b,c)".toList, 3, 15⟩] := by
    decide +kernel
  rw [transform, gaps, hrules, List.map_singleton, Block.transform_var, if_neg (by decide),
    Option.getD_some, gapsFrom, gapsFrom, fill]
  rfl

/-- Some rule but the root rules makes a plugin look at its scope, one without any properties: with
a memo each does, for the sake of the version, and without one those that ask for a value. -/
def Looks (useCache : Bool) (sheet : Text) : Prop :=
  ∃ rule ∈ rules sheet, rule.isRoot = false ∧
    (useCache = true ∨ Trace.asks (Block.trace rule.body fun _ => none) = true)

instance (useCache : Bool) (sheet : Text) : Decidable (Looks useCache sheet) :=
  inferInstanceAs (Decidable (∃ rule ∈ rules sheet, _))

end Sheet

/-- A plugin that is not disabled transforms the sheet. -/
theorem Plugin.rewriteUnder_eq_transform {plugin : Plugin} (h : plugin.disabled = false)
    (lookup : Lookup) (sheet : Text) (report : Report) :
    (plugin.rewriteUnder lookup sheet report).1 = Sheet.transform sheet lookup := by
  rw [rewriteUnder_fst, Sheet.splice_eq_fill (Sheet.map_fst_answersOf _ _), Sheet.transform,
    Sheet.answersOf, List.map_map]
  refine congrArg (Sheet.fill (Sheet.gaps sheet)) (List.map_congr_left fun rule _ => ?_)
  rw [Function.comp, Sheet.newBody, replyUnder_callOf h]
  cases rule.isRoot <;> rfl

/-! ## The session -/

namespace Session

variable {s : Session} {options : Options} {path : Path}

/-- A sheet that nobody has asked answers with the root properties of its file. -/
theorem answers_ofPath {k : Nat} (h : s.scopes[k]? = some (.sheet (.ofPath path))) :
    s.answers k = (s.files.rootPropertiesAt path).get? := by
  rw [answers, scopeNow, h]
  exact Scope.get?_sheet (RootSheet.properties_looked_ofPath s.files path)

/-- A plugin over a scope of its own, in a session without others. -/
theorem addPlugin_ofFiles (options : Options) (files : FileSystem) :
    let made := addPlugin options none none (ofFiles files)
    made.2.plugins[made.1]? = some ⟨false, 0, if options.useCache then some 0 else none⟩ ∧
      made.2.scopes = [scopeOfOptions options] ∧ made.2.files = files := by
  obtain ⟨skipSupported, useCache, rootStylesheet⟩ := options
  cases skipSupported <;> cases useCache <;> exact ⟨rfl, rfl, rfl⟩

theorem scopeOfOptions_of_ne_nil {name : LooseText} (h : options.rootStylesheet = some name)
    (hne : name ≠ []) : scopeOfOptions options = .sheet (.ofPath (.ofLoose name)) := by
  rw [scopeOfOptions, h]
  cases name with
  | nil => exact absurd rfl hne
  | cons c cs => rfl

/-- Where nobody can look, a plugin fails to reply to a rule that makes it look. -/
theorem callFailure?_eq {p : Nat} {memo : Option Nat} {error : FileError}
    (hp : s.plugins[p]? = some ⟨false, 0, memo⟩)
    (hscope : s.scopes[0]? = some (.sheet (.ofPath path)))
    (herror : path.refusal? = some error) (rule : Rule) :
    s.callFailure? p Phase.selectorBlock.code rule.body rule.selectors =
      if rule.isRoot = false ∧
        (memo.isSome = true ∨ Trace.asks (Block.trace rule.body fun _ => none) = true)
      then some error else none := by
  have hanswers : s.answers 0 = fun _ => none := by
    rw [answers_ofPath hscope, FileSystem.rootPropertiesAt_of_refusal? herror]
    rfl
  have haccepts : Plugin.accepts ⟨false, 0, memo⟩ Phase.selectorBlock.code rule.selectors =
      !rule.isRoot := by
    rw [Plugin.accepts, rule.hasRootSelector_selectors]
    rfl
  have hrefusal : s.refusal? 0 = some error := (refusal?_eq hscope).trans herror
  rw [callFailure?, hp]
  dsimp only
  rw [haccepts, failure?, hanswers, hrefusal]
  cases rule.isRoot <;> cases memo <;> simp

end Session

namespace CommandLine

namespace TransformRequest

variable {files : FileSystem} {options : Options} {path : Path} {text : Text}
  {request : TransformRequest}

theorem rewriteText_eq (options : Options) (text : Text) (s : Session) :
    rewriteText options text s = Session.rewrite (Session.addPlugin options none none s).1 text
      .empty (Session.addPlugin options none none s).2 :=
  rfl

/-- Why the sheet of the root scope keeps a text from being rewritten: it is looked at, and its path
never reaches the system. -/
def rootFailure? (root : Path) (useCache : Bool) (sheet : Text) : Option FileError :=
  if Sheet.Looks useCache sheet then root.refusal? else none

/-- A fresh session transforms the text under the sheet that the options name, whatever else they
say. -/
theorem rewriteText_spec (h : Session.scopeOfOptions options = .sheet (.ofPath path))
    (text : Text) (files : FileSystem) :
    (∃ report, (rewriteText options text (.ofFiles files)).1 =
        settle (rootFailure? path options.useCache text)
          (Sheet.transform text (files.rootPropertiesAt path).get?, report)) ∧
      (rewriteText options text (.ofFiles files)).2.files = files := by
  have hfresh : ∀ k, none = some k → k < (Session.ofFiles files).scopes.length := nofun
  obtain ⟨hsound, -, -⟩ :=
    Session.addPlugin_spec (Session.isSound_ofFiles files) options none hfresh
  obtain ⟨hplugin, hscopes, hfiles⟩ := Session.addPlugin_ofFiles options files
  rw [rewriteText_eq]
  generalize Session.addPlugin options none none (.ofFiles files) = made
    at hsound hplugin hscopes hfiles
  have hscope : made.2.scopes[0]? = some (.sheet (.ofPath path)) := by
    rw [hscopes, h]
    rfl
  have hfailure : made.2.rewriteFailure? made.1 text =
      rootFailure? path options.useCache text := by
    rw [rootFailure?]
    cases herror : path.refusal? with
    | none =>
      rw [ite_self]
      exact Session.rewriteFailure?_eq_none hplugin ((Session.refusal?_eq hscope).trans herror) text
    | some error =>
      rw [Session.rewriteFailure?]
      simp only [Session.callFailure?_eq hplugin hscope herror, findSome?_ite, Sheet.Looks]
      cases options.useCache <;> rfl
  refine ⟨?_, (Session.rewrite_spec made.1 text .empty hsound).2.2.files.trans hfiles⟩
  rw [Session.rewrite_eq_rewriteUnder hsound hplugin, hfailure, ← hfiles]
  exact ⟨_, congrArg (settle _) (Prod.ext ((Plugin.rewriteUnder_eq_transform rfl _ _ _).trans
    (congrArg _ (Session.answers_ofPath hscope))) rfl)⟩

/-! ## The request -/

/-- The sheet that provides the root values: the one that is named on the command line, else the one
that the options name, else the input.  The empty text names none. -/
def rootPath (input : Text) (root : Option Text) (stylesheet : Option LooseText) : Path :=
  .ofLoose ((((root.filter (!·.isEmpty)).map Text.loose).or
    (stylesheet.filter (!·.isEmpty))).getD input.loose)

/-- The options always name that sheet, the input by the normal form of its path. -/
theorem scopeOfOptions_adjust (hroot : request.root ≠ some []) (options : Options) :
    Session.scopeOfOptions (request.adjust options) =
      .sheet (.ofPath (rootPath request.input request.root options.rootStylesheet)) := by
  have hinput := Path.isNormal_ofLoose request.input.loose
  have hinputScope : ∀ options : Options,
      options.rootStylesheet = some (Path.ofText request.input).toText →
      Session.scopeOfOptions options = .sheet (.ofPath (.ofText request.input)) := by
    intro options h
    rw [Session.scopeOfOptions_of_ne_nil h hinput.toText_ne_nil]
    exact congrArg (Scope.sheet ∘ RootSheet.ofPath) hinput.ofLoose_toText
  obtain ⟨input, out, root, config, always, noCache, dryRun⟩ := request
  obtain ⟨skipSupported, useCache, stylesheet⟩ := options
  match root, stylesheet, hroot with
  | some (c :: cs), _, _ => exact Session.scopeOfOptions_of_ne_nil rfl nofun
  | none, some (c :: cs), _ => exact Session.scopeOfOptions_of_ne_nil rfl nofun
  | none, none, _ => exact hinputScope _ rfl
  | none, some [], _ => exact hinputScope _ rfl

/-- The options in the file that a request names, or the default ones. -/
def optionsIn (request : TransformRequest) (files : FileSystem) (limits : JsonLimits) :
    Except OptionsError Options :=
  request.config.elim (.ok .default) fun config => Options.read files (.ofText config) limits

theorem load_eq_bind (request : TransformRequest) (files : FileSystem)
    (environment : Environment) :
    Options.load files (request.config.map .ofText) environment =
      request.optionsIn files environment.limits >>= fun options =>
        pure (options.adjust environment.setting) := by
  rw [optionsIn]
  cases request.config <;> rfl

/-- The environment changes nothing but whether supported engines are skipped. -/
theorem load_eq {environment : Environment}
    (h : request.optionsIn files environment.limits = .ok options) :
    ∃ skipSupported journal, Options.load files (request.config.map .ofText) environment =
      .ok ({ options with skipSupported }, journal) := by
  have hload : Options.load files (request.config.map .ofText) environment =
      .ok (options.adjust environment.setting) := by
    rw [load_eq_bind, h]
    rfl
  rw [hload, Options.adjust]
  split
  · exact ⟨false, _, rfl⟩
  · exact ⟨options.skipSupported, _, rfl⟩

/-! ## Handing out the result -/

variable {out : Path}

theorem exists_writeBytes_of_writeResult (h : (writeResult files out text).2 = .ok ()) :
    ∃ made, files.makeDirectories out.parent = (made, .ok ()) ∧
      made.writeBytes out (encodeText text) = .ok (writeResult files out text).1 := by
  rw [writeResult] at h ⊢
  cases hmade : files.makeDirectories out.parent with
  | mk made done =>
  rw [hmade] at h
  cases done with
  | error error => cases h
  | ok done =>
    refine ⟨made, rfl, ?_⟩
    dsimp only at h ⊢
    cases hwrite : made.writeBytes out (encodeText text) with
    | error error =>
      rw [hwrite] at h
      cases h
    | ok later => rfl

/-- Results are written where they can be, and only there. -/
theorem writeResult_snd_eq_ok_iff :
    (writeResult files out text).2 = .ok () ↔ files.CanWrite out := by
  constructor
  · intro h
    obtain ⟨made, hmade, hwrite⟩ := exists_writeBytes_of_writeResult h
    obtain ⟨loc, hlocate, hfree, -⟩ := FileSystem.writeBytes_eq_ok_iff.1 hwrite
    exact ⟨made, loc, hmade, hlocate, hfree⟩
  · rintro ⟨made, loc, hmade, hlocate, hfree⟩
    rw [writeResult, hmade]
    dsimp only
    rw [FileSystem.writeBytes_eq_ok_iff.2 ⟨loc, hlocate, hfree, rfl⟩]

theorem readBytes_writeResult (h : (writeResult files out text).2 = .ok ()) :
    (writeResult files out text).1.readBytes out = .ok (encodeText text) := by
  obtain ⟨made, -, hwrite⟩ := exists_writeBytes_of_writeResult h
  exact FileSystem.readBytes_of_writeBytes hwrite

theorem deliver_of_out_eq_none (hdryRun : request.dryRun = false) (h : request.out = none)
    (journal : List Event) :
    request.deliver files text journal = ⟨.status 0, text, journal, files⟩ := by
  rw [deliver, hdryRun, h]
  rfl

theorem deliver_of_out_eq_some (hdryRun : request.dryRun = false) {out : Text}
    (h : request.out = some out) (hwritten : (writeResult files (.ofText out) text).2 = .ok ())
    (journal : List Event) :
    request.deliver files text journal = .ended (writeResult files (.ofText out) text).1
      (.status 0) (journal ++ [.wrote (.ofText out)]) := by
  rw [deliver, hdryRun, h]
  dsimp only
  cases hresult : writeResult files (.ofText out) text with
  | mk later done =>
    rw [hresult] at hwritten
    obtain rfl : done = .ok () := hwritten
    rfl

/-! ## The run -/

/-- A text that was read is rewritten and handed out, unless the sheet of the root scope prevents
it. -/
theorem transformInput_eq (htext : files.textAt? (.ofText request.input) = some text)
    (hscope : Session.scopeOfOptions options = .sheet (.ofPath path)) (journal : List Event) :
    ∃ journal', request.transformInput files options journal =
      (rootFailure? path options.useCache text).elim
        (request.deliver files (Sheet.transform text (files.rootPropertiesAt path).get?) journal')
        fun error => .ended files (.uncaught (.file error)) journal' := by
  obtain ⟨⟨report, hresult⟩, hfiles⟩ := rewriteText_spec hscope text files
  obtain ⟨later, heq⟩ : ∃ later, rewriteText options text (.ofFiles files) =
      (settle (rootFailure? path options.useCache text)
        (Sheet.transform text (files.rootPropertiesAt path).get?, report), later) :=
    ⟨_, Prod.ext hresult rfl⟩
  rw [transformInput, FileSystem.readText_eq_ok_iff.2 htext]
  dsimp only
  rw [heq] at hfiles ⊢
  obtain rfl : later.files = files := hfiles
  cases rootFailure? path options.useCache text <;> exact ⟨_, rfl⟩

/-- What a run comes to that finds its input and its options: the result is handed out, unless the
sheet of the root scope prevents it. -/
theorem run_eq (hroot : request.root ≠ some [])
    (htext : files.textAt? (.ofText request.input) = some text) {environment : Environment}
    (hoptions : request.optionsIn files environment.limits = .ok options) :
    let root := rootPath request.input request.root options.rootStylesheet
    ∃ journal, request.run environment files =
      (rootFailure? root (options.useCache && !request.noCache) text).elim
        (request.deliver files (Sheet.transform text (files.rootPropertiesAt root).get?) journal)
        fun error => .ended files (.uncaught (.file error)) journal := by
  obtain ⟨skipSupported, journal, hload⟩ := load_eq hoptions
  obtain ⟨journal', htransform⟩ := transformInput_eq htext
    (scopeOfOptions_adjust hroot { options with skipSupported }) journal
  rw [run, FileSystem.pathExists_of_textAt? htext, hload]
  exact ⟨journal', htransform⟩

end TransformRequest

theorem run_of_command {arguments : List Text} {verbose : Bool} {command : Command}
    (h : readArguments arguments = .ok (.command verbose command)) (environment : Environment)
    (files : FileSystem) : run arguments environment files =
      (let outcome := command.run environment files
      ⟨outcome.ending, outcome.printed, logLines verbose outcome.journal, outcome.files⟩) := by
  rw [run, h]

/-- **The result of `transform` depends on the text of the input and on one root scope alone.**  Let
the input be a file with a text, let the options be valid, and let the file that is to take the
result be one that can be written.  Let the path of the sheet of the root scope reach the system, or
let nobody look at it.  Unless the run is a dry one, it ends with status 0 and prints the
transformed sheet, or writes just that into the file, which may be the input or the sheet of the
root scope.  Nothing else that is asked for or set makes any difference.

Where the path of that sheet never reaches the system and the sheet is looked at, the run ends with
the error, prints nothing and leaves the files as they were. -/
theorem run_transform {arguments : List Text} {verbose : Bool} {request : TransformRequest}
    (hrequest : readArguments arguments = .ok (.command verbose (.transform request)))
    (hdryRun : request.dryRun = false) {files : FileSystem} {text : Text}
    (htext : files.textAt? (.ofText request.input) = some text) {environment : Environment}
    {options : Options} (hoptions : request.optionsIn files environment.limits = .ok options)
    (hout : ∀ out, request.out = some out → files.CanWrite (.ofText out)) :
    let root := TransformRequest.rootPath request.input request.root options.rootStylesheet
    let looks := Sheet.Looks (options.useCache && !request.noCache) text
    let result := Sheet.transform text (files.rootPropertiesAt root).get?
    let done := run arguments environment files
    (root.refusal? = none ∨ ¬looks →
      done.ending = .status 0 ∧
      (request.out = none → done.printed = result ∧ done.files = files) ∧
      ∀ out, request.out = some out →
        done.printed = [] ∧ done.files.readBytes (.ofText out) = .ok (encodeText result)) ∧
    ∀ error, root.refusal? = some error → looks →
      done.ending = .uncaught (.file error) ∧ done.printed = [] ∧ done.files = files := by
  intro root looks result done
  have hroot : request.root ≠ some [] :=
    ne_some_nil_of_readArguments hrequest request.root (by simp)
  obtain ⟨journal, hrun⟩ := TransformRequest.run_eq hroot htext hoptions
  have hdone : done = _ := run_of_command hrequest environment files
  rw [hdone, Command.run, hrun]
  constructor
  · intro hlooks
    have hnone : TransformRequest.rootFailure? root (options.useCache && !request.noCache) text =
        none := by
      rw [TransformRequest.rootFailure?]
      rcases hlooks with hrefusal | hlooks
      · rw [hrefusal, ite_self]
      · exact if_neg hlooks
    rw [hnone, Option.elim_none]
    cases hcase : request.out with
    | none =>
      rw [TransformRequest.deliver_of_out_eq_none hdryRun hcase]
      exact ⟨rfl, fun _ => ⟨rfl, rfl⟩, nofun⟩
    | some out =>
      have hwritten : (TransformRequest.writeResult files (.ofText out) result).2 = .ok () :=
        TransformRequest.writeResult_snd_eq_ok_iff.2 (hout out hcase)
      rw [TransformRequest.deliver_of_out_eq_some hdryRun hcase hwritten]
      refine ⟨rfl, nofun, fun out' hsame => ?_⟩
      obtain rfl := Option.some.inj hsame
      exact ⟨rfl, TransformRequest.readBytes_writeResult hwritten⟩
  · intro error herror hlooks
    rw [TransformRequest.rootFailure?, if_pos hlooks, herror]
    exact ⟨rfl, rfl, rfl⟩

/-- A sheet is rewritten in place, with a root value from the sheet that the options name. -/
theorem run_transform_inPlace :
    let input := "a.css".toList
    let stylesheet : Text := "r.css".toList
    let config := "o.json".toList
    let sheet := ".a".toList ++ Text.braced "x:var(--b,c)"
    let install (path text : Text) (files : FileSystem) :=
      files.install (.ofText path) (.file (encodeText text)) none
    let files := install input sheet (install stylesheet (":root".toList ++ Text.braced "--b:d")
      (install config (Text.braced "\"root_stylesheet\":\"r.css\"") (.emptyAt 0)))
    let environment : Environment := ⟨none, ⟨4300, 1000⟩⟩
    let arguments := [transformName, "--config".toList, config, "--out".toList, input, input]
    let request : TransformRequest := ⟨input, some input, none, some config, false, false, false⟩
    let done := run arguments environment files
    readArguments arguments = .ok (.command false (.transform request)) ∧
      files.textAt? (.ofText input) = some sheet ∧
      request.optionsIn files environment.limits = .ok ⟨true, true, some stylesheet.loose⟩ ∧
      files.CanWrite (.ofText input) ∧ (Path.ofText stylesheet).refusal? = none ∧
      done.ending = .status 0 ∧ done.files.readBytes (.ofText input) =
        .ok (encodeText (".a".toList ++ Text.braced "x:d;x:var(--b,c);")) := by
  intro input stylesheet config sheet install files environment arguments request done
  have hrequest : readArguments arguments = .ok (.command false (.transform request)) := by
    decide +kernel
  have htext : files.textAt? (.ofText input) = some sheet := by decide +kernel
  have hoptions : request.optionsIn files environment.limits =
      .ok ⟨true, true, some stylesheet.loose⟩ := by decide +kernel
  have hout : files.CanWrite (.ofText input) :=
    TransformRequest.writeResult_snd_eq_ok_iff.1
      (show (TransformRequest.writeResult files (.ofText input) []).2 = .ok () by decide +kernel)
  have hpath : (Path.ofText stylesheet).refusal? = none := by decide
  have hroot : files.rootPropertiesAt (.ofText stylesheet) = [("--b".toList, "d".toList)] := by
    decide +kernel
  obtain ⟨hending, -, hwritten⟩ := (run_transform hrequest rfl htext hoptions
    fun out h => Option.some.inj h ▸ hout).1 (.inl hpath)
  refine ⟨hrequest, htext, hoptions, hout, hpath, hending, ?_⟩
  have hread := (hwritten input rfl).2
  rw [show TransformRequest.rootPath request.input request.root (some stylesheet.loose) =
    .ofText stylesheet from rfl, hroot, Sheet.transform_var] at hread
  exact hread

end CommandLine
end CustomProps
