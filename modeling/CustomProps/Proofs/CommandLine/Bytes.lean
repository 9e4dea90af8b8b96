import CustomProps.Proofs.CommandLine.Ending
import CustomProps.Proofs.Sheet.LineEnds

/-!
# The bytes that `transform` keeps

Files are read with all line ends unified and written as they are.  So the file that a run writes
has the bytes of the input but for the bodies that are exchanged and for the line ends: each CR LF
and each CR outside of the new bodies becomes an LF.

* `Sheet.exchange` — a sheet with the transformed bodies exchanged, and nothing else.
* `Sheet.transform_unifyLineEnds` — transforming a sheet with unified line ends.
* `CommandLine.run_transform_bytes` — the bytes of the file that a run writes.
-/

set_option autoImplicit false

namespace CustomProps

namespace FileSystem

/-- No root value has a CR, since no text that is read has one. -/
theorem not_brings_cr (files : FileSystem) (path : Path) :
    ¬Lookup.Brings (files.rootPropertiesAt path).get? '\r' := by
  rintro ⟨name, value, hvalue, hcr⟩
  rw [rootPropertiesAt] at hvalue
  cases htext : files.textAt? path with
  | none =>
    rw [htext] at hvalue
    cases hvalue
  | some text =>
    rw [htext] at hvalue
    obtain ⟨written, -, rfl⟩ := exists_bytes_of_textAt? htext
    exact Text.cr_not_mem_unifyLineEnds written
      (Sheet.mem_of_get?_rootProperties hvalue (by decide) hcr)

end FileSystem

/-! ## The sheet -/

namespace Sheet

variable {lookup : Lookup}

/-- What a root scope makes of the body of a rule, the line ends of the body being unified. -/
def answerUnder (lookup : Lookup) : Rule → Option Text :=
  replyTo fun body => Block.transform body.unifyLineEnds lookup

/-- The sheet with the bodies of its transformed rules exchanged, and nothing else. -/
def exchange (sheet : Text) (lookup : Lookup) : Text :=
  splice sheet (answersOf (answerUnder lookup) (rules sheet))

theorem transform_eq_splice (sheet : Text) (lookup : Lookup) :
    transform sheet lookup =
      splice sheet (answersOf (replyTo fun body => Block.transform body lookup) (rules sheet)) := by
  rw [splice_eq_fill (map_fst_answersOf _ _), transform, answersOf, List.map_map]
  refine congrArg (fill (gaps sheet)) (List.map_congr_left fun rule _ => ?_)
  rw [Function.comp, newBody, replyTo]
  split <;> rfl

/-- **Transforming a sheet with unified line ends** comes to exchanging bodies and unifying all line
ends then. -/
theorem transform_unifyLineEnds (hlookup : ¬lookup.Brings '\r') (sheet : Text) :
    transform sheet.unifyLineEnds lookup = (exchange sheet lookup).unifyLineEnds := by
  have hkeeps : KeepsUnified fun body => Block.transform body lookup := by
    intro body new hbody hnew hcr
    obtain h | h | h := Block.mem_of_transform hnew hcr
    · exact hbody h
    · exact absurd h (by decide)
    · exact hlookup h
  rw [transform_eq_splice, splice_unifyLineEnds hkeeps]
  rfl

/-- A sheet stays as it is if, with its line ends unified, none of its rules is transformed. -/
theorem exchange_eq_self {sheet : Text} (h : ∀ rule ∈ rules sheet.unifyLineEnds,
      replyTo (fun body => Block.transform body lookup) rule = none) :
    exchange sheet lookup = sheet := by
  have hnone : ∀ rule ∈ rules sheet, answerUnder lookup rule = none := by
    intro rule hrule
    have hmem := List.mem_map_of_mem (f := fun rule => (rule.body.unifyLineEnds, rule.isRoot)) hrule
    rw [← rules_unifyLineEnds] at hmem
    obtain ⟨rule', hrule', hsame⟩ := List.mem_map.1 hmem
    obtain ⟨hbody, hroot⟩ := Prod.mk.inj hsame
    have hreply := h rule' hrule'
    rwa [replyTo, hbody, hroot] at hreply
  rw [exchange, splice_eq_fill (map_fst_answersOf _ _), answersOf, List.map_map]
  conv => rhs; rw [eq_fill sheet]
  refine congrArg (fill (gaps sheet)) (List.map_congr_left fun rule hrule => ?_)
  rw [Function.comp, newBody, hnone rule hrule]
  rfl

end Sheet

/-! ## The run -/

namespace CommandLine

variable {files : FileSystem} {request : TransformRequest}

namespace TransformRequest

/-- A run that succeeds has a result. -/
theorem exists_yields_of_ending (hroot : request.root ≠ some []) {environment : Environment}
    (h : (request.run environment files).ending = .status 0) :
    ∃ result, request.Yields files environment.limits result := by
  obtain ⟨event, hfault⟩ | ⟨failure, hfault⟩ | hresult :=
    request.declines_or_raises_or_yields files environment.limits
  · rw [hfault.run_eq] at h
    cases h
  · obtain ⟨journal, hrun⟩ := hfault.run_eq hroot
    rw [hrun] at h
    cases h
  · exact hresult

/-- A result that was handed out into a file can be read there. -/
theorem readBytes_deliver (hdryRun : request.dryRun = false) {out : Text}
    (hout : request.out = some out) {result : Text} {journal : List Event}
    (h : (request.deliver files result journal).ending = .status 0) :
    (request.deliver files result journal).files.readBytes (.ofText out) =
      .ok (encodeText result) := by
  have hwritten : (writeResult files (.ofText out) result).2 = .ok () := by
    rw [deliver, hdryRun, hout] at h
    dsimp only at h
    cases hresult : writeResult files (.ofText out) result with
    | mk later done =>
      cases done with
      | ok => rfl
      | error error =>
        rw [hresult] at h
        cases h
  rw [deliver_of_out_eq_some hdryRun hout hwritten]
  exact readBytes_writeResult hwritten

end TransformRequest

/-- **The bytes of the file that a run writes.**  They are the bytes of the input with the bodies of
the transformed rules exchanged, and with every CR LF and every CR that is left as an LF.  So they
differ from the input in nothing but these bodies just when no CR is left; and a run that transforms
no rule writes the bytes of the input just when there is no CR in it. -/
theorem run_transform_bytes {arguments : List Text} {verbose : Bool}
    (hrequest : readArguments arguments = .ok (.command verbose (.transform request)))
    (hdryRun : request.dryRun = false) {out : Text} (hout : request.out = some out)
    (environment : Environment) (hending : (run arguments environment files).ending = .status 0) :
    ∃ sheet options, files.readBytes (.ofText request.input) = .ok (encodeText sheet) ∧
      request.optionsIn files environment.limits = .ok options ∧
      let root := TransformRequest.rootPath request.input request.root options.rootStylesheet
      let lookup := (files.rootPropertiesAt root).get?
      let kept := Sheet.exchange sheet lookup
      let written := (run arguments environment files).files.readBytes (.ofText out)
      written = .ok (encodeText kept.unifyLineEnds) ∧
      (written = .ok (encodeText kept) ↔ '\r' ∉ kept) ∧
      ((∀ rule ∈ Sheet.rules sheet.unifyLineEnds,
          Sheet.replyTo (fun body => Block.transform body lookup) rule = none) →
        (written = .ok (encodeText sheet) ↔ '\r' ∉ sheet)) := by
  have hroot : request.root ≠ some [] :=
    ne_some_nil_of_readArguments hrequest request.root (by simp)
  have hafter := run_of_command hrequest environment files
  rw [Command.run] at hafter
  rw [hafter] at hending
  obtain ⟨result, hresult⟩ := TransformRequest.exists_yields_of_ending hroot hending
  obtain ⟨journal, hrun⟩ := hresult.run_eq hroot
  rw [hrun] at hafter hending
  obtain @⟨options, text, hoptions, htext, -⟩ := hresult
  obtain ⟨sheet, hbytes, rfl⟩ := FileSystem.exists_bytes_of_textAt? htext
  refine ⟨sheet, options, hbytes, hoptions, ?_⟩
  intro root lookup kept written
  have hwritten : written = .ok (encodeText kept.unifyLineEnds) := by
    show (run arguments environment files).files.readBytes (.ofText out) = _
    rw [hafter, ← Sheet.transform_unifyLineEnds (files.not_brings_cr root)]
    exact TransformRequest.readBytes_deliver hdryRun hout hending
  have hkept : written = .ok (encodeText kept) ↔ '\r' ∉ kept := by
    rw [hwritten, Except.ok.injEq, encodeText_inj, Text.unifyLineEnds_eq_self_iff]
  refine ⟨hwritten, hkept, fun hnone => ?_⟩
  have hsame : kept = sheet := Sheet.exchange_eq_self hnone
  rwa [hsame] at hkept

/-- A sheet without references whose line ends are CR LF: in the file that is written they are
LF. -/
theorem run_transform_crLf :
    let input := "in.css".toList
    let out := "out.css".toList
    let sheet := ".x".toList ++ Text.braced "y:z" ++ "\r\n".toList
    let files := (FileSystem.emptyAt 0).install (.ofText input) (.file (encodeText sheet)) none
    let arguments := [transformName, "--out".toList, out, input]
    let request : TransformRequest := ⟨input, some out, none, none, false, false, false⟩
    let environment : Environment := ⟨none, ⟨4300, 1000⟩⟩
    let after := run arguments environment files
    readArguments arguments = .ok (.command false (.transform request)) ∧
      after.ending = .status 0 ∧ files.readBytes (.ofText input) = .ok (encodeText sheet) ∧
      after.files.readBytes (.ofText out) =
        .ok (encodeText (".x".toList ++ Text.braced "y:z" ++ "\n".toList)) ∧
      after.files.readBytes (.ofText out) ≠ .ok (encodeText sheet) := by
  intro input out sheet files arguments request environment after
  have hrequest : readArguments arguments = .ok (.command false (.transform request)) := by
    decide +kernel
  have hending : after.ending = .status 0 := by decide +kernel
  have hinput : files.readBytes (.ofText input) = .ok (encodeText sheet) := by decide +kernel
  have hnone : ∀ lookup, ∀ rule ∈ Sheet.rules (Text.unifyLineEnds sheet),
      Sheet.replyTo (fun body => Block.transform body lookup) rule = none := by
    intro lookup rule hrule
    have hrules : Sheet.rules (Text.unifyLineEnds sheet) = [⟨".x".toList, "y:z".toList, 3, 6⟩] := by
      decide +kernel
    obtain rfl := List.mem_singleton.1 (hrules ▸ hrule)
    rw [Sheet.replyTo, if_neg (by decide), Block.transform_eq_none_iff]
    intro declaration hdeclaration
    have hdeclarations : Block.declarations "y:z".toList = ["y:z".toList] := by decide
    obtain rfl := List.mem_singleton.1 (hdeclarations ▸ hdeclaration)
    exact Declaration.fallback?_eq_none_of_not_hasReference (by decide)
  obtain ⟨sheet', options, hbytes, -, hwritten, -, hsame⟩ :=
    run_transform_bytes hrequest rfl rfl environment hending
  obtain rfl := encodeText_inj.1 (Except.ok.inj (hinput.symm.trans hbytes))
  rw [Sheet.exchange_eq_self (hnone _)] at hwritten
  exact ⟨hrequest, hending, hinput, hwritten, mt (hsame (hnone _)).1 (by decide)⟩

end CommandLine
end CustomProps
