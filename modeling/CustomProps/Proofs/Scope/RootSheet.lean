import CustomProps.Proofs.Files.Reading
import CustomProps.Proofs.Sheet.RootProperties
import CustomProps.Scope.Basic

/-!
# A sheet of root properties and its file

A sheet reads its file only when the fingerprint has changed.  That is as good as reading it at
every look, provided that the fingerprint tells what is at the path: after a look the sheet has the
properties that the file has then.  At a path that never reaches the system nobody can look, and the
sheet stays as it is.

* `FileSystem.rootPropertiesAt` — the root properties that a file has.
* `RootSheet.looked` — the sheet after a look at its file, or as it was where nobody can look.
* `RootSheet.IsUpToDate` — the sheet has the properties that its file had when it was last seen.
* `RootSheet.looked_eq` — a look at the file leads to its properties, and counts a change of them.
-/

set_option autoImplicit false

namespace CustomProps

namespace FileSystem

/-- The root properties of the file at a path; without a text there are none. -/
def rootPropertiesAt (files : FileSystem) (path : Path) : Properties :=
  ((files.textAt? path).map Sheet.rootProperties).getD .empty

/-- Properties are the same when they give every name the same value. -/
theorem rootPropertiesAt_eq_iff {files later : FileSystem} {path other : Path} :
    files.rootPropertiesAt path = later.rootPropertiesAt other ↔
      ∀ name, (files.rootPropertiesAt path).get? name =
        (later.rootPropertiesAt other).get? name := by
  have hsorted : ∀ (files : FileSystem) (path : Path), (files.rootPropertiesAt path).IsSorted := by
    intro files path
    rw [rootPropertiesAt]
    cases files.textAt? path with
    | none => exact TextMap.isSorted_empty
    | some t => exact Sheet.isSorted_rootProperties t
  exact (hsorted files path).ext_iff (hsorted later other)

theorem rootPropertiesAt_of_refusal? {files : FileSystem} {path : Path} {error : FileError}
    (h : path.refusal? = some error) : files.rootPropertiesAt path = .empty := by
  rw [rootPropertiesAt, textAt?, entryAt?, locate_of_refusal? h]
  rfl

/-- The values of a file are trimmed and not blank. -/
theorem isClean_of_get?_rootPropertiesAt {files : FileSystem} {path : Path} {name value : Text}
    (h : (files.rootPropertiesAt path).get? name = some value) : Sheet.IsClean value := by
  rw [rootPropertiesAt] at h
  cases htext : files.textAt? path with
  | none =>
    rw [htext] at h
    cases h
  | some t =>
    rw [htext] at h
    exact Sheet.isClean_of_get?_rootProperties h

end FileSystem

/-- A sheet answers with the properties that it has from a file. -/
theorem Scope.get?_sheet {sheet : RootSheet} {files : FileSystem} {path : Path}
    (h : sheet.properties = files.rootPropertiesAt path) :
    (Scope.sheet sheet).get? = (files.rootPropertiesAt path).get? := by
  funext name
  rw [Scope.get?, h]
  cases hvalue : (files.rootPropertiesAt path).get? name with
  | none => rfl
  | some value => exact (FileSystem.isClean_of_get?_rootPropertiesAt hvalue).nonBlank?_eq

/-- What can be told of what is at a path now without reading it; none if nothing is there. -/
def FileSystem.fingerprint? (files : FileSystem) (path : Path) : Option Fingerprint :=
  (files.entryAt? path).map Entry.fingerprint

namespace RootSheet

variable {files : FileSystem} {sheet : RootSheet} {seen : List FileSystem}

/-! ## Looking -/

theorem read_fst (files : FileSystem) (path : Path) :
    (read files path).1 = files.rootPropertiesAt path := by
  rw [FileSystem.rootPropertiesAt, read]
  cases htext : files.textAt? path with
  | none =>
    split
    · rename_i t hread
      rw [FileSystem.readText_eq_ok_iff, htext] at hread
      cases hread
    · rfl
  | some t =>
    rw [FileSystem.readText_eq_ok_iff.2 htext]
    rfl

theorem propertiesBehind_fst (files : FileSystem) (path : Path) :
    (propertiesBehind files path (files.fingerprint? path)).1 = files.rootPropertiesAt path := by
  rw [FileSystem.fingerprint?]
  cases hentry : files.entryAt? path with
  | none =>
    rw [FileSystem.rootPropertiesAt, FileSystem.textAt?, hentry]
    rfl
  | some entry => exact read_fst files path

/-- The sheet after a look at its file, or as it was where nobody can look. -/
def looked (files : FileSystem) (sheet : RootSheet) : RootSheet :=
  ((sheet.refresh files).toOption.map Prod.fst).getD sheet

theorem refresh_of_refusal? {error : FileError} (h : sheet.path.refusal? = some error) :
    sheet.refresh files = .error error := by
  rw [refresh, FileSystem.fingerprintAt_eq, h]
  rfl

theorem looked_of_refusal? {error : FileError} (h : sheet.path.refusal? = some error) :
    sheet.looked files = sheet := by
  rw [looked, refresh_of_refusal? h]
  rfl

/-- A file that has been seen as it is gives no reason to read it again. -/
theorem refresh_of_seen (hrefusal : sheet.path.refusal? = none)
    (h : sheet.seen = some (files.fingerprint? sheet.path)) :
    sheet.refresh files = .ok (sheet, []) := by
  rw [refresh, FileSystem.fingerprintAt_eq, hrefusal]
  exact if_pos h

/-- A file that was not seen as it is now is read. -/
theorem refresh_of_not_seen (hrefusal : sheet.path.refusal? = none)
    (h : sheet.seen ≠ some (files.fingerprint? sheet.path)) :
    ∃ events, sheet.refresh files = .ok
      ({ sheet with
        seen := some (files.fingerprint? sheet.path)
        properties := files.rootPropertiesAt sheet.path
        version :=
          if files.rootPropertiesAt sheet.path = sheet.properties then sheet.version
          else sheet.version + 1 }, events) := by
  rw [refresh, FileSystem.fingerprintAt_eq, hrefusal, ← propertiesBehind_fst,
    ← FileSystem.fingerprint?, settle_none]
  dsimp only [bind, Except.bind]
  rw [if_neg h]
  split
  · rename_i hsame
    rw [hsame]
    exact ⟨_, rfl⟩
  · exact ⟨_, rfl⟩

/-- A look can be taken wherever the path reaches the system. -/
theorem exists_refresh_eq (files : FileSystem) (h : sheet.path.refusal? = none) :
    ∃ events, sheet.refresh files = .ok (sheet.looked files, events) := by
  by_cases hseen : sheet.seen = some (files.fingerprint? sheet.path)
  · rw [looked, refresh_of_seen h hseen]
    exact ⟨_, rfl⟩
  · obtain ⟨events, hrefresh⟩ := refresh_of_not_seen h hseen
    rw [looked, hrefresh]
    exact ⟨_, rfl⟩

theorem looked_of_seen (h : sheet.seen = some (files.fingerprint? sheet.path)) :
    sheet.looked files = sheet := by
  cases hrefusal : sheet.path.refusal? with
  | none =>
    rw [looked, refresh_of_seen hrefusal h]
    rfl
  | some error => exact looked_of_refusal? hrefusal

theorem looked_of_not_seen (hrefusal : sheet.path.refusal? = none)
    (h : sheet.seen ≠ some (files.fingerprint? sheet.path)) :
    sheet.looked files =
      { sheet with
        seen := some (files.fingerprint? sheet.path)
        properties := files.rootPropertiesAt sheet.path
        version :=
          if files.rootPropertiesAt sheet.path = sheet.properties then sheet.version
          else sheet.version + 1 } := by
  obtain ⟨events, hrefresh⟩ := refresh_of_not_seen hrefusal h
  rw [looked, hrefresh]
  rfl

theorem path_looked (files : FileSystem) (sheet : RootSheet) :
    (sheet.looked files).path = sheet.path := by
  cases hrefusal : sheet.path.refusal? with
  | none =>
    by_cases hseen : sheet.seen = some (files.fingerprint? sheet.path)
    · rw [looked_of_seen hseen]
    · rw [looked_of_not_seen hrefusal hseen]
  | some error => rw [looked_of_refusal? hrefusal]

theorem seen_looked (hrefusal : sheet.path.refusal? = none) :
    (sheet.looked files).seen = some (files.fingerprint? sheet.path) := by
  by_cases hseen : sheet.seen = some (files.fingerprint? sheet.path)
  · rw [looked_of_seen hseen, hseen]
  · rw [looked_of_not_seen hrefusal hseen]

/-- Looking twice is looking once. -/
theorem looked_looked (files : FileSystem) (sheet : RootSheet) :
    (sheet.looked files).looked files = sheet.looked files := by
  cases hrefusal : sheet.path.refusal? with
  | none =>
    refine looked_of_seen ?_
    rw [path_looked, seen_looked hrefusal]
  | some error => rw [looked_of_refusal? hrefusal, looked_of_refusal? hrefusal]

/-- A look at the file finds other properties and counts that, or leaves all as it was. -/
theorem looked_cases (files : FileSystem) (sheet : RootSheet) :
    (sheet.looked files).properties = sheet.properties ∧
        (sheet.looked files).version = sheet.version ∨
      (sheet.looked files).properties = files.rootPropertiesAt sheet.path ∧
        (sheet.looked files).properties ≠ sheet.properties ∧
        (sheet.looked files).version = sheet.version + 1 := by
  cases hrefusal : sheet.path.refusal? with
  | none =>
    by_cases hseen : sheet.seen = some (files.fingerprint? sheet.path)
    · rw [looked_of_seen hseen]
      exact .inl ⟨rfl, rfl⟩
    · rw [looked_of_not_seen hrefusal hseen]
      by_cases hsame : files.rootPropertiesAt sheet.path = sheet.properties
      · exact .inl ⟨hsame, if_pos hsame⟩
      · exact .inr ⟨rfl, hsame, if_neg hsame⟩
  | some error =>
    rw [looked_of_refusal? hrefusal]
    exact .inl ⟨rfl, rfl⟩

/-! ## Being up to date -/

/-- If the sheet was looked at, it was with one of the given file systems, and it has the properties
that the file had there. -/
def IsUpToDate (sheet : RootSheet) (seen : List FileSystem) : Prop :=
  ∀ fingerprint, sheet.seen = some fingerprint → ∃ files ∈ seen,
    fingerprint = files.fingerprint? sheet.path ∧
      sheet.properties = files.rootPropertiesAt sheet.path

theorem IsUpToDate.mono {later : List FileSystem} (h : sheet.IsUpToDate seen)
    (hseen : seen ⊆ later) : sheet.IsUpToDate later := by
  intro fingerprint hfingerprint
  obtain ⟨files, hfiles, htold⟩ := h fingerprint hfingerprint
  exact ⟨files, hseen hfiles, htold⟩

theorem isUpToDate_ofPath (path : Path) (seen : List FileSystem) : (ofPath path).IsUpToDate seen :=
  nofun

/-- **A look at the file** leads to the properties that it has now, whatever happened before, and
the version rises if they differ from those before. -/
theorem looked_eq (h : sheet.IsUpToDate seen) (hrefusal : sheet.path.refusal? = none)
    (htells : ∀ earlier ∈ seen, earlier.Tells files sheet.path) :
    sheet.looked files =
      { sheet with
        seen := some (files.fingerprint? sheet.path)
        properties := files.rootPropertiesAt sheet.path
        version :=
          if files.rootPropertiesAt sheet.path = sheet.properties then sheet.version
          else sheet.version + 1 } := by
  by_cases hseen : sheet.seen = some (files.fingerprint? sheet.path)
  · obtain ⟨earlier, hearlier, hfingerprint, hproperties⟩ := h _ hseen
    have htext := (htells earlier hearlier).textAt?_eq hfingerprint.symm
    have hsame : files.rootPropertiesAt sheet.path = sheet.properties := by
      rw [hproperties, FileSystem.rootPropertiesAt, FileSystem.rootPropertiesAt, htext]
    rw [looked_of_seen hseen, if_pos hsame, hsame, ← hseen]
  · exact looked_of_not_seen hrefusal hseen

/-- The first look at a file finds its properties; at a path that is refused there are none. -/
theorem properties_looked_ofPath (files : FileSystem) (path : Path) :
    ((ofPath path).looked files).properties = files.rootPropertiesAt path := by
  cases hrefusal : path.refusal? with
  | none =>
    rw [looked_eq (isUpToDate_ofPath path []) hrefusal nofun]
    rfl
  | some error =>
    rw [looked_of_refusal? hrefusal, FileSystem.rootPropertiesAt_of_refusal? hrefusal]
    rfl

theorem IsUpToDate.looked (h : sheet.IsUpToDate seen) (hfiles : files ∈ seen)
    (htells : ∀ earlier ∈ seen, earlier.Tells files sheet.path) :
    (sheet.looked files).IsUpToDate seen := by
  cases hrefusal : sheet.path.refusal? with
  | none =>
    rw [looked_eq h hrefusal htells]
    intro fingerprint hseen
    exact ⟨files, hfiles, (Option.some.inj hseen).symm, rfl⟩
  | some error => rwa [looked_of_refusal? hrefusal]

end RootSheet
end CustomProps
