import CustomProps.Files.FileSystem
import CustomProps.Proofs.Failing
import CustomProps.Proofs.Text.LineEnds

/-!
# What can be seen and read at a path

* `FileSystem.fingerprintAt_eq` — looking at a path fails just where it never reaches the system.
* `FileSystem.pathExists_eq_ok_true_iff` — a path is found to exist just where something stands.
* `decodeText_eq_some_iff` — what is lost in reading.
* `FileSystem.textAt?` — the text at a path; there is none unless a file with UTF-8 stands there.
* `FileSystem.readText_eq_ok_iff` — reading succeeds just where there is a text.
* `FileSystem.Tells` — times and sizes tell what stands at a path in two file systems apart.
-/

set_option autoImplicit false

namespace CustomProps

/-! ## Texts and their bytes -/

/-- A text in braces, as the rules of a sheet and the objects of JSON have them. -/
def Text.braced (inside : String) : Text := '{' :: inside.toList ++ ['}']

theorem encodeText_inj {t u : Text} : encodeText t = encodeText u ↔ t = u :=
  String.toByteArray_inj.trans String.ofList_inj

/-- **Nothing is lost in reading but the kind of line ends.** -/
theorem decodeText_eq_some_iff {bytes : ByteArray} {t : Text} : decodeText bytes = some t ↔
    ∃ written, bytes = encodeText written ∧ written.unifyLineEnds = t := by
  rw [decodeText, Option.map_eq_some_iff]
  constructor
  · rintro ⟨s, hs, rfl⟩
    refine ⟨s.toList, ?_, rfl⟩
    rw [String.fromUTF8?] at hs
    split at hs
    · obtain rfl := Option.some.inj hs
      rw [encodeText, String.ofList_toList]
      rfl
    · cases hs
  · rintro ⟨written, rfl, rfl⟩
    refine ⟨String.ofList written, ?_, by rw [String.toList_ofList]⟩
    exact dif_pos (String.ofList written).isValidUTF8

namespace Entry

/-- The bytes of a file; a directory has none. -/
def bytes? : Entry → Option ByteArray
  | file bytes _ => some bytes
  | directory _ => none

/-- The text of a file that holds UTF-8, with every line end as LF. -/
def text? (entry : Entry) : Option Text := entry.bytes?.bind decodeText

/-- A text without CR is read as it was written. -/
theorem text?_encodeText {t : Text} (h : '\r' ∉ t) (modified : Int) :
    (file (encodeText t) modified).text? = some t :=
  decodeText_eq_some_iff.2 ⟨t, rfl, Text.unifyLineEnds_eq_self_iff.2 h⟩

end Entry

/-! ## Looking -/

namespace FileSystem

variable {files : FileSystem} {path : Path}

/-- A path that is walked has reached the system. -/
theorem isRefusal_of_walk {place : Location} {names : List FileName} {error : FileError}
    (h : files.walk place names = .error error) : error.isRefusal = false := by
  induction names generalizing place with
  | nil => cases h
  | cons name names ih =>
    rw [walk] at h
    split at h
    · split at h
      · obtain rfl := Except.error.inj h
        rfl
      · exact ih h
    · obtain rfl := Except.error.inj h
      rfl
    · obtain rfl := Except.error.inj h
      rfl

theorem isRefusal_of_refusal? {error : FileError} (h : path.refusal? = some error) :
    error.isRefusal = true := by
  rw [Path.refusal?] at h
  split at h
  · obtain rfl := Option.some.inj h
    rfl
  · split at h
    · obtain rfl := Option.some.inj h
      rfl
    · cases h

theorem locate_of_refusal? {error : FileError} (h : path.refusal? = some error) :
    files.locate path = .error error := by
  rw [locate, h]

theorem isRefusal_of_locate {error : FileError} (hrefusal : path.refusal? = none)
    (h : files.locate path = .error error) : error.isRefusal = false := by
  rw [locate, hrefusal] at h
  dsimp only at h
  split at h
  · obtain rfl := Except.error.inj h
    rfl
  · exact isRefusal_of_walk h

theorem entryAt?_of_locate {loc : Location} (h : files.locate path = .ok loc) :
    files.entryAt? path = files.find? loc := by
  rw [entryAt?, h]

theorem stat_of_locate {loc : Location} (h : files.locate path = .ok loc) :
    files.stat path = (files.entryAt? path).elim (.error .notFound) .ok := by
  rw [stat, h, entryAt?_of_locate h]
  dsimp only [bind, Except.bind]
  cases files.find? loc <;> rfl

theorem stat_of_locate_eq_error {error : FileError} (h : files.locate path = .error error) :
    files.stat path = .error error := by
  rw [stat, h]
  rfl

/-- **Looking at a path** fails just where it never reaches the system, whatever stands there. -/
theorem fingerprintAt_eq (files : FileSystem) (path : Path) :
    files.fingerprintAt path =
      settle path.refusal? ((files.entryAt? path).map Entry.fingerprint) := by
  rw [fingerprintAt]
  cases hlocate : files.locate path with
  | ok loc =>
    have hrefusal : path.refusal? = none :=
      Option.eq_none_iff_forall_ne_some.2 fun error herror =>
        nomatch hlocate.symm.trans (locate_of_refusal? herror)
    rw [stat_of_locate hlocate, hrefusal]
    cases files.entryAt? path <;> rfl
  | error error =>
    rw [stat_of_locate_eq_error hlocate, entryAt?, hlocate]
    dsimp only
    cases hrefusal : path.refusal? with
    | none =>
      rw [if_neg (by rw [isRefusal_of_locate hrefusal hlocate]; exact Bool.false_ne_true)]
      rfl
    | some error' =>
      obtain rfl : error = error' :=
        Except.error.inj (hlocate.symm.trans (locate_of_refusal? hrefusal))
      rw [if_pos (isRefusal_of_refusal? hrefusal)]
      rfl

theorem pathExists_of_stat_error {error : FileError} (h : files.stat path = .error error) :
    files.pathExists path =
      if error = .nameTooLong then .error .nameTooLong else .ok false := by
  rw [pathExists, h]
  cases error <;> rfl

/-- **A path is found to exist** just where something stands. -/
theorem pathExists_eq_ok_true_iff :
    files.pathExists path = .ok true ↔ (files.entryAt? path).isSome = true := by
  cases hlocate : files.locate path with
  | ok loc =>
    have hstat := stat_of_locate hlocate
    cases hentry : files.entryAt? path with
    | some entry =>
      rw [hentry] at hstat
      rw [pathExists, hstat]
      exact iff_of_true rfl rfl
    | none =>
      rw [hentry] at hstat
      rw [pathExists_of_stat_error hstat, if_neg (by decide)]
      exact iff_of_false nofun nofun
  | error error =>
    rw [pathExists_of_stat_error (stat_of_locate_eq_error hlocate), entryAt?, hlocate]
    split <;> exact iff_of_false nofun nofun

/-- About a path nothing can be said just where it, or a name on the way, is too long. -/
theorem pathExists_eq_error_iff {error : FileError} : files.pathExists path = .error error ↔
    error = .nameTooLong ∧ files.locate path = .error .nameTooLong := by
  cases hlocate : files.locate path with
  | ok loc =>
    refine iff_of_false (fun h => ?_) nofun
    have hstat := stat_of_locate hlocate
    cases hentry : files.entryAt? path with
    | some entry =>
      rw [hentry] at hstat
      rw [pathExists, hstat] at h
      cases h
    | none =>
      rw [hentry] at hstat
      rw [pathExists_of_stat_error hstat] at h
      cases h
  | error error' =>
    rw [pathExists_of_stat_error (stat_of_locate_eq_error hlocate), Except.error.injEq]
    split
    · rename_i htooLong
      rw [Except.error.injEq, eq_comm]
      exact (and_iff_left htooLong).symm
    · rename_i htooLong
      exact iff_of_false nofun fun h => htooLong h.2

end FileSystem

/-! ## Reading -/

namespace FileSystem

/-- The text of the file at a path: none if it is missing, a directory, or does not hold UTF-8. -/
def textAt? (files : FileSystem) (path : Path) : Option Text :=
  (files.entryAt? path).bind Entry.text?

/-- Unless the path leads to the same bytes, or to a directory in both, the time or the size tells
the difference. -/
def Tells (files later : FileSystem) (path : Path) : Prop :=
  ∀ entry entry', files.entryAt? path = some entry → later.entryAt? path = some entry' →
    entry.fingerprint = entry'.fingerprint → entry.bytes? = entry'.bytes?

variable {files later : FileSystem} {path : Path}

theorem all_entryAt?_iff_tells :
    (files.entryAt? path).all (fun entry => (later.entryAt? path).all fun entry' =>
      !decide (entry.fingerprint = entry'.fingerprint) ||
        decide (entry.bytes?.map ByteArray.data = entry'.bytes?.map ByteArray.data)) =
      true ↔ files.Tells later path := by
  have hdata : ∀ bytes bytes' : ByteArray, bytes.data = bytes'.data → bytes = bytes' :=
    fun _ _ => ByteArray.ext
  rw [Tells]
  cases files.entryAt? path <;> cases later.entryAt? path <;>
    simp [Decidable.imp_iff_not_or, Option.map_inj_right hdata]

instance (files later : FileSystem) (path : Path) : Decidable (files.Tells later path) :=
  decidable_of_iff _ all_entryAt?_iff_tells

theorem readBytes_of_locate {loc : Location} (h : files.locate path = .ok loc) :
    files.readBytes path =
      match files.find? loc with
      | some (.file bytes _) => .ok bytes
      | some (.directory _) => .error .isADirectory
      | none => .error .notFound := by
  rw [readBytes, h]
  rfl

theorem readBytes_eq_ok_iff {bytes : ByteArray} :
    files.readBytes path = .ok bytes ↔ (files.entryAt? path).bind Entry.bytes? = some bytes := by
  cases hlocate : files.locate path with
  | error error =>
    rw [readBytes, entryAt?, hlocate]
    exact ⟨nofun, nofun⟩
  | ok loc =>
    rw [readBytes_of_locate hlocate, entryAt?_of_locate hlocate]
    cases files.find? loc with
    | none => exact ⟨nofun, nofun⟩
    | some entry =>
      cases entry with
      | directory modified => exact ⟨nofun, nofun⟩
      | file bytes' modified =>
        exact ⟨fun h => congrArg some (Except.ok.inj h), fun h =>
          congrArg Except.ok (Option.some.inj h)⟩

theorem readText_of_readBytes {bytes : ByteArray} (h : files.readBytes path = .ok bytes) :
    files.readText path = (decodeText bytes).elim (.error .notUtf8) .ok := by
  rw [readText, h]
  cases hdecoded : decodeText bytes <;> simp [hdecoded, bind, Except.bind]

theorem readText_eq_ok_iff {t : Text} :
    files.readText path = .ok t ↔ files.textAt? path = some t := by
  have htext : files.textAt? path =
      ((files.entryAt? path).bind Entry.bytes?).bind decodeText := by
    rw [textAt?, Option.bind_assoc]
    rfl
  rw [htext]
  cases hread : files.readBytes path with
  | error error =>
    have hnone : (files.entryAt? path).bind Entry.bytes? = none :=
      Option.eq_none_iff_forall_ne_some.2 fun bytes hbytes =>
        nomatch hread.symm.trans (readBytes_eq_ok_iff.2 hbytes)
    rw [readText, hread, hnone]
    exact ⟨nofun, nofun⟩
  | ok bytes =>
    rw [readText_of_readBytes hread, readBytes_eq_ok_iff.1 hread, Option.bind_some]
    cases decodeText bytes with
    | none => exact ⟨nofun, nofun⟩
    | some text =>
      exact ⟨fun h => congrArg some (Except.ok.inj h), fun h =>
        congrArg Except.ok (Option.some.inj h)⟩

/-- A text that can be read is that of the bytes of a file, with its line ends unified. -/
theorem exists_bytes_of_textAt? {t : Text} (h : files.textAt? path = some t) :
    ∃ written, files.readBytes path = .ok (encodeText written) ∧ written.unifyLineEnds = t := by
  obtain ⟨entry, hentry, htext⟩ := Option.bind_eq_some_iff.1 h
  obtain ⟨bytes, hbytes, hdecoded⟩ := Option.bind_eq_some_iff.1 htext
  obtain ⟨written, rfl, hwritten⟩ := decodeText_eq_some_iff.1 hdecoded
  exact ⟨written, readBytes_eq_ok_iff.2 (by rw [hentry, Option.bind_some, hbytes]), hwritten⟩

theorem pathExists_of_textAt? {t : Text} (h : files.textAt? path = some t) :
    files.pathExists path = .ok true := by
  obtain ⟨entry, hentry, -⟩ := Option.bind_eq_some_iff.1 h
  rw [pathExists_eq_ok_true_iff, hentry, Option.isSome_some]

/-- Where the fingerprints agree, so do the texts. -/
theorem Tells.textAt?_eq (h : files.Tells later path)
    (hsame : (files.entryAt? path).map Entry.fingerprint =
      (later.entryAt? path).map Entry.fingerprint) :
    files.textAt? path = later.textAt? path := by
  rw [textAt?, textAt?]
  cases hentry : files.entryAt? path with
  | none =>
    rw [hentry, Option.map_none, eq_comm, Option.map_eq_none_iff] at hsame
    rw [hsame]
  | some entry =>
    rw [hentry, Option.map_some, eq_comm, Option.map_eq_some_iff] at hsame
    obtain ⟨entry', hentry', hfingerprint⟩ := hsame
    rw [hentry', Option.bind_some, Option.bind_some, Entry.text?, Entry.text?,
      h entry entry' hentry hentry' hfingerprint.symm]

end FileSystem
end CustomProps
