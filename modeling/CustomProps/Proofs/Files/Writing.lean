import CustomProps.Proofs.Files.Reading

/-!
# Writing a file and reading it back

A file can be written where no directory stands, once the directories above it are there or were
made.  Then what was written is what can be read.  Neither making a directory nor writing a file
takes a directory away, so that the path leads to the same place before and after.

* `FileSystem.CanWrite` — a file can be written at a path.
* `FileSystem.KeepsDirectories.locate_eq` — a path leads to the same place as long as the
  directories are there.
* `FileSystem.readBytes_of_writeBytes` — what was written can be read.
-/

set_option autoImplicit false

namespace CustomProps

namespace FileSystem

/-- The directories above the path are there or can be made, and it leads somewhere then, but not to
a directory. -/
def CanWrite (files : FileSystem) (path : Path) : Prop :=
  ∃ made loc, files.makeDirectories path.parent = (made, .ok ()) ∧ made.locate path = .ok loc ∧
    ∀ modified, made.find? loc ≠ some (.directory modified)

/-- Every directory is still there. -/
def KeepsDirectories (files later : FileSystem) : Prop :=
  ∀ place modified, files.find? place = some (.directory modified) →
    later.find? place = some (.directory modified)

variable {files later : FileSystem} {path : Path} {place loc : Location}

/-! ## Places -/

/-- What is put where no directory stands can be found there, and all else as before. -/
theorem find?_put_of_ne (h : ∀ modified, files.find? place ≠ some (.directory modified))
    (entry : Entry) (other : Location) :
    (files.put place entry).find? other =
      if other = place then some entry else files.find? other := by
  have hfixed : place.isFixed = false := by
    refine Bool.eq_false_iff.2 fun hfixed => h 0 ?_
    rw [find?, if_pos hfixed]
  exact find?_put files place other entry hfixed

theorem keepsDirectories_put (h : ∀ modified, files.find? place ≠ some (.directory modified))
    (entry : Entry) : files.KeepsDirectories (files.put place entry) := by
  intro other modified hother
  rw [find?_put_of_ne h, if_neg]
  · exact hother
  · rintro rfl
    exact h modified hother

/-- A walk goes on from a directory, by a name that is not too long. -/
theorem walk_cons_eq_ok_iff {name : FileName} {names : List FileName} :
    files.walk place (name :: names) = .ok loc ↔
      ∃ modified, files.find? place = some (.directory modified) ∧
        name.length ≤ FileName.maxSize ∧ files.walk (place.next name) names = .ok loc := by
  rw [walk]
  cases files.find? place with
  | none => simp
  | some entry =>
    cases entry with
    | file bytes modified => simp
    | directory modified =>
      by_cases hname : name.length ≤ FileName.maxSize
      · simp [hname, Nat.not_lt_of_le hname]
      · simp [hname, Nat.lt_of_not_le hname]

/-- A walk leads to the same place as long as the directories on the way are there. -/
theorem KeepsDirectories.walk_eq (h : files.KeepsDirectories later) {names : List FileName}
    (hwalk : files.walk place names = .ok loc) : later.walk place names = .ok loc := by
  induction names generalizing place with
  | nil => exact hwalk
  | cons name names ih =>
    obtain ⟨modified, hplace, hname, hrest⟩ := walk_cons_eq_ok_iff.1 hwalk
    exact walk_cons_eq_ok_iff.2 ⟨modified, h place modified hplace, hname, ih hrest⟩

/-- A path is walked if it reaches the system and is not too long. -/
theorem locate_eq_ok_iff_walk : files.locate path = .ok loc ↔
    path.refusal? = none ∧ path.size ≤ Path.maxSize ∧
      files.walk path.origin path.fileNames = .ok loc := by
  rw [locate]
  cases path.refusal? with
  | some error => simp
  | none =>
    by_cases hsize : path.size ≤ Path.maxSize
    · simp [hsize, Nat.not_lt_of_le hsize]
    · simp [hsize, Nat.lt_of_not_le hsize]

theorem KeepsDirectories.locate_eq (h : files.KeepsDirectories later)
    (hlocate : files.locate path = .ok loc) : later.locate path = .ok loc := by
  obtain ⟨hrefusal, hsize, hwalk⟩ := locate_eq_ok_iff_walk.1 hlocate
  exact locate_eq_ok_iff_walk.2 ⟨hrefusal, hsize, h.walk_eq hwalk⟩

/-! ## The steps that need a place -/

theorem writeBytes_of_locate (h : files.locate path = .ok loc) (bytes : ByteArray) :
    files.writeBytes path bytes =
      match files.find? loc with
      | some (.directory _) => .error .isADirectory
      | _ => .ok (files.tick.put loc (.file bytes files.tick.clock)) := by
  rw [writeBytes, h]
  rfl

/-! ## Writing -/

/-- Writing succeeds just where a path leads to a place at which no directory stands. -/
theorem writeBytes_eq_ok_iff {bytes : ByteArray} :
    files.writeBytes path bytes = .ok later ↔ ∃ loc, files.locate path = .ok loc ∧
      (∀ modified, files.find? loc ≠ some (.directory modified)) ∧
      files.tick.put loc (.file bytes files.tick.clock) = later := by
  cases hlocate : files.locate path with
  | error error =>
    rw [writeBytes, hlocate]
    exact ⟨nofun, nofun⟩
  | ok loc =>
    rw [writeBytes_of_locate hlocate]
    constructor
    · intro h
      split at h
      · cases h
      · rename_i hfree
        exact ⟨loc, rfl, fun modified hdirectory => hfree modified hdirectory, Except.ok.inj h⟩
    · rintro ⟨loc', hloc, hfree, hlater⟩
      obtain rfl := Except.ok.inj hloc
      split
      · rename_i modified hdirectory
        exact absurd hdirectory (hfree modified)
      · rw [hlater]

/-- **What was written can be read.** -/
theorem readBytes_of_writeBytes {bytes : ByteArray}
    (h : files.writeBytes path bytes = .ok later) : later.readBytes path = .ok bytes := by
  obtain ⟨loc, hlocate, hfree, rfl⟩ := writeBytes_eq_ok_iff.1 h
  -- The tick of the clock moves nothing: what can be found is the same before and after it.
  have hfree' : ∀ modified, files.tick.find? loc ≠ some (.directory modified) := hfree
  have hkeeps : files.KeepsDirectories (files.tick.put loc (.file bytes files.tick.clock)) :=
    keepsDirectories_put hfree' _
  have hfound : (files.tick.put loc (.file bytes files.tick.clock)).find? loc =
      some (.file bytes files.tick.clock) := by
    rw [find?_put_of_ne hfree', if_pos rfl]
  rw [readBytes_of_locate (hkeeps.locate_eq hlocate), hfound]

end FileSystem

end CustomProps
