import CustomProps.Options
import CustomProps.Proofs.Failing
import CustomProps.Proofs.Files.Writing
import CustomProps.Proofs.Json.Names
import Mathlib.Data.List.Basic

/-!
# Which options are read, and which faults are told

A file describes options by an object.  Its members are checked one by one, each by the rule of its
field, and no fault keeps another one from being told: those of the known members come first, in the
order of the fields, and then the unknown members as they stand in the file.

* `OptionField.Accepts`, `OptionField.Refuses` — the check of one member.
* `Options.Describes` — the options that the members of an object say.
* `OptionFault.Concerns` — a fault of the member with some key.
* `Options.Reports` — all faults, one for each member that has one, in order.
* `Options.load_exact` — what loading options from a file comes to.
-/

set_option autoImplicit false

namespace CustomProps

/-! ## Names without halves -/

theorem Letter.char?_eq_some_iff {letter : Letter} {c : Char} :
    letter.char? = some c ↔ letter = .char c := by
  cases letter with
  | char c' =>
    exact ⟨fun h => congrArg Letter.char (Option.some.inj h), fun h =>
      congrArg some (Letter.char.inj h)⟩
  | half n => exact ⟨nofun, nofun⟩

theorem LooseText.strict?_eq_some_iff {t : LooseText} {u : Text} :
    t.strict? = some u ↔ t = u.loose :=
  mapM_eq_some_iff fun _ _ => Letter.char?_eq_some_iff

/-! ## The check of a member -/

namespace OptionField

variable {field field' : OptionField} {value : Json} {fault fault' : OptionFault}

/-- The value passes the check of the field. -/
def Accepts : OptionField → Json → Prop
  | skipSupported, value | useCache, value => ∃ b, Truth.ofJson value = .clear b
  | rootStylesheet, value => value = .null ∨ ∃ t, value = .string t

/-- The value does not pass the check of the field, with this fault. -/
inductive Refuses : OptionField → Json → OptionFault → Prop
  | unclear {field : OptionField} {value : Json} (hfield : field ≠ rootStylesheet)
      (h : Truth.ofJson value = .unclear) : Refuses field value (.unclearBoolean field)
  | broken {field : OptionField} {value : Json} (hfield : field ≠ rootStylesheet)
      (h : Truth.ofJson value = .broken) : Refuses field value (.brokenWord field)
  | other {field : OptionField} {value : Json} (hfield : field ≠ rootStylesheet)
      (h : Truth.ofJson value = .other) : Refuses field value (.notBoolean field)
  | notString {value : Json} (hnull : value ≠ .null) (hstring : ∀ t, value ≠ .string t) :
      Refuses rootStylesheet value (.notString rootStylesheet)

theorem key_inj (h : field.key = field'.key) : field = field' := by
  cases field <;> cases field' <;> first | rfl | exact absurd h (by decide)

theorem accepts_iff_of_ne (hfield : field ≠ rootStylesheet) :
    field.Accepts value ↔ ∃ b, Truth.ofJson value = .clear b := by
  cases field with
  | skipSupported => exact Iff.rfl
  | useCache => exact Iff.rfl
  | rootStylesheet => exact absurd rfl hfield

theorem Refuses.not_accepts (h : field.Refuses value fault) : ¬field.Accepts value := by
  cases h with
  | notString hnull hstring => exact not_or.2 ⟨hnull, not_exists.2 hstring⟩
  | _ hfield h =>
    rw [accepts_iff_of_ne hfield, h]
    exact nofun

theorem exists_refuses (h : ¬field.Accepts value) : ∃ fault, field.Refuses value fault := by
  by_cases hfield : field = rootStylesheet
  · subst hfield
    obtain ⟨hnull, hstring⟩ := not_or.1 h
    exact ⟨_, .notString hnull (not_exists.1 hstring)⟩
  · rw [accepts_iff_of_ne hfield] at h
    cases htruth : Truth.ofJson value with
    | clear b => exact absurd ⟨b, htruth⟩ h
    | unclear => exact ⟨_, .unclear hfield htruth⟩
    | broken => exact ⟨_, .broken hfield htruth⟩
    | other => exact ⟨_, .other hfield htruth⟩

/-- A value has one fault at most. -/
theorem Refuses.unique (h : field.Refuses value fault) (h' : field.Refuses value fault') :
    fault = fault' := by
  cases h with
  | notString =>
    cases h' with
    | notString => rfl
    | _ hfield => exact absurd rfl hfield
  | _ hfield h =>
    cases h' with
    | notString => exact absurd rfl hfield
    | _ _ h' => first | rfl | exact nomatch h.symm.trans h'

theorem Refuses.location_eq (h : field.Refuses value fault) : fault.location = [field.key] := by
  cases h <;> rfl

end OptionField

/-! ## The faults of an object -/

/-- The fault is that of the member with the key: its value does not pass the check of the field,
or there is no such field. -/
inductive OptionFault.Concerns (members : List (LooseText × Json)) : OptionFault → Text → Prop
  | known {field : OptionField} {value : Json} {fault : OptionFault}
      (hmem : (field.key.loose, value) ∈ members) (h : field.Refuses value fault) :
      Concerns members fault field.key
  | unknown {key : Text} {value : Json} (hmem : (key.loose, value) ∈ members)
      (h : ∀ field : OptionField, field.key ≠ key) : Concerns members (.unknownKey key) key

namespace Options

variable {members : List (LooseText × Json)} {field : OptionField} {value : Json}
  {key key' : Text} {fault fault' : OptionFault}

/-- The member passes the check of its field. -/
def IsFine (key : LooseText) (value : Json) : Prop :=
  ∃ field : OptionField, field.key.loose = key ∧ field.Accepts value

/-- What a member says by the rule `p`, or the default where there is no such member. -/
def Says {α : Type} (members : List (LooseText × Json)) (field : OptionField) (default : α)
    (p : Json → α → Prop) (a : α) : Prop :=
  (∃ value, (field.key.loose, value) ∈ members ∧ p value a) ∨
    field.key.loose ∉ members.map Prod.fst ∧ a = default

/-- The options are what the members of an object say, and the default ones for the members that it
does not have. -/
structure Describes (members : List (LooseText × Json)) (options : Options) : Prop where
  skipSupported : Says members .skipSupported true
    (fun value b => Truth.ofJson value = .clear b) options.skipSupported
  useCache : Says members .useCache true
    (fun value b => Truth.ofJson value = .clear b) options.useCache
  rootStylesheet : Says members .rootStylesheet none
    (fun value t => value = .null ∧ t = none ∨ ∃ u, value = .string u ∧ t = some u)
    options.rootStylesheet

/-- Where a member comes when faults are told: the known ones in the order of the fields, wherever
they stand in the object, and behind them the others as they stand in it. -/
def place (members : List (LooseText × Json)) (key : Text) : Nat :=
  (fields.map (·.key.loose) ++ members.map Prod.fst).idxOf key.loose

/-- The member of the first fault has the earlier place. -/
def ComesBefore (members : List (LooseText × Json)) (fault fault' : OptionFault) : Prop :=
  ∀ key key', fault.location = [key] → fault'.location = [key'] →
    place members key < place members key'

/-- One fault for each member that is not fine, in order, and no other faults. -/
structure Reports (members : List (LooseText × Json)) (faults : List OptionFault) : Prop where
  concerns : ∀ fault ∈ faults, ∃ key, fault.location = [key] ∧ fault.Concerns members key
  unique : ∀ key : Text, ∀ value, (key.loose, value) ∈ members → ¬IsFine key.loose value →
    ∃! fault, fault ∈ faults ∧ fault.location = [key]
  ascending : faults.Pairwise (ComesBefore members)

/-- The name of a member has half of a surrogate pair in it. -/
def HasBrokenKey (members : List (LooseText × Json)) : Prop :=
  ∃ key ∈ members.map Prod.fst, key.strict? = none

/-! ### Names and values -/

variable {name : LooseText}

theorem mem_of_lookup (h : members.lookup name = some value) : (name, value) ∈ members := by
  obtain ⟨front, behind, rfl, -⟩ := List.lookup_eq_some_iff.1 h
  exact List.mem_append_right front List.mem_cons_self

theorem lookup_eq_some_iff_mem (h : (members.map Prod.fst).Nodup) :
    members.lookup name = some value ↔ (name, value) ∈ members := by
  refine ⟨mem_of_lookup, fun hmem => List.lookup_eq_some_iff.2 ?_⟩
  obtain ⟨front, behind, rfl⟩ := List.append_of_mem hmem
  refine ⟨front, behind, rfl, fun member hmember => bne_iff_ne.2 ?_⟩
  rw [List.map_append, List.nodup_append] at h
  exact (h.2.2 member.1 (List.mem_map_of_mem hmember) name List.mem_cons_self).symm

theorem value_unique (h : (members.map Prod.fst).Nodup) {value' : Json}
    (hmem : (name, value) ∈ members) (hmem' : (name, value') ∈ members) : value = value' := by
  rw [← lookup_eq_some_iff_mem h] at hmem hmem'
  exact Option.some.inj (hmem.symm.trans hmem')

theorem lookup_eq_none_iff_not_mem :
    members.lookup name = none ↔ name ∉ members.map Prod.fst := by
  rw [List.lookup_eq_none_iff, List.mem_map, not_exists]
  exact forall_congr' fun member => by rw [bne_iff_ne, not_and, ne_comm]

theorem mem_fields (field : OptionField) : field ∈ fields := by
  cases field <;> decide

/-! ### The fault of a member -/

theorem isFine_key_iff : IsFine field.key.loose value ↔ field.Accepts value := by
  refine ⟨fun ⟨field', hkey, haccepts⟩ => ?_, fun haccepts => ⟨field, rfl, haccepts⟩⟩
  exact OptionField.key_inj (Text.loose_inj.1 hkey) ▸ haccepts

/-- No field has a broken name. -/
theorem not_isFine_of_strict? {name : LooseText} (h : name.strict? = none) :
    ¬IsFine name value := by
  rintro ⟨field, hfield, -⟩
  exact nomatch (LooseText.strict?_eq_some_iff.2 hfield.symm).symm.trans h

theorem exists_concerns (hmem : (key.loose, value) ∈ members) (h : ¬IsFine key.loose value) :
    ∃ fault : OptionFault, fault.Concerns members key := by
  by_cases hfield : ∃ field : OptionField, field.key = key
  · obtain ⟨field, rfl⟩ := hfield
    obtain ⟨fault, hfault⟩ := OptionField.exists_refuses (mt isFine_key_iff.2 h)
    exact ⟨fault, .known hmem hfault⟩
  · exact ⟨_, .unknown hmem (not_exists.1 hfield)⟩

end Options

namespace OptionFault
namespace Concerns

variable {members : List (LooseText × Json)} {key : Text} {fault fault' : OptionFault}

theorem location_eq (h : fault.Concerns members key) : fault.location = [key] := by
  cases h with
  | known hmem h => exact h.location_eq
  | unknown hmem h => rfl

/-- A member with a fault is not fine. -/
theorem exists_not_isFine (h : fault.Concerns members key) :
    ∃ value, (key.loose, value) ∈ members ∧ ¬Options.IsFine key.loose value := by
  cases h with
  | known hmem h => exact ⟨_, hmem, mt Options.isFine_key_iff.1 h.not_accepts⟩
  | unknown hmem h => exact ⟨_, hmem, fun ⟨field, hkey, _⟩ => h field (Text.loose_inj.1 hkey)⟩

/-- A member has one fault at most. -/
theorem unique (hdistinct : (members.map Prod.fst).Nodup) (h : fault.Concerns members key)
    (h' : fault'.Concerns members key) : fault = fault' := by
  cases h with
  | @known field value _ hmem hrefuses =>
    -- both members may be known ones: the field follows from the key
    generalize hkey : field.key = key at h'
    cases h' with
    | known hmem' hrefuses' =>
      obtain rfl := OptionField.key_inj hkey
      obtain rfl := Options.value_unique hdistinct hmem hmem'
      exact hrefuses.unique hrefuses'
    | unknown _ hunknown => exact absurd hkey (hunknown field)
  | unknown _ hunknown =>
    cases h' with
    | known => exact absurd rfl (hunknown _)
    | unknown => rfl

end Concerns
end OptionFault

namespace Options

variable {members : List (LooseText × Json)} {field : OptionField} {value : Json}
  {key key' : Text} {fault fault' : OptionFault}

theorem mem_faults {α : Type} {reading : Except OptionFault α} :
    fault ∈ faults reading ↔ reading = .error fault := by
  cases reading with
  | ok a => exact ⟨nofun, nofun⟩
  | error fault' => rw [faults, List.mem_singleton, Except.error.injEq, eq_comm]

theorem exists_ok_of_faults_eq_nil {α : Type} {reading : Except OptionFault α}
    (h : faults reading = []) : ∃ a, reading = .ok a := by
  cases reading with
  | ok a => exact ⟨a, rfl⟩
  | error fault => cases h

theorem says_of_boolean {default b : Bool} (h : boolean field default members = .ok b) :
    Says members field default (fun value b => Truth.ofJson value = .clear b) b := by
  rw [boolean] at h
  split at h
  · rename_i hlookup
    exact .inr ⟨lookup_eq_none_iff_not_mem.1 hlookup, (Except.ok.inj h).symm⟩
  · rename_i value hlookup
    split at h
    · rename_i htruth
      obtain rfl := Except.ok.inj h
      exact .inl ⟨value, mem_of_lookup hlookup, htruth⟩
    all_goals cases h

theorem says_of_text? {t : Option LooseText} (h : text? field members = .ok t) :
    Says members field none
      (fun value t => value = .null ∧ t = none ∨ ∃ u, value = .string u ∧ t = some u) t := by
  rw [text?] at h
  split at h
  · rename_i hlookup
    exact .inr ⟨lookup_eq_none_iff_not_mem.1 hlookup, (Except.ok.inj h).symm⟩
  · rename_i hlookup
    exact .inl ⟨_, mem_of_lookup hlookup, .inl ⟨rfl, (Except.ok.inj h).symm⟩⟩
  · rename_i u hlookup
    exact .inl ⟨_, mem_of_lookup hlookup, .inr ⟨u, rfl, (Except.ok.inj h).symm⟩⟩
  · cases h

theorem boolean_eq_error_iff (hdistinct : (members.map Prod.fst).Nodup)
    (hfield : field ≠ .rootStylesheet) {default : Bool} :
    boolean field default members = .error fault ↔
      ∃ value, (field.key.loose, value) ∈ members ∧ field.Refuses value fault := by
  simp only [← lookup_eq_some_iff_mem hdistinct]
  rw [boolean, OptionField.find?]
  cases members.lookup field.key.loose with
  | none => exact ⟨nofun, nofun⟩
  | some value =>
    constructor
    · intro h
      refine ⟨value, rfl, ?_⟩
      dsimp only at h
      split at h
      · cases h
      all_goals obtain rfl := Except.error.inj h
      · exact .unclear hfield ‹_›
      · exact .broken hfield ‹_›
      · exact .other hfield ‹_›
    · rintro ⟨_, ⟨⟩, hrefuses⟩
      cases hrefuses with
      | notString => exact absurd rfl hfield
      | _ _ h => simp only [h]

theorem text?_eq_error_iff (hdistinct : (members.map Prod.fst).Nodup) :
    text? .rootStylesheet members = .error fault ↔
      ∃ value, ((OptionField.key .rootStylesheet).loose, value) ∈ members ∧
        OptionField.Refuses .rootStylesheet value fault := by
  simp only [← lookup_eq_some_iff_mem hdistinct]
  rw [text?, OptionField.find?]
  cases members.lookup (OptionField.key .rootStylesheet).loose with
  | none => exact ⟨nofun, nofun⟩
  | some value =>
    constructor
    · intro h
      refine ⟨value, rfl, ?_⟩
      cases value with
      | null => cases h
      | string t => cases h
      | _ =>
        obtain rfl := Except.error.inj h
        exact .notString nofun fun _ => nofun
    · rintro ⟨_, ⟨⟩, hrefuses⟩
      cases hrefuses with
      | notString hnull hstring =>
        cases value with
        | null => exact absurd rfl hnull
        | string t => exact absurd rfl (hstring t)
        | _ => rfl
      | _ hfield => exact absurd rfl hfield

/-! ### All faults -/

/-- The fault of the member of a field, if it has one. -/
def fieldFaults (members : List (LooseText × Json)) : OptionField → List OptionFault
  | .rootStylesheet => faults (text? .rootStylesheet members)
  | field => faults (boolean field true members)

/-- The faults of the fields, and then those of the unknown members. -/
def allFaults (members : List (LooseText × Json)) (unknown : List Text) : List OptionFault :=
  fields.flatMap (fieldFaults members) ++ unknown.map .unknownKey

/-- The unknown members of an object without broken names. -/
def AreUnknown (members : List (LooseText × Json)) (unknown : List Text) : Prop :=
  (unknownKeys members).mapM LooseText.strict? = some unknown

theorem mem_fieldFaults (hdistinct : (members.map Prod.fst).Nodup) :
    fault ∈ fieldFaults members field ↔
      ∃ value, (field.key.loose, value) ∈ members ∧ field.Refuses value fault := by
  cases field with
  | skipSupported => exact mem_faults.trans (boolean_eq_error_iff hdistinct (by decide))
  | useCache => exact mem_faults.trans (boolean_eq_error_iff hdistinct (by decide))
  | rootStylesheet => exact mem_faults.trans (text?_eq_error_iff hdistinct)

theorem mem_unknownKeys {name : LooseText} : name ∈ unknownKeys members ↔
    name ∈ members.map Prod.fst ∧ ∀ field : OptionField, field.key.loose ≠ name := by
  simp only [unknownKeys, List.mem_filter, List.all_eq_true, bne_iff_ne]
  exact and_congr_right fun _ =>
    ⟨fun hunknown field => hunknown field (mem_fields field), fun hunknown field _ =>
      hunknown field⟩

/-- Known names are not broken, so that an object with a broken name has an unknown one. -/
theorem mapM_unknownKeys_eq_none_iff :
    (unknownKeys members).mapM LooseText.strict? = none ↔ HasBrokenKey members := by
  simp only [mapM_eq_none_iff, mem_unknownKeys, HasBrokenKey]
  constructor
  · rintro ⟨name, ⟨hname, -⟩, hbroken⟩
    exact ⟨name, hname, hbroken⟩
  · rintro ⟨name, hname, hbroken⟩
    refine ⟨name, ⟨hname, fun field hfield => ?_⟩, hbroken⟩
    exact nomatch (LooseText.strict?_eq_some_iff.2 hfield.symm).symm.trans hbroken

theorem AreUnknown.mem_iff {unknown : List Text} (hunknown : AreUnknown members unknown) :
    key ∈ unknown ↔
      (∃ value, (key.loose, value) ∈ members) ∧ ∀ field : OptionField, field.key ≠ key := by
  have hmem : key ∈ unknown ↔ key.loose ∈ unknownKeys members := by
    rw [(mapM_eq_some_iff fun _ _ => LooseText.strict?_eq_some_iff).1 hunknown, List.mem_map]
    exact ⟨fun h => ⟨key, h, rfl⟩, fun ⟨key', h, hkey⟩ => Text.loose_inj.1 hkey ▸ h⟩
  rw [hmem, mem_unknownKeys, List.mem_map, Prod.exists]
  simp only [exists_and_right, exists_eq_right, ne_eq, Text.loose_inj]

theorem mem_allFaults (hdistinct : (members.map Prod.fst).Nodup) {unknown : List Text}
    (hunknown : AreUnknown members unknown) :
    fault ∈ allFaults members unknown ↔ ∃ key, fault.Concerns members key := by
  rw [allFaults, List.mem_append, List.mem_flatMap, List.mem_map]
  simp only [mem_fieldFaults hdistinct, hunknown.mem_iff]
  constructor
  · rintro (⟨field, -, value, hmem, hrefuses⟩ | ⟨key, ⟨⟨value, hmem⟩, hunknown⟩, rfl⟩)
    · exact ⟨field.key, .known hmem hrefuses⟩
    · exact ⟨key, .unknown hmem hunknown⟩
  · rintro ⟨key, ⟨hmem, hrefuses⟩ | ⟨hmem, hunknown⟩⟩
    · exact .inl ⟨_, mem_fields _, _, hmem, hrefuses⟩
    · exact .inr ⟨key, ⟨⟨_, hmem⟩, hunknown⟩, rfl⟩

theorem ofMembers_of_hasBrokenKey (h : HasBrokenKey members) :
    ofMembers members = .error [.brokenKey] := by
  rw [ofMembers, mapM_unknownKeys_eq_none_iff.2 h]

/-- Members are the description of options, or they have faults, which are told. -/
theorem ofMembers_cases {unknown : List Text} (hunknown : AreUnknown members unknown) :
    (allFaults members unknown = [] ∧ ∃ options, ofMembers members = .ok options ∧
      options.Describes members) ∨
    allFaults members unknown ≠ [] ∧ ofMembers members = .error (allFaults members unknown) := by
  have hall : allFaults members unknown = faults (boolean .skipSupported true members) ++
      faults (boolean .useCache true members) ++ faults (text? .rootStylesheet members) ++
      unknown.map .unknownKey := by
    simp [allFaults, fields, fieldFaults]
  rw [hall, ofMembers, hunknown]
  dsimp only [default]
  split
  · rename_i hskip hcache hroot
    rw [hskip, hcache, hroot]
    exact .inl ⟨rfl, _, rfl, says_of_boolean hskip, says_of_boolean hcache, says_of_text? hroot⟩
  · rename_i hfaulty
    -- if there were no fault, all of it would have been read
    refine .inr ⟨fun hnil => ?_, rfl⟩
    simp only [List.append_eq_nil_iff, List.map_eq_nil_iff] at hnil
    obtain ⟨⟨⟨hskip, hcache⟩, hroot⟩, hunknown⟩ := hnil
    obtain ⟨skip, hskip⟩ := exists_ok_of_faults_eq_nil hskip
    obtain ⟨cache, hcache⟩ := exists_ok_of_faults_eq_nil hcache
    obtain ⟨root, hroot⟩ := exists_ok_of_faults_eq_nil hroot
    exact hfaulty skip cache root hskip hcache hroot hunknown

/-! ### Order -/

theorem place_field (members : List (LooseText × Json)) (field : OptionField) :
    place members field.key = fields.idxOf field := by
  rw [place, List.idxOf_append,
    if_pos (List.mem_map_of_mem (f := fun field => field.key.loose) (mem_fields field))]
  cases field <;> decide

theorem place_unknown (hunknown : ∀ field : OptionField, field.key ≠ key) :
    place members key = (members.map Prod.fst).idxOf key.loose + fields.length := by
  rw [place, List.idxOf_append, if_neg, List.length_map]
  intro hmem
  obtain ⟨field, -, hkey⟩ := List.mem_map.1 hmem
  exact hunknown field (Text.loose_inj.1 hkey)

theorem comesBefore_iff (h : fault.location = [key]) (h' : fault'.location = [key']) :
    ComesBefore members fault fault' ↔ place members key < place members key' := by
  refine ⟨fun hbefore => hbefore key key' h h', fun hplace k k' hk hk' => ?_⟩
  obtain rfl := List.singleton_inj.1 (h.symm.trans hk)
  obtain rfl := List.singleton_inj.1 (h'.symm.trans hk')
  exact hplace

theorem location_of_mem_fieldFaults (hdistinct : (members.map Prod.fst).Nodup)
    (h : fault ∈ fieldFaults members field) : fault.location = [field.key] := by
  obtain ⟨value, -, hrefuses⟩ := (mem_fieldFaults hdistinct).1 h
  exact hrefuses.location_eq

theorem pairwise_faults {α : Type} {R : OptionFault → OptionFault → Prop}
    (reading : Except OptionFault α) : (faults reading).Pairwise R := by
  cases reading with
  | ok a => exact .nil
  | error fault => exact List.pairwise_singleton R fault

theorem pairwise_fieldFaults (hdistinct : (members.map Prod.fst).Nodup) :
    (fields.flatMap (fieldFaults members)).Pairwise (ComesBefore members) := by
  refine List.pairwise_flatMap.2 ⟨fun field _ => ?_, ?_⟩
  · cases field <;> exact pairwise_faults _
  · have hfields :
        fields.Pairwise fun field field' => fields.idxOf field < fields.idxOf field' := by
      decide
    refine hfields.imp fun hlt fault hfault fault' hfault' => ?_
    rw [comesBefore_iff (location_of_mem_fieldFaults hdistinct hfault)
      (location_of_mem_fieldFaults hdistinct hfault'), place_field, place_field]
    exact hlt

/-- Without repetition, what comes first has the smaller index. -/
theorem pairwise_idxOf_lt {names : List LooseText} (h : names.Nodup) :
    names.Pairwise fun name name' => names.idxOf name < names.idxOf name' := by
  refine List.pairwise_iff_getElem.2 fun i j hi hj hij => ?_
  rwa [h.idxOf_getElem i hi, h.idxOf_getElem j hj]

theorem AreUnknown.pairwise (hdistinct : (members.map Prod.fst).Nodup) {unknown : List Text}
    (hunknown : AreUnknown members unknown) :
    (unknown.map OptionFault.unknownKey).Pairwise (ComesBefore members) := by
  have hnames : (unknown.map Text.loose).Pairwise fun name name' =>
      (members.map Prod.fst).idxOf name < (members.map Prod.fst).idxOf name' := by
    rw [← (mapM_eq_some_iff fun _ _ => LooseText.strict?_eq_some_iff).1 hunknown, unknownKeys]
    exact (pairwise_idxOf_lt hdistinct).filter _
  refine List.pairwise_map.2 ((List.pairwise_map.1 hnames).imp_of_mem ?_)
  intro key key' hkey hkey' hlt
  rw [comesBefore_iff rfl rfl, place_unknown (hunknown.mem_iff.1 hkey).2,
    place_unknown (hunknown.mem_iff.1 hkey').2]
  exact Nat.add_lt_add_right hlt fields.length

/-- All faults are those that are to be told, in order. -/
theorem reports_allFaults (hdistinct : (members.map Prod.fst).Nodup) {unknown : List Text}
    (hunknown : AreUnknown members unknown) : Reports members (allFaults members unknown) where
  concerns fault hfault := by
    obtain ⟨key, hkey⟩ := (mem_allFaults hdistinct hunknown).1 hfault
    exact ⟨key, hkey.location_eq, hkey⟩
  unique key value hmem hnot := by
    obtain ⟨fault, hfault⟩ := exists_concerns hmem hnot
    refine ⟨fault, ⟨(mem_allFaults hdistinct hunknown).2 ⟨key, hfault⟩, hfault.location_eq⟩, ?_⟩
    rintro fault' ⟨hfault', hlocation⟩
    obtain ⟨key', hkey'⟩ := (mem_allFaults hdistinct hunknown).1 hfault'
    obtain rfl := List.singleton_inj.1 (hkey'.location_eq.symm.trans hlocation)
    exact hkey'.unique hdistinct hfault
  ascending := by
    refine List.pairwise_append.2 ⟨pairwise_fieldFaults hdistinct, hunknown.pairwise hdistinct,
      fun fault hfault fault' hfault' => ?_⟩
    obtain ⟨field, hfield, hfault⟩ := List.mem_flatMap.1 hfault
    obtain ⟨key, hkey, rfl⟩ := List.mem_map.1 hfault'
    rw [comesBefore_iff (location_of_mem_fieldFaults hdistinct hfault) rfl, place_field,
      place_unknown (hunknown.mem_iff.1 hkey).2]
    exact Nat.lt_add_left _ (List.idxOf_lt_length_of_mem hfield)

/-! ### Loading -/

theorem isAlways_iff {setting : Option Text} :
    isAlways setting = true ↔ ∃ word ∈ truthyWords, setting = some word.toList := by
  cases setting with
  | none => exact ⟨nofun, nofun⟩
  | some t =>
    rw [isAlways, Option.any_some, List.any_eq_true]
    refine exists_congr fun word => and_congr_right fun _ => ?_
    rw [beq_iff_eq, Option.some.injEq, eq_comm]

theorem adjust_fst (options : Options) (setting : Option Text) :
    (options.adjust setting).1 = if ∃ word ∈ truthyWords, setting = some word.toList
      then { options with skipSupported := false } else options := by
  simp only [adjust, isAlways_iff]
  split <;> rfl

theorem ofJson_eq_error {json : Json} (h : ∀ members, json ≠ .object members) :
    ofJson json = .error [.notObject] := by
  cases json with
  | object members => exact absurd rfl (h members)
  | _ => rfl

/-- An object without broken names describes options, of which every member is fine, or its faults
are told. -/
theorem ofMembers_exact (hdistinct : (members.map Prod.fst).Nodup)
    (hbroken : ¬HasBrokenKey members) :
    ((∀ name value, (name, value) ∈ members → IsFine name value) ∧
      ∃ options, ofMembers members = .ok options ∧ options.Describes members) ∨
    (¬∀ name value, (name, value) ∈ members → IsFine name value) ∧
      ∃ faults, ofMembers members = .error faults ∧ Reports members faults := by
  obtain ⟨unknown, hunknown⟩ :=
    Option.ne_none_iff_exists'.1 (mt mapM_unknownKeys_eq_none_iff.1 hbroken)
  obtain ⟨hnil, hdescribes⟩ | ⟨hfaults, herror⟩ := ofMembers_cases hunknown
  · refine .inl ⟨fun name value hmem => ?_, hdescribes⟩
    by_contra hnot
    obtain ⟨key, hkey⟩ : ∃ key, name.strict? = some key :=
      Option.ne_none_iff_exists'.1 fun hnone =>
        hbroken ⟨name, List.mem_map_of_mem (f := Prod.fst) hmem, hnone⟩
    obtain rfl := LooseText.strict?_eq_some_iff.1 hkey
    obtain ⟨fault, hfault⟩ := exists_concerns hmem hnot
    have hmem := (mem_allFaults hdistinct hunknown).2 ⟨key, hfault⟩
    rw [hnil] at hmem
    exact List.not_mem_nil hmem
  · refine .inr ⟨fun hfine => ?_, _, herror, reports_allFaults hdistinct hunknown⟩
    obtain ⟨fault, hmem⟩ := List.exists_mem_of_ne_nil _ hfaults
    obtain ⟨key, hfault⟩ := (mem_allFaults hdistinct hunknown).1 hmem
    obtain ⟨value, hmem, hnot⟩ := hfault.exists_not_isFine
    exact hnot (hfine key.loose value hmem)

/-- A member with a broken name is not fine. -/
theorem HasBrokenKey.not_forall_isFine (h : HasBrokenKey members) :
    ¬∀ name value, (name, value) ∈ members → IsFine name value := by
  obtain ⟨name, hname, hbroken⟩ := h
  obtain ⟨⟨_, value⟩, hmem, rfl⟩ := List.mem_map.1 hname
  exact fun hfine => not_isFine_of_strict? hbroken (hfine _ value hmem)

theorem load_eq_map {files : FileSystem} {path : Path} {text : Text}
    (htext : files.textAt? path = some text) (environment : Environment) :
    load files (some path) environment =
      match (Json.ofText environment.limits text).map ofJson with
      | .error error => .error (.notRead error)
      | .ok reading => (reading.mapError .invalid).map (·.adjust environment.setting) := by
  rw [load, read, FileSystem.readText_eq_ok_iff.2 htext]
  dsimp only
  cases Json.ofText environment.limits text with
  | error error => rfl
  | ok json =>
    cases hread : ofJson json <;>
      simp [Except.map, Except.mapError, hread, bind, Except.bind, pure, Except.pure]

/-- **Options are loaded, or all faults of their description are told.**  Let a file hold a text.
If it is not read as a JSON value, this is told.  Otherwise options are loaded just when it is an
object whose members are all fine.  They are those that the members describe, but engines that know
custom properties are not skipped if the environment asks for fallbacks in any case.  If they are
not loaded, whatever the environment asks for, the value is no object and this is told, or it is
one; then a broken name is told and nothing else, or if there is none, one fault is told for each
member that is not fine: first the known members in the order of the fields, then the others in the
order of the file. -/
theorem load_exact {files : FileSystem} {path : Path} {text : Text}
    (htext : files.textAt? path = some text) (environment : Environment) :
    (∀ error, Json.ofText environment.limits text = .error error →
      load files (some path) environment = .error (.notRead error)) ∧
    ∀ json, Json.ofText environment.limits text = .ok json →
      json.HasDistinctNames ∧
      ((∃ loaded, load files (some path) environment = .ok loaded) ↔
        ∃ members, json = .object members ∧ ∀ name value, (name, value) ∈ members →
          IsFine name value) ∧
      (∀ options events, load files (some path) environment = .ok (options, events) →
        ∃ members described, json = .object members ∧ described.Describes members ∧
          options = if ∃ word ∈ truthyWords, environment.setting = some word.toList
            then { described with skipSupported := false } else described) ∧
      ∀ error, load files (some path) environment = .error error →
        ((∀ members, json ≠ .object members) ∧ error = .invalid [.notObject]) ∨
        ∃ members faults, json = .object members ∧ error = .invalid faults ∧
          (HasBrokenKey members ∧ faults = [.brokenKey] ∨
            ¬HasBrokenKey members ∧ Reports members faults) := by
  rw [load_eq_map htext]
  refine ⟨fun error herror => ?_, fun json hjson => ?_⟩
  · rw [herror, Except.map]
  rw [hjson, Except.map]
  dsimp only
  have hnames := Json.hasDistinctNames_ofText hjson
  refine ⟨hnames, ?_⟩
  by_cases hobject : ∃ members, json = .object members
  · obtain ⟨members, rfl⟩ := hobject
    rw [ofJson]
    by_cases hbroken : HasBrokenKey members
    · rw [ofMembers_of_hasBrokenKey hbroken]
      refine ⟨iff_of_false nofun ?_, nofun, ?_⟩
      · rintro ⟨_, ⟨⟩, hfine⟩
        exact hbroken.not_forall_isFine hfine
      · rintro error ⟨⟩
        exact .inr ⟨members, _, rfl, rfl, .inl ⟨hbroken, rfl⟩⟩
    obtain ⟨hfine, described, hok, hdescribes⟩ | ⟨hnot, faults, herror, hreports⟩ :=
      ofMembers_exact hnames hbroken
    · rw [hok]
      refine ⟨iff_of_true ⟨_, rfl⟩ ⟨members, rfl, hfine⟩, ?_, nofun⟩
      intro options events hloaded
      obtain rfl : (described.adjust environment.setting).1 = options :=
        congrArg Prod.fst (Except.ok.inj hloaded)
      exact ⟨members, described, rfl, hdescribes, adjust_fst described environment.setting⟩
    · rw [herror]
      refine ⟨iff_of_false nofun ?_, nofun, ?_⟩
      · rintro ⟨_, ⟨⟩, hfine⟩
        exact hnot hfine
      · rintro error ⟨⟩
        exact .inr ⟨members, faults, rfl, rfl, .inr ⟨hbroken, hreports⟩⟩
  · have hno := not_exists.1 hobject
    rw [ofJson_eq_error hno]
    refine ⟨iff_of_false nofun ?_, nofun, ?_⟩
    · rintro ⟨members, hmembers, -⟩
      exact hno members hmembers
    · rintro error ⟨⟩
      exact .inl ⟨hno, rfl⟩

/-- A working directory with nothing but the file `o.json`. -/
def holding (text : Text) : FileSystem :=
  ⟨[((Path.ofText "o.json".toList).fileNames, .file (encodeText text) 0)], 0⟩

theorem textAt?_holding {text : Text} (hcr : '\r' ∉ text) :
    (holding text).textAt? (.ofText "o.json".toList) = some text := by
  have hlocate : (holding text).locate (.ofText "o.json".toList) =
      .ok (Path.ofText "o.json".toList).fileNames := by
    refine FileSystem.locate_eq_ok_iff_walk.2 ⟨by decide, by decide +kernel, ?_⟩
    exact FileSystem.walk_cons_eq_ok_iff.2
      ⟨0, rfl, by decide +kernel, congrArg Except.ok (by decide +kernel)⟩
  have hfound : (holding text).find? (Path.ofText "o.json".toList).fileNames =
      some (.file (encodeText text) 0) := by
    rw [FileSystem.find?, if_neg (by decide +kernel)]
    exact List.lookup_cons_self
  rw [FileSystem.textAt?, FileSystem.entryAt?_of_locate hlocate, hfound, Option.bind_some,
    Entry.text?_encodeText hcr]

/-- Two faults of known members, of which one is there twice, and two unknown members, in another
order than they are told; and an environment that asks for fallbacks in any case. -/
theorem load_exact_faulty :
    let path := Path.ofText "o.json".toList
    let text := Text.braced ("\"z\":1,\"use_cache\":true,\"a\":2,\"skip_supported_browsers\":[]," ++
      "\"use_cache\":\"maybe\"")
    let files := holding text
    let environment : Environment := ⟨some "1".toList, ⟨4300, 990⟩⟩
    let faults : List OptionFault := [.notBoolean .skipSupported, .unclearBoolean .useCache,
      .unknownKey "z".toList, .unknownKey "a".toList]
    files.textAt? path = some text ∧
      load files (some path) environment = .error (.invalid faults) ∧
      ∃ members, Json.ofText environment.limits text = .ok (.object members) ∧
        members.map Prod.fst =
          ["z", "use_cache", "a", "skip_supported_browsers"].map (Text.loose ∘ String.toList) ∧
        Reports members faults := by
  intro path text files environment faults
  have htext : files.textAt? path = some text := textAt?_holding (by decide)
  have hparsed : (Json.ofText environment.limits text).map (fun json => (json.names, ofJson json)) =
      .ok (["z", "use_cache", "a", "skip_supported_browsers"].map (Text.loose ∘ String.toList),
        .error faults) := by decide +kernel
  cases hjson : Json.ofText environment.limits text with
  | error error =>
    rw [hjson] at hparsed
    cases hparsed
  | ok json =>
    rw [hjson] at hparsed
    obtain ⟨hnames, hfaults⟩ := Prod.mk.inj (Except.ok.inj hparsed)
    have herror : load files (some path) environment = .error (.invalid faults) := by
      rw [load_eq_map htext, hjson, Except.map, hfaults]
      rfl
    refine ⟨htext, herror, ?_⟩
    obtain ⟨-, heq⟩ | ⟨members, _, rfl, heq, ⟨-, rfl⟩ | ⟨-, hreports⟩⟩ :=
      ((load_exact htext environment).2 json hjson).2.2.2 _ herror
    · exact nomatch (OptionsError.invalid.inj heq : [_, _, _, _] = [OptionFault.notObject])
    · exact nomatch (OptionsError.invalid.inj heq : [_, _, _, _] = [OptionFault.brokenKey])
    · obtain rfl := OptionsError.invalid.inj heq
      exact ⟨members, rfl, hnames, hreports⟩

/-- Not every fault is told: of three members, none of them fine, one that has half of a surrogate
pair in its name keeps the others from being told, and a member that is an integer with too many
digits for the reader keeps the file from being read. -/
theorem not_tells_all_faults :
    let path := Path.ofText "o.json".toList
    let broken := Text.braced "\"z\":0,\"\\ud800\":1,\"\\ud801\":2"
    let long := '{' :: "\"use_cache\":".toList ++ List.replicate 4301 '1' ++ ['}']
    (∃ members, Json.ofText ⟨4300, 990⟩ broken = .ok (.object members) ∧ members.length = 3 ∧
      (∀ name value, (name, value) ∈ members → ¬IsFine name value) ∧
      load (holding broken) (some path) ⟨none, 4300, 990⟩ = .error (.invalid [.brokenKey]) ∧
      ¬Reports members [.brokenKey]) ∧
    load (holding long) (some path) ⟨none, 4301, 990⟩ = .error (.invalid [.notBoolean .useCache]) ∧
    load (holding long) (some path) ⟨none, 4300, 990⟩ = .error (.notRead .longInteger) := by
  intro path broken long
  have hlong : '\r' ∉ long := by
    rw [List.mem_append, List.mem_append, List.mem_replicate]
    decide
  refine ⟨?_, ?_, ?_⟩
  · have hnames : (Json.ofText ⟨4300, 990⟩ broken).map Json.names =
        .ok [Text.loose ['z'], [.half 0], [.half 1]] := by decide +kernel
    cases hjson : Json.ofText ⟨4300, 990⟩ broken with
    | error error =>
      rw [hjson] at hnames
      cases hnames
    | ok json =>
      rw [hjson] at hnames
      cases json with
      | object members =>
        have hmembers : members.map Prod.fst = [Text.loose ['z'], [.half 0], [.half 1]] :=
          Except.ok.inj hnames
        have hbroken : HasBrokenKey members := ⟨[.half 0], by rw [hmembers]; decide, rfl⟩
        refine ⟨members, rfl, ?_, fun name value hmem => ?_, ?_, fun hreports => ?_⟩
        · rw [← List.length_map Prod.fst, hmembers]
          rfl
        · have hname : name ∈ members.map Prod.fst := List.mem_map_of_mem (f := Prod.fst) hmem
          rw [hmembers] at hname
          rintro ⟨field, rfl, -⟩
          cases field <;> exact absurd hname (by decide)
        · rw [load_eq_map (textAt?_holding (by decide)), hjson, Except.map, ofJson,
            ofMembers_of_hasBrokenKey hbroken]
          rfl
        · obtain ⟨key, hlocation, -⟩ := hreports.concerns _ List.mem_cons_self
          cases hlocation
      | _ => cases hnames
  · have hread : (Json.ofText ⟨4301, 990⟩ long).map ofJson =
        .ok (.error [.notBoolean .useCache]) := by
      decide +kernel
    rw [load_eq_map (textAt?_holding hlong), hread]
    rfl
  · have hread : (Json.ofText ⟨4300, 990⟩ long).map ofJson = .error .longInteger := by
      decide +kernel
    rw [load_eq_map (textAt?_holding hlong), hread]

end Options
end CustomProps
