import CustomProps.Json.Reader
import CustomProps.Proofs.Failing

/-!
# The names of the members of an object

A JSON text may give a name to several members of an object.  The object that is read has each name
once: the last value counts, in the place of the first.

* `Json.names` — the names of the members, in order.
* `Json.HasDistinctNames` — no two members have one name.
* `Json.hasDistinctNames_ofText` — what is read from a text has distinct names.
-/

set_option autoImplicit false

namespace CustomProps

namespace Json

/-- The names of the members of an object; other values have none. -/
def names : Json → List LooseText
  | object members => members.map Prod.fst
  | _ => []

/-- No two members have the same name. -/
def HasDistinctNames (value : Json) : Prop := value.names.Nodup

theorem nodup_names_setMember (name : LooseText) (value : Json) {members : List (LooseText × Json)}
    (h : (members.map Prod.fst).Nodup) : ((setMember name value members).map Prod.fst).Nodup := by
  rw [keys_setMember]
  split
  · exact h
  · rename_i hname
    refine List.nodup_append.2 ⟨h, List.nodup_cons.2 ⟨List.not_mem_nil, .nil⟩, fun n hn m hm => ?_⟩
    rintro rfl
    exact hname (List.mem_singleton.1 hm ▸ hn)

/-- Members that are put together one by one have distinct names. -/
theorem hasDistinctNames_ofMembers (members : List (LooseText × Json)) :
    (ofMembers members).HasDistinctNames :=
  List.foldlRecOn (motive := fun before : List (LooseText × Json) => (before.map Prod.fst).Nodup)
    members _ .nil fun _ h member _ => nodup_names_setMember member.1 member.2 h

end Json

/-! ## Tokens -/

namespace JsonToken

/-- If the token is a value by itself, that has distinct names. -/
def HasDistinctNames (token : JsonToken) : Prop :=
  ∀ value, token = scalar value → value.HasDistinctNames

theorem hasDistinctNames_word? {t rest : Text} {value : Json} (h : word? t = some (value, rest)) :
    value.HasDistinctNames := by
  obtain ⟨⟨word, value'⟩, hword, hvalue⟩ := List.exists_of_findSome?_eq_some h
  dsimp only at hvalue
  split at hvalue
  · obtain ⟨rfl, -⟩ := Prod.mk.inj (Option.some.inj hvalue)
    simp only [words, List.mem_cons, List.not_mem_nil, or_false, Prod.mk.injEq] at hword
    rcases hword with ⟨-, rfl⟩ | ⟨-, rfl⟩ | ⟨-, rfl⟩ | ⟨-, rfl⟩ | ⟨-, rfl⟩ | ⟨-, rfl⟩ <;> exact .nil
  · cases hvalue

/-- Words and numbers are no objects. -/
theorem hasDistinctNames_ofText? {t rest : Text} {token : JsonToken}
    (h : ofText? t = some (token, rest)) : token.HasDistinctNames := by
  rintro value rfl
  cases t with
  | nil => cases h
  | cons c cs =>
    rw [ofText?] at h
    -- a brace, a bracket, a colon or a comma
    iterate 6
      split at h
      · cases h
    split at h
    · obtain ⟨_, -, hstring⟩ := Option.map_eq_some_iff.1 h
      cases hstring
    · split at h
      · rename_i hword
        obtain ⟨hvalue, -⟩ := Prod.mk.inj (Option.some.inj h)
        obtain rfl := scalar.inj hvalue
        exact hasDistinctNames_word? hword
      · obtain ⟨_, -, hnumber⟩ := Option.map_eq_some_iff.1 h
        cases hnumber
        exact .nil

theorem hasDistinctNames_of_mem_allAfter {inside : Nat} {t : Text} {token : JsonToken}
    (h : some token ∈ allAfter inside t) : token.HasDistinctNames := by
  induction t generalizing inside with
  | nil => cases h
  | cons c cs ih =>
    rw [allAfter] at h
    split at h
    · exact ih h
    · split at h
      · exact ih h
      · split at h
        · exact absurd (List.mem_singleton.1 h) nofun
        · rename_i first rest hfirst
          rcases List.mem_cons.1 h with htoken | h
          · obtain rfl := Option.some.inj htoken
            exact hasDistinctNames_ofText? hfirst
          · exact ih h

end JsonToken

/-! ## Reading -/

namespace Json

/-- If the value is complete, it has distinct names. -/
def Reader.HasDistinctNames : Reader → Prop
  | .done v => v.HasDistinctNames
  | _ => True

theorem Reader.hasDistinctNames_deliver {v : Json} (h : v.HasDistinctNames)
    (frames : List Frame) : (Reader.deliver v frames).HasDistinctNames := by
  match frames with
  | [] => exact h
  | .array items :: frames => exact True.intro
  | .object members key :: frames => exact True.intro

theorem Reader.hasDistinctNames_enter {limits : JsonLimits} {frames : List Frame}
    {inside reader : Reader} (hinside : inside.HasDistinctNames)
    (h : Reader.enter limits frames inside = .ok reader) : reader.HasDistinctNames := by
  rw [Reader.enter] at h
  split at h
  · cases h
  · obtain rfl := Except.ok.inj h
    exact hinside

theorem Reader.hasDistinctNames_startValue {limits : JsonLimits} {frames : List Frame}
    {token : JsonToken} {reader : Reader} (htoken : token.HasDistinctNames)
    (h : Reader.startValue limits frames token = .ok reader) : reader.HasDistinctNames := by
  cases token with
  | scalar v =>
    rw [startValue] at h
    split at h
    · cases h
    · obtain rfl := Except.ok.inj h
      exact hasDistinctNames_deliver (htoken v rfl) frames
  | string t =>
    obtain rfl := Except.ok.inj h
    exact hasDistinctNames_deliver (v := .string t) .nil frames
  | openBracket =>
    have hinside : (firstItem frames).HasDistinctNames := True.intro
    exact hasDistinctNames_enter hinside h
  | openBrace =>
    have hinside : (firstName frames).HasDistinctNames := True.intro
    exact hasDistinctNames_enter hinside h
  | _ => cases h

/-- Whatever a token completes has distinct names. -/
theorem Reader.hasDistinctNames_step {limits : JsonLimits} {reader reader' : Reader}
    {token : JsonToken} (htoken : token.HasDistinctNames)
    (h : Reader.step limits reader token = .ok reader') : reader'.HasDistinctNames := by
  rw [Reader.step.eq_def] at h
  split at h
  case h_1 => exact hasDistinctNames_startValue htoken h
  case h_3 => exact hasDistinctNames_startValue htoken h
  case h_12 => cases h
  all_goals obtain rfl := Except.ok.inj h
  case h_2 => exact hasDistinctNames_deliver (v := .array []) .nil _
  case h_4 => exact hasDistinctNames_deliver (v := .object []) .nil _
  case h_9 => exact hasDistinctNames_deliver (v := .array _) .nil _
  case h_11 => exact hasDistinctNames_deliver (hasDistinctNames_ofMembers _) _
  all_goals exact True.intro

theorem Reader.hasDistinctNames_foldlM {limits : JsonLimits} {tokens : List (Option JsonToken)}
    (htokens : ∀ token, some token ∈ tokens → token.HasDistinctNames) {reader reader' : Reader}
    (hreader : reader.HasDistinctNames)
    (h : tokens.foldlM (Reader.stepOrFail limits) reader = .ok reader') :
    reader'.HasDistinctNames := by
  induction tokens generalizing reader with
  | nil =>
    obtain rfl := Except.ok.inj h
    exact hreader
  | cons token? tokens ih =>
    rw [List.foldlM_cons] at h
    obtain ⟨next, hnext, hrest⟩ := bind_eq_ok_iff.1 h
    cases token? with
    | none => cases hnext
    | some token =>
      exact ih (fun token hmem => htokens token (List.mem_cons_of_mem _ hmem))
        (hasDistinctNames_step (htokens token List.mem_cons_self) hnext) hrest

/-- **What is read from a text has distinct names.** -/
theorem hasDistinctNames_ofText {limits : JsonLimits} {t : Text} {value : Json}
    (h : ofText limits t = .ok value) : value.HasDistinctNames := by
  obtain ⟨reader, hreader, h⟩ := bind_eq_ok_iff.1 h
  have hstart : (Reader.value []).HasDistinctNames := True.intro
  have hdistinct : reader.HasDistinctNames := Reader.hasDistinctNames_foldlM
    (fun _ => JsonToken.hasDistinctNames_of_mem_allAfter) hstart hreader
  cases reader with
  | done v =>
    obtain rfl := Except.ok.inj h
    exact hdistinct
  | _ => cases h

end Json
end CustomProps
