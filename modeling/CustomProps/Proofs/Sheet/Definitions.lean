import CustomProps.Proofs.Text.Blank
import CustomProps.Sheet.RootProperties
import Mathlib.Data.List.Basic

/-!
# Definitions piece by piece

A body is scanned for definitions in one go: a definition found goes on up to the next semicolon,
and the search goes on behind that.  Since no semicolon stands in a name, nor between a name and its
colon, the scan finds in each piece between two semicolons the leftmost definition, and nothing
else.

* `Sheet.StartsWithName` — a text that starts with the name of a property and its colon.
* `Sheet.Defines` — the name that a piece defines, and the value that it gives to it.
* `Sheet.scanDefinitions_eq` — the scan reads a body piece by piece.
* `Sheet.definitions_eq` — the definitions of a body are the values of its pieces that are not
blank.
-/

set_option autoImplicit false

namespace CustomProps
namespace Sheet

variable {t piece name rest value tail : Text}

/-! ## Names -/

/-- The text starts with the name of a property, blanks and a colon, and `rest` follows.  The name
is two hyphens and an identifier, which goes on as long as it can: no blank and no colon stand in
one. -/
def StartsWithName (t name rest : Text) : Prop :=
  ∃ ident blanks, t = '-' :: '-' :: (ident ++ (blanks ++ ':' :: rest)) ∧
    name = '-' :: '-' :: ident ∧ ident ≠ [] ∧ (∀ c ∈ ident, Text.isIdent c = true) ∧
    ∀ c ∈ blanks, Text.isBlank c = true

/-- Cutting a text where a property of its characters ends. -/
theorem takeWhile_dropWhile_append {p : Char → Bool} {front back : Text}
    (hfront : ∀ c ∈ front, p c = true) (hback : ∀ c, back.head? = some c → p c = false) :
    (front ++ back).takeWhile p = front ∧ (front ++ back).dropWhile p = back := by
  rw [List.takeWhile_append_of_pos hfront, List.dropWhile_append_of_pos hfront]
  cases back with
  | nil => exact ⟨List.append_nil front, rfl⟩
  | cons c back =>
    have hc : ¬p c = true := by rw [hback c rfl]; exact Bool.false_ne_true
    rw [List.takeWhile_cons_of_neg hc, List.dropWhile_cons_of_neg hc, List.append_nil]
    exact ⟨rfl, rfl⟩

theorem nameAndColon?_eq_some_iff :
    nameAndColon? t = some (name, rest) ↔ StartsWithName t name rest := by
  constructor
  · intro h
    rw [nameAndColon?.eq_def] at h
    split at h
    · rename_i cs
      dsimp only at h
      split at h
      · cases h
      · rename_i hident
        split at h
        · rename_i behind hbehind
          obtain ⟨rfl, rfl⟩ := Prod.mk.inj (Option.some.inj h)
          obtain ⟨blanks, hblanks, hall⟩ := Text.exists_trimLeft (cs.dropWhile Text.isIdent)
          rw [hbehind] at hblanks
          refine ⟨cs.takeWhile Text.isIdent, blanks, ?_, rfl, ?_, ?_, hall⟩
          · rw [← hblanks, List.takeWhile_append_dropWhile]
          · rwa [List.isEmpty_iff] at hident
          · exact List.all_eq_true.1 List.all_takeWhile
        · cases h
    · cases h
  · rintro ⟨ident, blanks, rfl, rfl, hne, hident, hblanks⟩
    have hend : ∀ c, (blanks ++ ':' :: rest).head? = some c → Text.isIdent c = false := by
      intro c hc
      cases blanks with
      | nil =>
        obtain rfl := Option.some.inj hc
        decide
      | cons b blanks =>
        obtain rfl := Option.some.inj hc
        exact Text.not_isIdent_of_isBlank (hblanks b List.mem_cons_self)
    have hcolon : ∀ c, (':' :: rest).head? = some c → Text.isBlank c = false := by
      intro c hc
      obtain rfl := Option.some.inj hc
      decide
    obtain ⟨htake, hdrop⟩ := takeWhile_dropWhile_append hident hend
    obtain ⟨-, htrim⟩ := takeWhile_dropWhile_append hblanks hcolon
    rw [nameAndColon?, htake, hdrop, Text.trimLeft, htrim, if_neg (by rwa [List.isEmpty_iff])]
    rfl

theorem StartsWithName.suffix (h : StartsWithName t name rest) : rest <:+ t := by
  obtain ⟨ident, blanks, rfl, -⟩ := h
  exact ⟨'-' :: '-' :: (ident ++ (blanks ++ [':'])), by simp⟩

theorem StartsWithName.name_eq (h : StartsWithName t name rest) :
    ∃ ident, name = '-' :: '-' :: ident ∧ ident ≠ [] ∧ ∀ c ∈ ident, Text.isIdent c = true := by
  obtain ⟨ident, blanks, -, hname, hne, hident, -⟩ := h
  exact ⟨ident, hname, hne, hident⟩

/-- What a text is read from a front in which no separator stands does not reach over one. -/
theorem exists_of_append_eq {sep : Char} {front : Text} (hfront : sep ∉ front)
    (htail : tail = [] ∨ ∃ u, tail = sep :: u) (h : piece ++ tail = front ++ t) :
    ∃ u, piece = front ++ u ∧ t = u ++ tail := by
  rcases List.append_eq_append_iff.1 h with ⟨u, rfl, rfl⟩ | ⟨u, rfl, rfl⟩
  · rcases htail with htail | ⟨v, htail⟩
    · obtain ⟨rfl, rfl⟩ := List.append_eq_nil_iff.1 htail
      exact ⟨[], by simp, by simp⟩
    · cases u with
      | nil => exact ⟨[], by simp, rfl⟩
      | cons c u =>
        obtain rfl := (List.cons.inj htail).1
        exact absurd (List.mem_append_right piece List.mem_cons_self) hfront
  · exact ⟨u, rfl, rfl⟩

/-- A name and its colon stand in one piece. -/
theorem startsWithName_append (htail : tail = [] ∨ ∃ u, tail = ';' :: u) :
    StartsWithName (piece ++ tail) name t ↔
      ∃ rest, t = rest ++ tail ∧ StartsWithName piece name rest := by
  constructor
  · rintro ⟨ident, blanks, ht, hname, hne, hident, hblanks⟩
    have hsemi : ';' ∉ '-' :: '-' :: (ident ++ (blanks ++ [':'])) := by
      simp only [List.mem_cons, List.mem_append, not_or, List.not_mem_nil, not_false_eq_true]
      exact ⟨by decide, by decide, fun h => absurd (hident _ h) (by decide),
        fun h => absurd (hblanks _ h) (by decide), by decide⟩
    obtain ⟨rest, hpiece, hrest⟩ := exists_of_append_eq hsemi htail (t := t) (by simpa using ht)
    exact ⟨rest, hrest, ident, blanks, by simpa using hpiece, hname, hne, hident, hblanks⟩
  · rintro ⟨rest, rfl, ident, blanks, rfl, hname, hne, hident, hblanks⟩
    exact ⟨ident, blanks, by simp, hname, hne, hident, hblanks⟩

/-! ## The leftmost name of a piece -/

/-- The leftmost name with a colon in a piece, and what follows the colon. -/
def definition? : Text → Option (Text × Text)
  | [] => none
  | c :: cs => nameAndColon? (c :: cs) <|> definition? cs

/-- The definition that a piece of a rule makes, unless its value is blank. -/
def property? (piece : Text) : Option (Text × Text) := do
  let (name, rest) ← definition? piece
  let value ← Text.nonBlank? rest
  return (name, value)

/-- Behind `front` there is a name with a colon in the piece, and `rest` follows it. -/
def NamesAt (piece front name rest : Text) : Prop :=
  ∃ back, piece = front ++ back ∧ StartsWithName back name rest

/-- The piece defines a name: it is the leftmost one with a colon, and the value is what follows,
trimmed. -/
def Defines (piece name value : Text) : Prop :=
  ∃ front rest, NamesAt piece front name rest ∧ value = Text.trim rest ∧
    ∀ front' name' rest', NamesAt piece front' name' rest' → front.length ≤ front'.length

theorem namesAt_nil : NamesAt piece [] name rest ↔ nameAndColon? piece = some (name, rest) := by
  rw [nameAndColon?_eq_some_iff]
  constructor
  · rintro ⟨back, rfl, h⟩
    exact h
  · exact fun h => ⟨piece, rfl, h⟩

theorem namesAt_cons {c d : Char} {cs front : Text} :
    NamesAt (c :: cs) (d :: front) name rest ↔ c = d ∧ NamesAt cs front name rest := by
  constructor
  · rintro ⟨back, hpiece, h⟩
    obtain ⟨rfl, rfl⟩ := List.cons.inj hpiece
    exact ⟨rfl, back, rfl, h⟩
  · rintro ⟨rfl, back, rfl, h⟩
    exact ⟨back, rfl, h⟩

theorem definition?_eq_some_iff : definition? piece = some (name, rest) ↔
    ∃ front, NamesAt piece front name rest ∧
      ∀ front' name' rest', NamesAt piece front' name' rest' → front.length ≤ front'.length := by
  induction piece with
  | nil =>
    refine iff_of_false nofun ?_
    rintro ⟨front, ⟨back, hpiece, ident, blanks, rfl, -⟩, -⟩
    simp at hpiece
  | cons c cs ih =>
    rw [definition?]
    cases hname : nameAndColon? (c :: cs) with
    | some found =>
      obtain ⟨name', rest'⟩ := found
      have hfirst := namesAt_nil.2 hname
      constructor
      · intro h
        obtain ⟨rfl, rfl⟩ := Prod.mk.inj (Option.some.inj h)
        exact ⟨[], hfirst, fun _ _ _ _ => Nat.zero_le _⟩
      · rintro ⟨front, h, hleast⟩
        obtain rfl := List.eq_nil_of_length_eq_zero (Nat.le_zero.1 (hleast _ _ _ hfirst))
        exact hname.symm.trans (namesAt_nil.1 h)
    | none =>
      have hcons : ∀ {front name rest}, NamesAt (c :: cs) front name rest →
          ∃ front', front = c :: front' ∧ NamesAt cs front' name rest := by
        intro front name rest h
        cases front with
        | nil => exact nomatch hname.symm.trans (namesAt_nil.1 h)
        | cons d front =>
          obtain ⟨rfl, h'⟩ := namesAt_cons.1 h
          exact ⟨front, rfl, h'⟩
      refine Iff.trans ih ?_
      constructor
      · rintro ⟨front, h, hleast⟩
        refine ⟨c :: front, namesAt_cons.2 ⟨rfl, h⟩, fun front' name' rest' h' => ?_⟩
        obtain ⟨front'', rfl, h''⟩ := hcons h'
        exact Nat.succ_le_succ (hleast front'' name' rest' h'')
      · rintro ⟨front, h, hleast⟩
        obtain ⟨front', rfl, h'⟩ := hcons h
        refine ⟨front', h', fun front'' name'' rest'' h'' => ?_⟩
        exact Nat.le_of_succ_le_succ
          (hleast (c :: front'') name'' rest'' (namesAt_cons.2 ⟨rfl, h''⟩))

/-- Unless it is blank, the value that a piece gives to a name is that of its definition. -/
theorem property?_eq_some_iff :
    property? piece = some (name, value) ↔ Defines piece name value ∧ value ≠ [] := by
  simp only [property?, Option.bind_eq_bind, Option.bind_eq_some_iff, Option.pure_def,
    Option.some.injEq, Prod.exists, definition?_eq_some_iff, Text.nonBlank?_eq_some_iff]
  constructor
  · rintro ⟨name', rest, ⟨front, h, hleast⟩, value', ⟨htrim, hne⟩, heq⟩
    obtain ⟨rfl, rfl⟩ := Prod.mk.inj heq
    exact ⟨⟨front, rest, h, htrim.symm, hleast⟩, hne⟩
  · rintro ⟨⟨front, rest, h, rfl, hleast⟩, hne⟩
    exact ⟨name, rest, ⟨front, h, hleast⟩, Text.trim rest, ⟨rfl, hne⟩, rfl⟩

/-! ## The scan -/

/-- The first piece of a text ends at a separator or at the end of the text. -/
theorem exists_tail_of_splitOn {sep : Char} {pieces : List Text}
    (h : Text.splitOn sep t = piece :: pieces) :
    sep ∉ piece ∧ ∃ tail, t = piece ++ tail ∧ (tail = [] ∨ ∃ u, tail = sep :: u) := by
  refine ⟨Text.not_mem_of_mem_splitOn (h ▸ List.mem_cons_self), ?_⟩
  rw [← Text.joinWith_splitOn sep t, h]
  cases pieces with
  | nil => exact ⟨[], (List.append_nil piece).symm, .inl rfl⟩
  | cons next pieces => exact ⟨sep :: Text.joinWith sep (next :: pieces), rfl, .inr ⟨_, rfl⟩⟩

/-- A name at the start of a text is one at the start of its first piece, and the definition goes on
up to the end of the piece. -/
theorem nameAndColon?_append (hpiece : ';' ∉ piece) (htail : tail = [] ∨ ∃ u, tail = ';' :: u) :
    (nameAndColon? (piece ++ tail)).map (fun found => (found.1, found.2.takeWhile (· != ';'))) =
      nameAndColon? piece := by
  have htake : ∀ {rest : Text}, ';' ∉ rest → (rest ++ tail).takeWhile (· != ';') = rest := by
    intro rest hrest
    refine (takeWhile_dropWhile_append (fun c hc => ?_) fun c hc => ?_).1
    · rw [bne_iff_ne]
      rintro rfl
      exact hrest hc
    · rcases htail with rfl | ⟨u, rfl⟩
      · cases hc
      · obtain rfl := Option.some.inj hc
        rfl
  refine Option.ext fun ⟨name, rest⟩ => ?_
  simp only [Option.map_eq_some_iff, Prod.exists, Prod.mk.injEq, nameAndColon?_eq_some_iff,
    startsWithName_append htail]
  constructor
  · rintro ⟨name', t, ⟨rest', rfl, h⟩, rfl, rfl⟩
    rwa [htake fun hmem => hpiece (h.suffix.subset hmem)]
  · intro h
    exact ⟨name, rest ++ tail, ⟨rest, rfl, h⟩, rfl, htake fun hmem => hpiece (h.suffix.subset hmem)⟩

/-- **The scan reads a body piece by piece.**  From within a definition that was found it leaves out
the first piece. -/
theorem scanDefinitions_eq (t : Text) :
    scanDefinitions false t = (Text.splitOn ';' t).filterMap definition? ∧
      scanDefinitions true t = (Text.splitOn ';' t).tail.filterMap definition? := by
  induction t with
  | nil => exact ⟨rfl, rfl⟩
  | cons c cs ih =>
    obtain ⟨hsearch, hwithin⟩ := ih
    by_cases hc : c = ';'
    · subst hc
      have hnone : nameAndColon? (';' :: cs) = none := rfl
      rw [scanDefinitions, scanDefinitions, hnone, Text.splitOn, if_pos rfl]
      exact ⟨hsearch, hsearch⟩
    · obtain ⟨piece, pieces, hpieces⟩ :=
        List.exists_cons_of_ne_nil (Text.splitOn_ne_nil ';' cs)
      obtain ⟨hpiece, tail, rfl, htail⟩ := exists_tail_of_splitOn hpieces
      have hfront : ';' ∉ c :: piece := List.not_mem_cons_of_ne_of_not_mem (Ne.symm hc) hpiece
      have hname := nameAndColon?_append hfront htail
      rw [hpieces] at hsearch hwithin
      have hsplit : Text.splitOn ';' (c :: (piece ++ tail)) = (c :: piece) :: pieces := by
        rw [Text.splitOn, if_neg hc, hpieces]
      have hfirst : definition? (c :: piece) = (nameAndColon? (c :: piece) <|> definition? piece) :=
        rfl
      rw [scanDefinitions, scanDefinitions, if_pos rfl, if_neg Bool.false_ne_true,
        bne_iff_ne.2 hc, hwithin, hsearch, hsplit]
      refine ⟨?_, rfl⟩
      rw [List.filterMap_cons, List.filterMap_cons, hfirst, ← hname, List.cons_append]
      cases nameAndColon? (c :: (piece ++ tail)) with
      | none => rfl
      | some found => rfl

/-- The definitions of a body are those of its pieces. -/
theorem definitions_eq (body : Text) :
    definitions body = (Text.splitOn ';' (blankComments body)).filterMap property? := by
  rw [definitions, (scanDefinitions_eq _).1, List.filterMap_filterMap]
  refine List.filterMap_congr fun piece _ => ?_
  rw [property?]
  cases definition? piece with
  | none => rfl
  | some found =>
    show (Text.nonBlank? found.2).map (found.1, ·) = _
    cases hvalue : Text.nonBlank? found.2 <;> simp [hvalue]

end Sheet
end CustomProps
