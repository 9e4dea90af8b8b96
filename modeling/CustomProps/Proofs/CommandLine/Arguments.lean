import CustomProps.CommandLine.Arguments
import CustomProps.Proofs.Failing

/-!
# What a command line asks for

A command that is read off a command line is made of the parsed arguments of its subcommand, so the
files that it names have names.

* `CommandLine.exists_of_readArguments` — where a command comes from.
* `CommandLine.ne_some_nil_of_readArguments` — no file is named by the empty text.
-/

set_option autoImplicit false

namespace CustomProps
namespace CommandLine

variable {arguments : List Text} {command : Command} {verbose : Bool}

theorem Parsed.value?_ne_some_nil (parsed : Parsed) (spec : OptionSpec) :
    parsed.value? spec ≠ some [] := by
  rw [value?]
  split
  · exact nofun
  · split
    · exact nofun
    · rename_i given _ hvalue
      intro h
      exact hvalue (List.isEmpty_iff.2 (Option.some.inj h))

theorem eq_ok_of_refuse {α : Type} {program : Text} {result : Except UsageError α} {a : α}
    (h : refuse program result = .ok a) : result = .ok a := by
  cases result with
  | error error => cases h
  | ok b => exact congrArg Except.ok (Except.ok.inj h)

/-- A subcommand makes its command of the parsed arguments. -/
theorem exists_of_readSubcommand {grammar : Grammar} {make : Parsed → Text → Command}
    {extras : List Text}
    (h : readSubcommand grammar arguments make = .ok (some (command, extras))) :
    ∃ parsed argument, command = make parsed argument := by
  obtain ⟨parsed, -, h⟩ := bind_eq_ok_iff.1 h
  split at h
  · cases h
  · split at h
    · rename_i argument _ _
      cases h
      exact ⟨parsed, argument, rfl⟩
    · cases h

/-- Every command comes from one of the subcommands. -/
theorem exists_of_readArguments (h : readArguments arguments = .ok (.command verbose command)) :
    ∃ make ∈ [transformCommand, declarationCommand], ∃ parsed argument,
      command = make parsed argument := by
  obtain ⟨parsed, -, h⟩ := bind_eq_ok_iff.1 h
  split at h
  · cases h
  · split at h
    · split at h
      · cases h
      · rename_i readRest hname
        obtain ⟨result, hresult, h⟩ := bind_eq_ok_iff.1 h
        have hread := eq_ok_of_refuse hresult
        obtain ⟨front, back, hsubcommands, -⟩ := List.lookup_eq_some_iff.1 hname
        have hmem : (_, readRest) ∈ subcommands := hsubcommands ▸ List.mem_append_cons_self
        split at h
        · cases h
        · split at h
          · cases h
            rcases List.mem_cons.1 hmem with hmem | hmem
            · obtain ⟨-, rfl⟩ := Prod.mk.inj hmem
              exact ⟨_, by simp, exists_of_readSubcommand hread⟩
            · obtain ⟨-, rfl⟩ := Prod.mk.inj (List.mem_singleton.1 hmem)
              exact ⟨_, by simp, exists_of_readSubcommand hread⟩
          · cases h
    · cases h

/-- **No file is named by the empty text.** -/
theorem ne_some_nil_of_readArguments {request : TransformRequest}
    (h : readArguments arguments = .ok (.command verbose (.transform request))) :
    ∀ file ∈ [request.out, request.root, request.config], file ≠ some [] := by
  obtain ⟨make, hmake, parsed, argument, hcommand⟩ := exists_of_readArguments h
  simp only [List.mem_cons, List.not_mem_nil, or_false] at hmake
  rcases hmake with rfl | rfl
  · obtain rfl := Command.transform.inj hcommand
    simp [Parsed.value?_ne_some_nil]
  · cases hcommand

end CommandLine
end CustomProps
