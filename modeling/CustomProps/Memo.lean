import CustomProps.Text.Basic

/-!
# Memos of transformed blocks

A memo keeps the result of transforming a block, `none` too, under the content of the block and the
version of the root scope.  It counts how often it could answer and how often it could not.
-/

set_option autoImplicit false

namespace CustomProps

/-- What a result depends on: the content of a block and the version of the scope. -/
structure MemoKey where
  content : Text
  version : Nat
deriving DecidableEq, Repr

/-- The results so far, and the counts of questions. -/
structure Memo where
  entries : List (MemoKey × Option Text)
  hits : Nat
  misses : Nat
deriving DecidableEq, Repr

namespace Memo

/-- A memo that was never asked. -/
def empty : Memo := ⟨[], 0, 0⟩

/-- The result kept under a key. -/
def find? (memo : Memo) (key : MemoKey) : Option (Option Text) := memo.entries.lookup key

/-- Is there a result under the key? -/
def contains (memo : Memo) (key : MemoKey) : Bool := (memo.find? key).isSome

/-- The number of results. -/
def size (memo : Memo) : Nat := memo.entries.length

/-- Counts an answer. -/
def countHit (memo : Memo) : Memo := { memo with hits := memo.hits + 1 }

/-- Counts a question without an answer. -/
def countMiss (memo : Memo) : Memo := { memo with misses := memo.misses + 1 }

/-- Keeps a result, unless there is one already. -/
def store (memo : Memo) (key : MemoKey) (result : Option Text) : Memo :=
  if memo.contains key then memo
  else { memo with entries := memo.entries ++ [(key, result)] }

/-- Forgets the results; the counts stay. -/
def clear (memo : Memo) : Memo := { memo with entries := [] }

theorem find?_clear (memo : Memo) (key : MemoKey) : memo.clear.find? key = none := rfl

theorem contains_store (memo : Memo) (key : MemoKey) (result : Option Text) :
    (memo.store key result).contains key = true := by
  unfold store
  split
  · assumption
  · rename_i h
    simp only [contains, find?, Option.isSome_iff_ne_none] at h ⊢
    simp only [List.lookup_append, List.lookup_cons, beq_self_eq_true, ne_eq, Option.or_eq_none_iff]
    simp

end Memo
end CustomProps
