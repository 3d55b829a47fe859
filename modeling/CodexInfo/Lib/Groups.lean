import CodexInfo.Lib.SortedMap

/-!
# `CodexInfo.Lib.Groups`: a list sorted into groups

`groupBy` puts the members of a list under a key, in the order of the list.

Nothing here names a component of the repository.
-/

set_option autoImplicit false

namespace CodexInfo.Lib.SortedMap

variable {κ α : Type} [LinearOrder κ]

/-- One member at the end of its group. -/
def push (m : SortedMap κ (List α)) (k : κ) (a : α) : SortedMap κ (List α) :=
  m.insert k (((m.get? k).getD []) ++ [a])

def groupBy (key : α → κ) (l : List α) : SortedMap κ (List α) :=
  l.foldl (fun m a => m.push (key a) a) empty

/-- A group holds the members of its key, in the order of the list. -/
theorem get?_foldl_push {β : Type} (key : α → κ) (f : α → β) (l : List α)
    (m : SortedMap κ (List β)) (k : κ) :
    ((l.foldl (fun m a => m.push (key a) (f a)) m).get? k).getD [] =
      (m.get? k).getD [] ++ (l.filter fun a => decide (key a = k)).map f := by
  induction l generalizing m with
  | nil => simp
  | cons a rest ih =>
      rw [List.foldl_cons, ih]
      by_cases hkey : key a = k
      · subst hkey
        simp [push]
      · simp [push, get?_insert_ne m _ hkey, hkey]

end CodexInfo.Lib.SortedMap
