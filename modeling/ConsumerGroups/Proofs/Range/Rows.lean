import Mathlib.Data.List.Nodup
import ConsumerGroups.Range.Survey

/-! # Putting records at their places

Records come with their places and are written one after another. A place written once holds
the record written there, whatever the order.
-/

namespace ConsumerGroups.Range

/-- Writes records into a table, each at its place. -/
def writeRows (table : List Progress) (rows : List (Nat × Progress)) : List Progress :=
  rows.foldl (fun table row => table.set row.1 row.2) table

theorem placeRows_eq (size : Nat) (rows : List (Nat × Progress)) :
    placeRows size rows = writeRows (List.replicate size {}) rows := rfl

@[simp] theorem length_writeRows (table : List Progress) (rows : List (Nat × Progress)) :
    (writeRows table rows).length = table.length := by
  induction rows generalizing table with
  | nil => rfl
  | cons row rest ih => exact (ih _).trans (by simp)

theorem writeRows_of_notMem {rows : List (Nat × Progress)} {place : Nat}
    (hplace : place ∉ rows.map (·.1)) (table : List Progress) :
    (writeRows table rows)[place]? = table[place]? := by
  induction rows generalizing table with
  | nil => rfl
  | cons row rest ih =>
      simp only [List.map_cons, List.mem_cons, not_or] at hplace
      refine (ih hplace.2 _).trans ?_
      rw [List.getElem?_set_ne (Ne.symm hplace.1)]

/-- A row whose place no other row has is what stands there in the end. -/
theorem writeRows_of_mem {rows : List (Nat × Progress)} (hnodup : (rows.map (·.1)).Nodup)
    {row : Nat × Progress} (hrow : row ∈ rows) {table : List Progress}
    (hplace : row.1 < table.length) : (writeRows table rows)[row.1]? = some row.2 := by
  induction rows generalizing table with
  | nil => simp at hrow
  | cons first rest ih =>
      obtain ⟨hfirst, hrest⟩ := List.nodup_cons.mp hnodup
      rcases List.mem_cons.mp hrow with rfl | hrow
      · -- No later row has the place of the first one.
        refine (writeRows_of_notMem hfirst _).trans ?_
        rw [List.getElem?_set_self hplace]
      · exact ih hrest hrow (by simpa using hplace)

@[simp] theorem length_placeRows (size : Nat) (rows : List (Nat × Progress)) :
    (placeRows size rows).length = size := by
  simp [placeRows_eq]

theorem placeRows_of_mem {size : Nat} {rows : List (Nat × Progress)}
    (hnodup : (rows.map (·.1)).Nodup) {row : Nat × Progress} (hrow : row ∈ rows)
    (hplace : row.1 < size) : (placeRows size rows)[row.1]? = some row.2 :=
  writeRows_of_mem hnodup hrow (by simpa using hplace)

end ConsumerGroups.Range
