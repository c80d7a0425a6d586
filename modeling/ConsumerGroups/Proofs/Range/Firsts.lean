import Mathlib.Data.List.Basic
import Mathlib.Data.List.Nodup

/-! # The first elements of a list for every key

Of several elements with the same key the first one stands for all of them. Taken in the order
of the list, the elements that stand for others have pairwise distinct keys.
-/

namespace ConsumerGroups.Range

variable {α β κ : Type} [DecidableEq κ]

/-- The elements of a list that are the first with their key, in order. -/
def firstsBy (key : α → κ) : List α → List α
  | [] => []
  | item :: rest => item :: (firstsBy key rest).filter (key · ≠ key item)

variable {key : α → κ}

@[simp] theorem firstsBy_nil : firstsBy key [] = [] := rfl

theorem firstsBy_map (f : β → α) (items : List β) :
    firstsBy key (items.map f) = (firstsBy (key ∘ f) items).map f := by
  induction items with
  | nil => rfl
  | cons item rest ih =>
      simp only [List.map_cons, firstsBy, ih, List.filter_map]
      rfl

/-- Leaving out a key leaves the elements that stand for other keys as they are. -/
theorem firstsBy_filter_ne (value : κ) (items : List α) :
    firstsBy key (items.filter (key · ≠ value)) = (firstsBy key items).filter (key · ≠ value) := by
  induction items with
  | nil => rfl
  | cons item rest ih =>
      by_cases hkey : key item = value
      · simpa [firstsBy, hkey] using ih
      · simp only [hkey, firstsBy, List.filter_cons, ne_eq, not_false_eq_true, decide_true,
          if_true, List.cons.injEq, true_and]
        -- Both sides leave out two keys, in either order.
        rw [ih, List.filter_filter, List.filter_filter]
        exact List.filter_congr fun other _ => Bool.and_comm _ _

/-- An element stands for its key exactly if a search for the key ends at it. -/
theorem mem_firstsBy {items : List α} {item : α} :
    item ∈ firstsBy key items ↔ items.find? (key · = key item) = some item := by
  induction items with
  | nil => simp
  | cons first rest ih =>
      by_cases hkey : key first = key item
      · simp only [firstsBy, List.mem_cons, List.mem_filter, List.find?_cons, hkey]
        simp [eq_comm]
      · have hne : item ≠ first := fun heq => hkey (heq ▸ rfl)
        have hkey' : ¬key item = key first := fun heq => hkey heq.symm
        simp [firstsBy, hkey, hkey', hne, ih]

theorem nodup_firstsBy (key : α → κ) (items : List α) : ((firstsBy key items).map key).Nodup := by
  induction items with
  | nil => simp
  | cons item rest ih =>
      simp only [firstsBy, List.map_cons, List.nodup_cons]
      refine ⟨by simp, ?_⟩
      exact ih.sublist (List.filter_sublist.map key)

theorem mem_of_mem_firstsBy {items : List α} {item : α} (hitem : item ∈ firstsBy key items) :
    item ∈ items :=
  List.mem_of_find?_eq_some (mem_firstsBy.mp hitem)

/-- Every element has one that stands for it. -/
theorem exists_mem_firstsBy {items : List α} {item : α} (hitem : item ∈ items) :
    ∃ first ∈ firstsBy key items, key first = key item := by
  obtain ⟨first, hfirst⟩ : ∃ first, items.find? (key · = key item) = some first :=
    Option.isSome_iff_exists.mp (List.find?_isSome.mpr ⟨item, hitem, by simp⟩)
  have hkey : key first = key item := by simpa using List.find?_some hfirst
  exact ⟨first, mem_firstsBy.mpr (hkey ▸ hfirst), hkey⟩

theorem firstsBy_sublist (key : α → κ) (items : List α) : (firstsBy key items).Sublist items := by
  induction items with
  | nil => exact .slnil
  | cons item rest ih => exact (List.filter_sublist.trans ih).cons_cons item

/-- The elements that stand for others come in the order in which their keys are first seen. -/
theorem firstsBy_pairwise_idxOf (key : α → κ) (items : List α) :
    (firstsBy key items).Pairwise fun first second =>
      (items.map key).idxOf (key first) < (items.map key).idxOf (key second) := by
  induction items with
  | nil => exact .nil
  | cons item rest ih =>
      rw [firstsBy, List.pairwise_cons, List.map_cons]
      have hlater : ∀ other ∈ (firstsBy key rest).filter (key · ≠ key item),
          (key item :: rest.map key).idxOf (key other) = (rest.map key).idxOf (key other) + 1 := by
        intro other hother
        have hne : key other ≠ key item := by simpa using (List.mem_filter.mp hother).2
        rw [List.idxOf_cons_ne _ hne.symm]
      constructor
      · intro other hother
        rw [hlater other hother, List.idxOf_cons_self]
        exact Nat.succ_pos _
      · refine (ih.filter _).imp_of_mem fun {first second} hfirst hsecond hless => ?_
        rw [hlater first hfirst, hlater second hsecond]
        exact Nat.succ_lt_succ hless

end ConsumerGroups.Range
