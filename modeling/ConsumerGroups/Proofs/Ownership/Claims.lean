import Mathlib.Data.List.Basic
import ConsumerGroups.Ownership.Basic

/-! # What an ownership lists

An ownership lists a relation between clients and partitions: its clients are those that own
any, and the list of each is the ascending one of all that it owns. Claims add to the relation,
in whatever order they are made.
-/

namespace ConsumerGroups.Ownership

/-- An ownership that lists who owns what, and nothing else. -/
structure Lists (ownership : Ownership) (owns : String → Int32 → Prop) : Prop where
  clients : ∀ client, client ∈ ownership ↔ ∃ partition, owns client partition
  partitions : ∀ (client : String) owned, ownership[client]? = some owned →
    owned.Pairwise (· < ·) ∧ ∀ partition, partition ∈ owned ↔ owns client partition

theorem Lists.congr {ownership : Ownership} {owns others : String → Int32 → Prop}
    (hlists : ownership.Lists owns)
    (hsame : ∀ client partition, owns client partition ↔ others client partition) :
    ownership.Lists others := by
  have howns : owns = others := by
    funext client partition
    exact propext (hsame client partition)
  exact howns ▸ hlists

/-- An ownership is empty exactly if nobody owns anything. -/
theorem Lists.isEmpty_eq_false_iff {ownership : Ownership} {owns : String → Int32 → Prop}
    (hlists : ownership.Lists owns) :
    ownership.isEmpty = false ↔ ∃ client partition, owns client partition := by
  rw [← not_iff_not, Bool.not_eq_false, Std.ExtTreeMap.isEmpty_iff,
    Std.ExtTreeMap.eq_empty_iff_forall_not_mem]
  simp only [hlists.clients, not_exists]

/-! ## Ascending lists -/

@[simp] theorem mem_insertAscending {partition other : Int32} {owned : List Int32} :
    other ∈ insertAscending partition owned ↔ other = partition ∨ other ∈ owned := by
  induction owned with
  | nil => simp [insertAscending]
  | cons first rest ih =>
      simp only [insertAscending]
      split
      · simp
      · split
        · rename_i hfirst
          simp [hfirst]
        · simp only [List.mem_cons, ih, or_left_comm]

theorem pairwise_insertAscending (partition : Int32) {owned : List Int32}
    (howned : owned.Pairwise (· < ·)) : (insertAscending partition owned).Pairwise (· < ·) := by
  induction owned with
  | nil => simp [insertAscending]
  | cons first rest ih =>
      obtain ⟨hfirst, hrest⟩ := List.pairwise_cons.mp howned
      simp only [insertAscending]
      split
      next hbefore =>
        apply List.pairwise_cons.mpr
        refine ⟨?_, howned⟩
        intro other hother
        rcases List.mem_cons.mp hother with rfl | hother
        · exact hbefore
        · exact Int32.lt_trans hbefore (hfirst other hother)
      next hnot =>
        split
        · exact howned
        next hne =>
          apply List.pairwise_cons.mpr
          refine ⟨?_, ih hrest⟩
          intro other hother
          rcases mem_insertAscending.mp hother with rfl | hother
          · exact Int32.lt_of_le_of_ne (Int32.not_lt.mp hnot) (Ne.symm hne)
          · exact hfirst other hother

/-! ## Claims -/

theorem lists_empty : Lists ∅ fun _ _ => False :=
  ⟨by simp, by simp⟩

theorem getElem?_claim (ownership : Ownership) (client : String) (partition : Int32)
    (other : String) :
    (ownership.claim client partition)[other]? =
      if client = other then some (insertAscending partition (ownership[client]?.getD []))
      else ownership[other]? := by
  unfold claim
  simp only [Std.ExtTreeMap.getElem?_alter, Std.LawfulEqOrd.compare_eq_iff_eq]

/-- A claim adds to what is listed, and changes nothing if it was made before. -/
theorem Lists.claim {ownership : Ownership} {owns : String → Int32 → Prop}
    (hlists : ownership.Lists owns) (client : String) (partition : Int32) :
    (ownership.claim client partition).Lists fun other owned =>
      (other = client ∧ owned = partition) ∨ owns other owned := by
  constructor
  · intro other
    rw [Std.ExtTreeMap.mem_iff_isSome_getElem?, getElem?_claim]
    by_cases hother : client = other
    · subst hother
      exact iff_of_true (by simp) ⟨partition, .inl ⟨rfl, rfl⟩⟩
    · rw [if_neg hother, ← Std.ExtTreeMap.mem_iff_isSome_getElem?, hlists.clients other]
      simp [Ne.symm hother]
  · intro other owned howned
    rw [getElem?_claim] at howned
    by_cases hother : client = other
    · subst hother
      rw [if_pos rfl] at howned
      cases howned
      cases hbefore : ownership[client]? with
      | none =>
          have hnothing : ∀ owned, ¬owns client owned := by
            intro owned howns
            have hmem := (hlists.clients client).mpr ⟨owned, howns⟩
            rw [Std.ExtTreeMap.mem_iff_isSome_getElem?, hbefore] at hmem
            cases hmem
          refine ⟨pairwise_insertAscending partition (by simp), ?_⟩
          simp [hnothing]
      | some before =>
          obtain ⟨hascending, hmem⟩ := hlists.partitions client before hbefore
          refine ⟨pairwise_insertAscending partition hascending, ?_⟩
          simp [hmem]
    · rw [if_neg hother] at howned
      simpa [Ne.symm hother] using hlists.partitions other owned howned

/-- The ownership that some claims amount to. -/
def ofClaims (claims : List (String × Int32)) : Ownership :=
  claims.foldl (fun ownership entry => ownership.claim entry.1 entry.2) ∅

theorem lists_ofClaims (claims : List (String × Int32)) :
    (ofClaims claims).Lists fun client partition => (client, partition) ∈ claims := by
  suffices hfold : ∀ ownership owns, Lists ownership owns →
      Lists (claims.foldl (fun ownership entry => ownership.claim entry.1 entry.2) ownership)
        fun client partition => (client, partition) ∈ claims ∨ owns client partition by
    exact (hfold ∅ _ lists_empty).congr (by simp)
  induction claims with
  | nil => exact fun ownership owns hlists => hlists.congr (by simp)
  | cons entry rest ih =>
      intro ownership owns hlists
      refine (ih _ _ (hlists.claim entry.1 entry.2)).congr fun client partition => ?_
      simp [Prod.ext_iff, or_left_comm, or_assoc]

end ConsumerGroups.Ownership
