import ConsumerGroups.Proofs.Registry.Paths
import ConsumerGroups.Settings.Basic

/-! # Chroots and paths of names

A chroot is empty, or starts with a slash and does not end with one. Such a path leads down from
the root by names exactly if it has no two slashes in a row: between two slashes there would have
to be a name without characters.
-/

namespace ConsumerGroups

open Simulated NodePath

/-- A path has two slashes in a row. -/
def DoublesSlash (path : String) : Prop :=
  ∃ before after, path = before ++ "//" ++ after

theorem not_doublesSlash_down (names : List NodeName) : ¬DoublesSlash (down names) := by
  rintro ⟨before, after, hdoubled⟩
  have htwice : down names = before ++ "/" ++ "/" ++ after := by
    have hslashes : "//" = "/" ++ "/" := rfl
    rw [hdoubled, hslashes]
    simp only [String.append_assoc]
  obtain ⟨upper, -, -, -, hupper⟩ := exists_upper_of_below htwice
  -- What stands before the second slash ends in the first one, and so without a name.
  have hempty : down upper = before ++ "/" ++ "" := by rw [← hupper, String.append_empty]
  obtain ⟨shorter, lower, rfl, hlower, rfl⟩ := exists_upper_of_below hempty
  have hsegments := congrArg segments hempty
  rw [segments_append, segments_down, segments_down, segments_slashFree (by simp), if_pos rfl,
    List.append_nil, map_text_inj] at hsegments
  exact hlower (List.self_eq_append_right.mp hsegments.symm)

theorem DoublesSlash.append {path : String} (hdoubles : DoublesSlash path) (rest : String) :
    DoublesSlash (path ++ rest) := by
  obtain ⟨before, after, rfl⟩ := hdoubles
  exact ⟨before, after ++ rest, by simp only [String.append_assoc]⟩

theorem exists_last_slash {chars : List Char} (hslash : '/' ∈ chars) :
    ∃ before after, chars = before ++ '/' :: after ∧ '/' ∉ after := by
  obtain ⟨after, before, hchars, hafter⟩ := List.eq_append_cons_of_mem (List.mem_reverse.mpr hslash)
  refine ⟨before.reverse, after.reverse, ?_, by simpa using hafter⟩
  rw [← List.reverse_inj, hchars]
  simp

/-- A chroot that is not empty ends with a name, and without it is a chroot again, unless another
slash stands before the name. -/
theorem exists_last_name {chroot : String} (hchroot : isChroot chroot = true)
    (hempty : chroot ≠ "") (hsingle : ¬DoublesSlash chroot) :
    ∃ above, ∃ name : NodeName, chroot = above ++ "/" ++ name.text ∧ isChroot above = true := by
  have hends : chroot.toList.head? = some '/' ∧ chroot.toList.getLast? ≠ some '/' := by
    simpa [isChroot, hempty] using hchroot
  obtain ⟨first, last, hchars, hlast⟩ := exists_last_slash (List.mem_of_mem_head? hends.1)
  have hpath : chroot = String.ofList first ++ "/" ++ String.ofList last := by
    apply String.toList_inj.mp
    simp [String.toList_append, hchars]
  have hname : last ≠ [] := by
    rintro rfl
    exact hends.2 (by simp [hchars])
  refine ⟨String.ofList first, ⟨String.ofList last, by simpa using hname, by simpa using hlast⟩,
    hpath, ?_⟩
  rcases List.eq_nil_or_concat' first with rfl | ⟨before, c, rfl⟩
  · rfl
  · have hhead : (before ++ [c]).head? = some '/' := by
      rw [← hends.1, hchars]
      cases before <;> rfl
    have hslash : c ≠ '/' := by
      rintro rfl
      refine hsingle ⟨String.ofList before, String.ofList last, String.toList_inj.mp ?_⟩
      simp [String.toList_append, hchars]
    simp [isChroot, hhead, hslash]

/-- A chroot without two slashes in a row leads down by names. -/
theorem exists_down_of_isChroot {chroot : String} (hchroot : isChroot chroot = true)
    (hsingle : ¬DoublesSlash chroot) : ∃ names, chroot = down names := by
  -- The induction takes off the last name, and so is on the length of the path.
  induction hlength : chroot.toList.length using Nat.strong_induction_on generalizing chroot with
  | _ length ih =>
      by_cases hempty : chroot = ""
      · exact ⟨[], hempty⟩
      · obtain ⟨above, name, rfl, habove⟩ := exists_last_name hchroot hempty hsingle
        have hshorter : above.toList.length < length := by
          rw [← hlength, String.toList_append, String.toList_append, List.length_append,
            List.length_append]
          have hslash : "/".toList.length = 1 := rfl
          omega
        obtain ⟨names, rfl⟩ := ih _ hshorter habove
          (fun hdoubles => hsingle ((hdoubles.append _).append _)) rfl
        exact ⟨names ++ [name], (down_append_singleton names name).symm⟩

theorem isChroot_of_check {settings : Settings} (hcheck : settings.check = .ok ()) :
    isChroot settings.registry.chroot = true := by
  unfold Settings.check at hcheck
  split at hcheck
  · cases hcheck
  · split at hcheck
    · cases hcheck
    · split at hcheck
      · assumption
      · cases hcheck

end ConsumerGroups
