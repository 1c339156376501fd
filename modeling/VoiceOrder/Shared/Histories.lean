import Mathlib.Data.List.Induction
import Mathlib.Order.Lattice

/-! # Histories

A history is built up entry by entry, each of them allowed by those before it. -/

namespace Histories

variable {α κ : Type*} {allowed : List α → α → Prop} {entries : List α} {entry : α}

/-- Every entry is one that those before it allow. -/
def Built (allowed : List α → α → Prop) (entries : List α) : Prop :=
  ∀ earlier entry later, entries = earlier ++ entry :: later → allowed earlier entry

theorem built_nil : Built allowed [] :=
  fun _ _ _ heq => absurd heq.symm (List.append_ne_nil_of_right_ne_nil _ (List.cons_ne_nil _ _))

theorem built_concat :
    Built allowed (entries ++ [entry]) ↔ Built allowed entries ∧ allowed entries entry := by
  constructor
  · intro h
    refine ⟨fun earlier other later heq => h earlier other (later ++ [entry]) ?_, h entries entry [] rfl⟩
    rw [heq, List.append_assoc, List.cons_append]
  · rintro ⟨hbuilt, hentry⟩ earlier other later heq
    rcases List.eq_nil_or_concat later with rfl | ⟨later, last, rfl⟩
    · obtain ⟨rfl, hlast⟩ := List.append_inj' heq rfl
      cases hlast
      exact hentry
    · rw [List.concat_eq_append, ← List.cons_append, ← List.append_assoc] at heq
      exact hbuilt earlier other later (List.append_inj' heq rfl).1

/-- Where the keys do not decrease and a mark differs from the mark before it, the marks
increase. -/
theorem marks_lt [LinearOrder κ] {keys marks : α → Option κ}
    (hmarks : ∀ entry, ∀ mark ∈ marks entry, keys entry = some mark)
    (hbuilt : Built (fun earlier entry => ∀ mark ∈ marks entry,
      (earlier.filterMap marks).getLast? ≠ some mark) entries)
    (hkeys : (entries.filterMap keys).Pairwise (· ≤ ·)) :
    (entries.filterMap marks).Pairwise (· < ·) := by
  induction entries using List.reverseRecOn with
  | nil => exact .nil
  | append_singleton earlier entry ih =>
      obtain ⟨hearlier, hentry⟩ := built_concat.mp hbuilt
      rw [List.filterMap_append] at hkeys ⊢
      obtain ⟨hkeys, -, hle⟩ := List.pairwise_append.mp hkeys
      have hsorted := ih hearlier hkeys
      cases hmark : marks entry with
      | none => simpa [hmark] using hsorted
      | some mark =>
          rw [List.filterMap_cons_some hmark, List.filterMap_nil]
          refine List.pairwise_append.mpr ⟨hsorted, List.pairwise_singleton _ _, fun other hother => ?_⟩
          intro last hlast
          cases List.mem_singleton.mp hlast
          -- The mark before this one is above the others and, like its key, at most this one.
          rcases List.eq_nil_or_concat (earlier.filterMap marks) with hnil | ⟨before, previous, hsplit⟩
          · rw [hnil] at hother
            cases hother
          · rw [List.concat_eq_append] at hsplit
            have hne : previous ≠ mark := fun heq => by
              have hlast := hentry mark hmark
              rw [hsplit, List.getLast?_concat, heq] at hlast
              exact hlast rfl
            have hprevious : previous ≤ mark := by
              have hmem : previous ∈ earlier.filterMap marks := by simp [hsplit]
              obtain ⟨found, hfound, hmarked⟩ := List.mem_filterMap.mp hmem
              exact hle previous (List.mem_filterMap.mpr ⟨found, hfound, hmarks _ _ hmarked⟩) mark
                (by simp [hmarks entry mark hmark])
            have hbelow : other ≤ previous := by
              rw [hsplit] at hother hsorted
              obtain ⟨-, -, hlt⟩ := List.pairwise_append.mp hsorted
              rcases List.mem_append.mp hother with hbefore | hlast
              · exact (hlt other hbefore previous List.mem_cons_self).le
              · exact (List.mem_singleton.mp hlast).le
            exact lt_of_le_of_lt hbelow (lt_of_le_of_ne hprevious hne)

end Histories
