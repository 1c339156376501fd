import VoiceOrder.Shared.KeyedEdits

/-! # Batches of keyed edits

A batch applies its edits one after another, each with the fresh key at hand. What it does to the
entries of a key depends on no entries of other keys. -/

namespace KeyedEdit

open OrderedMap

variable {κ β ε : Type} [DecidableEq κ]

def applyAll : List (κ × KeyedEdit κ β ε) → List (κ × β) → List (κ × β)
  | [], entries => entries
  | (fresh, edit) :: batch, entries => applyAll batch (edit.apply fresh entries)

/-- Why each edit of the batch is refused, if it is. -/
def refusals : List (κ × KeyedEdit κ β ε) → List (κ × β) → List (Option ε)
  | [], _ => []
  | (fresh, edit) :: batch, entries =>
      edit.refusal entries :: refusals batch (edit.apply fresh entries)

/-- What the batch leaves of the entries that are there. -/
def amendedAll : List (κ × KeyedEdit κ β ε) → List (κ × β) → List (κ × β)
  | [], entries => entries
  | (_, edit) :: batch, entries => amendedAll batch (edit.amended entries)

/-- The entries the batch adds. -/
def appendedAll (batch : List (κ × KeyedEdit κ β ε)) : List (κ × β) :=
  batch.flatMap fun step => step.2.appended.map (step.1, ·)

/-- No edit of the batch reads the key at hand for an addition. -/
def Unread (batch : List (κ × KeyedEdit κ β ε)) : Prop :=
  ∀ step ∈ batch, step.2.target = none → ∀ other ∈ batch, other.2.target ≠ some step.1

/-- The entries of one key. -/
def under (key : κ) (entries : List (κ × β)) : List (κ × β) :=
  entries.filter fun entry => entry.1 = key

section

variable {entries others kept new : List (κ × β)} {batch batch' : List (κ × KeyedEdit κ β ε)}
  {edit : KeyedEdit κ β ε} {fresh fresh' key target : κ}

/-! ## The shape of the result -/

omit [DecidableEq κ] in
theorem mem_appended {entry : κ × β} (h : entry ∈ edit.appended.map (fresh, ·)) :
    entry.1 = fresh ∧ edit.target = none := by
  obtain ⟨body, hbody, rfl⟩ := List.mem_map.mp h
  cases edit with
  | append => exact ⟨rfl, rfl⟩
  | amend => cases hbody

omit [DecidableEq κ] in
theorem appendedAll_cons (fresh : κ) (edit : KeyedEdit κ β ε) (batch : List (κ × KeyedEdit κ β ε)) :
    appendedAll ((fresh, edit) :: batch) = edit.appended.map (fresh, ·) ++ appendedAll batch := rfl

theorem applyAll_append (hread : ∀ entry ∈ new, ∀ step ∈ batch, step.2.target ≠ some entry.1)
    (hunread : Unread batch) :
    applyAll batch (kept ++ new) = amendedAll batch kept ++ new ++ appendedAll batch := by
  induction batch generalizing kept new with
  | nil => exact (List.append_nil _).symm
  | cons step batch ih =>
      obtain ⟨fresh, edit⟩ := step
      have hedit : edit.amended (kept ++ new) = edit.amended kept ++ new :=
        amended_append fun entry hentry => hread entry hentry _ List.mem_cons_self
      rw [applyAll, apply, hedit, List.append_assoc, ih, amendedAll, appendedAll_cons]
      · simp only [List.append_assoc]
      · intro entry hentry other hother
        rcases List.mem_append.mp hentry with hold | hadded
        · exact hread entry hold other (List.mem_cons_of_mem _ hother)
        · obtain ⟨hkey, hnone⟩ := mem_appended hadded
          rw [hkey]
          exact hunread _ List.mem_cons_self hnone other (List.mem_cons_of_mem _ hother)
      · exact fun step hstep hnone other hother => hunread step (List.mem_cons_of_mem _ hstep) hnone
          other (List.mem_cons_of_mem _ hother)

/-- A batch amends the entries that are there and adds its own behind them. -/
theorem applyAll_eq (hunread : Unread batch) (entries : List (κ × β)) :
    applyAll batch entries = amendedAll batch entries ++ appendedAll batch := by
  have hnew : ∀ entry ∈ ([] : List (κ × β)), ∀ step ∈ batch, step.2.target ≠ some entry.1 := by
    simp
  have h : applyAll batch (entries ++ []) = amendedAll batch entries ++ [] ++ appendedAll batch :=
    applyAll_append hnew hunread
  rwa [List.append_nil, List.append_nil] at h

theorem keys_amendedAll (batch : List (κ × KeyedEdit κ β ε)) (entries : List (κ × β)) :
    ((amendedAll batch entries).map Prod.fst).Sublist (entries.map Prod.fst) := by
  induction batch generalizing entries with
  | nil => exact .refl _
  | cons step batch ih => exact (ih _).trans (keys_amended entries step.2)

omit [DecidableEq κ] in
theorem keys_appendedAll (batch : List (κ × KeyedEdit κ β ε)) :
    ((appendedAll batch).map Prod.fst).Sublist (batch.map Prod.fst) := by
  induction batch with
  | nil => exact .slnil
  | cons step batch ih =>
      obtain ⟨fresh, edit⟩ := step
      rw [appendedAll_cons, List.map_append]
      cases edit with
      | append body =>
          cases body with
          | ok body => exact ih.cons_cons fresh
          | error error => exact ih.cons fresh
      | amend target change => exact ih.cons fresh

omit [DecidableEq κ] in
theorem bodies_appendedAll (batch : List (κ × KeyedEdit κ β ε)) :
    (appendedAll batch).map Prod.snd = batch.flatMap fun step => step.2.appended := by
  induction batch with
  | nil => rfl
  | cons step batch ih =>
      rw [appendedAll, List.flatMap_cons, List.map_append, List.flatMap_cons, ← ih, List.map_map]
      exact congrArg (· ++ _) (List.map_id _)

/-- A batch of which every edit is refused adds nothing. -/
theorem appendedAll_of_refused (h : none ∉ refusals batch entries) : appendedAll batch = [] := by
  induction batch generalizing entries with
  | nil => rfl
  | cons step batch ih =>
      obtain ⟨fresh, edit⟩ := step
      have hedit : edit.appended = [] := by
        cases hrefusal : edit.refusal entries with
        | none => exact absurd (hrefusal ▸ List.mem_cons_self) h
        | some error =>
            cases edit with
            | append body =>
                cases body with
                | ok body => cases hrefusal
                | error error => rfl
            | amend target change => rfl
      rw [appendedAll_cons, hedit, ih fun hmem => h (List.mem_cons_of_mem _ hmem)]
      rfl

/-! ## The entries of a key -/

theorem get_under (key : κ) (entries : List (κ × β)) : get (under key entries) key = get entries key := by
  rw [OrderedMap.get, under, List.find?_filter, OrderedMap.get]
  congr 2
  funext entry
  simp

theorem under_amendAt (change : β → Option β) :
    under key (amendAt entries target change) =
      if key = target then amendAt (under key entries) target change else under key entries := by
  unfold under amendAt
  rw [List.filter_filterMap]
  by_cases hkey : key = target
  · rw [if_pos hkey, List.filterMap_filter]
    refine List.filterMap_congr fun entry _ => ?_
    by_cases htarget : entry.1 = target
    · cases change entry.2 <;> simp [htarget, hkey]
    · simp [htarget, hkey]
  · rw [if_neg hkey, ← List.filterMap_eq_filter]
    refine List.filterMap_congr fun entry _ => ?_
    by_cases htarget : entry.1 = target
    · cases change entry.2 <;> simp [htarget, Ne.symm hkey, Option.guard]
    · by_cases hentry : entry.1 = key
      · simp [hentry, hkey, Option.guard]
      · simp [htarget, hentry, Option.guard]

theorem under_apply (hread : ∀ key, edit.target = some key → under key entries = under key others)
    (hadd : edit.target = none → fresh ≠ key ∧ fresh' ≠ key)
    (hsame : under key entries = under key others) :
    under key (edit.apply fresh entries) = under key (edit.apply fresh' others) := by
  cases edit with
  | append body =>
      obtain ⟨hne, hne'⟩ := hadd rfl
      cases body with
      | error error => simpa [apply, amended, appended] using hsame
      | ok body =>
          simp only [apply, amended, appended, under, List.filter_append, List.map_cons, List.map_nil]
          simpa [hne, hne', under] using hsame
  | amend target change =>
      have hget : get entries target = get others target := by
        rw [← get_under, hread target rfl, get_under]
      simp only [apply, amended, appended, List.map_nil, List.append_nil, hget]
      cases change (get others target) with
      | error error => exact hsame
      | ok change => rw [under_amendAt, under_amendAt, hsame]

/-- A batch does the same under its own keys whatever the entries of other keys are. -/
theorem applyAll_under {own : κ → Prop}
    (hsame : ∀ key, own key → under key entries = under key others)
    (hbatch : batch.map Prod.snd = batch'.map Prod.snd)
    (htargets : ∀ step ∈ batch, ∀ key, step.2.target = some key → own key)
    (hfresh : ∀ step ∈ batch ++ batch', step.2.target = none → ¬own step.1) :
    refusals batch entries = refusals batch' others ∧
      ∀ key, own key → under key (applyAll batch entries) = under key (applyAll batch' others) := by
  induction batch generalizing batch' entries others with
  | nil =>
      cases List.map_eq_nil_iff.mp hbatch.symm
      exact ⟨rfl, hsame⟩
  | cons step batch ih =>
      obtain ⟨step', batch', rfl, hstep, hrest⟩ := List.map_eq_cons_iff.mp hbatch.symm
      obtain ⟨fresh, edit⟩ := step
      obtain ⟨fresh', edit'⟩ := step'
      cases hstep
      have hverdict : edit.refusal entries = edit.refusal others := by
        refine refusal_congr fun key hkey => ?_
        rw [← get_under, hsame key (htargets _ List.mem_cons_self key hkey), get_under]
      have hnext : ∀ key, own key →
          under key (edit.apply fresh entries) = under key (edit.apply fresh' others) := by
        intro key hkey
        refine under_apply (fun target ht => hsame target (htargets _ List.mem_cons_self target ht))
          (fun hnone => ⟨fun heq => ?_, fun heq => ?_⟩) (hsame key hkey)
        · exact hfresh (fresh, edit) (by simp) hnone (heq ▸ hkey)
        · exact hfresh (fresh', edit) (by simp) hnone (heq ▸ hkey)
      have hlater : ∀ step ∈ batch ++ batch', step.2.target = none → ¬own step.1 := by
        intro step hstep
        refine hfresh step ?_
        rcases List.mem_append.mp hstep with hleft | hright
        · exact List.mem_append_left _ (List.mem_cons_of_mem _ hleft)
        · exact List.mem_append_right _ (List.mem_cons_of_mem _ hright)
      obtain ⟨hrefusals, hlast⟩ := ih hnext hrest.symm
        (fun step hstep => htargets step (List.mem_cons_of_mem _ hstep)) hlater
      exact ⟨congrArg₂ List.cons hverdict hrefusals, hlast⟩

end

end KeyedEdit
