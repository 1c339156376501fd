import VoiceOrder.Shared.OrderedMap

/-! # The first keys that are found

Keys are looked up one by one until enough of them are found. Two ways to look them up find the
same unless they differ on a key that comes early enough. -/

namespace FirstHits

variable {κ ν : Type*}

/-- The values of the first `limit` keys that the lookup finds. -/
def firstHits (limit : ℕ) (lookup : κ → Option ν) (keys : List κ) : List ν :=
  (keys.filterMap lookup).take limit

/-- The loop that keeps what it finds while there is room. -/
theorem foldl_eq_firstHits (limit : ℕ) (lookup : κ → Option ν) (keys : List κ) :
    keys.foldl (fun found key =>
        match lookup key with
        | none => found
        | some value => if found.length < limit then found ++ [value] else found) [] =
      firstHits limit lookup keys := by
  induction keys using List.reverseRecOn with
  | nil => simp [firstHits]
  | append_singleton keys key ih =>
      rw [List.foldl_append, List.foldl_cons, List.foldl_nil, ih]
      unfold firstHits
      rw [List.filterMap_append]
      cases hkey : lookup key with
      | none => simp [hkey]
      | some value =>
          have hone : [key].filterMap lookup = [value] := by simp [hkey]
          rw [hone]
          dsimp only
          by_cases hroom : (keys.filterMap lookup).length < limit
          · have hall : (keys.filterMap lookup).take limit = keys.filterMap lookup :=
              List.take_of_length_le (Nat.le_of_lt hroom)
            have hmore : (keys.filterMap lookup ++ [value]).length ≤ limit := by
              rw [List.length_append]
              exact hroom
            rw [hall, if_pos hroom, List.take_of_length_le hmore]
          · have hfull : limit ≤ (keys.filterMap lookup).length := Nat.le_of_not_lt hroom
            rw [List.take_append_of_le_length hfull, List.length_take, Nat.min_eq_left hfull,
              if_neg (Nat.lt_irrefl limit)]

/-- What a lookup finds tells the key. -/
def Keyed (tag : ν → κ) (lookup : κ → Option ν) : Prop :=
  ∀ key value, lookup key = some value → tag value = key

/-- The lookups differ on a key only after `limit` keys that are found. -/
def DifferLate (limit : ℕ) (first second : κ → Option ν) (keys : List κ) : Prop :=
  ∀ before key, before ++ [key] <+: keys → first key ≠ second key →
    limit ≤ (before.filterMap second).length

section

variable {limit : ℕ} {first second : κ → Option ν} {key : κ} {keys : List κ} {tag : ν → κ}

theorem differLate_nil : DifferLate limit first second ([] : List κ) := by
  intro before key hunder
  simp at hunder

theorem differLate_zero : DifferLate 0 first second keys := fun _ _ _ _ => Nat.zero_le _

theorem differLate_cons :
    DifferLate limit first second (key :: keys) ↔
      (first key = second key ∨ limit = 0) ∧
        DifferLate (limit - (second key).toList.length) first second keys := by
  have hcons : ∀ before, ((key :: before).filterMap second).length =
      (second key).toList.length + (before.filterMap second).length := by
    intro before
    cases h : second key <;> simp [h, Nat.add_comm]
  constructor
  · intro h
    refine ⟨?_, fun before other hunder hne => ?_⟩
    · by_cases heq : first key = second key
      · exact .inl heq
      · exact .inr (Nat.le_zero.mp (h [] key (by simp) heq))
    · have hlate := h (key :: before) other (List.cons_prefix_cons.mpr ⟨rfl, hunder⟩) hne
      rw [hcons] at hlate
      omega
  · rintro ⟨hhead, htail⟩ before other hunder hne
    cases before with
    | nil =>
        have hother : other = key := (List.cons_prefix_cons.mp hunder).1
        subst hother
        rcases hhead with heq | hzero
        · exact absurd heq hne
        · exact Nat.le_of_eq hzero
    | cons start before =>
        obtain ⟨rfl, hrest⟩ := List.cons_prefix_cons.mp hunder
        have hlate := htail before other hrest hne
        rw [hcons]
        omega

theorem mem_of_firstHits {value : ν} (h : value ∈ firstHits limit first keys) (hkeyed : Keyed tag first) :
    tag value ∈ keys := by
  obtain ⟨found, hmem, hfound⟩ := List.mem_filterMap.mp (List.mem_of_mem_take h)
  rw [hkeyed found value hfound]
  exact hmem

/-- Two lookups find the same first values if and only if they differ late. -/
theorem firstHits_eq_iff (hfirst : Keyed tag first) (hsecond : Keyed tag second) (hkeys : keys.Nodup) :
    firstHits limit first keys = firstHits limit second keys ↔ DifferLate limit first second keys := by
  induction keys generalizing limit with
  | nil => exact iff_of_true rfl differLate_nil
  | cons key keys ih =>
      obtain ⟨hfresh, hrest⟩ := List.nodup_cons.mp hkeys
      cases limit with
      | zero => exact iff_of_true (by simp [firstHits]) differLate_zero
      | succ limit =>
          -- A value found under this key cannot be one that the rest of the keys leads to.
          have hforeign : ∀ {lookup : κ → Option ν} {value : ν} {values : List ν}, Keyed tag lookup →
              tag value = key → firstHits (limit + 1) lookup keys ≠ value :: values := by
            intro lookup value values hkeyed htag heq
            have hmem : value ∈ firstHits (limit + 1) lookup keys := heq ▸ List.mem_cons_self
            exact hfresh (htag ▸ mem_of_firstHits hmem hkeyed)
          rw [differLate_cons]
          cases hone : first key with
          | none =>
              cases htwo : second key with
              | none =>
                  have hskip : ∀ {lookup : κ → Option ν}, lookup key = none →
                      firstHits (limit + 1) lookup (key :: keys) = firstHits (limit + 1) lookup keys := by
                    intro lookup hnone
                    simp [firstHits, hnone]
                  rw [hskip hone, hskip htwo, ih hrest]
                  simp
              | some value =>
                  refine iff_of_false ?_ (by simp)
                  have hleft : firstHits (limit + 1) first (key :: keys) =
                      firstHits (limit + 1) first keys := by
                    simp [firstHits, hone]
                  have hright : firstHits (limit + 1) second (key :: keys) =
                      value :: firstHits limit second keys := by
                    simp [firstHits, htwo]
                  rw [hleft, hright]
                  exact hforeign hfirst (hsecond key value htwo)
          | some value =>
              have hleft : firstHits (limit + 1) first (key :: keys) =
                  value :: firstHits limit first keys := by
                simp [firstHits, hone]
              cases htwo : second key with
              | none =>
                  refine iff_of_false ?_ (by simp)
                  have hright : firstHits (limit + 1) second (key :: keys) =
                      firstHits (limit + 1) second keys := by
                    simp [firstHits, htwo]
                  rw [hleft, hright]
                  exact fun heq => hforeign hsecond (hfirst key value hone) heq.symm
              | some other =>
                  have hright : firstHits (limit + 1) second (key :: keys) =
                      other :: firstHits limit second keys := by
                    simp [firstHits, htwo]
                  rw [hleft, hright, List.cons.injEq, ih hrest]
                  simp

end

end FirstHits
