import Mathlib.Data.List.Sort

/-! # Stable rankings

A stable sort by a key, what it guarantees, and what the first entries of a ranking are best
at. -/

namespace Rankings

variable {α κ : Type*} [LinearOrder κ] {key : α → κ} {source ranked : List α} {a b : α} {n : ℕ}

/-- `ranked` has the entries of `source` by ascending key, those of one key in their order. -/
structure StablyRanked (key : α → κ) (source ranked : List α) : Prop where
  perm : ranked.Perm source
  ordered : ranked.Pairwise fun a b => key a ≤ key b
  stable : ∀ k, (ranked.filter fun entry => key entry = k) = source.filter fun entry => key entry = k

/-- A stable sort with a comparator that compares keys. -/
def sortBy (key : α → κ) (source : List α) : List α :=
  source.insertionSort fun a b => key a ≤ key b

theorem sortBy_perm (key : α → κ) (source : List α) : (sortBy key source).Perm source :=
  List.perm_insertionSort _ source

theorem sortBy_ordered (key : α → κ) (source : List α) :
    (sortBy key source).Pairwise fun a b => key a ≤ key b := by
  have htotal : Std.Total fun a b : α => key a ≤ key b := ⟨fun a b => le_total (key a) (key b)⟩
  have htrans : IsTrans α fun a b : α => key a ≤ key b := ⟨fun _ _ _ => le_trans⟩
  exact List.pairwise_insertionSort _ source

theorem sortBy_stable (key : α → κ) (source : List α) (k : κ) :
    ((sortBy key source).filter fun entry => key entry = k) =
      source.filter fun entry => key entry = k := by
  have htotal : Std.Total fun a b : α => key a ≤ key b := ⟨fun a b => le_total (key a) (key b)⟩
  have htrans : IsTrans α fun a b : α => key a ≤ key b := ⟨fun _ _ _ => le_trans⟩
  -- The entries of one key are in order, so the sort has them as a sublist, and no more of them.
  have hordered : (source.filter fun entry => key entry = k).Pairwise fun a b => key a ≤ key b := by
    refine List.pairwise_of_forall_mem_list fun a ha b hb => ?_
    have hka : key a = k := by simpa using (List.mem_filter.mp ha).2
    have hkb : key b = k := by simpa using (List.mem_filter.mp hb).2
    rw [hka, hkb]
  have hsub := (List.sublist_insertionSort hordered List.filter_sublist).filter
    fun entry => key entry = k
  rw [List.filter_filter] at hsub
  simp only [Bool.and_self] at hsub
  exact (hsub.eq_of_length ((sortBy_perm key source).filter _).length_eq.symm).symm

theorem sortBy_stablyRanked (key : α → κ) (source : List α) :
    StablyRanked key source (sortBy key source) :=
  ⟨sortBy_perm key source, sortBy_ordered key source, sortBy_stable key source⟩

theorem sortBy_map {β : Type*} (f : β → α) (source : List β) :
    sortBy key (source.map f) = (sortBy (fun entry => key (f entry)) source).map f :=
  (List.map_insertionSort _ _ f source fun _ _ _ _ => Iff.rfl).symm

/-- An entry left out of the first ones does not rank before one of them. -/
theorem StablyRanked.le_of_left_out (h : StablyRanked key source ranked) (ha : a ∈ ranked.take n)
    (hb : b ∈ source) (hout : b ∉ ranked.take n) : key a ≤ key b := by
  have hordered := h.ordered
  rw [← List.take_append_drop n ranked, List.pairwise_append] at hordered
  have hmem : b ∈ ranked.take n ++ ranked.drop n := by
    rw [List.take_append_drop]
    exact h.perm.mem_iff.mpr hb
  exact hordered.2.2 a ha b ((List.mem_append.mp hmem).resolve_left hout)

/-- A ranking by positions: the entry at the earlier one has the smaller key. -/
theorem StablyRanked.le_of_idxOf_le [DecidableEq α] (h : StablyRanked key source ranked)
    (hb : b ∈ ranked) (hle : ranked.idxOf a ≤ ranked.idxOf b) : key a ≤ key b := by
  have hlt := List.idxOf_lt_length_of_mem hb
  have hlt' : ranked.idxOf a < ranked.length := by omega
  rcases Nat.lt_or_eq_of_le hle with hless | heq
  · have := List.pairwise_iff_getElem.mp h.ordered _ _ hlt' hlt hless
    rwa [List.getElem_idxOf, List.getElem_idxOf] at this
  · have hsame : ranked[ranked.idxOf a] = ranked[ranked.idxOf b] := by
      congr 1
    rw [List.getElem_idxOf, List.getElem_idxOf] at hsame
    rw [hsame]

end Rankings
