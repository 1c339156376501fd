import VoiceOrder.Shared.OrderedMap
import Mathlib.Algebra.BigOperators.Group.Finset.Basic
import Mathlib.Algebra.Group.Action.Defs
import Mathlib.Algebra.Order.BigOperators.Group.Finset
import Mathlib.Order.Bounds.Basic

/-! # Merging rankings that are cut

Some rankings list entries, several for an item, the best first. Each is cut, what is left is
merged to one score for each item, and the items with the largest are kept. Where no item has more
than `c` entries in a ranking and the cut is after `c * k` of them, the `k` kept are right. -/

namespace Overfetch

variable {ι σ : Type*} [DecidableEq ι] [LinearOrder σ]

/-! ## The best score of each item -/

/-- A better score replaces the one that an item has. -/
def better (best : List (ι × σ)) (hit : ι × σ) : List (ι × σ) :=
  match OrderedMap.get best hit.1 with
  | none => OrderedMap.set best hit.1 hit.2
  | some prev => if prev < hit.2 then OrderedMap.set best hit.1 hit.2 else best

def merge (hits : List (ι × σ)) : List (ι × σ) := hits.foldl better []

theorem merge_append (hits : List (ι × σ)) (hit : ι × σ) :
    merge (hits ++ [hit]) = better (merge hits) hit := by
  unfold merge
  rw [List.foldl_append, List.foldl_cons, List.foldl_nil]

theorem keysNodup_merge (hits : List (ι × σ)) : OrderedMap.KeysNodup (merge hits) := by
  induction hits using List.reverseRecOn with
  | nil => exact List.nodup_nil
  | append_singleton hits hit ih =>
      rw [merge_append]
      unfold better
      split
      · exact OrderedMap.keysNodup_set ih _ _
      · split
        · exact OrderedMap.keysNodup_set ih _ _
        · exact ih

/-- The scores that some entries give an item. -/
def scores (hits : List (ι × σ)) (item : ι) : Set σ := {score | (item, score) ∈ hits}

omit [LinearOrder σ] in
theorem scores_append (hits : List (ι × σ)) (hit : ι × σ) (item : ι) :
    scores (hits ++ [hit]) item =
      if hit.1 = item then insert hit.2 (scores hits item) else scores hits item := by
  ext score
  unfold scores
  split
  case isTrue h =>
    subst h
    simp [or_comm, Prod.ext_iff]
  case isFalse h =>
    simp [Prod.ext_iff, Ne.symm h]

theorem get_better (best : List (ι × σ)) (hit : ι × σ) (item : ι) :
    OrderedMap.get (better best hit) item =
      if hit.1 = item then
        some (((OrderedMap.get best item).map fun prev => max hit.2 prev).getD hit.2)
      else OrderedMap.get best item := by
  unfold better
  by_cases hitem : hit.1 = item
  · rw [if_pos hitem, ← hitem]
    cases hget : OrderedMap.get best hit.1 with
    | none => simp
    | some prev =>
        dsimp only
        split
        case isTrue hlt => simp [max_eq_left hlt.le]
        case isFalse hle => simp [hget, max_eq_right (le_of_not_gt hle)]
  · rw [if_neg hitem]
    split
    · exact OrderedMap.get_set_of_ne best hit.2 hitem
    · split
      · exact OrderedMap.get_set_of_ne best hit.2 hitem
      · rfl

/-- The merge has an item where there is a hit for it, with its best score. -/
theorem merge_spec (hits : List (ι × σ)) (item : ι) :
    match OrderedMap.get (merge hits) item with
    | none => scores hits item = ∅
    | some score => IsGreatest (scores hits item) score := by
  induction hits using List.reverseRecOn with
  | nil => exact Set.eq_empty_of_forall_notMem fun _ hmem => List.not_mem_nil hmem
  | append_singleton hits hit ih =>
      rw [merge_append, get_better, scores_append]
      by_cases hitem : hit.1 = item
      · rw [if_pos hitem, if_pos hitem]
        cases hget : OrderedMap.get (merge hits) item with
        | none =>
            rw [hget] at ih
            rw [show scores hits item = ∅ from ih]
            simp
        | some prev =>
            rw [hget] at ih
            exact ih.insert hit.2
      · rwa [if_neg hitem, if_neg hitem]

theorem get_merge {hits : List (ι × σ)} {item : ι} {score : σ} :
    OrderedMap.get (merge hits) item = some score ↔ IsGreatest (scores hits item) score := by
  have hspec := merge_spec hits item
  constructor
  · intro hget
    rwa [hget] at hspec
  · intro hgreatest
    cases hget : OrderedMap.get (merge hits) item with
    | none =>
        rw [hget] at hspec
        exact absurd hgreatest.1 (Set.eq_empty_iff_forall_notMem.mp hspec score)
    | some found =>
        rw [hget] at hspec
        exact congrArg some (hspec.unique hgreatest)

/-- Every hit is merged to a score that is no worse. -/
theorem le_of_hit {hits : List (ι × σ)} {item : ι} {score : σ} (h : (item, score) ∈ hits) :
    ∃ best, OrderedMap.get (merge hits) item = some best ∧ score ≤ best := by
  have hspec := merge_spec hits item
  cases hget : OrderedMap.get (merge hits) item with
  | none =>
      rw [hget] at hspec
      exact absurd h (Set.eq_empty_iff_forall_notMem.mp hspec score)
  | some best =>
      rw [hget] at hspec
      exact ⟨best, rfl, hspec.2 h⟩

/-! ## What a cut leaves -/

/-- `lists` are rankings, each the best first and with at most `c` entries for an item. -/
structure Rankings (c : ℕ) (lists : List (List (ι × σ))) : Prop where
  ordered : ∀ list ∈ lists, list.Pairwise fun a b => b.2 ≤ a.2
  multiplicity : ∀ list ∈ lists, ∀ item, (list.map Prod.fst).count item ≤ c

/-- The entries before the cuts. -/
def cut (n : ℕ) (lists : List (List (ι × σ))) : List (ι × σ) := lists.flatMap fun list => list.take n

variable {c k : ℕ} {lists : List (List (ι × σ))} {list kept : List (ι × σ)} {item : ι} {score : σ}

omit [LinearOrder σ] in
/-- Entries of which no item has more than `c` are about many items. -/
theorem card_items_ge (hc : 0 < c) (hlength : c * k ≤ list.length)
    (hmultiplicity : ∀ item, (list.map Prod.fst).count item ≤ c) :
    k ≤ (list.map Prod.fst).toFinset.card := by
  have hcount : ∑ item ∈ (list.map Prod.fst).toFinset, (list.map Prod.fst).count item =
      list.length := by
    rw [List.sum_toFinset_count_eq_length, List.length_map]
  have hsum := Finset.sum_le_card_nsmul (list.map Prod.fst).toFinset
    (fun item => (list.map Prod.fst).count item) c fun item _ => hmultiplicity item
  rw [hcount, smul_eq_mul, Nat.mul_comm] at hsum
  exact Nat.le_of_mul_le_mul_left (hlength.trans hsum) hc

/-- What a cut leaves out is outranked by `k` items of what it leaves. -/
theorem outranked (h : Rankings c lists) (hc : 0 < c) (hlist : list ∈ lists)
    (hmem : (item, score) ∈ list) (hout : (item, score) ∉ list.take (c * k)) :
    ∃ others : Finset ι, k ≤ others.card ∧
      ∀ other ∈ others, ∃ best, OrderedMap.get (merge (cut (c * k) lists)) other = some best ∧
        score ≤ best := by
  have hlength : c * k ≤ (list.take (c * k)).length := by
    rw [List.length_take]
    refine le_min le_rfl (le_of_lt (lt_of_not_ge fun hle => hout ?_))
    rwa [List.take_of_length_le hle]
  have hmultiplicity : ∀ item, ((list.take (c * k)).map Prod.fst).count item ≤ c := fun item =>
    (((List.take_sublist _ _).map _).count_le item).trans (h.multiplicity list hlist item)
  refine ⟨_, card_items_ge hc hlength hmultiplicity, ?_⟩
  intro other hother
  obtain ⟨entry, hentry, rfl⟩ := List.mem_map.mp (List.mem_toFinset.mp hother)
  obtain ⟨best, hget, hle⟩ := le_of_hit (List.mem_flatMap.mpr ⟨list, hlist, hentry⟩)
  refine ⟨best, hget, le_trans ?_ hle⟩
  -- The ranking has the entry before the cut, and the one left out after it.
  have hordered := h.ordered list hlist
  rw [← List.take_append_drop (c * k) list, List.pairwise_append] at hordered
  have hdrop : (item, score) ∈ list.drop (c * k) := by
    rw [← List.take_append_drop (c * k) list] at hmem
    exact (List.mem_append.mp hmem).resolve_left hout
  exact hordered.2.2 entry hentry _ hdrop

/-- The best score of an item over all the rankings. -/
def IsBest (lists : List (List (ι × σ))) (item : ι) (score : σ) : Prop :=
  IsGreatest (scores lists.flatten item) score

omit [DecidableEq ι] [LinearOrder σ] in
theorem cut_subset (n : ℕ) (lists : List (List (ι × σ))) : cut n lists ⊆ lists.flatten := by
  intro entry hentry
  obtain ⟨list, hlist, hmem⟩ := List.mem_flatMap.mp hentry
  exact List.mem_flatten.mpr ⟨list, hlist, List.mem_of_mem_take hmem⟩

/-- The best score of an item survives the cuts, or there are `k` items with scores that do and
are no worse. -/
theorem merged_or_outranked (h : Rankings c lists) (hc : 0 < c) (hbest : IsBest lists item score) :
    OrderedMap.get (merge (cut (c * k) lists)) item = some score ∨
      ∃ others : Finset ι, k ≤ others.card ∧
        ∀ other ∈ others, ∃ best, OrderedMap.get (merge (cut (c * k) lists)) other = some best ∧
          score ≤ best := by
  obtain ⟨list, hlist, hmem⟩ := List.mem_flatten.mp hbest.1
  by_cases hcut : (item, score) ∈ list.take (c * k)
  · left
    refine get_merge.mpr ⟨List.mem_flatMap.mpr ⟨list, hlist, hcut⟩, ?_⟩
    intro other hother
    exact hbest.2 (cut_subset _ _ hother)
  · exact Or.inr (outranked h hc hlist hmem hcut)

/-! ## The items kept -/

/-- The items that some entries are about. -/
def items (entries : List (ι × σ)) : Finset ι := (entries.map Prod.fst).toFinset

/-- `kept` are `k` of the entries, or all of them, and none left out has a larger score. -/
structure Largest (k : ℕ) (entries kept : List (ι × σ)) : Prop where
  subset : kept ⊆ entries
  keysNodup : OrderedMap.KeysNodup kept
  length : kept.length = min k entries.length
  le : ∀ entry ∈ kept, ∀ other ∈ entries, other ∉ kept → other.2 ≤ entry.2

/-- `kept` has the `k` items with the best scores over all the rankings, each with its own. -/
structure TopBest (k : ℕ) (lists : List (List (ι × σ))) (kept : List (ι × σ)) : Prop where
  keysNodup : OrderedMap.KeysNodup kept
  length : kept.length = min k (items lists.flatten).card
  isBest : ∀ entry ∈ kept, IsBest lists entry.1 entry.2
  le : ∀ entry ∈ kept, ∀ item score, IsBest lists item score → item ∉ items kept → score ≤ entry.2

omit [LinearOrder σ] in
theorem items_card (h : OrderedMap.KeysNodup kept) : (items kept).card = kept.length := by
  unfold items
  rw [List.toFinset_card_of_nodup h, List.length_map]

omit [LinearOrder σ] in
theorem mem_items {entries : List (ι × σ)} :
    item ∈ items entries ↔ ∃ score, (item, score) ∈ entries := by
  simp [items]

omit [LinearOrder σ] in
theorem items_mono {entries others : List (ι × σ)} (h : entries ⊆ others) :
    items entries ⊆ items others := by
  intro item hitem
  obtain ⟨score, hmem⟩ := mem_items.mp hitem
  exact mem_items.mpr ⟨score, h hmem⟩

theorem mem_merge {hits : List (ι × σ)} :
    (item, score) ∈ merge hits ↔ OrderedMap.get (merge hits) item = some score :=
  OrderedMap.mem_iff_get (keysNodup_merge hits) item score

theorem items_merge (hits : List (ι × σ)) : items (merge hits) = items hits := by
  ext item
  rw [mem_items, mem_items]
  constructor
  · rintro ⟨score, hmem⟩
    exact ⟨score, (get_merge.mp (mem_merge.mp hmem)).1⟩
  · rintro ⟨score, hmem⟩
    obtain ⟨best, hget, -⟩ := le_of_hit hmem
    exact ⟨best, mem_merge.mpr hget⟩

/-- Items with a score in the merge are items of it. -/
theorem subset_items {hits : List (ι × σ)} {others : Finset ι}
    (h : ∀ other ∈ others, ∃ best, OrderedMap.get (merge hits) other = some best ∧ score ≤ best) :
    others ⊆ items (merge hits) := by
  intro other hother
  obtain ⟨best, hget, -⟩ := h other hother
  exact mem_items.mpr ⟨best, mem_merge.mpr hget⟩

/-- As many items are merged as are to be kept, or all of them. -/
theorem min_card_eq (h : Rankings c lists) (hc : 0 < c) :
    min k (items lists.flatten).card = min k (merge (cut (c * k) lists)).length := by
  have hmerge := items_card (keysNodup_merge (cut (c * k) lists))
  have hle : (items (merge (cut (c * k) lists))).card ≤ (items lists.flatten).card := by
    rw [items_merge]
    exact Finset.card_le_card (items_mono (cut_subset _ _))
  by_cases hall : ∀ entry ∈ lists.flatten, entry ∈ cut (c * k) lists
  · have hge : (items lists.flatten).card ≤ (items (merge (cut (c * k) lists))).card := by
      rw [items_merge]
      exact Finset.card_le_card (items_mono hall)
    rw [← hmerge, hle.antisymm hge]
  · push Not at hall
    obtain ⟨⟨item, score⟩, hmem, hout⟩ := hall
    obtain ⟨list, hlist, hin⟩ := List.mem_flatten.mp hmem
    obtain ⟨others, hcard, hothers⟩ := outranked h hc hlist hin fun hcut =>
      hout (List.mem_flatMap.mpr ⟨list, hlist, hcut⟩)
    have := Finset.card_le_card (subset_items hothers)
    omega

theorem Largest.le_of_not_kept {hits : List (ι × σ)} (h : Largest k (merge hits) kept)
    {entry : ι × σ} (hentry : entry ∈ kept) (hget : OrderedMap.get (merge hits) item = some score)
    (hout : item ∉ items kept) : score ≤ entry.2 :=
  h.le entry hentry (item, score) (mem_merge.mpr hget) fun hkept =>
    hout (mem_items.mpr ⟨score, hkept⟩)

theorem Largest.card_le {entries : List (ι × σ)} (h : Largest k entries kept) :
    (items kept).card ≤ k := by
  rw [items_card h.keysNodup, h.length]
  exact min_le_left _ _

/-- What is kept of the merge is right: of an item that is lost, or kept with less than its best
score, `k` others would have to be left out. -/
theorem topBest_of_largest (h : Rankings c lists) (hc : 0 < c)
    (hkept : Largest k (merge (cut (c * k) lists)) kept) : TopBest k lists kept := by
  have hget : ∀ entry ∈ kept,
      OrderedMap.get (merge (cut (c * k) lists)) entry.1 = some entry.2 := fun entry hentry =>
    mem_merge.mp (hkept.subset hentry)
  refine ⟨hkept.keysNodup, hkept.length.trans (min_card_eq h hc).symm, ?_, ?_⟩
  · intro entry hentry
    have hhit : (entry.1, entry.2) ∈ lists.flatten :=
      cut_subset _ _ (get_merge.mp (hget entry hentry)).1
    obtain ⟨score, hmerge, hle⟩ := le_of_hit hhit
    have hbest : IsBest lists entry.1 score := get_merge.mp hmerge
    rcases merged_or_outranked h hc hbest with hmerged | ⟨others, hcard, hothers⟩
    · rw [hget entry hentry] at hmerged
      rwa [Option.some.inj hmerged]
    · rcases hle.eq_or_lt with heq | hlt
      · rwa [heq]
      · have hnot : entry.1 ∉ others := by
          intro hin
          obtain ⟨best, hfound, hge⟩ := hothers entry.1 hin
          rw [hget entry hentry] at hfound
          exact absurd (hge.trans_eq (Option.some.inj hfound).symm) (not_le.mpr hlt)
        have hsub : others ⊆ items kept := by
          intro other hother
          by_contra hleft
          obtain ⟨best, hfound, hge⟩ := hothers other hother
          exact absurd (hge.trans (hkept.le_of_not_kept hentry hfound hleft)) (not_le.mpr hlt)
        have hlt := Finset.card_lt_card ((Finset.ssubset_iff_of_subset hsub).mpr
          ⟨entry.1, mem_items.mpr ⟨entry.2, hentry⟩, hnot⟩)
        exact absurd (hcard.trans_lt hlt) (not_lt.mpr hkept.card_le)
  · intro entry hentry item score hbest hout
    rcases merged_or_outranked h hc hbest with hmerged | ⟨others, hcard, hothers⟩
    · exact hkept.le_of_not_kept hentry hmerged hout
    · by_cases hsub : others ⊆ items kept
      · -- Then they are just the items kept.
        have hall := Finset.eq_of_subset_of_card_le hsub (hkept.card_le.trans hcard)
        have hin : entry.1 ∈ others := hall ▸ mem_items.mpr ⟨entry.2, hentry⟩
        obtain ⟨best, hbest, hle⟩ := hothers entry.1 hin
        rw [hget entry hentry] at hbest
        exact hle.trans_eq (Option.some.inj hbest).symm
      · obtain ⟨other, hother, hleft⟩ := Finset.not_subset.mp hsub
        obtain ⟨best, hbest, hle⟩ := hothers other hother
        exact hle.trans (hkept.le_of_not_kept hentry hbest hleft)

end Overfetch
