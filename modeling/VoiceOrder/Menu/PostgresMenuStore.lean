import VoiceOrder.Menu.MenuStore
import VoiceOrder.Shared.Overfetch
import VoiceOrder.Shared.Rankings
import Mathlib.Algebra.Order.Field.Rat

/-! # The vector search of the Postgres store

An item has one row for each language of its name. The nearest rows of each phrase are merged to
the nearest items over all the phrases. -/

namespace VoiceOrder.Menu

/-- More rows are fetched than items are wanted, by this factor. -/
def knnRowOverfetch : ℕ := 4

/-- A row that the query returns: its similarity is 1 less its distance. -/
structure KnnRow where
  productTmplId : ProductTmplId
  sim : ℚ
  deriving DecidableEq, Repr

/-- The query of the pool: the rows of a restaurant nearest to a vector, up to a limit. -/
abbrev KnnQuery := Embedding → PosConfigId → ℕ → Except String (List KnnRow)

/-- The cosine distance is in [0, 2]. -/
def clamp (sim : ℚ) : ℚ := max 0 (min 1 sim)

/-- The hits of one phrase, none on any error of the query. -/
def knnOne (query : KnnQuery) (pos : PosConfigId) (qv : Embedding) (limit : ℕ) :
    List (ProductTmplId × ℚ) :=
  match query qv pos limit with
  | .ok rows => rows.map fun row => (row.productTmplId, clamp row.sim)
  | .error _ => []

/-- Keep the nearest. -/
def nearest (k : ℕ) (best : List (ProductTmplId × ℚ)) : List (ProductTmplId × ℚ) :=
  if best.length ≤ k then best
  else (Rankings.sortBy (fun entry => -entry.2) best).take k

/-- Of what has each key once, the nearest are kept. -/
theorem nearest_largest {best : List (ProductTmplId × ℚ)} (k : ℕ) (h : OrderedMap.KeysNodup best) :
    Overfetch.Largest k best (nearest k best) := by
  unfold nearest
  split
  case isTrue hall =>
    exact ⟨List.Subset.refl _, h, (min_eq_right hall).symm, fun _ _ other hother hout =>
      absurd hother hout⟩
  case isFalse hmore =>
    have hranked := Rankings.sortBy_stablyRanked (fun entry : ProductTmplId × ℚ => -entry.2) best
    refine ⟨?_, ?_, ?_, ?_⟩
    · exact fun entry hentry => hranked.perm.mem_iff.mp (List.mem_of_mem_take hentry)
    · exact ((hranked.perm.map _).nodup_iff.mpr h).sublist ((List.take_sublist _ _).map _)
    · rw [List.length_take, hranked.perm.length_eq]
    · intro entry hentry other hother hout
      exact neg_le_neg_iff.mp (hranked.le_of_left_out hentry hother hout)

/-- The best similarity of each item over all the phrases, for the nearest items. -/
def knnSearch (query : KnnQuery) (pos : PosConfigId) (queryVectors : List Embedding) (k : ℕ) :
    TmplMap where
  entries :=
    let limit := k * knnRowOverfetch
    let results := (queryVectors.filter fun qv => !qv.isEmpty).map fun qv =>
      knnOne query pos qv limit
    nearest k (Overfetch.merge results.flatten)
  keysNodup := (nearest_largest k (Overfetch.keysNodup_merge _)).keysNodup

/-! ## The index -/

/-- A row of `item_vector`: the vector of a name of an item. -/
structure VectorRow where
  productTmplId : ProductTmplId
  vector : Embedding
  deriving DecidableEq, Repr

/-- The table, and the distance that the extension computes. -/
structure VectorIndex where
  rows : PosConfigId → List VectorRow
  distance : Embedding → Embedding → ℚ

/-- The query returns the nearest rows in order. Rows at one distance come in any order. -/
def ExactNearest (query : KnnQuery) (index : VectorIndex) (pos : PosConfigId) : Prop :=
  ∀ qv limit, qv ≠ [] → ∃ sorted : List VectorRow, sorted.Perm (index.rows pos) ∧
    (sorted.Pairwise fun a b => index.distance qv a.vector ≤ index.distance qv b.vector) ∧
    query qv pos limit = .ok ((sorted.take limit).map fun row =>
      ⟨row.productTmplId, 1 - index.distance qv row.vector⟩)

/-- The items of a restaurant. -/
def VectorIndex.items (index : VectorIndex) (pos : PosConfigId) : Finset ProductTmplId :=
  ((index.rows pos).map VectorRow.productTmplId).toFinset

/-- The similarities of an item, over all the phrases and all its rows. -/
def VectorIndex.similarities (index : VectorIndex) (pos : PosConfigId)
    (queryVectors : List Embedding) (tmpl : ProductTmplId) : Set ℚ :=
  {sim | ∃ qv ∈ queryVectors, qv ≠ [] ∧ ∃ row ∈ index.rows pos, row.productTmplId = tmpl ∧
    clamp (1 - index.distance qv row.vector) = sim}

/-- The items found are as many as wanted and nearest, each with its best similarity. -/
structure NearestItems (index : VectorIndex) (pos : PosConfigId) (queryVectors : List Embedding)
    (k : ℕ) (found : TmplMap) : Prop where
  count : found.entries.length = min k (index.items pos).card
  best : ∀ tmpl sim, found.get tmpl = some sim →
    IsGreatest (index.similarities pos queryVectors tmpl) sim
  nearest : ∀ tmpl sim, found.get tmpl = some sim → ∀ other, other ∉ found.keys →
    ∀ best, IsGreatest (index.similarities pos queryVectors other) best → best ≤ sim

variable {index : VectorIndex} {query : KnnQuery} {pos : PosConfigId} {qv : Embedding}
  {queryVectors : List Embedding} {sorted : List VectorRow} {k : ℕ}

/-- A row as a hit. -/
def VectorIndex.hit (index : VectorIndex) (qv : Embedding) (row : VectorRow) : ProductTmplId × ℚ :=
  (row.productTmplId, clamp (1 - index.distance qv row.vector))

theorem clamp_mono {a b : ℚ} (h : a ≤ b) : clamp a ≤ clamp b :=
  max_le_max le_rfl (min_le_min le_rfl h)

/-- All rows of a phrase, the nearest first, where the search sees the first of them. -/
theorem exists_ranking (h : ExactNearest query index pos) (limit : ℕ) (hqv : qv ≠ []) :
    ∃ ranking : List (ProductTmplId × ℚ), ranking.Perm ((index.rows pos).map (index.hit qv)) ∧
      (ranking.Pairwise fun a b => b.2 ≤ a.2) ∧ knnOne query pos qv limit = ranking.take limit := by
  obtain ⟨sorted, hperm, hordered, hrows⟩ := h qv limit hqv
  refine ⟨sorted.map (index.hit qv), hperm.map _, ?_, ?_⟩
  · rw [List.pairwise_map]
    exact hordered.imp fun hle => clamp_mono (sub_le_sub_left hle 1)
  · unfold knnOne
    rw [hrows, ← List.map_take]
    exact List.map_map

/-- The search is a merge of rankings that are cut, one for each phrase. -/
theorem exists_rankings (h : ExactNearest query index pos)
    (hrows : ∀ tmpl, ((index.rows pos).map VectorRow.productTmplId).count tmpl ≤ 4)
    (queryVectors : List Embedding) (k : ℕ) :
    ∃ lists : List (List (ProductTmplId × ℚ)), Overfetch.Rankings 4 lists ∧
      (knnSearch query pos queryVectors k).entries =
        nearest k (Overfetch.merge (Overfetch.cut (4 * k) lists)) ∧
      ∀ entry, entry ∈ lists.flatten ↔
        ∃ qv ∈ queryVectors, qv ≠ [] ∧ ∃ row ∈ index.rows pos, index.hit qv row = entry := by
  choose! ranking hperm hordered hcut using fun qv (hqv : qv ≠ []) =>
    exists_ranking h (k * knnRowOverfetch) hqv
  have hphrases : ∀ qv, qv ∈ (queryVectors.filter fun qv => !qv.isEmpty) ↔
      qv ∈ queryVectors ∧ qv ≠ [] := fun qv => by simp
  refine ⟨(queryVectors.filter fun qv => !qv.isEmpty).map ranking, ⟨?_, ?_⟩, ?_, ?_⟩
  · intro list hlist
    obtain ⟨qv, hqv, rfl⟩ := List.mem_map.mp hlist
    exact hordered qv ((hphrases qv).mp hqv).2
  · intro list hlist tmpl
    obtain ⟨qv, hqv, rfl⟩ := List.mem_map.mp hlist
    have hcount := ((hperm qv ((hphrases qv).mp hqv).2).map Prod.fst).count_eq tmpl
    rw [List.map_map] at hcount
    exact hcount.trans_le (hrows tmpl)
  · unfold knnSearch Overfetch.cut
    dsimp only
    rw [List.flatMap_map, ← List.flatMap_def]
    congr 2
    exact List.flatMap_congr fun qv hqv => by
      rw [hcut qv ((hphrases qv).mp hqv).2, Nat.mul_comm]
      rfl
  · intro entry
    simp only [List.mem_flatten, List.mem_map, hphrases]
    constructor
    · rintro ⟨_, ⟨qv, ⟨hqv, hne⟩, rfl⟩, hentry⟩
      exact ⟨qv, hqv, hne, List.mem_map.mp ((hperm qv hne).mem_iff.mp hentry)⟩
    · rintro ⟨qv, hqv, hne, hrow⟩
      exact ⟨_, ⟨qv, ⟨hqv, hne⟩, rfl⟩, (hperm qv hne).mem_iff.mpr (List.mem_map.mpr hrow)⟩

/-- Nothing is lost to the cuts: the search is exact. -/
theorem knnSearch_exact (h : ExactNearest query index pos)
    (hrows : ∀ tmpl, ((index.rows pos).map VectorRow.productTmplId).count tmpl ≤ 4)
    (hphrase : ∃ qv ∈ queryVectors, qv ≠ []) (k : ℕ) :
    NearestItems index pos queryVectors k (knnSearch query pos queryVectors k) := by
  obtain ⟨lists, hlists, hentries, hmem⟩ := exists_rankings h hrows queryVectors k
  have htop := Overfetch.topBest_of_largest hlists (by decide)
    (nearest_largest k (Overfetch.keysNodup_merge (Overfetch.cut (4 * k) lists)))
  rw [← hentries] at htop
  have hscores : ∀ tmpl, Overfetch.scores lists.flatten tmpl =
      index.similarities pos queryVectors tmpl := by
    intro tmpl
    ext sim
    unfold Overfetch.scores VectorIndex.similarities
    simp only [Set.mem_ofPred_eq, hmem, VectorIndex.hit, Prod.mk.injEq]
  have hitems : Overfetch.items lists.flatten = index.items pos := by
    ext tmpl
    obtain ⟨qv, hqv, hne⟩ := hphrase
    unfold VectorIndex.items
    rw [Overfetch.mem_items, List.mem_toFinset, List.mem_map]
    constructor
    · rintro ⟨sim, hentry⟩
      obtain ⟨_, -, -, row, hrow, heq⟩ := (hmem _).mp hentry
      exact ⟨row, hrow, congrArg Prod.fst heq⟩
    · rintro ⟨row, hrow, rfl⟩
      exact ⟨_, (hmem _).mpr ⟨qv, hqv, hne, row, hrow, rfl⟩⟩
  have hget : ∀ {tmpl sim}, (knnSearch query pos queryVectors k).get tmpl = some sim →
      (tmpl, sim) ∈ (knnSearch query pos queryVectors k).entries := OrderedMap.mem_of_get
  refine ⟨?_, ?_, ?_⟩
  · rw [htop.length, hitems]
  · intro tmpl sim hfound
    rw [← hscores]
    exact htop.isBest _ (hget hfound)
  · intro tmpl sim hfound other hout best hbest
    refine htop.le _ (hget hfound) other best ?_ fun hin => ?_
    · rwa [← hscores] at hbest
    · exact hout (List.mem_toFinset.mp hin)

/-! ## An index of two items -/

/-- A query that reads the whole table. -/
def scan (index : VectorIndex) : KnnQuery := fun qv pos limit =>
  .ok (((Rankings.sortBy (fun row => index.distance qv row.vector) (index.rows pos)).take limit).map
    fun row => ⟨row.productTmplId, 1 - index.distance qv row.vector⟩)

theorem scan_exactNearest (index : VectorIndex) (pos : PosConfigId) :
    ExactNearest (scan index) index pos := fun _ _ _ =>
  ⟨_, Rankings.sortBy_perm _ _, Rankings.sortBy_ordered _ _, rfl⟩

/-- The distance of one-dimensional vectors. -/
def lineIndex : VectorIndex where
  rows := fun _ => [⟨10, [1 / 10]⟩, ⟨10, [2 / 10]⟩, ⟨10, [3 / 10]⟩, ⟨11, [8 / 10]⟩, ⟨11, [4 / 10]⟩]
  distance := fun a b => |a.headD 0 - b.headD 0|

theorem knnSearch_exact_line :
    NearestItems lineIndex 7 [[0], [1], []] 1 (knnSearch (scan lineIndex) 7 [[0], [1], []] 1) ∧
      (knnSearch (scan lineIndex) 7 [[0], [1], []] 1).entries = [(10, 9 / 10)] := by
  refine ⟨knnSearch_exact (scan_exactNearest _ _) ?_ ⟨[0], by simp⟩ 1, by decide +kernel⟩
  intro tmpl
  by_cases hmem : tmpl ∈ (lineIndex.rows 7).map VectorRow.productTmplId
  · obtain rfl | rfl : tmpl = 10 ∨ tmpl = 11 := by simpa [lineIndex] using hmem
    · decide
    · decide
  · rw [List.count_eq_zero_of_not_mem hmem]
    exact Nat.zero_le 4

end VoiceOrder.Menu
