import VoiceOrder.Menu.CandidateMatcher

/-! # The menu service

Relevance search, price filter and popularity sort in one call: the candidates of a search by
popularity are taken uncut, ranked by how they sell, and only then cut. -/

namespace VoiceOrder.Menu

open VoiceOrder.Ordering VoiceOrder.Backend

/-- The days of trade that popularity is about. -/
def windowDays : ℕ := 90

/-- The last ranks of the tiers. -/
def topRank : ℕ := 5

def popularRank : ℕ := 20

/-- Items without a rank have no tier, rather than a bottom one. -/
def tierOf : Option ℕ → Option PopularityTier
  | none => none
  | some rank =>
      if rank ≤ topRank then some .top
      else if rank ≤ popularRank then some .popular
      else none

/-- The items sold, the best seller first. -/
def salesOrder (qtySold : TmplMap) : List ProductTmplId :=
  Rankings.sortBy (fun tmpl => -(qtySold.get tmpl).getD 0) qtySold.keys

/-- The ranks by sales, from 1. -/
def rankOf (ranked : List ProductTmplId) : List (ProductTmplId × ℕ) :=
  OrderedMap.ofEntries (ranked.zipIdx 1)

def withTier (ranks : List (ProductTmplId × ℕ)) (item : CandidateItem) : CandidateItem :=
  match tierOf (OrderedMap.get ranks item.productTmplId) with
  | none => item
  | some tier => { item with popularity := some tier }

/-- The items by how they sell, with their tiers. Those that do not come last. -/
def bySales (qtySold : TmplMap) (items : List CandidateItem) : List CandidateItem :=
  let ranked := salesOrder qtySold
  let unranked := ranked.length + 1
  Rankings.sortBy (fun item => (OrderedMap.get (rankOf ranked) item.productTmplId).getD unranked)
    (items.map (withTier (rankOf ranked)))

section

variable (toLowerCase : String → String) {m : Type → Type} [Monad m] (store : MenuStore m)
  (embedder : EmbeddingService m)

/-- Every available item in the window, in the order of the menu. -/
def browse (pos : PosConfigId) (price : MatchOptions) : m (List CandidateItem) := do
  let items ← store.allItems pos
  return (items.filter fun item =>
    item.available && withinPrice item.basePriceCents price).map toCandidate

/-- The query of a search. An empty one is none. -/
def asked (opts : MenuSearchOptions) : Option String := opts.query.filter fun query => query ≠ ""

def searchMenu (pos : PosConfigId) (opts : MenuSearchOptions) : m (List CandidateItem) := do
  let limit := min (opts.limit.getD maxCandidatesToLlm) maxCandidatesToLlm
  -- Without a query there is no relevance to rank by.
  let byPopularity := opts.sort = some .popularity ∨ asked opts = none
  let price : MatchOptions :=
    { limit := none, minPriceCents := opts.minPriceCents, maxPriceCents := opts.maxPriceCents }
  if ¬byPopularity then
    return ← matchCandidates toLowerCase store embedder pos (opts.query.getD "")
      { price with limit := some (.upTo limit) }
  let qtySold ← store.popularity pos windowDays
  let items ←
    match asked opts with
    | some query =>
        matchCandidates toLowerCase store embedder pos query { price with limit := some .infinity }
    | none => browse store pos price
  return (Limit.upTo limit).slice (bySales qtySold items)

end

/-! ## Ranks -/

variable {ranked : List ProductTmplId} {tmpl : ProductTmplId}

/-- The rank of an item by sales. Those that did not sell share the one after the last. -/
def salesRank (ranked : List ProductTmplId) (tmpl : ProductTmplId) : ℕ := ranked.idxOf tmpl + 1

/-- The rank of an item among those that sold. -/
def globalRank (ranked : List ProductTmplId) (tmpl : ProductTmplId) : Option ℕ :=
  if tmpl ∈ ranked then some (salesRank ranked tmpl) else none

/-- The rank of an item is its position. -/
theorem get_rankOf (h : ranked.Nodup) :
    OrderedMap.get (rankOf ranked) tmpl = globalRank ranked tmpl := by
  have hmem : ∀ rank, (tmpl, rank) ∈ ranked.zipIdx 1 ↔
      1 ≤ rank ∧ ranked[rank - 1]? = some tmpl := fun rank => List.mem_zipIdx_iff_le_and_getElem?_sub
  have hone : ∀ a ∈ ranked.zipIdx 1, ∀ b ∈ ranked.zipIdx 1, a.1 = b.1 → a.2 = b.2 := by
    rintro ⟨tmpl, i⟩ ha ⟨other, j⟩ hb (rfl : tmpl = other)
    obtain ⟨hi, hgeti⟩ := List.mem_zipIdx_iff_le_and_getElem?_sub.mp ha
    obtain ⟨hj, hgetj⟩ := List.mem_zipIdx_iff_le_and_getElem?_sub.mp hb
    have hlt : i - 1 < ranked.length := (List.getElem?_eq_some_iff.mp hgeti).1
    have := (List.getElem?_inj hlt h).mp (hgeti.trans hgetj.symm)
    dsimp only at hi hj ⊢
    omega
  unfold globalRank
  by_cases hin : tmpl ∈ ranked
  · rw [if_pos hin]
    exact (OrderedMap.get_ofEntries_eq_some hone).mpr
      ((hmem _).mpr ⟨Nat.le_add_left _ _, List.getElem?_idxOf hin⟩)
  · rw [if_neg hin]
    cases hget : OrderedMap.get (rankOf ranked) tmpl with
    | none => rfl
    | some rank =>
        obtain ⟨-, hat⟩ := (hmem rank).mp (OrderedMap.mem_of_get_ofEntries hget)
        exact absurd (List.mem_of_getElem? hat) hin

theorem salesOrder_nodup (qtySold : TmplMap) : (salesOrder qtySold).Nodup :=
  (Rankings.sortBy_perm _ _).nodup_iff.mpr qtySold.keys_nodup

theorem getD_globalRank (ranked : List ProductTmplId) (tmpl : ProductTmplId) :
    (globalRank ranked tmpl).getD (ranked.length + 1) = salesRank ranked tmpl := by
  unfold globalRank
  split
  · rfl
  · unfold salesRank
    rw [List.idxOf_eq_length (by assumption)]
    rfl

@[simp] theorem withTier_productTmplId (ranks : List (ProductTmplId × ℕ)) (item : CandidateItem) :
    (withTier ranks item).productTmplId = item.productTmplId := by
  unfold withTier
  split <;> rfl

/-- The ranking by sales reads nothing of an item but what it is. -/
theorem bySales_eq (qtySold : TmplMap) (items : List CandidateItem) :
    bySales qtySold items =
      (Rankings.sortBy (fun item => salesRank (salesOrder qtySold) item.productTmplId) items).map
        (withTier (rankOf (salesOrder qtySold))) := by
  unfold bySales
  dsimp only
  rw [Rankings.sortBy_map]
  simp only [withTier_productTmplId, get_rankOf (salesOrder_nodup qtySold)]
  congr 2
  funext item
  exact getD_globalRank _ _

end VoiceOrder.Menu
