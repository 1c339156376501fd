import VoiceOrder.Menu.MenuService

/-! # What a menu search returns

The search, with its two rankings and its cuts, returns the first items of one ranking of
everything that passes the filters. -/

namespace VoiceOrder.Menu

open VoiceOrder.Ordering VoiceOrder.Backend Rankings

/-! ## What is asked for -/

/-- An available item inside the price window. -/
def Offered (opts : MenuSearchOptions) (item : MenuItem) : Prop :=
  item.available = true ∧ (∀ min ∈ opts.minPriceCents, min ≤ item.basePriceCents) ∧
    ∀ max ∈ opts.maxPriceCents, item.basePriceCents ≤ max

instance (opts : MenuSearchOptions) : DecidablePred (Offered opts) := fun _ =>
  inferInstanceAs (Decidable (_ ∧ _ ∧ _))

/-- How many results there are at most. -/
def resultLimit (opts : MenuSearchOptions) : ℕ := (min (opts.limit.getD 8) 8).toNat

/-- What the retrieval finds for a text: its phrases, the items found, and how near each is. -/
structure Retrieval where
  phrases : List String
  items : List MenuItem
  near : MenuItem → ℚ

section

variable (toLowerCase : String → String) (store : MenuStore Id) (embedder : EmbeddingService Id)
  (pos : PosConfigId) (menu : List MenuItem)

/-- The vectors of some phrases, as far as the provider has any. -/
def phraseVectors (phrases : List String) : List Embedding :=
  if embedder.dimensions = 0 then []
  else (embedder.embedBatch phrases .query).run.filter fun v => !v.isEmpty

/-- The items near the phrases or named alike. Where that is none, every item of the menu. -/
def retrieval (text : String) : Retrieval :=
  let phrases := chunk (toLowerCase text)
  let vectors := phraseVectors embedder phrases
  let sims := (store.knnSearch pos vectors knnK).run
  let found := sims.keys ++ (store.lexicalSearch pos phrases).run
  if phrases = [] then ⟨[], [], fun _ => 0⟩
  else if vectors = [] ∨ found = [] then ⟨phrases, menu, fun _ => 0⟩
  else ⟨phrases, menu.filter fun item => item.productTmplId ∈ found,
    fun item => (sims.get item.productTmplId).getD 0⟩

/-- The combined score of an item for a text. -/
def relevance (text : String) (item : MenuItem) : ℚ :=
  let found := retrieval toLowerCase store embedder pos menu text
  score toLowerCase found.phrases found.near item

/-- Everything retrieved that passes the filters and the threshold. -/
def relevant (opts : MenuSearchOptions) (text : String) : List MenuItem :=
  (retrieval toLowerCase store embedder pos menu text).items.filter fun item =>
    Offered opts item ∧ scoreThreshold ≤ relevance toLowerCase store embedder pos menu text item

/-- What a search is about, uncut: the relevant items by their scores, or without a query
whatever is offered. -/
def Corpus (opts : MenuSearchOptions) (corpus : List MenuItem) : Prop :=
  match asked opts with
  | some query =>
      StablyRanked (fun item => -relevance toLowerCase store embedder pos menu query item)
        (relevant toLowerCase store embedder pos menu opts query) corpus
  | none => corpus = menu.filter (Offered opts)

/-- An item as the search returns it. -/
def shown (opts : MenuSearchOptions) (tier : Option PopularityTier) (item : MenuItem) :
    CandidateItem :=
  let score := (asked opts).map fun query =>
    relevance toLowerCase store embedder pos menu query item
  { toCandidate item with score, popularity := tier }

end

/-- What every search returns: offered items of the menu, each once, up to the limit. -/
structure Listed (menu : List MenuItem) (opts : MenuSearchOptions) (results : List CandidateItem) :
    Prop where
  offered : ∀ result ∈ results, ∃ item ∈ menu, Offered opts item ∧
    result = { toCandidate item with score := result.score, popularity := result.popularity }
  distinct : (results.map CandidateItem.productTmplId).Nodup
  length_le : results.length ≤ resultLimit opts

/-- The results are the best of the corpus by sales: what is left out does not rank before them,
and sold no more. -/
structure BestSellers (qtySold : TmplMap) (sales : List ProductTmplId) (corpus : List MenuItem)
    (results : List CandidateItem) : Prop where
  rank_le : ∀ item ∈ corpus, item.productTmplId ∉ results.map CandidateItem.productTmplId →
    ∀ result ∈ results, salesRank sales result.productTmplId ≤ salesRank sales item.productTmplId
  sold_le : ∀ item ∈ corpus, item.productTmplId ∉ results.map CandidateItem.productTmplId →
    ∀ qty, qtySold.get item.productTmplId = some qty →
      ∀ result ∈ results, ∃ more, qtySold.get result.productTmplId = some more ∧ qty ≤ more

/-! ## The matcher -/

section

variable {toLowerCase : String → String} {store : MenuStore Id} {embedder : EmbeddingService Id}
  {pos : PosConfigId} {menu : List MenuItem} {opts : MenuSearchOptions} {text : String}
  {limit : Limit}

theorem matchCandidates_run (h : store.Serves pos menu) (opts : MatchOptions) :
    (matchCandidates toLowerCase store embedder pos text opts).run =
      let found := retrieval toLowerCase store embedder pos menu text
      rank toLowerCase found.items found.phrases found.near opts := by
  have hscan : ∀ phrases, (fuzzyScan toLowerCase store pos phrases opts).run =
      rank toLowerCase menu phrases (fun _ => 0) opts := by
    intro phrases
    unfold fuzzyScan
    rw [← h.allItems]
    rfl
  unfold matchCandidates retrieval phraseVectors
  dsimp only
  by_cases hphrases : chunk (toLowerCase text) = []
  · simp [hphrases, rank_eq, sortBy]
  · rw [if_neg (by simpa using hphrases), if_neg hphrases]
    by_cases hdims : embedder.dimensions = 0
    · rw [if_pos hdims, if_pos hdims, if_pos (Or.inl rfl)]
      exact hscan _
    · rw [if_neg hdims, if_neg hdims]
      rw [Id.run_bind]
      generalize ((embedder.embedBatch (chunk (toLowerCase text)) .query).run.filter
        fun v => !v.isEmpty) = vectors
      by_cases hvectors : vectors = []
      · rw [if_pos (List.isEmpty_iff.mpr hvectors), if_pos (Or.inl hvectors)]
        exact hscan _
      · rw [if_neg (fun hempty => hvectors (List.isEmpty_iff.mp hempty)), Id.run_bind, Id.run_bind]
        generalize (store.knnSearch pos vectors knnK).run = sims
        generalize (store.lexicalSearch pos (chunk (toLowerCase text))).run = lexIds
        by_cases hfound : sims.keys ++ lexIds = []
        · rw [if_pos (List.isEmpty_iff.mpr ((OrderedMap.foldl_add_eq_nil _).mpr hfound)),
            if_pos (Or.inr hfound)]
          exact hscan _
        · rw [if_neg (fun hempty =>
              hfound ((OrderedMap.foldl_add_eq_nil _).mp (List.isEmpty_iff.mp hempty))),
            if_neg (not_or.mpr ⟨hvectors, hfound⟩), Id.run_bind, h.getItems]
          simp only [OrderedMap.mem_foldl_add, List.not_mem_nil, false_or]
          rfl

/-- The constraints that the search hands on. -/
def priceOptions (opts : MenuSearchOptions) (limit : Option Limit) : MatchOptions where
  limit := limit
  minPriceCents := opts.minPriceCents
  maxPriceCents := opts.maxPriceCents

theorem offered_iff {limit : Option Limit} {item : MenuItem} :
    (item.available && withinPrice item.basePriceCents (priceOptions opts limit)) = true ↔
      Offered opts item := by
  unfold withinPrice priceOptions Offered
  cases opts.minPriceCents <;> cases opts.maxPriceCents <;> simp

/-- The matcher returns the first of the relevant items. -/
theorem matchCandidates_eq (h : store.Serves pos menu) (hasked : asked opts = some text) :
    (matchCandidates toLowerCase store embedder pos text (priceOptions opts (some limit))).run =
      (limit.slice (sortBy (fun item => -relevance toLowerCase store embedder pos menu text item)
        (relevant toLowerCase store embedder pos menu opts text))).map
        (shown toLowerCase store embedder pos menu opts none) := by
  have hpasses : ∀ item, passes toLowerCase
      (retrieval toLowerCase store embedder pos menu text).phrases
      (retrieval toLowerCase store embedder pos menu text).near (priceOptions opts (some limit)) item =
        decide (Offered opts item ∧
          scoreThreshold ≤ relevance toLowerCase store embedder pos menu text item) := by
    intro item
    unfold passes
    rw [Bool.eq_iff_iff, Bool.and_eq_true, offered_iff, decide_eq_true_iff, decide_eq_true_iff]
    rfl
  rw [matchCandidates_run h]
  dsimp only
  rw [rank_eq, funext hpasses]
  unfold shown
  rw [hasked]
  rfl

theorem retrieval_sublist (text : String) :
    (retrieval toLowerCase store embedder pos menu text).items.Sublist menu := by
  unfold retrieval
  dsimp only
  split_ifs
  · exact List.nil_sublist menu
  · exact List.Sublist.refl menu
  · exact List.filter_sublist

/-! ## The corpus -/

variable {corpus ranked : List MenuItem} {results : List CandidateItem} {item : MenuItem}

theorem Corpus.offered (h : Corpus toLowerCase store embedder pos menu opts corpus)
    (hitem : item ∈ corpus) : item ∈ menu ∧ Offered opts item := by
  unfold Corpus at h
  split at h
  case h_1 query _ =>
    have hrelevant := List.mem_filter.mp (h.perm.mem_iff.mp hitem)
    exact ⟨(retrieval_sublist query).subset hrelevant.1, (of_decide_eq_true hrelevant.2).1⟩
  case h_2 =>
    subst h
    exact ⟨List.mem_of_mem_filter hitem, of_decide_eq_true (List.mem_filter.mp hitem).2⟩

theorem Corpus.distinct (h : Corpus toLowerCase store embedder pos menu opts corpus)
    (hmenu : (menu.map MenuItem.productTmplId).Nodup) :
    (corpus.map MenuItem.productTmplId).Nodup := by
  unfold Corpus at h
  split at h
  case h_1 query _ =>
    rw [(h.perm.map _).nodup_iff]
    exact hmenu.sublist ((List.filter_sublist.trans (retrieval_sublist query)).map _)
  case h_2 =>
    subst h
    exact hmenu.sublist (List.filter_sublist.map _)

/-- The first items of a corpus in any order. -/
theorem listed_take (h : Corpus toLowerCase store embedder pos menu opts corpus)
    (hmenu : (menu.map MenuItem.productTmplId).Nodup) (hranked : ranked.Perm corpus)
    {tier : MenuItem → Option PopularityTier}
    (hresults : results = (ranked.take (resultLimit opts)).map fun item =>
      shown toLowerCase store embedder pos menu opts (tier item) item) :
    Listed menu opts results := by
  subst hresults
  refine ⟨?_, ?_, ?_⟩
  · intro result hresult
    obtain ⟨item, hitem, rfl⟩ := List.mem_map.mp hresult
    obtain ⟨hin, hoffered⟩ := h.offered (hranked.mem_iff.mp (List.mem_of_mem_take hitem))
    exact ⟨item, hin, hoffered, rfl⟩
  · rw [List.map_map]
    exact ((hranked.map _).nodup_iff.mpr (h.distinct hmenu)).sublist ((List.take_sublist _ _).map _)
  · rw [List.length_map]
    exact List.length_take_le _ _

/-- What sold more than a returned item is returned. -/
theorem bestSellers_take {qtySold : TmplMap} {sales : List ProductTmplId} {n : ℕ}
    (hsales : StablyRanked (fun tmpl => -(qtySold.get tmpl).getD 0) qtySold.keys sales)
    (hranked : StablyRanked (fun item => salesRank sales item.productTmplId) corpus ranked)
    {tier : MenuItem → Option PopularityTier}
    (hresults : results = (ranked.take n).map fun item =>
      shown toLowerCase store embedder pos menu opts (tier item) item) :
    BestSellers qtySold sales corpus results := by
  have htmpls : results.map CandidateItem.productTmplId =
      (ranked.take n).map MenuItem.productTmplId := by
    rw [hresults, List.map_map]
    rfl
  have hrank : ∀ item ∈ corpus, item.productTmplId ∉ results.map CandidateItem.productTmplId →
      ∀ result ∈ results,
        salesRank sales result.productTmplId ≤ salesRank sales item.productTmplId := by
    intro item hitem hout result hresult
    have hin := List.mem_map_of_mem (f := CandidateItem.productTmplId) hresult
    rw [htmpls] at hin hout
    obtain ⟨best, hbest, heq⟩ := List.mem_map.mp hin
    rw [← heq]
    exact hranked.le_of_left_out hbest hitem fun htake =>
      hout (List.mem_map_of_mem (f := MenuItem.productTmplId) htake)
  refine ⟨hrank, ?_⟩
  intro item hitem hout qty hqty result hresult
  have hle : sales.idxOf result.productTmplId ≤ sales.idxOf item.productTmplId :=
    Nat.le_of_succ_le_succ (hrank item hitem hout result hresult)
  have hsold : item.productTmplId ∈ sales :=
    hsales.perm.mem_iff.mpr (TmplMap.mem_keys.mpr ⟨qty, hqty⟩)
  have hresultSold : result.productTmplId ∈ sales :=
    List.idxOf_lt_length_iff.mp (hle.trans_lt (List.idxOf_lt_length_of_mem hsold))
  obtain ⟨more, hmore⟩ := TmplMap.mem_keys.mp (hsales.perm.mem_iff.mp hresultSold)
  have hkey := hsales.le_of_idxOf_le hsold hle
  rw [hmore, hqty] at hkey
  exact ⟨more, hmore, neg_le_neg_iff.mp hkey⟩

/-! ## The search -/

/-- Whether a search ranks by popularity. -/
def ByPopularity (opts : MenuSearchOptions) : Prop :=
  opts.sort = some .popularity ∨ asked opts = none

theorem slice_resultLimit {α : Type*} (hlimit : ∀ limit ∈ opts.limit, 0 < limit) (entries : List α) :
    (Limit.upTo (min (opts.limit.getD maxCandidatesToLlm) maxCandidatesToLlm)).slice entries =
      entries.take (resultLimit opts) := by
  apply Limit.slice_upTo
  cases hopt : opts.limit with
  | none => decide
  | some limit => exact le_min (hlimit limit hopt).le (by decide)

theorem withTier_shown {sales : List ProductTmplId} (h : sales.Nodup) (item : MenuItem) :
    withTier (rankOf sales) (shown toLowerCase store embedder pos menu opts none item) =
      shown toLowerCase store embedder pos menu opts (tierOf (globalRank sales item.productTmplId))
        item := by
  have hid : (shown toLowerCase store embedder pos menu opts none item).productTmplId =
      item.productTmplId := rfl
  rw [withTier, get_rankOf h, hid]
  cases tierOf (globalRank sales item.productTmplId) <;> rfl

/-- The corpus in the order that the matcher or the menu gives it. -/
def uncut (toLowerCase : String → String) (store : MenuStore Id) (embedder : EmbeddingService Id)
    (pos : PosConfigId) (menu : List MenuItem) (opts : MenuSearchOptions) : List MenuItem :=
  match asked opts with
  | some query => sortBy (fun item => -relevance toLowerCase store embedder pos menu query item)
      (relevant toLowerCase store embedder pos menu opts query)
  | none => menu.filter (Offered opts)

theorem uncut_corpus : Corpus toLowerCase store embedder pos menu opts
    (uncut toLowerCase store embedder pos menu opts) := by
  unfold Corpus uncut
  cases asked opts with
  | some query => exact sortBy_stablyRanked _ _
  | none => rfl

variable (toLowerCase embedder) in
/-- By relevance: the first of the corpus. -/
theorem searchMenu_relevance (h : store.Serves pos menu) (hlimit : ∀ limit ∈ opts.limit, 0 < limit)
    (hmode : ¬ByPopularity opts) :
    (searchMenu toLowerCase store embedder pos opts).run =
      ((uncut toLowerCase store embedder pos menu opts).take (resultLimit opts)).map
        (shown toLowerCase store embedder pos menu opts none) := by
  obtain ⟨text, hasked⟩ := Option.ne_none_iff_exists'.mp (not_or.mp hmode).2
  have hquery : opts.query.getD "" = text := by
    rw [(Option.filter_eq_some_iff.mp hasked).1]
    rfl
  unfold searchMenu uncut
  dsimp only
  rw [if_pos (show ¬(opts.sort = some .popularity ∨ asked opts = none) from hmode), hquery,
    hasked, ← slice_resultLimit hlimit]
  exact matchCandidates_eq h hasked

variable (toLowerCase embedder) in
/-- By popularity: the first of the corpus as it sells. -/
theorem searchMenu_popularity (h : store.Serves pos menu) (hlimit : ∀ limit ∈ opts.limit, 0 < limit)
    (hmode : ByPopularity opts) :
    let sales := salesOrder (store.popularity pos windowDays).run
    (searchMenu toLowerCase store embedder pos opts).run =
      ((sortBy (fun item => salesRank sales item.productTmplId)
        (uncut toLowerCase store embedder pos menu opts)).take (resultLimit opts)).map fun item =>
          shown toLowerCase store embedder pos menu opts
            (tierOf (globalRank sales item.productTmplId)) item := by
  intro sales
  have hsorted : (bySales (store.popularity pos windowDays).run
      ((uncut toLowerCase store embedder pos menu opts).map
        (shown toLowerCase store embedder pos menu opts none))) =
      (sortBy (fun item => salesRank sales item.productTmplId)
        (uncut toLowerCase store embedder pos menu opts)).map fun item =>
          shown toLowerCase store embedder pos menu opts
            (tierOf (globalRank sales item.productTmplId)) item := by
    rw [bySales_eq, sortBy_map, List.map_map]
    exact List.map_congr_left fun item _ => withTier_shown (salesOrder_nodup _) item
  rw [List.map_take, ← hsorted, ← slice_resultLimit hlimit]
  unfold searchMenu
  dsimp only
  rw [if_neg (show ¬¬(opts.sort = some .popularity ∨ asked opts = none) from not_not.mpr hmode),
    Id.run_bind]
  cases hasked : asked opts with
  | some text =>
      dsimp only
      rw [Id.run_bind, Id.run_pure]
      congr 2
      unfold uncut
      rw [hasked]
      exact matchCandidates_eq h hasked
  | none =>
      dsimp only
      rw [Id.run_bind, Id.run_pure]
      congr 2
      unfold uncut shown browse
      rw [Id.run_bind, Id.run_pure, h.allItems, hasked]
      have hfilter : (fun item : MenuItem => item.available && withinPrice item.basePriceCents
          (priceOptions opts none)) = fun item => decide (Offered opts item) := by
        funext item
        rw [Bool.eq_iff_iff, offered_iff, decide_eq_true_iff]
      exact congrArg (List.map toCandidate) (congrArg (menu.filter ·) hfilter)

end

/-- The answer to a search, where `sales` are the items sold, the best seller first. -/
structure Answers (toLowerCase : String → String) (store : MenuStore Id)
    (embedder : EmbeddingService Id) (pos : PosConfigId) (menu : List MenuItem)
    (sales : List ProductTmplId) (opts : MenuSearchOptions) (results : List CandidateItem) :
    Prop where
  listed : Listed menu opts results
  by_relevance : ¬ByPopularity opts →
    ∃ corpus, Corpus toLowerCase store embedder pos menu opts corpus ∧
      results = (corpus.take (resultLimit opts)).map
        (shown toLowerCase store embedder pos menu opts none)
  by_popularity : ByPopularity opts →
    ∃ corpus ranked, Corpus toLowerCase store embedder pos menu opts corpus ∧
      StablyRanked (fun item => salesRank sales item.productTmplId) corpus ranked ∧
      results = (ranked.take (resultLimit opts)).map (fun item =>
        shown toLowerCase store embedder pos menu opts
          (tierOf (globalRank sales item.productTmplId)) item) ∧
      BestSellers (store.popularity pos windowDays).run sales corpus results
  /-- A tier tells the rank among all items sold, whatever was searched for. -/
  tier : ByPopularity opts → ∀ result ∈ results,
    result.popularity = tierOf (globalRank sales result.productTmplId)

section

variable {toLowerCase : String → String} {store : MenuStore Id} {embedder : EmbeddingService Id}
  {pos : PosConfigId} {menu : List MenuItem}

variable (toLowerCase embedder) in
/-- The search returns the right items: one ranking of what sold serves every search. -/
theorem searchMenu_answers (h : store.Serves pos menu) :
    ∃ sales, StablyRanked
        (fun tmpl => -((store.popularity pos windowDays).run.get tmpl).getD 0)
        (store.popularity pos windowDays).run.keys sales ∧
      ∀ opts : MenuSearchOptions, (∀ limit ∈ opts.limit, 0 < limit) →
        Answers toLowerCase store embedder pos menu sales opts
          (searchMenu toLowerCase store embedder pos opts).run := by
  have hsales := sortBy_stablyRanked
    (fun tmpl => -((store.popularity pos windowDays).run.get tmpl).getD 0)
    (store.popularity pos windowDays).run.keys
  refine ⟨salesOrder (store.popularity pos windowDays).run, hsales, ?_⟩
  intro opts hlimit
  have hcorpus : Corpus toLowerCase store embedder pos menu opts
      (uncut toLowerCase store embedder pos menu opts) := uncut_corpus
  have hranked := sortBy_stablyRanked
    (fun item : MenuItem =>
      salesRank (salesOrder (store.popularity pos windowDays).run) item.productTmplId)
    (uncut toLowerCase store embedder pos menu opts)
  by_cases hmode : ByPopularity opts
  · have hresults := searchMenu_popularity toLowerCase embedder h hlimit hmode
    refine ⟨listed_take hcorpus h.distinct hranked.perm hresults, fun hno => absurd hmode hno,
      fun _ => ⟨_, _, hcorpus, hranked, hresults, bestSellers_take hsales hranked hresults⟩, ?_⟩
    intro _ result hresult
    rw [hresults] at hresult
    obtain ⟨item, -, rfl⟩ := List.mem_map.mp hresult
    rfl
  · have hresults := searchMenu_relevance toLowerCase embedder h hlimit hmode
    exact ⟨listed_take hcorpus h.distinct (List.Perm.refl _) hresults,
      fun _ => ⟨_, hcorpus, hresults⟩, fun hyes => absurd hyes hmode, fun hyes => absurd hyes hmode⟩

end

def fishBurger : MenuItem :=
  { chickenBurger with
    productTmplId := 11
    menuItemKey := "fish_burger"
    names := [("en_US", "Fish Burger")] }

def salad : MenuItem :=
  { chickenBurger with
    productTmplId := 12
    menuItemKey := "salad"
    names := [("en_US", "Salad")] }

/-- A restaurant whose best seller is no burger. -/
def burgerMenu : InMemoryMenuStore := fun _ => [chickenBurger, fishBurger, salad]

def burgerSales : TmplMap where
  entries := [(10, 5), (11, 20), (12, 50)]
  keysNodup := by
    unfold OrderedMap.KeysNodup
    decide

def burgerSearch : MenuStore Id :=
  burgerMenu.toMenuStore (fun _ => burgerSales) (fun _ _ _ => ⟨[], List.nodup_nil⟩) fun _ _ => []

/-- Searched for burgers by popularity, for one. -/
def popularBurger : MenuSearchOptions where
  query := some "burger"
  sort := some .popularity
  maxPriceCents := some 500
  minPriceCents := none
  limit := some 1

/-- The case mapping of ASCII texts. -/
def asciiLower (text : String) : String := String.ofList (text.toList.map Char.toLower)

theorem searchMenu_answers_burger :
    (∃ sales, StablyRanked (fun tmpl => -(burgerSales.get tmpl).getD 0) burgerSales.keys sales ∧
      Answers asciiLower burgerSearch stubEmbeddingService 7 (burgerMenu 7) sales popularBurger
        (searchMenu asciiLower burgerSearch stubEmbeddingService 7 popularBurger).run) ∧
      (searchMenu asciiLower burgerSearch stubEmbeddingService 7 popularBurger).run.map
        (fun result => (result.productTmplId, result.popularity)) = [(11, some .top)] := by
  refine ⟨?_, by decide +kernel⟩
  have hserves : burgerSearch.Serves 7 (burgerMenu 7) := InMemoryMenuStore.serves (by decide)
  obtain ⟨sales, hsales, hall⟩ := searchMenu_answers asciiLower stubEmbeddingService hserves
  refine ⟨sales, hsales, hall popularBurger ?_⟩
  intro limit hlimit
  obtain rfl : 1 = limit := by simpa [popularBurger] using hlimit
  decide

end VoiceOrder.Menu
