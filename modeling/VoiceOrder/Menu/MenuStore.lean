import VoiceOrder.Menu.Items
import VoiceOrder.Shared.OrderedMap
import Mathlib.Data.Rat.Defs

/-! # The queries of the menu search

Every one hits the store at request time. -/

namespace VoiceOrder.Menu

/-- A map from items to numbers, in the order its keys were added. -/
structure TmplMap where
  entries : List (ProductTmplId × ℚ)
  keysNodup : OrderedMap.KeysNodup entries

def TmplMap.get (map : TmplMap) (tmpl : ProductTmplId) : Option ℚ :=
  OrderedMap.get map.entries tmpl

def TmplMap.keys (map : TmplMap) : List ProductTmplId := map.entries.map Prod.fst

theorem TmplMap.mem_keys {map : TmplMap} {tmpl : ProductTmplId} :
    tmpl ∈ map.keys ↔ ∃ value, map.get tmpl = some value := by
  simp only [TmplMap.keys, TmplMap.get, List.mem_map, Prod.exists, exists_and_right, exists_eq_right]
  exact exists_congr fun value => OrderedMap.mem_iff_get map.keysNodup tmpl value

theorem TmplMap.keys_nodup (map : TmplMap) : map.keys.Nodup := map.keysNodup

abbrev Embedding := List ℚ

/-- What the matcher and the search run against. They are asynchronous reads, so the interface is
generic in the monad that runs them. -/
structure MenuStore (m : Type → Type) where
  /-- The items near some vectors, with their best similarity. -/
  knnSearch : PosConfigId → List Embedding → ℕ → m TmplMap
  /-- The items whose names have a word of the phrases, each once. -/
  lexicalSearch : PosConfigId → List String → m (List ProductTmplId)
  getItems : PosConfigId → List ProductTmplId → m (List MenuItem)
  allItems : PosConfigId → m (List MenuItem)
  /-- Units sold over the last days. -/
  popularity : PosConfigId → ℕ → m TmplMap

/-- Menu names are passages, the phrases of a customer queries. -/
inductive EmbedRole where
  | query
  | passage
  deriving DecidableEq, Repr

structure EmbeddingService (m : Type → Type) where
  /-- The width of the vectors, 0 for the stub. -/
  dimensions : ℕ
  embedBatch : List String → EmbedRole → m (List Embedding)

/-- Empty vectors, so the matcher runs without an embedding provider. -/
def stubEmbeddingService : EmbeddingService Id where
  dimensions := 0
  embedBatch := fun texts _ => texts.map fun _ => []

/-- A store that reads its items off one menu, which has each item once. -/
structure MenuStore.Serves (store : MenuStore Id) (pos : PosConfigId) (menu : List MenuItem) :
    Prop where
  allItems : (store.allItems pos).run = menu
  getItems : ∀ tmpls, (store.getItems pos tmpls).run = menu.filter fun item => item.productTmplId ∈ tmpls
  distinct : (menu.map MenuItem.productTmplId).Nodup

namespace InMemoryMenuStore

/-- Only what is on the menu and sold on balance counts. -/
def popularity (store : InMemoryMenuStore) (sold : PosConfigId → TmplMap) (pos : PosConfigId) :
    TmplMap where
  entries := (sold pos).entries.filter fun entry =>
    0 < entry.2 ∧ entry.1 ∈ (store pos).map MenuItem.productTmplId
  keysNodup := (sold pos).keysNodup.sublist (List.filter_sublist.map _)

/-- The store with its two retrievals left open. -/
def toMenuStore (store : InMemoryMenuStore) (sold : PosConfigId → TmplMap)
    (knnSearch : PosConfigId → List Embedding → ℕ → TmplMap)
    (lexicalSearch : PosConfigId → List String → List ProductTmplId) : MenuStore Id where
  knnSearch := knnSearch
  lexicalSearch := lexicalSearch
  getItems := store.getItems
  allItems := store
  popularity := fun pos _ => store.popularity sold pos

theorem serves {store : InMemoryMenuStore} {pos : PosConfigId} {sold : PosConfigId → TmplMap}
    {knnSearch : PosConfigId → List Embedding → ℕ → TmplMap}
    {lexicalSearch : PosConfigId → List String → List ProductTmplId}
    (h : ((store pos).map MenuItem.productTmplId).Nodup) :
    (store.toMenuStore sold knnSearch lexicalSearch).Serves pos (store pos) :=
  ⟨rfl, fun _ => rfl, h⟩

end InMemoryMenuStore

end VoiceOrder.Menu
