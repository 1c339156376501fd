import VoiceOrder.Shared.Types

/-! # Menu items and the lookups the cart needs -/

namespace VoiceOrder.Menu

/-- A modifier option of a menu item. The group fields are carried only by an
option of a required group, so an absent `required` means optional. -/
structure CandidateModifier where
  modifierKey : String
  ptavId : PtavId
  name : String
  names : Option LangMap
  priceExtraCents : Cents
  groupKey : Option String
  groupName : Option String
  required : Option Bool
  deriving DecidableEq, Repr

structure MenuItem where
  productTmplId : ProductTmplId
  menuItemKey : String
  names : LangMap
  basePriceCents : Cents
  available : Bool
  modifiers : List CandidateModifier
  deriving DecidableEq, Repr

/-- The item lookups the cart module needs. They are asynchronous reads, so the
interface is generic in the monad that runs them. -/
structure MenuLookup (m : Type → Type) where
  resolveItemKey : PosConfigId → String → m (Option MenuItem)
  findByTmplId : PosConfigId → ProductTmplId → m (Option MenuItem)
  getItems : PosConfigId → List ProductTmplId → m (List MenuItem)

/-- The in-memory store: every seeded item of each restaurant. -/
abbrev InMemoryMenuStore := PosConfigId → List MenuItem

namespace InMemoryMenuStore

def getItems (store : InMemoryMenuStore) (pos : PosConfigId) (tmpls : List ProductTmplId) :
    List MenuItem :=
  (store pos).filter (fun item => item.productTmplId ∈ tmpls)

def getItem (store : InMemoryMenuStore) (pos : PosConfigId) (tmpl : ProductTmplId) :
    Option MenuItem :=
  (store pos).find? (fun item => item.productTmplId = tmpl)

def getItemByKey (store : InMemoryMenuStore) (pos : PosConfigId) (menuItemKey : String) :
    Option MenuItem :=
  (store pos).find? (fun item => item.menuItemKey = menuItemKey)

/-- The menu service reads the store at request time and keeps no cache. -/
def toLookup (store : InMemoryMenuStore) : MenuLookup Id where
  resolveItemKey := store.getItemByKey
  findByTmplId := store.getItem
  getItems := store.getItems

end InMemoryMenuStore

/-! ## One-to-one options -/

/-- Within the item an option is determined by its modifier key, and by its ptav. -/
structure MenuItem.OneToOne (item : MenuItem) : Prop where
  key_inj : ∀ a ∈ item.modifiers, ∀ b ∈ item.modifiers, a.modifierKey = b.modifierKey → a = b
  ptav_inj : ∀ a ∈ item.modifiers, ∀ b ∈ item.modifiers, a.ptavId = b.ptavId → a = b

/-- The option a modifier key names on the item. -/
def MenuItem.optionOfKey (item : MenuItem) (key : String) : Option CandidateModifier :=
  item.modifiers.find? (fun modifier => modifier.modifierKey = key)

/-- The option a ptav names on the item. -/
def MenuItem.optionOfPtav (item : MenuItem) (ptavId : PtavId) : Option CandidateModifier :=
  item.modifiers.find? (fun modifier => modifier.ptavId = ptavId)

theorem MenuItem.optionOfKey_eq_some {item : MenuItem} (h : item.OneToOne) (key : String)
    (option : CandidateModifier) :
    item.optionOfKey key = some option ↔ option ∈ item.modifiers ∧ option.modifierKey = key := by
  constructor
  · intro hf
    exact ⟨List.mem_of_find?_eq_some hf, by simpa using List.find?_some hf⟩
  · rintro ⟨hm, hk⟩
    cases hf : item.optionOfKey key with
    | none =>
        have := List.find?_eq_none.mp hf option hm
        simp [hk] at this
    | some found =>
        have hfound : found.modifierKey = key := by simpa using List.find?_some hf
        rw [h.key_inj found (List.mem_of_find?_eq_some hf) option hm (hfound.trans hk.symm)]

theorem MenuItem.optionOfPtav_eq_some {item : MenuItem} (h : item.OneToOne) (ptavId : PtavId)
    (option : CandidateModifier) :
    item.optionOfPtav ptavId = some option ↔ option ∈ item.modifiers ∧ option.ptavId = ptavId := by
  constructor
  · intro hf
    exact ⟨List.mem_of_find?_eq_some hf, by simpa using List.find?_some hf⟩
  · rintro ⟨hm, hk⟩
    cases hf : item.optionOfPtav ptavId with
    | none =>
        have := List.find?_eq_none.mp hf option hm
        simp [hk] at this
    | some found =>
        have hfound : found.ptavId = ptavId := by simpa using List.find?_some hf
        rw [h.ptav_inj found (List.mem_of_find?_eq_some hf) option hm (hfound.trans hk.symm)]

/-- Every item the menu can return has one-to-one options. -/
structure MenuLookup.OneToOne (menu : MenuLookup Id) : Prop where
  resolveItemKey : ∀ pos key item, menu.resolveItemKey pos key = some item → item.OneToOne
  findByTmplId : ∀ pos tmpl item, menu.findByTmplId pos tmpl = some item → item.OneToOne

/-- The three lookups read one menu: an item is found under its own template id,
and the batched read returns exactly the items found one by one. -/
structure MenuLookup.Lawful (menu : MenuLookup Id) : Prop where
  tmpl_eq : ∀ {pos tmpl item}, menu.findByTmplId pos tmpl = some item → item.productTmplId = tmpl
  resolve_find : ∀ {pos key item}, menu.resolveItemKey pos key = some item →
    menu.findByTmplId pos item.productTmplId = some item
  mem_getItems : ∀ {pos tmpls item}, item ∈ (menu.getItems pos tmpls).run ↔
    item.productTmplId ∈ tmpls ∧ menu.findByTmplId pos item.productTmplId = some item

theorem InMemoryMenuStore.mem_of_getItem {store : InMemoryMenuStore} {pos : PosConfigId}
    {tmpl : ProductTmplId} {item : MenuItem} (h : store.getItem pos tmpl = some item) :
    item ∈ store pos :=
  List.mem_of_find?_eq_some h

theorem InMemoryMenuStore.mem_of_getItemByKey {store : InMemoryMenuStore} {pos : PosConfigId}
    {key : String} {item : MenuItem} (h : store.getItemByKey pos key = some item) :
    item ∈ store pos :=
  List.mem_of_find?_eq_some h

theorem InMemoryMenuStore.oneToOne {store : InMemoryMenuStore}
    (h : ∀ pos, ∀ item ∈ store pos, item.OneToOne) : store.toLookup.OneToOne where
  resolveItemKey := fun pos _ item hf => h pos item (mem_of_getItemByKey hf)
  findByTmplId := fun pos _ item hf => h pos item (mem_of_getItem hf)

/-- The in-memory store is lawful when no template id is seeded twice. -/
theorem InMemoryMenuStore.lawful {store : InMemoryMenuStore}
    (h : ∀ pos, ∀ a ∈ store pos, ∀ b ∈ store pos, a.productTmplId = b.productTmplId → a = b) :
    store.toLookup.Lawful := by
  have hfind : ∀ pos item, item ∈ store pos → store.getItem pos item.productTmplId = some item := by
    intro pos item hm
    cases hf : store.getItem pos item.productTmplId with
    | none =>
        have := List.find?_eq_none.mp hf item hm
        simp at this
    | some found =>
        have hfound : found.productTmplId = item.productTmplId := by simpa using List.find?_some hf
        rw [h pos found (mem_of_getItem hf) item hm hfound]
  refine ⟨?_, ?_, ?_⟩
  · intro pos tmpl item hf
    simpa using List.find?_some hf
  · intro pos key item hf
    exact hfind pos item (mem_of_getItemByKey hf)
  · intro pos tmpls item
    constructor
    · intro hm
      obtain ⟨hm, ht⟩ := List.mem_filter.mp hm
      exact ⟨by simpa using ht, hfind pos item hm⟩
    · rintro ⟨ht, hf⟩
      exact List.mem_filter.mpr ⟨mem_of_getItem hf, decide_eq_true ht⟩

/-! ## A one-item menu -/

/-- An option of the sample item, outside any required group. -/
def extraCheese : CandidateModifier where
  modifierKey := "extra_cheese"
  ptavId := 901
  name := "Extra cheese"
  names := none
  priceExtraCents := 150
  groupKey := none
  groupName := none
  required := none

/-- The options of the sample item's required group. -/
def bun (modifierKey : String) (ptavId : PtavId) : CandidateModifier where
  modifierKey := modifierKey
  ptavId := ptavId
  name := modifierKey
  names := none
  priceExtraCents := 0
  groupKey := some "bun"
  groupName := some "Bun"
  required := some true

def chickenBurger : MenuItem where
  productTmplId := 10
  menuItemKey := "chicken_burger"
  names := [("en_US", "Chicken Burger")]
  basePriceCents := 500
  available := true
  modifiers := [extraCheese, bun "sesame" 910, bun "brioche" 911]

/-- A restaurant that sells one item. -/
def burgerStore : InMemoryMenuStore := fun _ => [chickenBurger]

theorem chickenBurger_oneToOne : chickenBurger.OneToOne := by
  constructor <;> decide

theorem burgerStore_oneToOne : burgerStore.toLookup.OneToOne := by
  apply InMemoryMenuStore.oneToOne
  intro pos item hitem
  exact List.mem_singleton.mp hitem ▸ chickenBurger_oneToOne

theorem burgerStore_lawful : burgerStore.toLookup.Lawful := by
  apply InMemoryMenuStore.lawful
  intro pos a ha b hb _
  rw [List.mem_singleton.mp ha, List.mem_singleton.mp hb]

end VoiceOrder.Menu
