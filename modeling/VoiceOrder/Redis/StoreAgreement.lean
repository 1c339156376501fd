import VoiceOrder.Redis.CartStores

/-! # Where the two pairs of stores agree

The keys of carts, devices and tables lie apart. The ledger's key of a request is also the key
of a cart, the one whose id is the request id with `req:` in front: what was written last under
such a key hides what was written before. -/

namespace VoiceOrder.Redis

open CartModule
open Backend (LedgerOutcome)

/-! ## The families of keys -/

/-- The cart that shares its key with the ledger entry of the request. -/
def sharedId (requestId : RequestId) : CartId := "req:" ++ requestId

/-- Keys of different families differ, but for those that a cart and a request share; keys of
one family differ like their ids. -/
structure KeysApart : Prop where
  carts : ∀ cartId other, cartKey cartId = cartKey other ↔ cartId = other
  requests : ∀ requestId other, reqKey requestId = reqKey other ↔ requestId = other
  devices : ∀ deviceId other, deviceKey deviceId = deviceKey other ↔ deviceId = other
  shared : ∀ cartId requestId, cartKey cartId = reqKey requestId ↔ cartId = sharedId requestId
  cartDevice : ∀ cartId deviceId, cartKey cartId ≠ deviceKey deviceId
  cartTable : ∀ cartId tableId, cartKey cartId ≠ tableKey tableId
  requestDevice : ∀ requestId deviceId, reqKey requestId ≠ deviceKey deviceId
  requestTable : ∀ requestId tableId, reqKey requestId ≠ tableKey tableId
  deviceTable : ∀ deviceId tableId, deviceKey deviceId ≠ tableKey tableId

theorem reqKey_eq (requestId : RequestId) : reqKey requestId = cartKey (sharedId requestId) := by
  rw [reqKey, cartKey, sharedId, ← String.append_assoc]
  rfl

/-- Two strings that begin differently differ. -/
theorem append_ne {first second : String} (rest other : String)
    (h : first.toList.head? ≠ second.toList.head?) (hfirst : first.toList ≠ [])
    (hsecond : second.toList ≠ []) : first ++ rest ≠ second ++ other := by
  intro heq
  have hlist := congrArg String.toList heq
  rw [String.toList_append, String.toList_append] at hlist
  have hhead := congrArg List.head? hlist
  rw [List.head?_append_of_ne_nil _ hfirst, List.head?_append_of_ne_nil _ hsecond] at hhead
  exact h hhead

theorem cartKey_inj {cartId other : CartId} : cartKey cartId = cartKey other ↔ cartId = other :=
  String.append_right_inj _

theorem deviceKey_inj {deviceId other : DeviceId} :
    deviceKey deviceId = deviceKey other ↔ deviceId = other :=
  String.append_right_inj _

theorem cartKey_ne_deviceKey (cartId : CartId) (deviceId : DeviceId) :
    cartKey cartId ≠ deviceKey deviceId :=
  append_ne _ _ (by decide) (by decide) (by decide)

theorem cartKey_ne_tableKey (cartId : CartId) (tableId : RestaurantTableId) :
    cartKey cartId ≠ tableKey tableId :=
  append_ne _ _ (by decide) (by decide) (by decide)

theorem deviceKey_ne_tableKey (deviceId : DeviceId) (tableId : RestaurantTableId) :
    deviceKey deviceId ≠ tableKey tableId :=
  append_ne _ _ (by decide) (by decide) (by decide)

theorem sharedId_inj {requestId other : RequestId} :
    sharedId requestId = sharedId other ↔ requestId = other :=
  String.append_right_inj _

theorem keysApart : KeysApart where
  carts := fun _ _ => cartKey_inj
  requests := fun _ _ => String.append_right_inj _
  devices := fun _ _ => deviceKey_inj
  shared := fun cartId requestId => by rw [reqKey_eq, cartKey_inj]
  cartDevice := cartKey_ne_deviceKey
  cartTable := cartKey_ne_tableKey
  requestDevice := fun requestId deviceId => by
    rw [reqKey_eq]
    exact cartKey_ne_deviceKey _ _
  requestTable := fun requestId tableId => by
    rw [reqKey_eq]
    exact cartKey_ne_tableKey _ _
  deviceTable := deviceKey_ne_tableKey

theorem deviceKey_ne_empty (deviceId : DeviceId) : deviceKey deviceId ≠ "" := by
  intro heq
  have := congrArg String.toList heq
  simp [deviceKey] at this

/-! ## What was written last -/

/-- Whether a call writes under the key of a cart id: `some true` for a mark of the ledger,
`some false` for the cart itself, set or deleted. -/
def Op.writes (cartId : CartId) : Op → Option Bool
  | .set cart | .commitCreated cart => if cart.cartId = cartId then some false else none
  | .delete other => if other = cartId then some false else none
  | .markProcessed requestId _ => if sharedId requestId = cartId then some true else none
  | .commitApplied cart requestId =>
      -- The script writes the cart first and the mark second.
      if sharedId requestId = cartId then some true
      else if cart.cartId = cartId then some false
      else none
  | .get _ | .wasProcessed _ | .getOrdersByDevice _ => none

/-- What was written last under the key of a cart id is a mark of the ledger. -/
def Op.marksLast (op : Op) (last : CartId → Bool) (cartId : CartId) : Bool :=
  (op.writes cartId).getD (last cartId)

def markedLast (ops : List Op) : CartId → Bool := ops.foldl (fun last op => op.marksLast last) fun _ => false

/-- A read meets a shared key: it asks for a cart that a mark has overwritten, or for a mark that
the cart has overwritten or created. -/
def Clash (memory : InMemory) (last : CartId → Bool) : Op → Prop
  | .get cartId => last cartId = true ∧ (memory.store cartId).isSome = true
  | .wasProcessed requestId =>
      last (sharedId requestId) = false ∧
        (memory.store (sharedId requestId)).isSome ≠ (memory.processed requestId).isSome
  | .getOrdersByDevice deviceId =>
      ∃ cartId ∈ (memory.byDevice deviceId).getD [], last cartId = true ∧
        (memory.store cartId).any isConfirmed = true
  | _ => False

/-! ## The keyspace of the in-memory pair -/

/-- The keyspace holds the maps of the in-memory pair, where a mark that was written last hides
the cart of the same key. -/
structure Holds (redis : Keyspace) (memory : InMemory) (last : CartId → Bool) : Prop where
  carts : ∀ cartId, last cartId = false →
    redis (cartKey cartId) = (memory.store cartId).map fun cart => .string (.json cart)
  marks : ∀ cartId, last cartId = true → ∃ requestId outcome, cartId = sharedId requestId ∧
    memory.processed requestId = some outcome ∧
      redis (cartKey cartId) = some (.string (.outcome outcome))
  devices : ∀ deviceId, redis (deviceKey deviceId) = (memory.byDevice deviceId).map .set
  tables : ∀ tableId text, redis (tableKey tableId) ≠ some (.string text)

section

variable {redis : Keyspace} {memory : InMemory} {last : CartId → Bool} {enumeration : Enumeration}

theorem holds_create : Holds (fun _ => none) .create fun _ => false where
  carts := fun _ _ => rfl
  marks := fun _ hlast => by cases hlast
  devices := fun _ => rfl
  tables := fun _ _ heq => by cases heq

/-- A write under the key of a cart id leaves the rest as it is. -/
theorem Holds.write (h : Holds redis memory last) {cartId : CartId} {value : Option Value}
    {mark : Bool} {written : InMemory} (hdevices : written.byDevice = memory.byDevice)
    (hstore : ∀ other, other ≠ cartId → written.store other = memory.store other)
    (hprocessed : ∀ requestId, sharedId requestId ≠ cartId →
      written.processed requestId = memory.processed requestId)
    (hcart : mark = false → value = (written.store cartId).map fun cart => .string (.json cart))
    (hmark : mark = true → ∃ requestId outcome, cartId = sharedId requestId ∧
      written.processed requestId = some outcome ∧ value = some (.string (.outcome outcome))) :
    Holds (Function.update redis (cartKey cartId) value) written (Function.update last cartId mark) where
  carts := fun other hother => by
    by_cases heq : other = cartId
    · subst heq
      rw [Function.update_self] at hother ⊢
      exact hcart hother
    · rw [Function.update_of_ne heq] at hother
      rw [Function.update_of_ne (mt cartKey_inj.mp heq), h.carts other hother, hstore other heq]
  marks := fun other hother => by
    by_cases heq : other = cartId
    · subst heq
      rw [Function.update_self] at hother ⊢
      exact hmark hother
    · rw [Function.update_of_ne heq] at hother
      obtain ⟨requestId, outcome, rfl, hprocessed', hvalue⟩ := h.marks other hother
      refine ⟨requestId, outcome, rfl, (hprocessed requestId heq).trans hprocessed', ?_⟩
      rw [Function.update_of_ne (mt cartKey_inj.mp heq), hvalue]
  devices := fun deviceId => by
    rw [Function.update_of_ne (cartKey_ne_deviceKey cartId deviceId).symm, hdevices]
    exact h.devices deviceId
  tables := fun tableId => by
    rw [Function.update_of_ne (cartKey_ne_tableKey cartId tableId).symm]
    exact h.tables tableId

theorem Holds.set (h : Holds redis memory last) (cart : Cart) :
    Holds (Command.set (cartKey cart.cartId) (.json cart) redis) (memory.set cart)
      (Function.update last cart.cartId false) :=
  h.write rfl (fun _ hne => Function.update_of_ne hne _ _) (fun _ _ => rfl)
    (fun _ => by simp [InMemory.set]) fun htrue => by cases htrue

theorem Holds.delete (h : Holds redis memory last) (cartId : CartId) :
    Holds (Command.del (cartKey cartId) redis)
      { memory with store := Function.update memory.store cartId none }
      (Function.update last cartId false) :=
  h.write rfl (fun _ hne => Function.update_of_ne hne _ _) (fun _ _ => rfl)
    (fun _ => by simp) fun htrue => by cases htrue

theorem Holds.mark (h : Holds redis memory last) (requestId : RequestId) (outcome : LedgerOutcome) :
    Holds (Command.set (reqKey requestId) (.outcome outcome) redis) (memory.mark requestId outcome)
      (Function.update last (sharedId requestId) true) := by
  rw [reqKey_eq]
  exact h.write rfl (fun _ _ => rfl)
    (fun other hne => Function.update_of_ne (fun heq => hne (congrArg sharedId heq)) _ _)
    (fun hfalse => (nomatch hfalse))
    fun _ => ⟨requestId, outcome, rfl, by simp [InMemory.mark], rfl⟩

/-- The device index is written under its own keys only. -/
theorem Holds.index (h : Holds redis memory last) (cart : Cart) :
    ∃ indexed, indexCart ((cart.deviceId.map deviceKey).getD "") cart.cartId redis = some indexed ∧
      Holds indexed (memory.index cart) last := by
  cases hdevice : cart.deviceId with
  | none => exact ⟨redis, by simp [indexCart], by simpa [InMemory.index, hdevice] using h⟩
  | some deviceId =>
      have hadd : Command.sadd (deviceKey deviceId) cart.cartId redis =
          some (Function.update redis (deviceKey deviceId)
            (some (.set (OrderedMap.add ((memory.byDevice deviceId).getD []) cart.cartId)))) := by
        rw [Command.sadd, h.devices deviceId]
        cases memory.byDevice deviceId with
        | none => rfl
        | some cartIds => rfl
      refine ⟨_, by simpa [indexCart, deviceKey_ne_empty] using hadd, ?_⟩
      simp only [InMemory.index, hdevice]
      refine ⟨fun cartId hlast => ?_, fun cartId hlast => ?_, fun other => ?_, fun tableId => ?_⟩
      · rw [Function.update_of_ne (cartKey_ne_deviceKey cartId deviceId)]
        exact h.carts cartId hlast
      · rw [Function.update_of_ne (cartKey_ne_deviceKey cartId deviceId)]
        exact h.marks cartId hlast
      · by_cases heq : other = deviceId
        · subst heq
          simp
        · rw [Function.update_of_ne (mt deviceKey_inj.mp heq)]
          simpa [heq] using h.devices other
      · rw [Function.update_of_ne (deviceKey_ne_tableKey deviceId tableId).symm]
        exact h.tables tableId

/-- Nothing reads the table index. -/
theorem Holds.table (h : Holds redis memory last) (cart : Cart) :
    ∃ indexed, indexCart ((cart.tableId.map tableKey).getD "") cart.cartId redis = some indexed ∧
      Holds indexed memory last := by
  by_cases hempty : (cart.tableId.map tableKey).getD "" = ""
  · exact ⟨redis, by simp [indexCart, hempty], h⟩
  · obtain ⟨tableId, htable⟩ : ∃ tableId, cart.tableId = some tableId := by
      cases htable : cart.tableId with
      | none => simp [htable] at hempty
      | some tableId => exact ⟨tableId, rfl⟩
    simp only [htable, Option.map_some, Option.getD_some] at hempty ⊢
    rw [indexCart, if_pos hempty]
    have hset : ∀ members, Holds (Function.update redis (tableKey tableId) (some (.set members)))
        memory last := fun members => by
      refine ⟨fun cartId hlast => ?_, fun cartId hlast => ?_, fun deviceId => ?_, fun other text => ?_⟩
      · rw [Function.update_of_ne (cartKey_ne_tableKey cartId tableId)]
        exact h.carts cartId hlast
      · rw [Function.update_of_ne (cartKey_ne_tableKey cartId tableId)]
        exact h.marks cartId hlast
      · rw [Function.update_of_ne (deviceKey_ne_tableKey deviceId tableId)]
        exact h.devices deviceId
      · by_cases heq : tableKey other = tableKey tableId
        · rw [heq, Function.update_self]
          exact fun hstring => (nomatch hstring)
        · rw [Function.update_of_ne heq]
          exact h.tables other text
    unfold Command.sadd
    split
    · exact ⟨_, rfl, hset _⟩
    · exact ⟨_, rfl, hset _⟩
    · rename_i text htext
      exact (h.tables tableId text htext).elim

theorem Holds.committed (h : Holds redis memory last) (cart : Cart) :
    ∃ committed, commit cart none redis = some committed ∧
      Holds committed ((memory.set cart).index cart) (Function.update last cart.cartId false) := by
  obtain ⟨indexed, hindexed, hholds⟩ := (h.set cart).index cart
  obtain ⟨committed, hcommitted, hholds⟩ := hholds.table cart
  refine ⟨committed, ?_, hholds⟩
  unfold commit commitCartLua
  simp only [Option.map_none, Option.elim_none, hindexed]
  exact hcommitted

theorem Holds.applied (h : Holds redis memory last) (cart : Cart) (requestId : RequestId) :
    ∃ committed, commit cart (some requestId) redis = some committed ∧
      Holds committed (((memory.set cart).index cart).mark requestId .applied)
        (Function.update (Function.update last cart.cartId false) (sharedId requestId) true) := by
  obtain ⟨indexed, hindexed, hholds⟩ := ((h.set cart).mark requestId .applied).index cart
  obtain ⟨committed, hcommitted, hholds⟩ := hholds.table cart
  refine ⟨committed, ?_, ?_⟩
  · unfold commit commitCartLua
    simp only [Option.map_some, Option.getD_some, Option.elim_some, hindexed]
    exact hcommitted
  · -- The script marks the request before it indexes the cart.
    have hcommute : ((memory.set cart).mark requestId .applied).index cart =
        ((memory.set cart).index cart).mark requestId .applied := by
      unfold InMemory.index
      cases cart.deviceId with
      | none => rfl
      | some deviceId => rfl
    rwa [hcommute] at hholds

/-! ## One call -/

theorem marksLast_read {op : Op} (h : ∀ cartId, op.writes cartId = none) (last : CartId → Bool) :
    op.marksLast last = last := by
  funext cartId
  rw [Op.marksLast, h, Option.getD_none]

theorem marksLast_set (cart : Cart) (last : CartId → Bool) :
    (Op.set cart).marksLast last = Function.update last cart.cartId false := by
  funext cartId
  by_cases h : cartId = cart.cartId
  · simp [Op.marksLast, Op.writes, h]
  · simp [Op.marksLast, Op.writes, h, Ne.symm h]

theorem marksLast_delete (deleted : CartId) (last : CartId → Bool) :
    (Op.delete deleted).marksLast last = Function.update last deleted false := by
  funext cartId
  by_cases h : cartId = deleted
  · simp [Op.marksLast, Op.writes, h]
  · simp [Op.marksLast, Op.writes, h, Ne.symm h]

theorem marksLast_mark (requestId : RequestId) (outcome : LedgerOutcome) (last : CartId → Bool) :
    (Op.markProcessed requestId outcome).marksLast last =
      Function.update last (sharedId requestId) true := by
  funext cartId
  by_cases h : cartId = sharedId requestId
  · simp [Op.marksLast, Op.writes, h]
  · simp [Op.marksLast, Op.writes, h, Ne.symm h]

theorem marksLast_applied (cart : Cart) (requestId : RequestId) (last : CartId → Bool) :
    (Op.commitApplied cart requestId).marksLast last =
      Function.update (Function.update last cart.cartId false) (sharedId requestId) true := by
  funext cartId
  by_cases h : cartId = sharedId requestId
  · simp [Op.marksLast, Op.writes, h]
  · by_cases hcart : cartId = cart.cartId
    · subst hcart
      simp [Op.marksLast, Op.writes, h, Ne.symm h]
    · simp [Op.marksLast, Op.writes, h, Ne.symm h, hcart, Ne.symm hcart]

/-- The cart that Redis finds under an id: none where a mark hides it. -/
theorem Holds.found (h : Holds redis memory last) (cartId : CartId) :
    ∃ raw, Command.get (cartKey cartId) redis = some raw ∧
      raw.bind Text.parse = if last cartId then none else memory.store cartId := by
  cases hlast : last cartId with
  | false =>
      unfold Command.get
      rw [h.carts cartId hlast]
      cases memory.store cartId with
      | none => exact ⟨none, rfl, rfl⟩
      | some cart => exact ⟨some (.json cart), rfl, rfl⟩
  | true =>
      obtain ⟨requestId, outcome, -, -, hvalue⟩ := h.marks cartId hlast
      exact ⟨some (.outcome outcome), by simp [Command.get, hvalue], rfl⟩

theorem Holds.exists_reqKey (h : Holds redis memory last) (requestId : RequestId) :
    Command.existsKey (reqKey requestId) redis =
      if last (sharedId requestId) then (memory.processed requestId).isSome
      else (memory.store (sharedId requestId)).isSome := by
  rw [Command.existsKey, reqKey_eq]
  cases hlast : last (sharedId requestId) with
  | false => simp [h.carts _ hlast]
  | true =>
      obtain ⟨other, outcome, hshared, hprocessed, hvalue⟩ := h.marks _ hlast
      rw [sharedId_inj.mp hshared, hprocessed]
      simpa [sharedId_inj.mp hshared] using congrArg Option.isSome hvalue

theorem Holds.loaded (h : Holds redis memory last) (cartIds : List CartId) :
    ((Command.mget (cartIds.map cartKey) redis).filterMap fun raw => raw.bind Text.parse) =
      cartIds.filterMap fun cartId => if last cartId then none else memory.store cartId := by
  rw [Command.mget, List.map_map, List.filterMap_map]
  refine List.filterMap_congr fun cartId _ => ?_
  obtain ⟨raw, hraw, hparsed⟩ := h.found cartId
  rw [← hparsed]
  unfold Command.get at hraw
  simp only [Function.comp_apply]
  cases hvalue : redis (cartKey cartId) with
  | none =>
      rw [hvalue] at hraw
      cases hraw
      rfl
  | some value =>
      rw [hvalue] at hraw
      cases value with
      | string text =>
          cases hraw
          rfl
      | set members => cases hraw

theorem Holds.orders (h : Holds redis memory last) (deviceId : DeviceId) :
    ∃ carts, getOrdersByDevice enumeration deviceId redis = some carts ∧
      carts.Perm (((memory.byDevice deviceId).getD []).filterMap fun cartId =>
        (if last cartId then none else memory.store cartId).filter isConfirmed) := by
  unfold getOrdersByDevice Command.smembers
  rw [h.devices deviceId]
  cases memory.byDevice deviceId with
  | none => exact ⟨[], rfl, .nil⟩
  | some cartIds =>
      refine ⟨_, rfl, ?_⟩
      dsimp only [Option.getD_some]
      rw [h.loaded, List.filter_filterMap]
      split
      · rename_i hempty
        have hnil : cartIds = [] := List.perm_nil.mp (hempty ▸ (enumeration.perm cartIds).symm)
        rw [hnil]
        exact .nil
      · exact (enumeration.perm cartIds).filterMap _

end

/-- Where one function hides some of the values of another, the values it leaves are all of them
only if it hides none. -/
theorem length_filterMap_hidden {α β : Type*} {f g : α → Option β} {elements : List α}
    (h : ∀ x ∈ elements, f x = g x ∨ f x = none) :
    (elements.filterMap f).length ≤ (elements.filterMap g).length ∧
      ((elements.filterMap f).length = (elements.filterMap g).length → ∀ x ∈ elements, f x = g x) := by
  induction elements with
  | nil => exact ⟨le_rfl, fun _ _ hmem => (nomatch hmem)⟩
  | cons x elements ih =>
      obtain ⟨hle, heq⟩ := ih fun y hy => h y (List.mem_cons_of_mem _ hy)
      rcases h x List.mem_cons_self with hsame | hnone
      · have hlength : ∀ k : α → Option β, k x = g x → ((x :: elements).filterMap k).length =
            (elements.filterMap k).length + if (g x).isSome then 1 else 0 := fun k hk => by
          rw [← hk]
          cases hvalue : k x with
          | none => simp [List.filterMap_cons_none hvalue]
          | some value => simp [List.filterMap_cons_some hvalue]
        rw [hlength f hsame, hlength g rfl]
        refine ⟨by omega, fun hlengths y hy => ?_⟩
        rcases List.mem_cons.mp hy with rfl | hrest
        · exact hsame
        · exact heq (by omega) y hrest
      · rw [List.filterMap_cons_none hnone]
        cases hvalue : g x with
        | none =>
            rw [List.filterMap_cons_none hvalue]
            refine ⟨hle, fun hlengths y hy => ?_⟩
            rcases List.mem_cons.mp hy with rfl | hrest
            · rw [hnone, hvalue]
            · exact heq hlengths y hrest
        | some value =>
            rw [List.filterMap_cons_some hvalue, List.length_cons]
            exact ⟨by omega, fun hlengths => by omega⟩

section

variable {redis : Keyspace} {memory : InMemory} {last : CartId → Bool} {enumeration : Enumeration}

theorem get_same {cartId : CartId} :
    (Result.cart (if last cartId then none else memory.store cartId)).Same
        (memory.step (.get cartId)).1 ↔ ¬Clash memory last (.get cartId) := by
  cases hlast : last cartId with
  | false => simp [Result.Same, InMemory.step, Clash, hlast]
  | true =>
      cases hstored : memory.store cartId with
      | none => simp [Result.Same, InMemory.step, Clash, hstored]
      | some cart => simp [Result.Same, InMemory.step, Clash, hlast, hstored]

theorem wasProcessed_same {requestId : RequestId} :
    (Result.processed (if last (sharedId requestId) then (memory.processed requestId).isSome
        else (memory.store (sharedId requestId)).isSome)).Same
        (memory.step (.wasProcessed requestId)).1 ↔
      ¬Clash memory last (.wasProcessed requestId) := by
  cases hlast : last (sharedId requestId) with
  | false => simp [Result.Same, InMemory.step, Clash, hlast]
  | true => simp [Result.Same, InMemory.step, Clash, hlast]

theorem orders_same {deviceId : DeviceId} {carts : List Cart}
    (h : carts.Perm (((memory.byDevice deviceId).getD []).filterMap fun cartId =>
      (if last cartId then none else memory.store cartId).filter isConfirmed)) :
    carts.Perm (memory.getOrdersByDevice deviceId) ↔
      ¬Clash memory last (.getOrdersByDevice deviceId) := by
  have horders : memory.getOrdersByDevice deviceId =
      ((memory.byDevice deviceId).getD []).filterMap fun cartId =>
        (memory.store cartId).filter isConfirmed := by
    unfold InMemory.getOrdersByDevice
    cases memory.byDevice deviceId with
    | none => rfl
    | some cartIds => exact List.filter_filterMap ..
  have hhidden : ∀ cartId ∈ (memory.byDevice deviceId).getD [],
      (if last cartId then none else memory.store cartId).filter isConfirmed =
          (memory.store cartId).filter isConfirmed ∨
        (if last cartId then none else memory.store cartId).filter isConfirmed = none :=
    fun cartId _ => by
      cases last cartId with
      | false => exact .inl rfl
      | true => exact .inr rfl
  rw [horders]
  constructor
  · rintro hperm ⟨cartId, hmem, hlast, hconfirmed⟩
    have hsame := (length_filterMap_hidden hhidden).2 (h.symm.trans hperm).length_eq cartId hmem
    obtain ⟨cart, hstored, hcart⟩ := (Option.any_eq_true _ _).mp hconfirmed
    rw [hlast, hstored, if_pos rfl, Option.filter_some, if_pos hcart] at hsame
    cases hsame
  · intro hclash
    refine h.trans (.of_eq (List.filterMap_congr fun cartId hmem => ?_))
    cases hlast : last cartId with
    | false => rfl
    | true =>
        cases hstored : memory.store cartId with
        | none => rfl
        | some cart =>
            have hopen : isConfirmed cart ≠ true := fun hconfirmed =>
              hclash ⟨cartId, hmem, hlast, by rw [hstored]; exact hconfirmed⟩
            simp [Option.filter, hopen]

/-- A call does the same to both pairs; its results are the same unless it meets a clash. -/
theorem Holds.step (h : Holds redis memory last) (op : Op) :
    ∃ result next, redisStep enumeration redis op = some (result, next) ∧
      Holds next (memory.step op).2 (op.marksLast last) ∧
        (result.Same (memory.step op).1 ↔ ¬Clash memory last op) := by
  have hwritten : Result.done.Same .done ↔ ¬False := by simp [Result.Same]
  cases op with
  | get cartId =>
      obtain ⟨raw, hraw, hparsed⟩ := h.found cartId
      refine ⟨_, redis, by rw [redisStep, hraw, Option.map_some], ?_, ?_⟩
      · rw [marksLast_read fun _ => rfl]
        exact h
      · rw [hparsed]
        exact get_same
  | set cart =>
      refine ⟨_, _, rfl, ?_, hwritten⟩
      rw [marksLast_set]
      exact h.set cart
  | delete cartId =>
      refine ⟨_, _, rfl, ?_, hwritten⟩
      rw [marksLast_delete]
      exact h.delete cartId
  | wasProcessed requestId =>
      refine ⟨_, redis, rfl, ?_, ?_⟩
      · rw [marksLast_read fun _ => rfl]
        exact h
      · rw [h.exists_reqKey]
        exact wasProcessed_same
  | markProcessed requestId outcome =>
      refine ⟨_, _, rfl, ?_, hwritten⟩
      rw [marksLast_mark]
      exact h.mark requestId outcome
  | commitApplied cart requestId =>
      obtain ⟨committed, hcommitted, hholds⟩ := h.applied cart requestId
      refine ⟨.done, committed, by rw [redisStep, hcommitted, Option.map_some], ?_, hwritten⟩
      rw [marksLast_applied]
      exact hholds
  | commitCreated cart =>
      obtain ⟨committed, hcommitted, hholds⟩ := h.committed cart
      refine ⟨.done, committed, by rw [redisStep, hcommitted, Option.map_some], ?_, hwritten⟩
      -- A commit without a request writes under the keys that `set` writes under.
      change Holds _ _ ((Op.set cart).marksLast last)
      rw [marksLast_set]
      exact hholds
  | getOrdersByDevice deviceId =>
      obtain ⟨carts, hcarts, hperm⟩ := @Holds.orders _ _ _ enumeration h deviceId
      refine ⟨.orders carts, redis, by rw [redisStep, hcarts, Option.map_some], ?_, orders_same hperm⟩
      rw [marksLast_read fun _ => rfl]
      exact h

/-- Two pairs in step answer alike exactly as long as no call meets a clash. -/
theorem Holds.agree_iff (h : Holds redis memory last) (ops : List Op) :
    Agree enumeration redis memory ops ↔
      ∀ earlier op later, ops = earlier ++ op :: later →
        ¬Clash (memory.after earlier) (earlier.foldl (fun last op => op.marksLast last) last) op := by
  induction ops generalizing redis memory last with
  | nil =>
      refine ⟨fun _ earlier op later heq => ?_, fun _ => ⟨[], rfl, .nil⟩⟩
      exact absurd heq.symm (List.append_ne_nil_of_right_ne_nil _ (List.cons_ne_nil _ _))
  | cons op ops ih =>
      obtain ⟨result, next, hstep, hholds, hsame⟩ := h.step op
      have hresults : redisResults enumeration redis (op :: ops) =
          (redisResults enumeration next ops).map (result :: ·) := by
        rw [redisResults, hstep, Option.bind_some]
      -- The two pairs agree on the first call and, from the states it leaves, on the others.
      have hsplit : Agree enumeration redis memory (op :: ops) ↔
          result.Same (memory.step op).1 ∧ Agree enumeration next (memory.step op).2 ops := by
        constructor
        · rintro ⟨results, hall, halike⟩
          rw [hresults] at hall
          obtain ⟨rest, hrest, rfl⟩ := Option.map_eq_some_iff.mp hall
          cases halike with
          | cons hfirst hothers => exact ⟨hfirst, rest, hrest, hothers⟩
        · rintro ⟨hfirst, rest, hrest, hothers⟩
          exact ⟨result :: rest, by rw [hresults, hrest, Option.map_some], .cons hfirst hothers⟩
      rw [hsplit, hsame, ih hholds]
      constructor
      · rintro ⟨hfirst, hothers⟩ earlier other later heq
        cases earlier with
        | nil =>
            cases heq
            exact hfirst
        | cons first earlier =>
            cases heq
            exact hothers earlier other later rfl
      · intro hall
        refine ⟨hall [] op ops rfl, fun earlier other later heq => ?_⟩
        exact hall (op :: earlier) other later (by rw [heq, List.cons_append])

end

/-! ## Carts that share no key -/

/-- The id of the cart that a call stores or deletes. -/
def Op.cart? : Op → Option CartId
  | .set cart | .commitApplied cart _ | .commitCreated cart => some cart.cartId
  | .delete cartId => some cartId
  | .get _ | .wasProcessed _ | .markProcessed _ _ | .getOrdersByDevice _ => none

/-- No cart is stored under the key of a request, and every mark was written last. -/
structure Unshared (memory : InMemory) (last : CartId → Bool) : Prop where
  carts : ∀ requestId, memory.store (sharedId requestId) = none
  marked : ∀ cartId, last cartId = true → ∃ requestId, cartId = sharedId requestId
  unmarked : ∀ requestId, last (sharedId requestId) = false → memory.processed requestId = none

section

variable {memory : InMemory} {last : CartId → Bool}

theorem unshared_create : Unshared .create fun _ => false where
  carts := fun _ => rfl
  marked := fun _ hlast => by cases hlast
  unmarked := fun _ _ => rfl

theorem Unshared.write (h : Unshared memory last) {written : CartId} (found : Option Cart)
    (hne : ∀ requestId, sharedId requestId ≠ written) :
    Unshared { memory with store := Function.update memory.store written found }
      (Function.update last written false) where
  carts := fun requestId => (Function.update_of_ne (hne requestId) _ _).trans (h.carts requestId)
  marked := fun cartId hlast => by
    by_cases heq : cartId = written
    · rw [heq, Function.update_self] at hlast
      cases hlast
    · rw [Function.update_of_ne heq] at hlast
      exact h.marked cartId hlast
  unmarked := fun requestId hlast => by
    rw [Function.update_of_ne (hne requestId)] at hlast
    exact h.unmarked requestId hlast

theorem Unshared.index (h : Unshared memory last) (cart : Cart) : Unshared (memory.index cart) last := by
  unfold InMemory.index
  cases cart.deviceId with
  | none => exact h
  | some deviceId => exact ⟨h.carts, h.marked, h.unmarked⟩

theorem Unshared.mark (h : Unshared memory last) (requestId : RequestId) (outcome : LedgerOutcome) :
    Unshared (memory.mark requestId outcome) (Function.update last (sharedId requestId) true) where
  carts := h.carts
  marked := fun cartId hlast => by
    by_cases heq : cartId = sharedId requestId
    · exact ⟨requestId, heq⟩
    · rw [Function.update_of_ne heq] at hlast
      exact h.marked cartId hlast
  unmarked := fun other hlast => by
    by_cases heq : sharedId other = sharedId requestId
    · rw [heq, Function.update_self] at hlast
      cases hlast
    · rw [Function.update_of_ne heq] at hlast
      exact (Function.update_of_ne (mt (congrArg sharedId) heq) _ _).trans (h.unmarked other hlast)

theorem Unshared.step (h : Unshared memory last) {op : Op}
    (hne : ∀ cartId ∈ op.cart?, ∀ requestId, sharedId requestId ≠ cartId) :
    Unshared (memory.step op).2 (op.marksLast last) := by
  cases op with
  | get | wasProcessed | getOrdersByDevice =>
      rw [marksLast_read fun _ => rfl]
      exact h
  | set cart =>
      rw [marksLast_set]
      exact h.write _ (hne _ rfl)
  | delete cartId =>
      rw [marksLast_delete]
      exact h.write _ (hne _ rfl)
  | markProcessed requestId outcome =>
      rw [marksLast_mark]
      exact h.mark requestId outcome
  | commitApplied cart requestId =>
      rw [marksLast_applied]
      exact ((h.write (some cart) (hne _ rfl)).index cart).mark requestId .applied
  | commitCreated cart =>
      change Unshared _ ((Op.set cart).marksLast last)
      rw [marksLast_set]
      exact (h.write (some cart) (hne _ rfl)).index cart

theorem Unshared.clash (h : Unshared memory last) (op : Op) : ¬Clash memory last op := by
  have hstored : ∀ {cartId}, last cartId = true → memory.store cartId = none := fun hlast => by
    obtain ⟨requestId, rfl⟩ := h.marked _ hlast
    exact h.carts requestId
  cases op with
  | get cartId =>
      rintro ⟨hlast, hsome⟩
      rw [hstored hlast] at hsome
      cases hsome
  | wasProcessed requestId =>
      rintro ⟨hlast, hne⟩
      rw [h.carts, h.unmarked requestId hlast] at hne
      exact hne rfl
  | getOrdersByDevice deviceId =>
      rintro ⟨cartId, -, hlast, hconfirmed⟩
      rw [hstored hlast] at hconfirmed
      cases hconfirmed
  | set | delete | markProcessed | commitApplied | commitCreated => exact id

theorem Unshared.after (h : Unshared memory last) {ops : List Op}
    (hne : ∀ op ∈ ops, ∀ cartId ∈ op.cart?, ∀ requestId, sharedId requestId ≠ cartId) :
    Unshared (memory.after ops) (ops.foldl (fun last op => op.marksLast last) last) := by
  induction ops generalizing memory last with
  | nil => exact h
  | cons op ops ih =>
      exact ih (h.step (hne op List.mem_cons_self)) fun other hother =>
        hne other (List.mem_cons_of_mem _ hother)

/-- As long as no cart id has the prefix of the ledger's keys, the two pairs answer alike. -/
theorem agree_of_unshared (enumeration : Enumeration) {ops : List Op}
    (hne : ∀ op ∈ ops, ∀ cartId ∈ op.cart?, ∀ requestId, sharedId requestId ≠ cartId) :
    Agree enumeration (fun _ => none) .create ops := by
  refine (holds_create.agree_iff ops).mpr fun earlier op later heq => ?_
  have hearlier : Unshared (InMemory.create.after earlier) (markedLast earlier) :=
    unshared_create.after fun other hother =>
      hne other (heq ▸ List.mem_append_left _ hother)
  exact hearlier.clash op

end

/-! ## Whole sequences -/

/-- The families of keys lie apart but for the shared ones, and the pairs answer alike exactly on
the sequences in which no read meets a clash. -/
theorem stores_agree_iff (enumeration : Enumeration) (ops : List Op) :
    KeysApart ∧ (Agree enumeration (fun _ => none) .create ops ↔
      ∀ earlier op later, ops = earlier ++ op :: later →
        ¬Clash (InMemory.create.after earlier) (markedLast earlier) op) :=
  ⟨keysApart, holds_create.agree_iff ops⟩

/-- A request that nothing marked counts as processed when the cart of its key is stored. -/
theorem stores_disagree :
    cartKey "req:request-1" = reqKey "request-1" ∧
      ∀ enumeration, ¬Agree enumeration (fun _ => none) .create
        [.set (emptyCart "req:request-1" 1 none "noon"), .wasProcessed "request-1"] := by
  refine ⟨by decide, fun enumeration hagree => ?_⟩
  exact (holds_create.agree_iff _).mp hagree [.set (emptyCart "req:request-1" 1 none "noon")]
    (.wasProcessed "request-1") [] rfl ⟨by decide, by decide⟩

end VoiceOrder.Redis
