import VoiceOrder.CartModule.Edits
import VoiceOrder.CartModule.Requests

/-! # When no modifier is selected twice on a line

Every edit keeps the selections of a line distinct, except that an addition takes its
inline modifiers as they come. -/

namespace VoiceOrder.CartModule

open VoiceOrder.Menu

/-- No ptav is selected twice on the line. -/
def CartLine.ModifiersDistinct (line : CartLine) : Prop :=
  (line.modifiers.map CartModifier.ptavId).Nodup

/-- No line of the cart holds a ptav twice, nor does a line quoted or sent to Odoo. -/
structure NoModifierTwice (cart : Cart) : Prop where
  held : ∀ line ∈ cart.items, line.ModifiersDistinct
  quoted : ∀ line ∈ (toQuoteRequest cart).items, (line.ptavIds.getD []).Nodup
  inserted : ∀ line ∈ (toInsertCartRequest cart).items, (line.ptavIds.getD []).Nodup

theorem noModifierTwice_iff {cart : Cart} :
    NoModifierTwice cart ↔ ∀ line ∈ cart.items, line.ModifiersDistinct := by
  refine ⟨NoModifierTwice.held, fun h => ⟨h, ?_, ?_⟩⟩
  all_goals
    intro line hline
    obtain ⟨source, hsource, rfl⟩ := List.mem_map.mp hline
    rw [toRequestLine_ptavIds]
    exact h source hsource

/-- An addition whose inline modifiers name no key twice. -/
def CartOperation.InlineDistinct : CartOperation → Prop
  | .addItem _ _ refs => (refs.map OpModifierRef.modifierKey).Nodup
  | _ => True

/-! ## One edit -/

/-- Two keys resolve to one ptav only if they are equal, so the resolved ptavs repeat
exactly when the keys do. -/
theorem resolved_nodup_iff {item : MenuItem} (hitem : item.OneToOne) {refs : List OpModifierRef}
    {modifiers : List CartModifier} (h : resolveModifiers item refs = .ok modifiers) :
    (modifiers.map CartModifier.ptavId).Nodup ↔ (refs.map OpModifierRef.modifierKey).Nodup := by
  have hall := resolveModifiers_eq_ok.mp h
  clear h
  induction hall with
  | nil => simp
  | @cons ref modifier refs modifiers hhead hrest ih =>
      obtain ⟨mod, hmod, rfl⟩ := hhead
      obtain ⟨hmem, hkey⟩ := (MenuItem.optionOfKey_eq_some hitem _ _).mp hmod
      have hmember : mod.ptavId ∈ modifiers.map CartModifier.ptavId ↔
          ref.modifierKey ∈ refs.map OpModifierRef.modifierKey := by
        clear ih
        induction hrest with
        | nil => simp
        | @cons other _ refs modifiers hother _ ih =>
            obtain ⟨mod', hmod', rfl⟩ := hother
            obtain ⟨hmem', hkey'⟩ := (MenuItem.optionOfKey_eq_some hitem _ _).mp hmod'
            have hsame : mod.ptavId = mod'.ptavId ↔ ref.modifierKey = other.modifierKey := by
              rw [← hkey, ← hkey']
              exact ⟨fun he => congrArg _ (hitem.ptav_inj _ hmem _ hmem' he),
                fun he => congrArg _ (hitem.key_inj _ hmem _ hmem' he)⟩
            simp only [List.map_cons, List.mem_cons, ih, hsame, toCartModifier]
      rw [List.map_cons, List.map_cons, List.nodup_cons, List.nodup_cons]
      exact and_congr (not_congr hmember) ih

theorem withModifier_distinct {modifiers : List CartModifier}
    (h : (modifiers.map CartModifier.ptavId).Nodup) (mod : CandidateModifier) :
    ((withModifier modifiers mod).map CartModifier.ptavId).Nodup := by
  unfold withModifier
  split
  · exact h
  · rename_i hnone
    rw [List.map_append, List.map_singleton, List.nodup_append]
    refine ⟨h, by simp, ?_⟩
    rintro a ha b hb rfl
    obtain ⟨selected, hselected, rfl⟩ := List.mem_map.mp ha
    rw [List.mem_singleton] at hb
    exact hnone (List.any_eq_true.mpr ⟨selected, hselected, decide_eq_true hb⟩)

theorem withoutModifier_distinct {modifiers : List CartModifier}
    (h : (modifiers.map CartModifier.ptavId).Nodup) (mod : CandidateModifier) :
    ((withoutModifier modifiers mod).map CartModifier.ptavId).Nodup :=
  h.sublist (List.filter_sublist.map _)

theorem mem_mapLine {items : List CartLine} {lineId : LineId} {f : CartLine → CartLine}
    {line : CartLine} :
    line ∈ mapLine items lineId f ↔
      ∃ source ∈ items, (if source.lineId = lineId then f source else source) = line :=
  List.mem_map

/-- Rewriting the modifiers of a line to distinct ones keeps every line distinct. -/
theorem mapLine_distinct {items : List CartLine} {lineId : LineId}
    {modifiers : List CartModifier} (hitems : ∀ line ∈ items, line.ModifiersDistinct)
    (hmodifiers : (modifiers.map CartModifier.ptavId).Nodup) :
    ∀ line ∈ mapLine items lineId (fun l => { l with modifiers := modifiers }),
      line.ModifiersDistinct := by
  intro line hline
  obtain ⟨source, hsource, rfl⟩ := mem_mapLine.mp hline
  split
  · exact hmodifiers
  · exact hitems source hsource

/-- An edit of a cart with distinct modifiers leaves them distinct exactly when its
inline modifiers are. -/
theorem Edit.distinct_iff {cart : Cart} {lineId : LineId} {op : CartOperation}
    {answer : Option MenuItem} {items : List CartLine} (h : Edit cart lineId op answer items)
    (hitem : ∀ item, answer = some item → item.OneToOne)
    (hcart : ∀ line ∈ cart.items, line.ModifiersDistinct) :
    (∀ line ∈ items, line.ModifiersDistinct) ↔ op.InlineDistinct := by
  cases h with
  | addItem havailable hmods =>
      simp only [List.mem_append, List.mem_singleton, or_imp, forall_and, forall_eq]
      rw [and_iff_right hcart]
      exact resolved_nodup_iff (hitem _ rfl) hmods
  | removeItem _ =>
      exact iff_of_true (fun line hline => hcart line (List.mem_of_mem_filter hline)) trivial
  | updateQuantity _ _ =>
      refine iff_of_true ?_ trivial
      intro line hline
      obtain ⟨source, hsource, rfl⟩ := mem_mapLine.mp hline
      split
      · exact hcart source hsource
      · exact hcart source hsource
  | addModifier hline _ =>
      exact iff_of_true (mapLine_distinct hcart (withModifier_distinct
        (hcart _ (List.mem_of_find?_eq_some hline)) _)) trivial
  | removeModifier hline _ =>
      exact iff_of_true (mapLine_distinct hcart (withoutModifier_distinct
        (hcart _ (List.mem_of_find?_eq_some hline)) _)) trivial

/-- Pricing the lines changes no selection. -/
theorem repriced_distinct_iff {cart : Cart} {items : List CartLine} {menuItems : List MenuItem}
    {now : String} :
    NoModifierTwice (repriced cart items menuItems now) ↔
      ∀ line ∈ items, line.ModifiersDistinct := by
  simp [noModifierTwice_iff, repriced, priceLine, CartLine.ModifiersDistinct]

/-! ## A run of accepted operations -/

/-- One accepted operation of a run, with the menu and the runtime it met and the cart
it left. The menu may change between operations. -/
structure Applied where
  menu : MenuLookup Id
  pos : PosConfigId
  runtime : Runtime Id
  op : CartOperation
  result : Cart

/-- Each operation is applied to the cart the one before it left. -/
def AcceptedRun (start : Cart) : List Applied → Prop
  | [] => True
  | step :: rest =>
      applyOperation step.runtime step.menu start step.op step.pos = .ok step.result ∧
        AcceptedRun step.result rest

theorem lookedUp_oneToOne {menu : MenuLookup Id} (h : menu.OneToOne) {pos : PosConfigId}
    {cart : Cart} {op : CartOperation} {item : MenuItem}
    (hitem : lookedUp menu pos cart op = some item) : item.OneToOne := by
  cases op with
  | addItem menuItemKey quantity refs => exact h.resolveItemKey _ _ _ hitem
  | removeItem lineId => cases hitem
  | updateQuantity lineId quantity => cases hitem
  | addModifier lineId modifierKey =>
      obtain ⟨line, -, hfound⟩ := Option.bind_eq_some_iff.mp hitem
      exact h.findByTmplId _ _ _ hfound
  | removeModifier lineId modifierKey =>
      obtain ⟨line, -, hfound⟩ := Option.bind_eq_some_iff.mp hitem
      exact h.findByTmplId _ _ _ hfound

/-- One accepted operation keeps the selections distinct exactly when its inline
modifiers are. -/
theorem applyOperation_distinct_iff {runtime : Runtime Id} {menu : MenuLookup Id}
    {cart result : Cart} {op : CartOperation} {pos : PosConfigId}
    (h : applyOperation runtime menu cart op pos = .ok result) (hmenu : menu.OneToOne)
    (hcart : NoModifierTwice cart) : NoModifierTwice result ↔ op.InlineDistinct := by
  obtain ⟨items, hedit, rfl⟩ := applyOperation_eq_ok.mp h
  exact repriced_distinct_iff.trans
    (hedit.distinct_iff (fun _ hitem => lookedUp_oneToOne hmenu hitem) hcart.held)

theorem noModifierTwice_run_iff {start : Cart} (hstart : NoModifierTwice start)
    {run : List Applied} (h : AcceptedRun start run) (hmenu : ∀ step ∈ run, step.menu.OneToOne) :
    (∀ step ∈ run, NoModifierTwice step.result) ↔ ∀ step ∈ run, step.op.InlineDistinct := by
  induction run generalizing start with
  | nil => simp
  | cons step rest ih =>
      obtain ⟨hstep, hrest⟩ := h
      have hhead := applyOperation_distinct_iff hstep (hmenu step (by simp)) hstart
      have htail := fun hresult => ih hresult hrest fun s hs => hmenu s (by simp [hs])
      simp only [List.mem_cons, forall_eq_or_imp]
      constructor
      · rintro ⟨hresult, hall⟩
        exact ⟨hhead.mp hresult, (htail hresult).mp hall⟩
      · rintro ⟨hop, hall⟩
        have hresult := hhead.mpr hop
        exact ⟨hresult, (htail hresult).mpr hall⟩

theorem noModifierTwice_emptyCart (cartId : CartId) (pos : PosConfigId)
    (identity : Option Identity) (now : String) :
    NoModifierTwice (emptyCart cartId pos identity now) :=
  noModifierTwice_iff.mpr (by simp [emptyCart])

/-- In a run of accepted operations from an empty cart no line ever holds, or is quoted
or inserted with, a modifier twice if and only if no addition of the run lists an inline
modifier key twice. -/
theorem modifiers_unique_iff (cartId : CartId) (pos : PosConfigId) (identity : Option Identity)
    (now : String) (run : List Applied)
    (h : AcceptedRun (emptyCart cartId pos identity now) run)
    (hmenu : ∀ step ∈ run, step.menu.OneToOne) :
    (∀ step ∈ run, NoModifierTwice step.result) ↔ ∀ step ∈ run, step.op.InlineDistinct :=
  noModifierTwice_run_iff (noModifierTwice_emptyCart cartId pos identity now) h hmenu

/-- One burger added to an empty cart with the given inline modifiers. -/
def burgerRun (refs : List OpModifierRef) (modifiers : List CartModifier) : List Applied :=
  let runtime : Runtime Id := ⟨"ln_1", "t1"⟩
  let line := newLine "ln_1" chickenBurger 1 modifiers
  let cart := emptyCart "cart_1" 1 none "t0"
  [⟨burgerStore.toLookup, 1, runtime, .addItem "chicken_burger" 1 refs,
    repriced cart [line] [chickenBurger] "t1"⟩]

theorem modifiers_unique_iff_burger :
    (∀ step ∈ burgerRun [⟨"extra_cheese"⟩] [toCartModifier extraCheese],
      NoModifierTwice step.result) ↔
    ∀ step ∈ burgerRun [⟨"extra_cheese"⟩] [toCartModifier extraCheese], step.op.InlineDistinct :=
  modifiers_unique_iff "cart_1" 1 none "t0" _ ⟨rfl, trivial⟩
    (fun _ hstep => List.mem_singleton.mp hstep ▸ burgerStore_oneToOne)

/-- The schema accepts an addition that lists `extra_cheese` twice, the applier accepts
it too, and the line then holds, and is sent with, the ptav twice. -/
theorem duplicate_inline_modifier :
    ¬ ∀ (run : List Applied), AcceptedRun (emptyCart "cart_1" 1 none "t0") run →
      (∀ step ∈ run, step.menu.OneToOne) → (∀ step ∈ run, step.op.schemaOk = true) →
      ∀ step ∈ run, NoModifierTwice step.result := by
  intro hclaim
  let cheese := toCartModifier extraCheese
  have htwice := hclaim (burgerRun [⟨"extra_cheese"⟩, ⟨"extra_cheese"⟩] [cheese, cheese])
    ⟨rfl, trivial⟩ (fun _ hstep => List.mem_singleton.mp hstep ▸ burgerStore_oneToOne)
    (by decide) _ (List.mem_singleton.mpr rfl)
  have hnodup : ([901, 901] : List PtavId).Nodup := htwice.held _ (List.mem_singleton.mpr rfl)
  exact absurd hnodup (by decide)

end VoiceOrder.CartModule
