import VoiceOrder.CartModule.Contents

/-! # Local prices

After any accepted operations the prices of a cart are those of the menu for its contents, and
nothing of the way there is left in them. -/

namespace VoiceOrder.CartModule

open KeyedEdit VoiceOrder.Menu

/-! ## The two price maps -/

/-- The base price the pricing of a cart finds for a template. -/
def priceOf (menuItems : List MenuItem) (tmpl : ProductTmplId) : Cents :=
  (OrderedMap.get (OrderedMap.ofEntries
    (menuItems.map fun item => (item.productTmplId, item.basePriceCents))) tmpl).getD 0

/-- The surcharge the pricing of a cart finds for a ptav. -/
def extraOf (menuItems : List MenuItem) (ptavId : PtavId) : Cents :=
  (OrderedMap.get (OrderedMap.ofEntries (menuItems.flatMap fun item =>
    item.modifiers.map fun mod => (mod.ptavId, mod.priceExtraCents))) ptavId).getD 0

/-- In this restaurant each ptav has one surcharge. -/
def Surcharges (menu : MenuLookup Id) (pos : PosConfigId) (surcharge : PtavId → Cents) : Prop :=
  ∀ tmpl item, menu.findByTmplId pos tmpl = some item →
    ∀ option ∈ item.modifiers, option.priceExtraCents = surcharge option.ptavId

/-- What the batched read of the templates returns. -/
def ReadsMenu (menu : MenuLookup Id) (pos : PosConfigId) (tmpls : List ProductTmplId)
    (menuItems : List MenuItem) : Prop :=
  ∀ item, item ∈ menuItems ↔
    item.productTmplId ∈ tmpls ∧ menu.findByTmplId pos item.productTmplId = some item

section

variable {menu : MenuLookup Id} {pos : PosConfigId} {surcharge : PtavId → Cents}
  {tmpl : ProductTmplId} {tmpls : List ProductTmplId} {item : MenuItem} {ptavId : PtavId}
  {menuItems : List MenuItem}

theorem readsMenu (hmenu : menu.Lawful) (tmpls : List ProductTmplId) :
    ReadsMenu menu pos tmpls (menu.getItems pos tmpls) :=
  fun _ => hmenu.mem_getItems

theorem ReadsMenu.mem (hread : ReadsMenu menu pos tmpls menuItems) (hmenu : menu.Lawful)
    (hmem : tmpl ∈ tmpls) (hitem : menu.findByTmplId pos tmpl = some item) : item ∈ menuItems := by
  have htmpl := hmenu.tmpl_eq hitem
  subst htmpl
  exact (hread item).mpr ⟨hmem, hitem⟩

/-- A template has one base price among the items read. -/
theorem ReadsMenu.base_unique (hread : ReadsMenu menu pos tmpls menuItems) :
    ∀ a ∈ menuItems.map fun item => (item.productTmplId, item.basePriceCents),
    ∀ b ∈ menuItems.map fun item => (item.productTmplId, item.basePriceCents),
      a.1 = b.1 → a.2 = b.2 := by
  intro a ha b hb hab
  obtain ⟨first, hfirst, rfl⟩ := List.mem_map.mp ha
  obtain ⟨second, hsecond, rfl⟩ := List.mem_map.mp hb
  have hsame : first.productTmplId = second.productTmplId := hab
  have hfound := ((hread first).mp hfirst).2
  rw [hsame, ((hread second).mp hsecond).2] at hfound
  exact congrArg MenuItem.basePriceCents (Option.some.inj hfound).symm

/-- A ptav has its one surcharge among the items read. -/
theorem ReadsMenu.extra_eq (hread : ReadsMenu menu pos tmpls menuItems)
    (hextra : Surcharges menu pos surcharge) :
    ∀ entry ∈ menuItems.flatMap fun item =>
      item.modifiers.map fun mod => (mod.ptavId, mod.priceExtraCents), entry.2 = surcharge entry.1 := by
  intro entry hentry
  obtain ⟨item, hitem, hmods⟩ := List.mem_flatMap.mp hentry
  obtain ⟨mod, hmod, rfl⟩ := List.mem_map.mp hmods
  exact hextra _ item ((hread item).mp hitem).2 mod hmod

theorem ReadsMenu.extra_unique (hread : ReadsMenu menu pos tmpls menuItems)
    (hextra : Surcharges menu pos surcharge) :
    ∀ a ∈ menuItems.flatMap fun item =>
      item.modifiers.map fun mod => (mod.ptavId, mod.priceExtraCents),
    ∀ b ∈ menuItems.flatMap fun item =>
      item.modifiers.map fun mod => (mod.ptavId, mod.priceExtraCents), a.1 = b.1 → a.2 = b.2 := by
  intro a ha b hb hab
  rw [hread.extra_eq hextra a ha, hread.extra_eq hextra b hb, hab]

theorem ReadsMenu.priceOf (hread : ReadsMenu menu pos tmpls menuItems) (hmenu : menu.Lawful)
    (hmem : tmpl ∈ tmpls) (hitem : menu.findByTmplId pos tmpl = some item) :
    priceOf menuItems tmpl = item.basePriceCents := by
  have hentry : (tmpl, item.basePriceCents) ∈
      menuItems.map fun item => (item.productTmplId, item.basePriceCents) :=
    List.mem_map.mpr ⟨item, hread.mem hmenu hmem hitem, by rw [hmenu.tmpl_eq hitem]⟩
  rw [CartModule.priceOf, (OrderedMap.get_ofEntries_eq_some hread.base_unique).mpr hentry]
  rfl

theorem ReadsMenu.extraOf (hread : ReadsMenu menu pos tmpls menuItems)
    (hextra : Surcharges menu pos surcharge) (hitem : item ∈ menuItems)
    (hoption : ∃ option ∈ item.modifiers, option.ptavId = ptavId) :
    extraOf menuItems ptavId = surcharge ptavId := by
  obtain ⟨option, hoption, rfl⟩ := hoption
  have hentry : (option.ptavId, option.priceExtraCents) ∈ menuItems.flatMap fun item =>
      item.modifiers.map fun mod => (mod.ptavId, mod.priceExtraCents) :=
    List.mem_flatMap.mpr ⟨item, hitem, List.mem_map.mpr ⟨option, hoption, rfl⟩⟩
  rw [CartModule.extraOf, (OrderedMap.get_ofEntries_eq_some (hread.extra_unique hextra)).mpr hentry]
  exact hread.extra_eq hextra _ hentry

/-- Pricing depends on which templates are read, not on their order. -/
theorem ReadsMenu.priceLine_congr {others : List MenuItem} {tmpls' : List ProductTmplId}
    (hread : ReadsMenu menu pos tmpls menuItems) (hread' : ReadsMenu menu pos tmpls' others)
    (hextra : Surcharges menu pos surcharge) (htmpls : ∀ tmpl, tmpl ∈ tmpls ↔ tmpl ∈ tmpls')
    (line : CartLine) : priceLine menuItems line = priceLine others line := by
  have hsame : ∀ item, item ∈ menuItems ↔ item ∈ others := fun item => by
    rw [hread item, hread' item, htmpls]
  have hbase : CartModule.priceOf menuItems = CartModule.priceOf others := by
    funext tmpl
    refine congrArg (Option.getD · 0) (OrderedMap.get_ofEntries_congr hread.base_unique ?_ tmpl)
    simp only [List.mem_map, hsame, implies_true]
  have hextras : CartModule.extraOf menuItems = CartModule.extraOf others := by
    funext ptavId
    refine congrArg (Option.getD · 0)
      (OrderedMap.get_ofEntries_congr (hread.extra_unique hextra) ?_ ptavId)
    simp only [List.mem_flatMap, hsame, implies_true]
  calc priceLine menuItems line
      = { line with priceCents := (CartModule.priceOf menuItems line.productTmplId + (line.modifiers.map
          fun mod => CartModule.extraOf menuItems mod.ptavId).sum) * line.quantity } := rfl
    _ = _ := by rw [hbase, hextras]; rfl

/-! ## Contents the menu lists -/

/-- A line of this id has a template that lists the modifier. -/
def Offered (menu : MenuLookup Id) (pos : PosConfigId) (contents : List (LineId × Choice))
    (lineId : LineId) (modifier : CartModifier) : Prop :=
  ∃ entry ∈ contents, entry.1 = lineId ∧
    ∃ item, menu.findByTmplId pos entry.2.productTmplId = some item ∧
      ∃ option ∈ item.modifiers, option.ptavId = modifier.ptavId

/-- The menu lists every template of the lines of one id, with all modifiers they carry. -/
structure Stocked (menu : MenuLookup Id) (pos : PosConfigId) (contents : List (LineId × Choice))
    (lineId : LineId) : Prop where
  listed : ∀ choice, (lineId, choice) ∈ contents →
    ∃ item, menu.findByTmplId pos choice.productTmplId = some item
  offered : ∀ choice, (lineId, choice) ∈ contents → ∀ modifier ∈ choice.modifiers,
    Offered menu pos contents lineId modifier

variable {contents after : List (LineId × Choice)} {lineId target : LineId}

theorem mem_lineTmpls {items : List CartLine} {line : CartLine} (h : line ∈ items) :
    line.productTmplId ∈ lineTmpls items :=
  (OrderedMap.mem_foldl_add _ [] _).mpr (.inr (List.mem_map_of_mem h))

/-- The price of a line whose template is listed and whose modifiers are offered. -/
theorem ReadsMenu.price (hread : ReadsMenu menu pos (lineTmpls (contents.map unpricedLine)) menuItems)
    (hmenu : menu.Lawful) (hextra : Surcharges menu pos surcharge) {choice : Choice}
    (hentry : (lineId, choice) ∈ contents)
    (hitem : menu.findByTmplId pos choice.productTmplId = some item)
    (hoffered : ∀ modifier ∈ choice.modifiers, Offered menu pos contents lineId modifier) :
    (priceLine menuItems (unpricedLine (lineId, choice))).priceCents =
      (item.basePriceCents + (choice.modifiers.map fun mod => surcharge mod.ptavId).sum) *
        choice.quantity := by
  have htmpl : ∀ source ∈ contents,
      source.2.productTmplId ∈ lineTmpls (contents.map unpricedLine) := by
    intro source hsource
    exact mem_lineTmpls (List.mem_map_of_mem hsource)
  have hbase : CartModule.priceOf menuItems choice.productTmplId = item.basePriceCents :=
    hread.priceOf hmenu (htmpl _ hentry) hitem
  have hextras : choice.modifiers.map (fun mod => CartModule.extraOf menuItems mod.ptavId) =
      choice.modifiers.map fun mod => surcharge mod.ptavId := by
    refine List.map_congr_left fun mod hmod => ?_
    obtain ⟨source, hsource, -, other, hother, hoption⟩ := hoffered mod hmod
    exact hread.extraOf hextra (hread.mem hmenu (htmpl source hsource) hother) hoption
  calc (priceLine menuItems (unpricedLine (lineId, choice))).priceCents
      = (CartModule.priceOf menuItems choice.productTmplId +
          (choice.modifiers.map fun mod => CartModule.extraOf menuItems mod.ptavId).sum) *
            choice.quantity := rfl
    _ = _ := by rw [hbase, hextras]

/-! ## Accepted edits keep the contents stocked -/

theorem Offered.mono {modifier : CartModifier} (h : Offered menu pos contents lineId modifier)
    (hkept : ∀ choice, (lineId, choice) ∈ contents →
      ∃ kept, (lineId, kept) ∈ after ∧ kept.productTmplId = choice.productTmplId) :
    Offered menu pos after lineId modifier := by
  obtain ⟨⟨id, choice⟩, hentry, rfl, item, hitem, hoption⟩ := h
  obtain ⟨kept, hmem, htmpl⟩ := hkept choice hentry
  exact ⟨_, hmem, rfl, item, htmpl ▸ hitem, hoption⟩

theorem addition_listed {menuItemKey : String} {quantity : ℤ} {refs : List OpModifierRef}
    {choice : Choice} (hmenu : menu.Lawful)
    (h : addition menu pos menuItemKey quantity refs = .ok choice) :
    ∃ item, menu.findByTmplId pos choice.productTmplId = some item ∧
      ∀ modifier ∈ choice.modifiers, ∃ option ∈ item.modifiers, option.ptavId = modifier.ptavId := by
  obtain ⟨item, modifiers, hitem, hmodifiers, rfl⟩ := addition_eq_ok h
  refine ⟨item, hmenu.resolve_find hitem, fun modifier hmodifier => ?_⟩
  obtain ⟨option, hoption, rfl⟩ := mem_resolveModifiers hmodifiers hmodifier
  exact ⟨option, hoption, rfl⟩

theorem Stocked.append (hstocked : Stocked menu pos contents lineId) (hmenu : menu.Lawful)
    {menuItemKey : String} {quantity : ℤ} {refs : List OpModifierRef} {choice : Choice}
    (h : addition menu pos menuItemKey quantity refs = .ok choice) :
    Stocked menu pos (contents ++ [(target, choice)]) lineId := by
  obtain ⟨item, hlisted, hoptions⟩ := addition_listed hmenu h
  constructor
  · intro choice hentry
    rcases List.mem_append.mp hentry with hold | hnew
    · exact hstocked.listed choice hold
    · cases List.mem_singleton.mp hnew
      exact ⟨item, hlisted⟩
  · intro choice hentry modifier hmodifier
    rcases List.mem_append.mp hentry with hold | hnew
    · exact (hstocked.offered choice hold modifier hmodifier).mono fun source hsource =>
        ⟨source, List.mem_append_left _ hsource, rfl⟩
    · cases List.mem_singleton.mp hnew
      exact ⟨_, hentry, rfl, item, hlisted, hoptions modifier hmodifier⟩

theorem Stocked.drop (hstocked : Stocked menu pos contents lineId) :
    Stocked menu pos (amendAt contents target fun _ => none) lineId := by
  have hold : ∀ choice, (lineId, choice) ∈ amendAt contents target (fun _ => none) ↔
      (lineId, choice) ∈ contents ∧ lineId ≠ target := by
    intro choice
    rw [amendAt_none, List.mem_filter, decide_eq_true_iff]
  constructor
  · intro choice hentry
    exact hstocked.listed choice ((hold choice).mp hentry).1
  · intro choice hentry modifier hmodifier
    obtain ⟨hmem, hne⟩ := (hold choice).mp hentry
    exact (hstocked.offered choice hmem modifier hmodifier).mono fun source hsource =>
      ⟨source, (hold source).mpr ⟨hsource, hne⟩, rfl⟩

/-- A change of a line that keeps its template, and gives it no modifier that is not offered
under its id, keeps the contents stocked. -/
theorem Stocked.rewrite (hstocked : Stocked menu pos contents lineId) {change : Choice → Choice}
    (htmpl : ∀ choice, (change choice).productTmplId = choice.productTmplId)
    (hmodifiers : target = lineId → ∀ choice, (lineId, choice) ∈ contents →
      ∀ modifier ∈ (change choice).modifiers, Offered menu pos contents lineId modifier) :
    Stocked menu pos (amendAt contents target fun choice => some (change choice)) lineId := by
  have hoffered : ∀ {modifier}, Offered menu pos contents lineId modifier →
      Offered menu pos (amendAt contents target fun choice => some (change choice)) lineId
        modifier := by
    intro modifier h
    refine h.mono fun choice hentry => ?_
    by_cases hid : lineId = target
    · exact ⟨change choice, mem_amendAt.mpr (.inr ⟨hid, choice, hid ▸ hentry, rfl⟩), htmpl choice⟩
    · exact ⟨choice, mem_amendAt.mpr (.inl ⟨hid, hentry⟩), rfl⟩
  constructor
  · intro choice hentry
    rcases mem_amendAt.mp hentry with ⟨-, hold⟩ | ⟨rfl, source, hsource, hchange⟩
    · exact hstocked.listed choice hold
    · cases Option.some.inj hchange
      obtain ⟨item, hitem⟩ := hstocked.listed source hsource
      exact ⟨item, htmpl source ▸ hitem⟩
  · intro choice hentry modifier hmodifier
    rcases mem_amendAt.mp hentry with ⟨-, hold⟩ | ⟨rfl, source, hsource, hchange⟩
    · exact hoffered (hstocked.offered choice hold modifier hmodifier)
    · cases Option.some.inj hchange
      exact hoffered (hmodifiers rfl source hsource modifier hmodifier)

/-- The option of a modifier edit is offered by the line that was found. -/
theorem Stocked.change (hstocked : Stocked menu pos contents lineId) {modifierKey : String}
    {edit : List CartModifier → CandidateModifier → List CartModifier}
    (hedit : ∀ {modifiers mod selected}, selected ∈ edit modifiers mod →
      selected ∈ modifiers ∨ selected = toCartModifier mod)
    {change : Choice → Option Choice}
    (h : onLine (modifierChange menu pos modifierKey edit) (OrderedMap.get contents target) = .ok change) :
    Stocked menu pos (amendAt contents target change) lineId := by
  obtain ⟨choice, item, mod, hfound, hitem, hmod, rfl⟩ := modifierChange_eq_ok h
  refine hstocked.rewrite (fun _ => rfl) fun hid _ _ modifier hmodifier => ?_
  have hmem : (lineId, choice) ∈ contents := hid ▸ OrderedMap.mem_of_get hfound
  rcases hedit hmodifier with hold | rfl
  · exact hstocked.offered choice hmem modifier hold
  · exact ⟨_, hmem, rfl, item, hitem, mod, hmod, rfl⟩

theorem Stocked.run (hstocked : Stocked menu pos contents lineId) (hmenu : menu.Lawful)
    {op : CartOperation} {fresh : LineId} (h : (op.edit menu pos).run fresh contents = .ok after) :
    Stocked menu pos after lineId := by
  cases op with
  | addItem menuItemKey quantity refs =>
      obtain ⟨choice, hchoice, rfl⟩ := run_append.mp h
      exact hstocked.append hmenu hchoice
  | removeItem target =>
      obtain ⟨change, hchange, rfl⟩ := run_amend.mp h
      rw [removal_eq_ok hchange]
      exact hstocked.drop
  | updateQuantity target quantity =>
      obtain ⟨change, hchange, rfl⟩ := run_amend.mp h
      rw [quantityChange_eq_ok hchange]
      exact hstocked.rewrite (fun _ => rfl) fun _ => hstocked.offered
  | addModifier target modifierKey =>
      obtain ⟨change, hchange, rfl⟩ := run_amend.mp h
      exact hstocked.change mem_withModifier hchange
  | removeModifier target modifierKey =>
      obtain ⟨change, hchange, rfl⟩ := run_amend.mp h
      exact hstocked.change mem_withoutModifier hchange

/-! ## What an accepted operation leaves alone -/

/-- Of the contents only the operation's own line may differ: an addition appends it, a removal
drops it, and an edit rewrites it in its place. -/
def OwnLineOnly (fresh : LineId) (before after : List (LineId × Choice)) : CartOperation → Prop
  | .addItem .. => ∃ choice, after = before ++ [(fresh, choice)]
  | .removeItem lineId => after = before.filter fun entry => entry.1 ≠ lineId
  | .updateQuantity lineId _ | .addModifier lineId _ | .removeModifier lineId _ =>
      List.Forall₂ (fun entry edited => edited.1 = entry.1 ∧ (entry.1 ≠ lineId → edited = entry))
        before after

theorem ownLineOnly_run {op : CartOperation}
    (h : (op.edit menu pos).run lineId contents = .ok after) : OwnLineOnly lineId contents after op := by
  cases op with
  | addItem menuItemKey quantity refs =>
      obtain ⟨choice, -, rfl⟩ := run_append.mp h
      exact ⟨choice, rfl⟩
  | removeItem target =>
      obtain ⟨change, hchange, rfl⟩ := run_amend.mp h
      rw [removal_eq_ok hchange]
      exact amendAt_none
  | updateQuantity target quantity =>
      obtain ⟨change, hchange, rfl⟩ := run_amend.mp h
      rw [quantityChange_eq_ok hchange]
      exact forall₂_amendAt _
  | addModifier target modifierKey =>
      obtain ⟨change, hchange, rfl⟩ := run_amend.mp h
      obtain ⟨_, _, _, -, -, -, rfl⟩ := modifierChange_eq_ok hchange
      exact forall₂_amendAt _
  | removeModifier target modifierKey =>
      obtain ⟨change, hchange, rfl⟩ := run_amend.mp h
      obtain ⟨_, _, _, -, -, -, rfl⟩ := modifierChange_eq_ok hchange
      exact forall₂_amendAt _

/-- `next` is `cart` but for the operation's own line, the prices and the time. -/
structure Framed (fresh : LineId) (cart next : Cart) (op : CartOperation) : Prop where
  rest : next = { cart with
    items := next.items
    subtotalCents := next.subtotalCents
    taxCents := next.taxCents
    totalCents := next.totalCents
    lastUpdated := next.lastUpdated }
  lines : OwnLineOnly fresh cart.contents next.contents op

/-- An accepted operation settles the cart at the contents its edit leaves. -/
theorem applyOperation_settled {runtime : Runtime Id} {cart next : Cart} {op : CartOperation} :
    applyOperation runtime menu cart op pos = .ok next ↔
      ∃ contents, (op.edit menu pos).run (Id.run runtime.newLineId) cart.contents = .ok contents ∧
        cart.settled menu pos contents runtime.nowIso = next := by
  rw [applyOperation_eq]
  exact map_eq_ok

theorem applyOperation_framed {runtime : Runtime Id} {cart next : Cart} {op : CartOperation}
    (h : applyOperation runtime menu cart op pos = .ok next) :
    Framed runtime.newLineId cart next op := by
  obtain ⟨contents, hrun, rfl⟩ := applyOperation_settled.mp h
  refine ⟨rfl, ?_⟩
  rw [contents_settled]
  exact ownLineOnly_run hrun

/-! ## A sequence of accepted operations -/

variable {cart result : Cart} {ops : List CartOperation} {lineIds : List LineId}

theorem Folds.settled (hfolds : Folds menu pos cart ops lineIds result) (hops : ops ≠ []) :
    ∃ now, cart.settled menu pos result.contents now = result := by
  induction hfolds with
  | nil cart => exact absurd rfl hops
  | @cons runtime cart next result op ops lineIds hstep hrest ih =>
      obtain ⟨contents, -, rfl⟩ := applyOperation_settled.mp hstep
      by_cases hlast : ops = []
      · subst hlast
        cases hrest
        exact ⟨runtime.nowIso, by rw [contents_settled]⟩
      · obtain ⟨now, hnow⟩ := ih hlast
        exact ⟨now, hnow⟩

theorem Folds.stocked (hfolds : Folds menu pos cart ops lineIds result) (hmenu : menu.Lawful)
    (hstocked : Stocked menu pos cart.contents lineId) : Stocked menu pos result.contents lineId := by
  induction hfolds with
  | nil cart => exact hstocked
  | cons hstep _ ih =>
      obtain ⟨contents, hrun, rfl⟩ := applyOperation_settled.mp hstep
      refine ih ?_
      rw [contents_settled]
      exact hstocked.run hmenu hrun

/-- The menu lists the template of the line, with all modifiers the line carries. -/
def CartLine.ListedIn (menu : MenuLookup Id) (pos : PosConfigId) (line : CartLine) : Prop :=
  ∃ item, menu.findByTmplId pos line.productTmplId = some item ∧
    ∀ modifier ∈ line.modifiers, ∃ option ∈ item.modifiers, option.ptavId = modifier.ptavId

theorem stocked_contents (h : ∀ line ∈ cart.items, line.lineId = lineId → line.ListedIn menu pos) :
    Stocked menu pos cart.contents lineId := by
  constructor
  · intro choice hentry
    obtain ⟨line, hline, hsame⟩ := List.mem_map.mp hentry
    cases hsame
    obtain ⟨item, hitem, -⟩ := h line hline rfl
    exact ⟨item, hitem⟩
  · intro choice hentry modifier hmodifier
    obtain ⟨line, hline, hsame⟩ := List.mem_map.mp hentry
    cases hsame
    obtain ⟨item, hitem, hoptions⟩ := h line hline rfl
    exact ⟨line.entry, hentry, rfl, item, hitem, hoptions modifier hmodifier⟩

/-- Every line costs its base price and surcharges times its quantity, and the totals are the
untaxed sum. -/
structure AtMenuPrices (menu : MenuLookup Id) (pos : PosConfigId) (surcharge : PtavId → Cents)
    (cart : Cart) : Prop where
  lines : ∀ line ∈ cart.items, ∃ item, menu.findByTmplId pos line.productTmplId = some item ∧
    line.priceCents =
      (item.basePriceCents + (line.modifiers.map fun mod => surcharge mod.ptavId).sum) * line.quantity
  subtotal : cart.subtotalCents = (cart.items.map CartLine.priceCents).sum
  tax : cart.taxCents = 0
  total : cart.totalCents = cart.subtotalCents

theorem settled_atMenuPrices (hstocked : ∀ lineId, Stocked menu pos contents lineId) (hmenu : menu.Lawful)
    (hextra : Surcharges menu pos surcharge) (cart : Cart) (now : String) :
    AtMenuPrices menu pos surcharge (cart.settled menu pos contents now) := by
  refine ⟨?_, rfl, rfl, rfl⟩
  intro line hline
  obtain ⟨source, hsource, rfl⟩ := List.mem_map.mp hline
  obtain ⟨⟨id, choice⟩, hentry, rfl⟩ := List.mem_map.mp hsource
  obtain ⟨item, hitem⟩ := (hstocked id).listed choice hentry
  exact ⟨item, hitem, (readsMenu hmenu _).price hmenu hextra hentry hitem
    ((hstocked id).offered choice hentry)⟩

/-- After accepted operations the cart is at the menu's prices for its lines, which is pricing
them once, and each of the operations changes no more than its own line, these prices and the
time. -/
theorem local_prices (hmenu : menu.Lawful) (hextra : Surcharges menu pos surcharge)
    (hlisted : ∀ line ∈ cart.items, line.ListedIn menu pos) (hops : ops ≠ [])
    (hfolds : Folds menu pos cart ops lineIds result) :
    AtMenuPrices menu pos surcharge result ∧
    (∀ runtime : Runtime Id, runtime.nowIso.run = result.lastUpdated →
      priced runtime menu cart result.items pos = result) ∧
    ∀ (runtime : Runtime Id) (before after : Cart) (op : CartOperation),
      applyOperation runtime menu before op pos = .ok after →
        Framed runtime.newLineId before after op := by
  obtain ⟨now, hsettled⟩ := hfolds.settled hops
  have hstocked : ∀ lineId, Stocked menu pos result.contents lineId := fun _ =>
    hfolds.stocked hmenu (stocked_contents fun line hline _ => hlisted line hline)
  refine ⟨hsettled ▸ settled_atMenuPrices hstocked hmenu hextra cart now, ?_, ?_⟩
  · intro runtime hnow
    have hnow' : runtime.nowIso.run = now := by
      rw [hnow, ← hsettled]
      rfl
    subst hnow'
    exact (priced_entries runtime menu cart result.items pos).trans hsettled
  · intro runtime before after op h
    exact applyOperation_framed h

end

/-- One cheeseburger, at the tax-included price of a quote. -/
def quotedBurger : Cart :=
  { emptyCart "cart_1" 1 none "t0" with
    version := 3
    items := [{ newLine "ln_1" chickenBurger 1 [toCartModifier extraCheese] with priceCents := 715 }]
    subtotalCents := 650
    taxCents := 65
    totalCents := 715 }

theorem burgerStore_surcharges :
    Surcharges burgerStore.toLookup 1 fun ptavId => if ptavId = 901 then 150 else 0 := by
  intro tmpl item hitem
  cases List.mem_singleton.mp (InMemoryMenuStore.mem_of_getItem hitem)
  decide

/-- Two operations take the quoted cart to the menu's price for three burgers without cheese. -/
theorem local_prices_burger : ∃ result,
    Folds burgerStore.toLookup 1 quotedBurger
      [.updateQuantity "ln_1" 3, .removeModifier "ln_1" "extra_cheese"] ["ln_2", "ln_3"] result ∧
    AtMenuPrices burgerStore.toLookup 1 (fun ptavId => if ptavId = 901 then 150 else 0) result ∧
    result.totalCents = 1500 ∧ result.version = 3 := by
  have hfolds : ∃ result, Folds burgerStore.toLookup 1 quotedBurger
      [.updateQuantity "ln_1" 3, .removeModifier "ln_1" "extra_cheese"] ["ln_2", "ln_3"] result ∧
      result.totalCents = 1500 ∧ result.version = 3 :=
    ⟨_, @Folds.cons _ _ ⟨"ln_2", "t1"⟩ _ _ _ _ _ _ rfl
      (@Folds.cons _ _ ⟨"ln_3", "t2"⟩ _ _ _ _ _ _ rfl (.nil _)), by decide, by decide⟩
  obtain ⟨result, hrun, htotal, hversion⟩ := hfolds
  have hlisted : ∀ line ∈ quotedBurger.items, line.ListedIn burgerStore.toLookup 1 := by
    intro line hline
    cases List.mem_singleton.mp hline
    exact ⟨chickenBurger, rfl, by decide⟩
  exact ⟨result, hrun,
    (local_prices burgerStore_lawful burgerStore_surcharges hlisted (by decide) hrun).1, htotal, hversion⟩

end VoiceOrder.CartModule
