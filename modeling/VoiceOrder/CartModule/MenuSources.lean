import VoiceOrder.CartModule.Attempts
import VoiceOrder.CartModule.Edits

/-! # The menu that a line comes from

The item and the options of a line are answers of the menu, and its price is read from the menu
or from a quote. Each of these names a restaurant; a trace shows which. -/

namespace VoiceOrder.CartModule

open Async VoiceOrder.Menu VoiceOrder.Backend

/-- The menu of the restaurant has answered with the item. -/
def Answered (pos : PosConfigId) (trace : Trace) (item : MenuItem) : Prop :=
  (∃ menuItemKey, .called (.resolveItemKey pos menuItemKey) (.ok (some item)) ∈ trace) ∨
    ∃ tmpl, .called (.findByTmplId pos tmpl) (.ok (some item)) ∈ trace

/-- The item and the options of a line were resolved against the menu of the restaurant. -/
structure Resolved (pos : PosConfigId) (trace : Trace) (line : CartLine) : Prop where
  item : ∃ menuItemKey item,
    .called (.resolveItemKey pos menuItemKey) (.ok (some item)) ∈ trace ∧
      line.productTmplId = item.productTmplId ∧
      line.name = displayName (some item.names) item.menuItemKey ∧ line.names = item.names
  options : ∀ selected ∈ line.modifiers, ∃ item option, Answered pos trace item ∧
    option ∈ item.modifiers ∧ selected = toCartModifier option

/-- The line has the price that the menu of the restaurant gives it, or the price of a quote of
the restaurant. -/
inductive PricedAt (pos : PosConfigId) (trace : Trace) (line : CartLine) : Prop where
  | menu (tmpls : List ProductTmplId) (items : List MenuItem)
      (hread : .called (.getItems pos tmpls) (.ok items) ∈ trace)
      (hprice : priceLine items line = line)
  | quote (sent : Cart) (quote : QuoteResponse)
      (hread : .called (.quoteCart sent) (.ok quote) ∈ trace)
      (hpos : (toQuoteRequest sent).posConfigId = pos) (quoted : QuoteLine) (amount : ℚ)
      (hquoted : quoted ∈ quote.lines.getD []) (hline : quoted.lineId = line.lineId)
      (hamount : quoted.priceSubtotal = some amount) (hprice : line.priceCents = toCents amount)

/-- The lines were resolved and priced against the menu of the restaurant. -/
def Sourced (pos : PosConfigId) (trace : Trace) (items : List CartLine) : Prop :=
  ∀ line ∈ items, Resolved pos trace line ∧ PricedAt pos trace line

/-! ## Longer traces -/

section

variable {pos : PosConfigId} {trace later : Trace} {line : CartLine} {items : List CartLine}

theorem Answered.mono {item : MenuItem} (h : Answered pos trace item) (hsub : trace ⊆ later) :
    Answered pos later item :=
  h.imp (fun ⟨key, hmem⟩ => ⟨key, hsub hmem⟩) fun ⟨tmpl, hmem⟩ => ⟨tmpl, hsub hmem⟩

theorem Resolved.mono (h : Resolved pos trace line) (hsub : trace ⊆ later) :
    Resolved pos later line where
  item := by
    obtain ⟨key, item, hmem, hsame⟩ := h.item
    exact ⟨key, item, hsub hmem, hsame⟩
  options := fun selected hselected => by
    obtain ⟨item, option, hanswered, hoption⟩ := h.options selected hselected
    exact ⟨item, option, hanswered.mono hsub, hoption⟩

theorem PricedAt.mono (h : PricedAt pos trace line) (hsub : trace ⊆ later) :
    PricedAt pos later line := by
  cases h with
  | menu tmpls items hread hprice => exact .menu tmpls items (hsub hread) hprice
  | quote sent quote hread hpos quoted amount hquoted hline hamount hprice =>
      exact .quote sent quote (hsub hread) hpos quoted amount hquoted hline hamount hprice

theorem Sourced.mono (h : Sourced pos trace items) (hsub : trace ⊆ later) :
    Sourced pos later items :=
  fun line hline => ⟨(h line hline).1.mono hsub, (h line hline).2.mono hsub⟩

end

/-! ## The fold of a proposal -/

section

variable {cart : Cart} {pos : PosConfigId} {items : List CartLine} {line : CartLine}

theorem resolved_price {menuItems : List MenuItem} {trace : Trace} (h : Resolved pos trace line) :
    Resolved pos trace (priceLine menuItems line) :=
  ⟨h.item, h.options⟩

/-- The price of a line does not depend on the price it had. -/
theorem priceLine_priceLine (menuItems : List MenuItem) (line : CartLine) :
    priceLine menuItems (priceLine menuItems line) = priceLine menuItems line := rfl

/-- The resulting lines were resolved and priced against the menu of the restaurant, if the lines
that there were had been resolved against it. -/
def SourcedFrom (pos : PosConfigId) (items : List CartLine) (fetched : Trace)
    (result : List CartLine) : Prop :=
  ∀ earlier, (∀ line ∈ items, Resolved pos earlier line) → Sourced pos (earlier ++ fetched) result

theorem SourcedFrom.before {read fetched : Trace} {edited result : List CartLine}
    (h : SourcedFrom pos edited fetched result)
    (hedited : ∀ earlier, (∀ line ∈ items, Resolved pos earlier line) →
      ∀ line ∈ edited, Resolved pos (earlier ++ read) line) :
    SourcedFrom pos items (read ++ fetched) result := fun earlier hitems => by
  rw [← List.append_assoc]
  exact h _ (hedited earlier hitems)

theorem priced_sourced (cart : Cart) (items : List CartLine) (pos : PosConfigId) :
    Fetches Call.Lookup (priced runtime menuService cart items pos) fun fetched edited =>
      SourcedFrom pos items fetched edited.items := by
  refine .bind (.call trivial) fun fetched menuItems hread =>
    .bind (.call trivial) fun stamped now _ => .pure fun earlier hitems line hline => ?_
  obtain ⟨source, hsource, rfl⟩ := List.mem_map.mp hline
  have hmem : .called (.getItems pos (lineTmpls items)) (.ok menuItems) ∈ fetched := by
    rw [hread]
    exact List.mem_singleton.mpr rfl
  refine ⟨resolved_price ((hitems source hsource).mono (List.subset_append_left _ _)), ?_⟩
  refine .menu (lineTmpls items) menuItems ?_ (priceLine_priceLine menuItems source)
  exact List.mem_append_right _ (List.mem_append_left _ hmem)

theorem editModifiers_sourced (cart : Cart) (pos : PosConfigId) (lineId : LineId)
    (modifierKey : String) {edit : List CartModifier → CandidateModifier → List CartModifier}
    (hedit : ∀ modifiers mod, ∀ selected ∈ edit modifiers mod,
      selected ∈ modifiers ∨ selected = toCartModifier mod) :
    Fetches Call.Lookup (editModifiers runtime menuService cart pos lineId modifierKey edit)
      fun fetched result => ∀ edited, result = .ok edited →
        SourcedFrom pos cart.items fetched edited.items := by
  rw [editModifiers]
  split
  · exact .pure fun _ h => by cases h
  · rename_i line hline
    refine .bind (.call trivial) fun read found hread => ?_
    dsimp only
    split
    · exact .pure fun _ h => by cases h
    · rename_i mod hmod
      refine .bind (priced_sourced _ _ _) fun fetched edited hfetched => .pure fun _ h => ?_
      cases h
      rw [List.append_nil]
      obtain ⟨item, rfl, hoption⟩ := Option.bind_eq_some_iff.mp hmod
      refine hfetched.before fun earlier hitems changed hchanged => ?_
      obtain ⟨source, hsource, rfl⟩ := List.mem_map.mp hchanged
      have hkept := (hitems source hsource).mono (List.subset_append_left earlier read)
      split
      · refine ⟨hkept.item, fun selected hselected => ?_⟩
        rcases hedit _ _ selected hselected with hold | rfl
        · exact ((hitems line (List.mem_of_find?_eq_some hline)).mono
            (List.subset_append_left earlier read)).options selected hold
        · refine ⟨item, mod, .inr ⟨line.productTmplId, ?_⟩, List.mem_of_find?_eq_some hoption, rfl⟩
          exact List.mem_append_right _ (hread ▸ List.mem_singleton.mpr rfl)
      · exact hkept

theorem newLine_resolved {lineId : LineId} {item : MenuItem} {quantity : ℤ} {refs : List OpModifierRef}
    {modifiers : List CartModifier} {menuItemKey : String} {trace : Trace}
    (hread : .called (.resolveItemKey pos menuItemKey) (.ok (some item)) ∈ trace)
    (hmodifiers : resolveModifiers item refs = .ok modifiers) :
    Resolved pos trace (newLine lineId item quantity modifiers) := by
  refine ⟨⟨menuItemKey, item, hread, rfl, rfl, rfl⟩, fun selected hselected => ?_⟩
  obtain ⟨option, hoption, hsame⟩ := mem_resolveModifiers hmodifiers hselected
  exact ⟨item, option, .inl ⟨menuItemKey, hread⟩, hoption, hsame⟩

theorem applyOperation_sourced (cart : Cart) (op : CartOperation) (pos : PosConfigId) :
    Fetches Call.Lookup (applyOperation runtime menuService cart op pos) fun fetched result =>
      ∀ edited, result = .ok edited → SourcedFrom pos cart.items fetched edited.items := by
  have hpriced : ∀ items : List CartLine,
      (∀ trace, (∀ line ∈ cart.items, Resolved pos trace line) → ∀ line ∈ items, Resolved pos trace line) →
      Fetches Call.Lookup
        (do let cart ← priced runtime menuService cart items pos; pure (.ok cart) :
          Promise (Except CartRejectedError Cart))
        fun fetched result => ∀ edited, result = .ok edited →
          SourcedFrom pos cart.items fetched edited.items := fun items hitems =>
    .bind (priced_sourced _ _ _) fun fetched edited hfetched => .pure fun _ h => by
      cases h
      rw [List.append_nil]
      exact fun earlier hearlier => hfetched earlier (hitems earlier hearlier)
  cases op with
  | addItem menuItemKey quantity refs =>
      refine .bind (.call trivial) fun read found hread => ?_
      dsimp only
      split
      · exact .pure fun _ h => by cases h
      · rename_i item havailable
        obtain ⟨rfl, -⟩ := Option.filter_eq_some_iff.mp havailable
        split
        · exact .pure fun _ h => by cases h
        · rename_i modifiers hmodifiers
          refine .bind (.call trivial) fun drawn lineId _ => .bind (priced_sourced _ _ _)
            fun fetched edited hfetched => .pure fun _ h => ?_
          cases h
          rw [List.append_nil, ← List.append_assoc]
          refine hfetched.before fun earlier hitems line hline => ?_
          rcases List.mem_append.mp hline with hold | hnew
          · exact (hitems line hold).mono (List.subset_append_left _ _)
          · rw [List.mem_singleton.mp hnew]
            have hmem : .called (.resolveItemKey pos menuItemKey) (.ok (some item)) ∈
                earlier ++ (read ++ drawn) :=
              List.mem_append_right _ (List.mem_append_left _ (hread ▸ List.mem_singleton.mpr rfl))
            exact newLine_resolved hmem hmodifiers
  | removeItem lineId =>
      rw [applyOperation]
      split
      · exact hpriced _ fun trace htrace line hline => htrace line (List.mem_filter.mp hline).1
      · exact .pure fun _ h => by cases h
  | updateQuantity lineId quantity =>
      rw [applyOperation]
      split
      · split
        · exact .pure fun _ h => by cases h
        · refine hpriced _ fun trace htrace line hline => ?_
          obtain ⟨source, hsource, rfl⟩ := List.mem_map.mp hline
          split
          · exact ⟨(htrace source hsource).item, (htrace source hsource).options⟩
          · exact htrace source hsource
      · exact .pure fun _ h => by cases h
  | addModifier lineId modifierKey =>
      exact editModifiers_sourced _ _ _ _ fun _ _ _ => mem_withModifier
  | removeModifier lineId modifierKey =>
      exact editModifiers_sourced _ _ _ _ fun _ _ _ => mem_withoutModifier

theorem applyOperations_sourced (pos : PosConfigId) (ops : List CartOperation) (folded : Folded) :
    Fetches Call.Lookup (applyOperations pos ops folded) fun fetched result =>
      ∀ earlier, Sourced pos earlier folded.cart.items →
        Sourced pos (earlier ++ fetched) result.cart.items := by
  induction ops generalizing folded with
  | nil => exact .pure fun earlier h => by rwa [List.append_nil]
  | cons op ops ih =>
      refine .bind (applyOperation_sourced _ _ _) fun read result hread => ?_
      cases result with
      | ok edited =>
          refine (ih { folded with cart := edited, applied := folded.applied + 1 }).mono
            fun fetched result hfetched earlier hearlier => ?_
          rw [← List.append_assoc]
          exact hfetched _ (hread edited rfl earlier fun line hline => (hearlier line hline).1)
      | error error =>
          refine (ih { folded with rejected := folded.rejected ++ [(op, error)] }).mono
            fun fetched result hfetched earlier hearlier => ?_
          rw [← List.append_assoc]
          exact hfetched _ (hearlier.mono (List.subset_append_left _ _))

/-- A quote of the restaurant keeps the lines or prices them anew. -/
theorem quoted_sourced {sent quoted : Cart} {quote : QuoteResponse} {trace : Trace}
    (hpos : sent.posConfigId = pos) (hread : .called (.quoteCart sent) (.ok quote) ∈ trace)
    (hquoted : applyQuoteToCart sent quote = .ok quoted) (h : Sourced pos trace sent.items) :
    Sourced pos trace quoted.items := by
  simp only [applyQuoteToCart] at hquoted
  split at hquoted
  · cases hquoted
  · cases hquoted
    intro line hline
    obtain ⟨source, hsource, rfl⟩ := List.mem_map.mp hline
    obtain ⟨hresolved, hpriced⟩ := h source hsource
    split
    · exact ⟨hresolved, hpriced⟩
    · rename_i amount hamount
      refine ⟨⟨hresolved.item, hresolved.options⟩, ?_⟩
      obtain ⟨line, hmem, hsame⟩ :=
        List.mem_filterMap.mp (OrderedMap.mem_of_get_ofEntries hamount)
      obtain ⟨subtotal, hsubtotal, hpair⟩ := Option.map_eq_some_iff.mp hsame
      obtain ⟨hline, rfl⟩ := Prod.mk.inj hpair
      exact .quote sent quote hread hpos line subtotal hmem hline hsubtotal rfl

end

end VoiceOrder.CartModule
