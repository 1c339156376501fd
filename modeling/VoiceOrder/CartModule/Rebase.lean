import VoiceOrder.CartModule.FixedMenu
import VoiceOrder.CartModule.LocalPricing
import VoiceOrder.Shared.EditBatches

/-! # Rebase of operations

Operations on different lines commute, so a batch may be applied to a cart that others have
changed meanwhile. What it does to its own lines is what it does to them on the snapshot. -/

namespace VoiceOrder.CartModule

open KeyedEdit VoiceOrder.Menu

/-- The edits of a batch, each with the id at hand for it. -/
def edits (menu : MenuLookup Id) (pos : PosConfigId) (batch : List (Runtime Id × CartOperation)) :
    List (LineId × KeyedEdit LineId Choice CartRejectedError) :=
  batch.map fun step => (step.1.newLineId.run, step.2.edit menu pos)

/-- The lines without their ids. -/
def CartLine.anonymous (line : CartLine) : CartLine := { line with lineId := "" }

section

variable {menu : MenuLookup Id} {pos : PosConfigId} {cart : Cart}
  {batch batch' : List (Runtime Id × CartOperation)} {surcharge : PtavId → Cents}

/-! ## A batch as edits of the contents -/

/-- The result gives the verdicts on the edits. A cart of which none is accepted is left as it
is, any other is settled at what the edits leave. -/
structure Settles (menu : MenuLookup Id) (pos : PosConfigId) (cart : Cart)
    (steps : List (LineId × KeyedEdit LineId Choice CartRejectedError)) (result : Cart × Verdicts) :
    Prop where
  verdicts : result.2 = refusals steps cart.contents
  contents : result.1.contents = applyAll steps cart.contents
  untouched : none ∉ result.2 → result.1 = cart
  settled : none ∈ result.2 →
    ∃ now, result.1 = cart.settled menu pos (applyAll steps cart.contents) now

theorem applyBatch_settles (menu : MenuLookup Id) (pos : PosConfigId)
    (batch : List (Runtime Id × CartOperation)) (cart : Cart) :
    Settles menu pos cart (edits menu pos batch) (applyBatch menu pos batch cart) := by
  induction batch generalizing cart with
  | nil => exact ⟨rfl, rfl, fun _ => rfl, fun h => by cases h⟩
  | cons step batch ih =>
      obtain ⟨met, op⟩ := step
      have hop := applyOperation_eq met menu cart op pos
      rw [run_eq] at hop
      cases hrefusal : (op.edit menu pos).refusal cart.contents with
      | some error =>
          have happly : (op.edit menu pos).apply (Id.run met.newLineId) cart.contents = cart.contents :=
            apply_of_refused hrefusal
          simp only [hrefusal, Except.map] at hop
          have h := ih cart
          simp only [applyBatch, hop]
          refine ⟨?_, ?_, ?_, ?_⟩
          · rw [edits, List.map_cons, refusals, hrefusal, happly]
            exact congrArg _ h.verdicts
          · rw [edits, List.map_cons, applyAll, happly]
            exact h.contents
          · exact fun hnone => h.untouched fun hmem => hnone (List.mem_cons_of_mem _ hmem)
          · intro hsome
            rw [edits, List.map_cons, applyAll, happly]
            exact h.settled ((List.mem_cons.mp hsome).resolve_left fun heq => by cases heq)
      | none =>
          simp only [hrefusal, Except.map] at hop
          have h := ih (cart.settled menu pos
            ((op.edit menu pos).apply (Id.run met.newLineId) cart.contents) met.nowIso)
          simp only [applyBatch, hop]
          refine ⟨?_, ?_, ?_, ?_⟩
          · rw [edits, List.map_cons, refusals, hrefusal]
            exact congrArg _ (h.verdicts.trans (by rw [contents_settled]; rfl))
          · rw [edits, List.map_cons, applyAll]
            exact h.contents.trans (by rw [contents_settled]; rfl)
          · exact fun hnone => absurd List.mem_cons_self hnone
          · intro _
            by_cases hlater : none ∈ (applyBatch menu pos batch (cart.settled menu pos
                ((op.edit menu pos).apply (Id.run met.newLineId) cart.contents) met.nowIso)).2
            · obtain ⟨now, hnow⟩ := h.settled hlater
              refine ⟨now, hnow.trans ?_⟩
              rw [contents_settled]
              rfl
            · refine ⟨met.nowIso, (h.untouched hlater).trans ?_⟩
              have hcontents := h.contents
              rw [h.untouched hlater, contents_settled] at hcontents
              exact congrArg (fun left => cart.settled menu pos left met.nowIso) hcontents

/-! ## Operations on different lines commute -/

/-- `other` does not target the line that `op` leaves changed, where `fresh` is the id at hand. -/
def Apart (fresh : LineId) (op other : CartOperation) : Prop :=
  other.target ≠ some (op.target.getD fresh)

instance (fresh : LineId) (op other : CartOperation) : Decidable (Apart fresh op other) :=
  inferInstanceAs (Decidable (_ ≠ _))

/-- The carts differ only in the order and the ids of the lines they have over `cart`, and in the
time. -/
structure SameUpToNew (cart : Cart) (ids ids' : List LineId) (one other : Cart) : Prop where
  rest : other = { one with items := other.items, lastUpdated := other.lastUpdated }
  items : ∃ kept new new', one.items = kept ++ new ∧ other.items = kept ++ new' ∧
    (kept.map CartLine.lineId).Sublist cart.lineIds ∧
    (new.map CartLine.lineId).Sublist ids ∧ (new'.map CartLine.lineId).Sublist ids' ∧
    (new.map CartLine.anonymous).Perm (new'.map CartLine.anonymous)

theorem SameUpToNew.refl (cart : Cart) (ids ids' : List LineId) : SameUpToNew cart ids ids' cart cart :=
  ⟨rfl, cart.items, [], [], by simp, by simp, .refl _, List.nil_sublist _, List.nil_sublist _, .nil⟩

/-- The lines of entries in a cart of these contents, at the prices of the menu. -/
def linesAt (menu : MenuLookup Id) (pos : PosConfigId) (contents entries : List (LineId × Choice)) :
    List CartLine :=
  entries.map fun entry =>
    priceLine (menu.getItems pos (lineTmpls (contents.map unpricedLine))) (unpricedLine entry)

theorem items_settled (cart : Cart) (contents : List (LineId × Choice)) (now : String) :
    (cart.settled menu pos contents now).items = linesAt menu pos contents contents :=
  List.map_map

theorem linesAt_append (contents entries entries' : List (LineId × Choice)) :
    linesAt menu pos contents (entries ++ entries') =
      linesAt menu pos contents entries ++ linesAt menu pos contents entries' := List.map_append

theorem lineIds_linesAt (contents entries : List (LineId × Choice)) :
    (linesAt menu pos contents entries).map CartLine.lineId = entries.map Prod.fst := by
  rw [linesAt, List.map_map]
  rfl

theorem choice_linesAt (contents entries : List (LineId × Choice)) :
    (linesAt menu pos contents entries).map CartLine.choice = entries.map Prod.snd := by
  rw [linesAt, List.map_map]
  rfl

theorem mem_lineTmpls_contents {contents : List (LineId × Choice)} {tmpl : ProductTmplId} :
    tmpl ∈ lineTmpls (contents.map unpricedLine) ↔
      tmpl ∈ (contents.map Prod.snd).map Choice.productTmplId := by
  rw [lineTmpls, OrderedMap.mem_foldl_add, List.map_map, List.map_map]
  exact ⟨fun h => h.resolve_left List.not_mem_nil, .inr⟩

/-- The lines depend on which templates the contents have, not on their order. -/
theorem linesAt_congr {contents others : List (LineId × Choice)} (hmenu : menu.Lawful)
    (hextra : Surcharges menu pos surcharge)
    (hbodies : (contents.map Prod.snd).Perm (others.map Prod.snd)) (entries : List (LineId × Choice)) :
    linesAt menu pos contents entries = linesAt menu pos others entries := by
  refine List.map_congr_left fun entry _ => ?_
  refine ReadsMenu.priceLine_congr (readsMenu hmenu _) (readsMenu hmenu _) hextra (fun tmpl => ?_) _
  rw [mem_lineTmpls_contents, mem_lineTmpls_contents]
  exact (hbodies.map _).mem_iff

/-- Lines of the same choices are the same up to their ids. -/
theorem anonymous_linesAt_perm (menu : MenuLookup Id) (pos : PosConfigId)
    {new new' : List (LineId × Choice)} (contents : List (LineId × Choice))
    (hperm : (new.map Prod.snd).Perm (new'.map Prod.snd)) :
    ((linesAt menu pos contents new).map CartLine.anonymous).Perm
      ((linesAt menu pos contents new').map CartLine.anonymous) := by
  have hbody : ∀ entries : List (LineId × Choice),
      (linesAt menu pos contents entries).map CartLine.anonymous =
        (entries.map Prod.snd).map fun choice =>
          priceLine (menu.getItems pos (lineTmpls (contents.map unpricedLine)))
            (unpricedLine ("", choice)) := by
    intro entries
    rw [linesAt, List.map_map, List.map_map]
    rfl
  rw [hbody, hbody]
  exact hperm.map _

theorem sum_prices {lines lines' : List CartLine}
    (h : (lines.map CartLine.anonymous).Perm (lines'.map CartLine.anonymous)) :
    (lines.map CartLine.priceCents).sum = (lines'.map CartLine.priceCents).sum := by
  have hprices : ∀ lines : List CartLine, lines.map CartLine.priceCents =
      (lines.map CartLine.anonymous).map CartLine.priceCents := by
    intro lines
    rw [List.map_map]
    rfl
  rw [hprices, hprices lines']
  exact (h.map _).sum_eq

theorem settled_sameUpToNew {kept new new' : List (LineId × Choice)} {ids ids' : List LineId}
    (hmenu : menu.Lawful) (hextra : Surcharges menu pos surcharge)
    (hkept : (kept.map Prod.fst).Sublist cart.lineIds)
    (hnew : (new.map Prod.fst).Sublist ids) (hnew' : (new'.map Prod.fst).Sublist ids')
    (hperm : (new.map Prod.snd).Perm (new'.map Prod.snd)) (now then' : String) :
    SameUpToNew cart ids ids' (cart.settled menu pos (kept ++ new) now)
      (cart.settled menu pos (kept ++ new') then') := by
  have hbodies : ((kept ++ new').map Prod.snd).Perm ((kept ++ new).map Prod.snd) := by
    rw [List.map_append, List.map_append]
    exact hperm.symm.append_left _
  have hitems : (cart.settled menu pos (kept ++ new) now).items =
      linesAt menu pos (kept ++ new) kept ++ linesAt menu pos (kept ++ new) new :=
    (items_settled ..).trans (linesAt_append ..)
  have hitems' : (cart.settled menu pos (kept ++ new') then').items =
      linesAt menu pos (kept ++ new) kept ++ linesAt menu pos (kept ++ new) new' :=
    ((items_settled ..).trans (linesAt_congr hmenu hextra hbodies _)).trans (linesAt_append ..)
  have hanonymous := anonymous_linesAt_perm menu pos (kept ++ new) hperm
  have hsubtotal : (cart.settled menu pos (kept ++ new') then').subtotalCents =
      (cart.settled menu pos (kept ++ new) now).subtotalCents := by
    change ((cart.settled menu pos (kept ++ new') then').items.map CartLine.priceCents).sum =
      ((cart.settled menu pos (kept ++ new) now).items.map CartLine.priceCents).sum
    rw [hitems, hitems', List.map_append, List.map_append, List.sum_append, List.sum_append,
      sum_prices hanonymous]
  refine ⟨?_, _, _, _, hitems, hitems', ?_, ?_, ?_, hanonymous⟩
  · calc cart.settled menu pos (kept ++ new') then'
        = { cart with
            items := (cart.settled menu pos (kept ++ new') then').items
            subtotalCents := (cart.settled menu pos (kept ++ new') then').subtotalCents
            taxCents := 0
            totalCents := (cart.settled menu pos (kept ++ new') then').subtotalCents
            lastUpdated := then' } := rfl
      _ = _ := by rw [hsubtotal]; rfl
  · rw [lineIds_linesAt]
    exact hkept
  · rw [lineIds_linesAt]
    exact hnew
  · rw [lineIds_linesAt]
    exact hnew'

theorem unread_pair {a b : CartOperation} {ra rb : Runtime Id} (hab : Apart ra.newLineId a b)
    (hba : Apart rb.newLineId b a) : Unread (edits menu pos [(ra, a), (rb, b)]) := by
  intro step hstep hnone other hother
  simp only [edits, List.map_cons, List.map_nil, List.mem_cons, List.not_mem_nil, or_false] at hstep hother
  rcases hstep with rfl | rfl <;> rw [target_edit] at hnone <;> rcases hother with rfl | rfl <;>
    rw [target_edit]
  · simp [hnone]
  · rw [Apart, hnone] at hab
    exact hab
  · rw [Apart, hnone] at hba
    exact hba
  · simp [hnone]

/-- In either order the two operations are accepted or rejected alike, and leave the same cart. -/
structure Commuted (menu : MenuLookup Id) (pos : PosConfigId) (cart : Cart) (a b : CartOperation)
    (ra ra' rb rb' : Runtime Id) : Prop where
  verdicts : (applyBatch menu pos [(rb', b), (ra', a)] cart).2 =
    (applyBatch menu pos [(ra, a), (rb, b)] cart).2.reverse
  carts : SameUpToNew cart [ra.newLineId, rb.newLineId] [rb'.newLineId, ra'.newLineId]
    (applyBatch menu pos [(ra, a), (rb, b)] cart).1 (applyBatch menu pos [(rb', b), (ra', a)] cart).1

/-- Two operations commute if neither targets the line the other leaves changed. -/
theorem applyBatch_comm (hmenu : menu.Lawful) (hextra : Surcharges menu pos surcharge) (cart : Cart)
    {a b : CartOperation} {ra ra' rb rb' : Runtime Id}
    (hab : Apart ra.newLineId a b) (hab' : Apart ra'.newLineId a b)
    (hba : Apart rb.newLineId b a) (hba' : Apart rb'.newLineId b a) :
    Commuted menu pos cart a b ra ra' rb rb' := by
  have hone := applyBatch_settles menu pos [(ra, a), (rb, b)] cart
  have hother := applyBatch_settles menu pos [(rb', b), (ra', a)] cart
  have htargets : ∀ key, (a.edit menu pos).target = some key → (b.edit menu pos).target ≠ some key := by
    intro key hkey
    rw [target_edit] at hkey ⊢
    rw [Apart, hkey] at hab
    exact hab
  have hunread : Unread (edits menu pos [(ra, a), (rb, b)]) := unread_pair hab hba
  have hunread' : Unread (edits menu pos [(rb', b), (ra', a)]) := unread_pair hba' hab'
  have hverdicts : (applyBatch menu pos [(rb', b), (ra', a)] cart).2 =
      (applyBatch menu pos [(ra, a), (rb, b)] cart).2.reverse := by
    rw [hone.verdicts, hother.verdicts]
    simp only [edits, List.map_cons, List.map_nil, refusals]
    rw [refusal_apply (by rw [target_edit, target_edit]; exact hba'),
      refusal_apply (by rw [target_edit, target_edit]; exact hab)]
    rfl
  refine ⟨hverdicts, ?_⟩
  by_cases haccepted : none ∈ (applyBatch menu pos [(ra, a), (rb, b)] cart).2
  · obtain ⟨now, hnow⟩ := hone.settled haccepted
    obtain ⟨then', hthen⟩ := hother.settled (by rw [hverdicts]; exact List.mem_reverse.mpr haccepted)
    have hkept : amendedAll (edits menu pos [(rb', b), (ra', a)]) cart.contents =
        amendedAll (edits menu pos [(ra, a), (rb, b)]) cart.contents := (amended_comm htargets).symm
    rw [hnow, hthen, applyAll_eq hunread, applyAll_eq hunread', hkept]
    have hids := keys_appendedAll (edits menu pos [(ra, a), (rb, b)])
    have hids' := keys_appendedAll (edits menu pos [(rb', b), (ra', a)])
    refine settled_sameUpToNew hmenu hextra ?_ hids hids' ?_ now then'
    · rw [← contents_keys]
      exact keys_amendedAll _ _
    · rw [bodies_appendedAll, bodies_appendedAll]
      simp only [edits, List.map_cons, List.map_nil, List.flatMap_cons, List.flatMap_nil, List.append_nil]
      exact List.perm_append_comm
  · rw [hone.untouched haccepted, hother.untouched (by rw [hverdicts]; simpa using haccepted)]
    exact .refl cart _ _

/-! ## A batch on a cart that others have changed -/

def Cart.linesOf (cart : Cart) (lineId : LineId) : List CartLine :=
  cart.items.filter fun line => line.lineId = lineId

/-- `lineId` is the target of an operation of the batch. -/
def Targets (batch : List (Runtime Id × CartOperation)) (lineId : LineId) : Prop :=
  ∃ step ∈ batch, step.2.target = some lineId

/-- The lines of the result are ones of the cart and behind them, under ids at hand, `new`. -/
def Adds (cart : Cart) (batch : List (Runtime Id × CartOperation)) (result : Cart)
    (new : List CartLine) : Prop :=
  ∃ kept, result.items = kept ++ new ∧ (kept.map CartLine.lineId).Sublist cart.lineIds ∧
    (new.map CartLine.lineId).Sublist (batch.map fun step => step.1.newLineId)

/-- What the batches left of the lines they target, and what they added, looks the same. -/
structure SameOwnLines {γ : Type} (view : CartLine → γ) (snapshot current : Cart)
    (batch batch' : List (Runtime Id × CartOperation)) (before after : Cart) : Prop where
  targets : ∀ lineId, Targets batch lineId →
    (before.linesOf lineId).map view = (after.linesOf lineId).map view
  added : ∃ new new', Adds snapshot batch before new ∧ Adds current batch' after new' ∧
    new.map view = new'.map view

theorem entry_linesOf (cart : Cart) (lineId : LineId) :
    (cart.linesOf lineId).map CartLine.entry = under lineId cart.contents := by
  rw [Cart.linesOf, under, Cart.contents, List.filter_map]
  rfl

theorem choice_linesOf (cart : Cart) (lineId : LineId) :
    (cart.linesOf lineId).map CartLine.choice = (under lineId cart.contents).map Prod.snd := by
  rw [← entry_linesOf, List.map_map]
  rfl

/-- The entries of one id are the choices of its lines. -/
theorem under_contents {one other : Cart} {lineId : LineId}
    (h : (one.linesOf lineId).map CartLine.choice = (other.linesOf lineId).map CartLine.choice) :
    under lineId one.contents = under lineId other.contents := by
  have hpairs : ∀ cart : Cart, under lineId cart.contents =
      ((cart.linesOf lineId).map CartLine.choice).map fun choice => (lineId, choice) := by
    intro cart
    rw [choice_linesOf, List.map_map]
    refine (List.map_id _).symm.trans (List.map_congr_left fun entry hentry => ?_)
    have hid : entry.1 = lineId := by simpa using (List.mem_filter.mp hentry).2
    exact Prod.ext hid rfl
  rw [hpairs, hpairs, h]

theorem linesOf_settled (cart : Cart) (contents : List (LineId × Choice)) (now : String)
    (lineId : LineId) :
    (cart.settled menu pos contents now).linesOf lineId =
      linesAt menu pos contents (under lineId contents) := by
  rw [Cart.linesOf, items_settled, linesAt, List.filter_map]
  rfl

theorem edits_targets {lineId : LineId} {step : LineId × KeyedEdit LineId Choice CartRejectedError}
    (hstep : step ∈ edits menu pos batch) (htarget : step.2.target = some lineId) :
    Targets batch lineId := by
  obtain ⟨source, hsource, rfl⟩ := List.mem_map.mp hstep
  rw [target_edit] at htarget
  exact ⟨source, hsource, htarget⟩

/-- No operation of the batch targets the id at hand for an addition. -/
def FreshIds (batch steps : List (Runtime Id × CartOperation)) : Prop :=
  ∀ step ∈ steps, step.2.target = none → ¬Targets batch step.1.newLineId

theorem FreshIds.unread (h : FreshIds batch batch) : Unread (edits menu pos batch) := by
  intro step hstep hnone other hother htarget
  obtain ⟨source, hsource, rfl⟩ := List.mem_map.mp hstep
  rw [target_edit] at hnone
  exact h source hsource hnone (edits_targets hother htarget)

/-- The lines a settled batch has added. -/
theorem adds_settled (hfresh : FreshIds batch batch) (cart : Cart) (now : String) :
    Adds cart batch (cart.settled menu pos (applyAll (edits menu pos batch) cart.contents) now)
      (linesAt menu pos (applyAll (edits menu pos batch) cart.contents)
        (appendedAll (edits menu pos batch))) := by
  refine ⟨linesAt menu pos (applyAll (edits menu pos batch) cart.contents)
    (amendedAll (edits menu pos batch) cart.contents), ?_, ?_, ?_⟩
  · rw [items_settled, ← linesAt_append]
    exact congrArg _ (applyAll_eq hfresh.unread _)
  · rw [lineIds_linesAt, ← contents_keys]
    exact keys_amendedAll _ _
  · rw [lineIds_linesAt]
    have hids := keys_appendedAll (edits menu pos batch)
    rwa [edits, List.map_map] at hids

/-! ### Their prices -/

/-- The line of a choice at the menu's price, without an id. -/
def menuLine (menu : MenuLookup Id) (pos : PosConfigId) (surcharge : PtavId → Cents) (choice : Choice) :
    CartLine :=
  { unpricedLine ("", choice) with
    priceCents := (((menu.findByTmplId pos choice.productTmplId).map MenuItem.basePriceCents).getD 0 +
      (choice.modifiers.map fun mod => surcharge mod.ptavId).sum) * choice.quantity }

theorem linesAt_menuLine {contents entries : List (LineId × Choice)} (hmenu : menu.Lawful)
    (hextra : Surcharges menu pos surcharge)
    (hentries : ∀ entry ∈ entries, entry ∈ contents ∧
      (∃ item, menu.findByTmplId pos entry.2.productTmplId = some item) ∧
      ∀ modifier ∈ entry.2.modifiers, Offered menu pos contents entry.1 modifier) :
    (linesAt menu pos contents entries).map CartLine.anonymous =
      (entries.map Prod.snd).map (menuLine menu pos surcharge) := by
  rw [linesAt, List.map_map, List.map_map]
  refine List.map_congr_left fun entry hentry => ?_
  obtain ⟨hmem, ⟨item, hitem⟩, hoffered⟩ := hentries entry hentry
  have hprice := (readsMenu hmenu _).price hmenu hextra hmem hitem hoffered
  calc (priceLine (menu.getItems pos (lineTmpls (contents.map unpricedLine)))
          (unpricedLine entry)).anonymous
      = { unpricedLine ("", entry.2) with
          priceCents := (priceLine (menu.getItems pos (lineTmpls (contents.map unpricedLine)))
            (unpricedLine entry)).priceCents } := rfl
    _ = menuLine menu pos surcharge entry.2 := by
      rw [hprice, menuLine, hitem]
      rfl

theorem Stocked.congr {contents others : List (LineId × Choice)} {lineId : LineId}
    (h : Stocked menu pos contents lineId) (hsame : under lineId contents = under lineId others) :
    Stocked menu pos others lineId := by
  have hmem : ∀ choice, (lineId, choice) ∈ others ↔ (lineId, choice) ∈ contents := by
    intro choice
    have := congrArg ((lineId, choice) ∈ ·) hsame
    simpa [under] using this.symm
  constructor
  · exact fun choice hentry => h.listed choice ((hmem choice).mp hentry)
  · intro choice hentry modifier hmodifier
    exact (h.offered choice ((hmem choice).mp hentry) modifier hmodifier).mono fun source hsource =>
      ⟨source, (hmem source).mpr hsource, rfl⟩

theorem Stocked.applyAll {contents : List (LineId × Choice)} {lineId : LineId}
    (h : Stocked menu pos contents lineId) (hmenu : menu.Lawful) :
    Stocked menu pos (KeyedEdit.applyAll (edits menu pos batch) contents) lineId := by
  induction batch generalizing contents with
  | nil => exact h
  | cons step batch ih =>
      refine ih ?_
      cases hrefusal : (step.2.edit menu pos).refusal contents with
      | some error => rwa [apply_of_refused hrefusal]
      | none => exact h.run hmenu (run_eq_ok.mpr ⟨hrefusal, rfl⟩)

/-- What a batch adds is listed and offered by itself. -/
theorem appendedAll_offered (hmenu : menu.Lawful) {contents : List (LineId × Choice)}
    (hsub : ∀ entry ∈ appendedAll (edits menu pos batch), entry ∈ contents) :
    ∀ entry ∈ appendedAll (edits menu pos batch), entry ∈ contents ∧
      (∃ item, menu.findByTmplId pos entry.2.productTmplId = some item) ∧
      ∀ modifier ∈ entry.2.modifiers, Offered menu pos contents entry.1 modifier := by
  intro entry hentry
  obtain ⟨step, hstep, hadded⟩ := List.mem_flatMap.mp hentry
  obtain ⟨⟨met, op⟩, -, rfl⟩ := List.mem_map.mp hstep
  obtain ⟨choice, hchoice, rfl⟩ := List.mem_map.mp hadded
  have haddition : ∃ key quantity refs, addition menu pos key quantity refs = .ok choice := by
    cases op with
    | addItem menuItemKey quantity refs =>
        refine ⟨menuItemKey, quantity, refs, ?_⟩
        cases hresult : addition menu pos menuItemKey quantity refs with
        | error error => simp [CartOperation.edit, hresult, KeyedEdit.appended] at hchoice
        | ok body =>
            simp only [CartOperation.edit, hresult, KeyedEdit.appended, List.mem_singleton] at hchoice
            rw [hchoice]
    | _ => cases hchoice
  obtain ⟨key, quantity, refs, haddition⟩ := haddition
  obtain ⟨item, hitem, hoptions⟩ := addition_listed hmenu haddition
  have hmem := hsub _ hentry
  exact ⟨hmem, ⟨item, hitem⟩, fun modifier hmodifier =>
    ⟨_, hmem, rfl, item, hitem, hoptions modifier hmodifier⟩⟩

theorem appendedAll_mem (hfresh : FreshIds batch batch) (cart : Cart) :
    ∀ entry ∈ appendedAll (edits menu pos batch),
      entry ∈ applyAll (edits menu pos batch) cart.contents := by
  intro entry hentry
  rw [applyAll_eq hfresh.unread]
  exact List.mem_append_right _ hentry

/-- A batch has added the choices of its accepted additions, at the menu's prices. -/
theorem applyBatch_adds (hmenu : menu.Lawful) (hextra : Surcharges menu pos surcharge)
    (hfresh : FreshIds batch batch) (cart : Cart) :
    ∃ new, Adds cart batch (applyBatch menu pos batch cart).1 new ∧
      new.map CartLine.choice = (edits menu pos batch).flatMap (fun step => step.2.appended) ∧
      new.map CartLine.anonymous = ((edits menu pos batch).flatMap fun step => step.2.appended).map
        (menuLine menu pos surcharge) := by
  have h := applyBatch_settles menu pos batch cart
  rw [← bodies_appendedAll]
  by_cases haccepted : none ∈ (applyBatch menu pos batch cart).2
  · obtain ⟨now, hnow⟩ := h.settled haccepted
    rw [hnow]
    exact ⟨_, adds_settled hfresh cart now, choice_linesAt _ _,
      linesAt_menuLine hmenu hextra (appendedAll_offered hmenu (appendedAll_mem hfresh cart))⟩
  · rw [h.untouched haccepted, appendedAll_of_refused (h.verdicts ▸ haccepted)]
    exact ⟨[], ⟨cart.items, (List.append_nil _).symm, .refl _, List.nil_sublist _⟩, rfl, rfl⟩

theorem targets_iff {lineId : LineId} :
    Targets batch lineId ↔ some lineId ∈ (batch.map Prod.snd).map CartOperation.target := by
  simp [Targets]

theorem appended_edits : (edits menu pos batch).flatMap (fun step => step.2.appended) =
    (batch.map Prod.snd).flatMap fun op => (op.edit menu pos).appended := by
  rw [edits, List.flatMap_map, List.flatMap_map]

theorem Stocked.entries {contents : List (LineId × Choice)} {lineId : LineId}
    (h : Stocked menu pos contents lineId) : ∀ entry ∈ under lineId contents, entry ∈ contents ∧
      (∃ item, menu.findByTmplId pos entry.2.productTmplId = some item) ∧
      ∀ modifier ∈ entry.2.modifiers, Offered menu pos contents entry.1 modifier := by
  intro entry hentry
  obtain ⟨hmem, hid⟩ := List.mem_filter.mp hentry
  cases of_decide_eq_true hid
  exact ⟨hmem, h.listed entry.2 hmem, h.offered entry.2 hmem⟩

/-- A batch on a cart that differs from its snapshot on other lines gets the same verdicts, and
leaves its own lines with the same choices. -/
theorem applyBatch_own (menu : MenuLookup Id) (pos : PosConfigId) {snapshot current : Cart}
    (hops : batch.map Prod.snd = batch'.map Prod.snd)
    (hfresh : FreshIds batch (batch ++ batch'))
    (hown : ∀ lineId, Targets batch lineId →
      (snapshot.linesOf lineId).map CartLine.choice = (current.linesOf lineId).map CartLine.choice) :
    (applyBatch menu pos batch' current).2 = (applyBatch menu pos batch snapshot).2 ∧
      ∀ lineId, Targets batch lineId →
        under lineId (applyAll (edits menu pos batch) snapshot.contents) =
          under lineId (applyAll (edits menu pos batch') current.contents) := by
  have hedits : (edits menu pos batch).map Prod.snd = (edits menu pos batch').map Prod.snd := by
    have h := congrArg (List.map fun op : CartOperation => op.edit menu pos) hops
    rw [List.map_map, List.map_map] at h
    rw [edits, edits, List.map_map, List.map_map]
    exact h
  have hunread : ∀ step ∈ edits menu pos batch ++ edits menu pos batch', step.2.target = none →
      ¬Targets batch step.1 := by
    intro step hstep hnone
    rw [edits, edits, ← List.map_append] at hstep
    obtain ⟨source, hsource, rfl⟩ := List.mem_map.mp hstep
    rw [target_edit] at hnone
    exact hfresh source hsource hnone
  obtain ⟨hrefusals, hunder⟩ := applyAll_under (fun lineId h => under_contents (hown lineId h)) hedits
    (fun _ hstep _ => edits_targets hstep) hunread
  rw [(applyBatch_settles menu pos batch snapshot).verdicts,
    (applyBatch_settles menu pos batch' current).verdicts]
  exact ⟨hrefusals.symm, hunder⟩

/-- On the current cart the batch gets the verdicts it gets on the snapshot, leaves the same choices
on its own lines and adds its lines at the same prices. If it is not all rejected, a line it targets
gets the same price where the menu lists it. -/
structure Rebased (menu : MenuLookup Id) (pos : PosConfigId) (snapshot current : Cart)
    (batch batch' : List (Runtime Id × CartOperation)) : Prop where
  verdicts : (applyBatch menu pos batch' current).2 = (applyBatch menu pos batch snapshot).2
  choices : SameOwnLines CartLine.choice snapshot current batch batch'
    (applyBatch menu pos batch snapshot).1 (applyBatch menu pos batch' current).1
  untouched : none ∉ (applyBatch menu pos batch snapshot).2 →
    (applyBatch menu pos batch snapshot).1 = snapshot ∧ (applyBatch menu pos batch' current).1 = current
  prices : none ∈ (applyBatch menu pos batch snapshot).2 →
    ∀ lineId, Targets batch lineId → (∀ line ∈ snapshot.linesOf lineId, line.ListedIn menu pos) →
      ((applyBatch menu pos batch snapshot).1.linesOf lineId).map CartLine.anonymous =
        ((applyBatch menu pos batch' current).1.linesOf lineId).map CartLine.anonymous
  addedPrices : ∃ new new', Adds snapshot batch (applyBatch menu pos batch snapshot).1 new ∧
    Adds current batch' (applyBatch menu pos batch' current).1 new' ∧
    new.map CartLine.anonymous = new'.map CartLine.anonymous

theorem applyBatch_rebased (hmenu : menu.Lawful) (hextra : Surcharges menu pos surcharge)
    {snapshot current : Cart} (hops : batch.map Prod.snd = batch'.map Prod.snd)
    (hfresh : FreshIds batch (batch ++ batch'))
    (hown : ∀ lineId, Targets batch lineId →
      (snapshot.linesOf lineId).map CartLine.choice = (current.linesOf lineId).map CartLine.choice) :
    Rebased menu pos snapshot current batch batch' := by
  have hbefore := applyBatch_settles menu pos batch snapshot
  have hafter := applyBatch_settles menu pos batch' current
  obtain ⟨hverdicts, hunder⟩ := applyBatch_own menu pos hops hfresh hown
  have hadded : (edits menu pos batch).flatMap (fun step => step.2.appended) =
      (edits menu pos batch').flatMap fun step => step.2.appended := by
    rw [appended_edits, appended_edits, hops]
  have hfreshOwn : FreshIds batch batch := fun step hstep =>
    hfresh step (List.mem_append_left _ hstep)
  have hfreshOwn' : FreshIds batch' batch' := by
    intro step hstep hnone htarget
    rw [targets_iff, ← hops, ← targets_iff] at htarget
    exact hfresh step (List.mem_append_right _ hstep) hnone htarget
  obtain ⟨new, hadds, hchoices, hprices⟩ := applyBatch_adds hmenu hextra hfreshOwn snapshot
  obtain ⟨new', hadds', hchoices', hprices'⟩ := applyBatch_adds hmenu hextra hfreshOwn' current
  refine ⟨hverdicts, ⟨?_, ?_⟩, fun hrejected => ?_, fun haccepted lineId htarget hlisted => ?_, ?_⟩
  · intro lineId htarget
    rw [choice_linesOf, choice_linesOf, hbefore.contents, hafter.contents, hunder lineId htarget]
  · exact ⟨new, new', hadds, hadds', hchoices.trans (hadded.trans hchoices'.symm)⟩
  · exact ⟨hbefore.untouched hrejected, hafter.untouched (hverdicts ▸ hrejected)⟩
  · obtain ⟨now, hnow⟩ := hbefore.settled haccepted
    obtain ⟨then', hthen⟩ := hafter.settled (hverdicts ▸ haccepted)
    have hstocked : Stocked menu pos (applyAll (edits menu pos batch) snapshot.contents) lineId := by
      refine Stocked.applyAll (stocked_contents fun line hline hid => ?_) hmenu
      exact hlisted line (List.mem_filter.mpr ⟨hline, decide_eq_true hid⟩)
    rw [hnow, hthen, linesOf_settled, linesOf_settled,
      linesAt_menuLine hmenu hextra hstocked.entries,
      linesAt_menuLine hmenu hextra (hstocked.congr (hunder lineId htarget)).entries,
      hunder lineId htarget]
  · exact ⟨new, new', hadds, hadds', hprices.trans (hadded ▸ hprices'.symm)⟩

/-- Operations on different lines commute, and a batch may be rebased on a cart that others have
changed only on other lines. -/
theorem rebase_commutes (hmenu : menu.Lawful) (hextra : Surcharges menu pos surcharge) :
    (∀ (cart : Cart) (a b : CartOperation) (ra ra' rb rb' : Runtime Id),
      Apart ra.newLineId a b → Apart ra'.newLineId a b →
      Apart rb.newLineId b a → Apart rb'.newLineId b a → Commuted menu pos cart a b ra ra' rb rb') ∧
    ∀ (snapshot current : Cart) (batch batch' : List (Runtime Id × CartOperation)),
      batch.map Prod.snd = batch'.map Prod.snd → FreshIds batch (batch ++ batch') →
      (∀ lineId, Targets batch lineId → (snapshot.linesOf lineId).map CartLine.choice =
        (current.linesOf lineId).map CartLine.choice) →
      Rebased menu pos snapshot current batch batch' := by
  constructor
  · intro cart a b ra ra' rb rb' hab hab' hba hba'
    exact applyBatch_comm hmenu hextra cart hab hab' hba hba'
  · intro snapshot current batch batch' hops hfresh hown
    exact applyBatch_rebased hmenu hextra hops hfresh hown

end

/-! ## Two burgers, and fries that carry an option of the burger -/

def twoBurgers : Cart :=
  { emptyCart "cart_1" 1 none "t0" with
    items := [newLine "ln_1" chickenBurger 1 [], newLine "ln_2" chickenBurger 1 []] }

theorem rebase_commutes_burgers :
    Commuted burgerStore.toLookup 1 twoBurgers (.updateQuantity "ln_1" 2)
      (.addModifier "ln_2" "extra_cheese") ⟨"ln_3", "t1"⟩ ⟨"ln_4", "t2"⟩ ⟨"ln_5", "t3"⟩ ⟨"ln_6", "t4"⟩ ∧
    Rebased burgerStore.toLookup 1 twoBurgers
      (applyBatch burgerStore.toLookup 1 [(⟨"ln_3", "t1"⟩, .removeItem "ln_1")] twoBurgers).1
      [(⟨"ln_4", "t2"⟩, .addModifier "ln_2" "extra_cheese")]
      [(⟨"ln_5", "t3"⟩, .addModifier "ln_2" "extra_cheese")] := by
  obtain ⟨hcommutes, hrebases⟩ := rebase_commutes burgerStore_lawful burgerStore_surcharges
  refine ⟨hcommutes _ _ _ _ _ _ _ (by decide) (by decide) (by decide) (by decide), ?_⟩
  refine hrebases _ _ _ _ rfl (fun step hstep hnone => ?_) fun lineId htarget => ?_
  · simp only [List.singleton_append, List.mem_cons, List.not_mem_nil, or_false] at hstep
    rcases hstep with rfl | rfl <;> cases hnone
  · obtain ⟨step, hstep, hline⟩ := htarget
    cases List.mem_singleton.mp hstep
    cases hline
    decide

def fries : MenuItem where
  productTmplId := 20
  menuItemKey := "fries"
  names := [("en_US", "Fries")]
  basePriceCents := 300
  available := true
  modifiers := []

def snackStore : InMemoryMenuStore := fun _ => [chickenBurger, fries]

theorem snackStore_lawful : snackStore.toLookup.Lawful := by
  apply InMemoryMenuStore.lawful
  intro pos
  change ∀ a ∈ [chickenBurger, fries], ∀ b ∈ [chickenBurger, fries], _
  decide

theorem snackStore_surcharges :
    Surcharges snackStore.toLookup 1 fun ptavId => if ptavId = 901 then 150 else 0 := by
  intro tmpl item hitem
  have hmem : item ∈ [chickenBurger, fries] := InMemoryMenuStore.mem_of_getItem hitem
  rcases List.mem_cons.mp hmem with rfl | hmem
  · decide
  · cases List.mem_singleton.mp hmem
    decide

/-- The fries carry the cheese of the burger, at their own price. -/
def cheesyFries : Cart :=
  { emptyCart "cart_1" 1 none "t0" with
    items := [newLine "ln_1" chickenBurger 1 [],
      { newLine "ln_2" fries 1 [toCartModifier extraCheese] with priceCents := 300 }] }

/-- Once another writer has removed the burger, the menu of the cart no longer lists the cheese:
two fries cost 600 cents instead of 900, although their line was left exactly as it was. -/
theorem rebase_price_differs : ¬∀ (menu : MenuLookup Id) (pos : PosConfigId) (surcharge : PtavId → Cents)
    (snapshot current : Cart) (batch foreign : List (Runtime Id × CartOperation)),
    menu.Lawful → Surcharges menu pos surcharge → snapshot.lineIds.Nodup →
    current = (applyBatch menu pos foreign snapshot).1 →
    (∀ lineId, Targets batch lineId →
      ¬Targets foreign lineId ∧ snapshot.linesOf lineId = current.linesOf lineId) →
    FreshIds batch (batch ++ foreign) →
    SameOwnLines CartLine.anonymous snapshot current batch batch
      (applyBatch menu pos batch snapshot).1 (applyBatch menu pos batch current).1 := by
  intro hclaim
  let batch : List (Runtime Id × CartOperation) := [(⟨"ln_3", "t1"⟩, .updateQuantity "ln_2" 2)]
  let foreign : List (Runtime Id × CartOperation) := [(⟨"ln_4", "t1"⟩, .removeItem "ln_1")]
  have hsame := hclaim snackStore.toLookup 1 _ cheesyFries _ batch foreign snackStore_lawful
    snackStore_surcharges (by decide) rfl ?_ ?_
  · have hprices := hsame.targets "ln_2" ⟨_, List.mem_singleton.mpr rfl, rfl⟩
    revert hprices
    decide
  · rintro lineId ⟨step, hstep, hline⟩
    cases List.mem_singleton.mp hstep
    cases hline
    refine ⟨?_, by decide⟩
    rintro ⟨step, hstep, hline⟩
    cases List.mem_singleton.mp hstep
    exact absurd hline (by decide)
  · intro step hstep hnone
    simp only [batch, foreign, List.singleton_append, List.mem_cons, List.not_mem_nil, or_false] at hstep
    rcases hstep with rfl | rfl <;> cases hnone

end VoiceOrder.CartModule
