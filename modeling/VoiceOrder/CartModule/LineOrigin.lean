import VoiceOrder.CartModule.Edits

/-! # Where the lines of a folded cart come from

A line of the resulting cart is a line of the cart the batch started from, or the one
an addition of the batch created. -/

namespace VoiceOrder.CartModule

open VoiceOrder.Menu

/-- `AddedBy menu pos ops lineIds line`: the line is the one an addition of the batch
created, with the id drawn for it. -/
def AddedBy (menu : MenuLookup Id) (pos : PosConfigId) (ops : List CartOperation)
    (lineIds : List LineId) (line : CartLine) : Prop :=
  ∃ menuItemKey quantity refs lineId item modifiers,
    (CartOperation.addItem menuItemKey quantity refs, lineId) ∈ ops.zip lineIds ∧
      menu.resolveItemKey pos menuItemKey = some item ∧ item.available = true ∧
      resolveModifiers item refs = .ok modifiers ∧
      line.SameChoice (newLine lineId item quantity modifiers)

section

variable {menu : MenuLookup Id} {pos : PosConfigId} {cart result : Cart}
  {ops : List CartOperation} {lineIds : List LineId}

theorem AddedBy.cons {op : CartOperation} {lineId : LineId} {line : CartLine}
    (h : AddedBy menu pos ops lineIds line) : AddedBy menu pos (op :: ops) (lineId :: lineIds) line := by
  obtain ⟨key, quantity, refs, id, item, modifiers, hmem, hrest⟩ := h
  exact ⟨key, quantity, refs, id, item, modifiers, List.mem_cons_of_mem _ hmem, hrest⟩

/-- A line of the edited list, untouched by the operation, was in the cart or is the
new line. -/
theorem Edit.origin {fresh : LineId} {op : CartOperation} {items : List CartLine}
    (hedit : Edit cart fresh op (lookedUp menu pos cart op) items) {line : CartLine}
    (hline : line ∈ items) (htarget : op.target ≠ some line.lineId) :
    (∃ source ∈ cart.items, line.SameChoice source) ∨
      AddedBy menu pos [op] [fresh] line := by
  have hmapped : ∀ {target : LineId} {f : CartLine → CartLine},
      (∀ line, (f line).lineId = line.lineId) → line ∈ mapLine cart.items target f →
      target ≠ line.lineId → ∃ source ∈ cart.items, line.SameChoice source := by
    intro target f hf hmem hne
    obtain ⟨source, hsource, rfl⟩ := List.mem_map.mp hmem
    refine ⟨source, hsource, ?_⟩
    split
    · rename_i he
      rw [if_pos he, hf] at hne
      exact absurd he.symm hne
    · exact CartLine.SameChoice.refl source
  generalize hanswer : lookedUp menu pos cart op = answer at hedit
  cases hedit with
  | addItem havailable hmods =>
      rcases List.mem_append.mp hline with hmem | hmem
      · exact Or.inl ⟨line, hmem, CartLine.SameChoice.refl line⟩
      · rw [List.mem_singleton.mp hmem]
        exact Or.inr ⟨_, _, _, fresh, _, _, by simp, hanswer, havailable, hmods,
          CartLine.SameChoice.refl _⟩
  | removeItem _ =>
      exact Or.inl ⟨line, (List.mem_filter.mp hline).1, CartLine.SameChoice.refl line⟩
  | updateQuantity _ _ =>
      exact Or.inl (hmapped (by intro; rfl) hline fun he => htarget (congrArg some he))
  | addModifier _ _ =>
      exact Or.inl (hmapped (by intro; rfl) hline fun he => htarget (congrArg some he))
  | removeModifier _ _ =>
      exact Or.inl (hmapped (by intro; rfl) hline fun he => htarget (congrArg some he))

/-- A line the operation does not name is in the edited list with its choices. -/
theorem Edit.keeps {fresh : LineId} {op : CartOperation} {answer : Option MenuItem}
    {items : List CartLine} (hedit : Edit cart fresh op answer items) {source : CartLine}
    (hsource : source ∈ cart.items) (htarget : op.target ≠ some source.lineId) : source ∈ items := by
  have hmapped : ∀ {target : LineId} {f : CartLine → CartLine}, target ≠ source.lineId →
      source ∈ mapLine cart.items target f := by
    intro target f hne
    exact List.mem_map.mpr ⟨source, hsource, if_neg fun he => hne he.symm⟩
  cases hedit with
  | addItem _ _ => exact List.mem_append_left _ hsource
  | removeItem _ =>
      have hne : source.lineId ≠ _ := fun he => htarget (congrArg some he.symm)
      exact List.mem_filter.mpr ⟨hsource, decide_eq_true hne⟩
  | updateQuantity _ _ => exact hmapped fun he => htarget (congrArg some he)
  | addModifier _ _ => exact hmapped fun he => htarget (congrArg some he)
  | removeModifier _ _ => exact hmapped fun he => htarget (congrArg some he)

/-- The ids of the edited lines are those of the cart and the fresh one. -/
theorem Edit.lineId_mem {fresh : LineId} {op : CartOperation} {answer : Option MenuItem}
    {items : List CartLine} (hedit : Edit cart fresh op answer items) {line : CartLine}
    (hline : line ∈ items) : line.lineId ∈ cart.lineIds ∨ line.lineId = fresh := by
  have hmapped : ∀ {target : LineId} {f : CartLine → CartLine},
      (∀ line, (f line).lineId = line.lineId) → line ∈ mapLine cart.items target f →
      line.lineId ∈ cart.lineIds := by
    intro target f hf hmem
    obtain ⟨source, hsource, rfl⟩ := List.mem_map.mp hmem
    refine List.mem_map.mpr ⟨source, hsource, ?_⟩
    split
    · exact (hf source).symm
    · rfl
  cases hedit with
  | addItem _ _ =>
      rcases List.mem_append.mp hline with hmem | hmem
      · exact Or.inl (List.mem_map_of_mem hmem)
      · rw [List.mem_singleton.mp hmem]
        exact Or.inr rfl
  | removeItem _ => exact Or.inl (List.mem_map_of_mem (List.mem_filter.mp hline).1)
  | updateQuantity _ _ => exact Or.inl (hmapped (by intro; rfl) hline)
  | addModifier _ _ => exact Or.inl (hmapped (by intro; rfl) hline)
  | removeModifier _ _ => exact Or.inl (hmapped (by intro; rfl) hline)

/-- Over a batch, a line nothing names comes from the cart or from one addition. -/
theorem Folds.origin (hfolds : Folds menu pos cart ops lineIds result) {line : CartLine}
    (hline : line ∈ result.items) (htarget : ∀ op ∈ ops, op.target ≠ some line.lineId) :
    (∃ source ∈ cart.items, line.SameChoice source) ∨ AddedBy menu pos ops lineIds line := by
  induction hfolds with
  | nil cart => exact Or.inl ⟨line, hline, CartLine.SameChoice.refl line⟩
  | cons happly _ ih =>
      obtain ⟨items, hedit, rfl⟩ := applyOperation_eq_ok.mp happly
      rcases ih hline fun op hop => htarget op (List.mem_cons_of_mem _ hop) with
        ⟨source, hsource, hsame⟩ | hadded
      · obtain ⟨edited, hedited, rfl⟩ := List.mem_map.mp hsource
        have hchoice := hsame.trans (priceLine_sameChoice _ edited)
        have hnot := htarget _ List.mem_cons_self
        rw [hchoice.lineId] at hnot
        rcases hedit.origin hedited hnot with ⟨first, hfirst, hfirstSame⟩ | hadded
        · exact Or.inl ⟨first, hfirst, hchoice.trans hfirstSame⟩
        · obtain ⟨key, quantity, refs, id, item, modifiers, hmem, h₁, h₂, h₃, hnew⟩ := hadded
          refine Or.inr ⟨key, quantity, refs, id, item, modifiers, ?_, h₁, h₂, h₃,
            hchoice.trans hnew⟩
          simp only [List.zip_cons_cons, List.zip_nil_left, List.mem_singleton] at hmem
          simp [← hmem]
      · exact Or.inr hadded.cons

/-- Over a batch, a line nothing names keeps its choices. -/
theorem Folds.keeps (hfolds : Folds menu pos cart ops lineIds result) {source : CartLine}
    (hsource : source ∈ cart.items) (htarget : ∀ op ∈ ops, op.target ≠ some source.lineId) :
    ∃ line ∈ result.items, line.SameChoice source := by
  induction hfolds generalizing source with
  | nil cart => exact ⟨source, hsource, CartLine.SameChoice.refl source⟩
  | cons happly _ ih =>
      obtain ⟨items, hedit, rfl⟩ := applyOperation_eq_ok.mp happly
      have hkept := hedit.keeps hsource (htarget _ List.mem_cons_self)
      obtain ⟨line, hline, hsame⟩ := ih (List.mem_map_of_mem hkept)
        fun op hop => htarget op (List.mem_cons_of_mem _ hop)
      exact ⟨line, hline, hsame.trans (priceLine_sameChoice _ source)⟩

theorem Folds.lineId_mem (hfolds : Folds menu pos cart ops lineIds result) {line : CartLine}
    (hline : line ∈ result.items) : line.lineId ∈ cart.lineIds ∨ line.lineId ∈ lineIds := by
  induction hfolds with
  | nil cart => exact Or.inl (List.mem_map_of_mem hline)
  | cons happly _ ih =>
      obtain ⟨items, hedit, rfl⟩ := applyOperation_eq_ok.mp happly
      rcases ih hline with hid | hid
      · obtain ⟨priced, hpriced, hid⟩ := List.mem_map.mp hid
        obtain ⟨edited, hedited, rfl⟩ := List.mem_map.mp hpriced
        rcases hedit.lineId_mem hedited with hold | hnew
        · exact Or.inl (hid ▸ hold)
        · exact Or.inr (hid ▸ hnew ▸ List.mem_cons_self)
      · exact Or.inr (List.mem_cons_of_mem _ hid)

/-- Every addition of an accepted batch leaves its line in the cart, unless a later
operation names it. -/
theorem Folds.addition (hfolds : Folds menu pos cart ops lineIds result) {menuItemKey : String}
    {quantity : ℤ} {refs : List OpModifierRef} (hop : .addItem menuItemKey quantity refs ∈ ops)
    (htarget : ∀ lineId ∈ lineIds, ∀ op ∈ ops, op.target ≠ some lineId) :
    ∃ lineId ∈ lineIds, ∃ item modifiers, menu.resolveItemKey pos menuItemKey = some item ∧
      item.available = true ∧ resolveModifiers item refs = .ok modifiers ∧
      ∃ line ∈ result.items, line.SameChoice (newLine lineId item quantity modifiers) := by
  induction hfolds with
  | nil cart => cases hop
  | @cons runtime cart next result op ops lineIds happly hfolds ih =>
      have hrest : ∀ lineId ∈ runtime.newLineId :: lineIds, ∀ op ∈ ops,
          op.target ≠ some lineId := fun lineId hid op' hop' =>
        htarget lineId hid op' (List.mem_cons_of_mem _ hop')
      rcases List.mem_cons.mp hop with rfl | hop
      · obtain ⟨items, hedit, rfl⟩ := applyOperation_eq_ok.mp happly
        generalize hanswer : lookedUp menu pos cart _ = answer at hedit
        cases hedit with
        | @addItem _ _ _ item modifiers havailable hmods =>
            have hnew := List.mem_append_right cart.items (List.mem_singleton_self
              (newLine runtime.newLineId item quantity modifiers))
            obtain ⟨line, hline, hsame⟩ := hfolds.keeps (List.mem_map_of_mem hnew) (hrest _ List.mem_cons_self)
            exact ⟨_, List.mem_cons_self, _, _, hanswer, havailable, hmods, line, hline,
              hsame.trans (priceLine_sameChoice _ _)⟩
      · obtain ⟨lineId, hid, hfound⟩ := ih hop fun lineId hid =>
          hrest lineId (List.mem_cons_of_mem _ hid)
        exact ⟨lineId, List.mem_cons_of_mem _ hid, hfound⟩

end

end VoiceOrder.CartModule
