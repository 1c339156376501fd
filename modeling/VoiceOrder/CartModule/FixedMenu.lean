import VoiceOrder.CartModule.MenuSources

/-! # A batch against one menu

While the menu stays the same, the fold of a proposal is a function of the cart, the operations
and the fresh ids and times they meet. -/

namespace VoiceOrder.CartModule

open Async VoiceOrder.Menu VoiceOrder.Backend

/-- What became of each operation: nothing, or why it was rejected. -/
abbrev Verdicts := List (Option CartRejectedError)

/-- The fold of a proposal against one menu, each operation with the id and the time at hand. -/
def applyBatch (menu : MenuLookup Id) (pos : PosConfigId) :
    List (Runtime Id × CartOperation) → Cart → Cart × Verdicts
  | [], cart => (cart, [])
  | (runtime, op) :: batch, cart =>
      match applyOperation runtime menu cart op pos with
      | .ok edited =>
          let (folded, verdicts) := applyBatch menu pos batch edited
          (folded, none :: verdicts)
      | .error error =>
          let (folded, verdicts) := applyBatch menu pos batch cart
          (folded, some error :: verdicts)

/-- The rejections among the verdicts on operations. -/
def rejections : List CartOperation → Verdicts → List Rejection
  | op :: ops, verdict :: verdicts =>
      (verdict.map fun error => (op, error)).toList ++ rejections ops verdicts
  | _, _ => []

/-- Every lookup of the trace was answered from the menu. -/
def AnsweredFrom (menu : MenuLookup Id) (trace : Trace) : Prop :=
  ∀ step ∈ trace, match step with
    | .called (.resolveItemKey pos menuItemKey) (.ok answer) =>
        answer = menu.resolveItemKey pos menuItemKey
    | .called (.findByTmplId pos tmpl) (.ok answer) => answer = menu.findByTmplId pos tmpl
    | .called (.getItems pos tmpls) (.ok answer) => answer = menu.getItems pos tmpls
    | _ => True

section

variable {trace later : Trace}

theorem answeredFrom_append {menu : MenuLookup Id} :
    AnsweredFrom menu (trace ++ later) ↔ AnsweredFrom menu trace ∧ AnsweredFrom menu later :=
  List.forall_mem_append

theorem AnsweredFrom.resolved {menu : MenuLookup Id} {pos : PosConfigId} {menuItemKey : String}
    {answer : Option MenuItem}
    (h : AnsweredFrom menu (.called (.resolveItemKey pos menuItemKey) (.ok answer) :: later)) :
    answer = menu.resolveItemKey pos menuItemKey := h _ List.mem_cons_self

theorem AnsweredFrom.found {menu : MenuLookup Id} {pos : PosConfigId} {tmpl : ProductTmplId}
    {answer : Option MenuItem}
    (h : AnsweredFrom menu (.called (.findByTmplId pos tmpl) (.ok answer) :: later)) :
    answer = menu.findByTmplId pos tmpl := h _ List.mem_cons_self

theorem priced_fixed (menu : MenuLookup Id) (cart : Cart) (items : List CartLine) (pos : PosConfigId) :
    Fetches Call.Lookup (priced runtime menuService cart items pos) fun fetched edited =>
      AnsweredFrom menu fetched → ∃ now, ∀ lineId : LineId,
        priced (⟨lineId, now⟩ : Runtime Id) menu cart items pos = edited := by
  refine .bind (.call trivial) fun fetched menuItems hread =>
    .bind (.call trivial) fun stamped now _ => .pure fun hanswered => ⟨now, fun lineId => ?_⟩
  subst hread
  have hitems : menuItems = menu.getItems pos (lineTmpls items) := hanswered _ List.mem_cons_self
  rw [hitems]
  rfl

/-- An operation ends with the answer it gives once its lines are priced. -/
theorem settled_fixed (menu : MenuLookup Id) (cart : Cart) (items : List CartLine) (pos : PosConfigId) :
    Fetches Call.Lookup
      (do let cart ← priced runtime menuService cart items pos; pure (.ok cart) :
        Promise (Except CartRejectedError Cart))
      fun fetched result => AnsweredFrom menu fetched → ∃ now, ∀ lineId : LineId,
        .ok (priced (⟨lineId, now⟩ : Runtime Id) menu cart items pos) = result := by
  refine .bind (priced_fixed menu cart items pos) fun fetched edited hedited =>
    .pure fun hanswered => ?_
  rw [List.append_nil] at hanswered
  obtain ⟨now, hnow⟩ := hedited hanswered
  exact ⟨now, fun lineId => congrArg Except.ok (hnow lineId)⟩

/-- An operation that draws no id. -/
theorem settled_fixed_any (menu : MenuLookup Id) (cart : Cart) (items : List CartLine)
    (pos : PosConfigId) :
    Fetches Call.Lookup
      (do let cart ← priced runtime menuService cart items pos; pure (.ok cart) :
        Promise (Except CartRejectedError Cart))
      fun fetched result => AnsweredFrom menu fetched → ∃ met : Runtime Id,
        .ok (priced met menu cart items pos) = result := by
  refine (settled_fixed menu cart items pos).mono fun fetched result hresult hanswered => ?_
  obtain ⟨now, hnow⟩ := hresult hanswered
  exact ⟨⟨"", now⟩, hnow ""⟩

theorem editModifiers_fixed (menu : MenuLookup Id) (cart : Cart) (pos : PosConfigId) (lineId : LineId)
    (modifierKey : String) (edit : List CartModifier → CandidateModifier → List CartModifier) :
    Fetches Call.Lookup (editModifiers runtime menuService cart pos lineId modifierKey edit)
      fun fetched result => AnsweredFrom menu fetched → ∃ met : Runtime Id,
        editModifiers met menu cart pos lineId modifierKey edit = result := by
  unfold editModifiers
  cases cart.findLine lineId with
  | none => exact .pure fun _ => ⟨⟨"", ""⟩, rfl⟩
  | some line =>
      refine .bind (.call trivial) fun read found hread => ?_
      subst hread
      dsimp only
      cases hmod : found.bind fun item => item.optionOfKey modifierKey with
      | none =>
          refine .pure fun hanswered => ⟨⟨"", ""⟩, ?_⟩
          rw [AnsweredFrom.found hanswered] at hmod
          simp only [bind, hmod]
          rfl
      | some mod =>
          refine (settled_fixed_any menu _ _ _).mono fun fetched result hresult hanswered => ?_
          obtain ⟨met, hmet⟩ := hresult (answeredFrom_append.mp hanswered).2
          refine ⟨met, ?_⟩
          rw [AnsweredFrom.found hanswered] at hmod
          simp only [bind, hmod]
          exact hmet

/-- Where the menu answers, an operation does what it does against that menu. -/
theorem applyOperation_fixed (menu : MenuLookup Id) (cart : Cart) (op : CartOperation) (pos : PosConfigId) :
    Fetches Call.Lookup (applyOperation runtime menuService cart op pos) fun fetched result =>
      AnsweredFrom menu fetched → ∃ met : Runtime Id, applyOperation met menu cart op pos = result := by
  cases op with
  | addItem menuItemKey quantity refs =>
      unfold applyOperation
      refine .bind (.call trivial) fun read found hread => ?_
      subst hread
      dsimp only
      cases havailable : found.filter MenuItem.available with
      | none =>
          refine .pure fun hanswered => ⟨⟨"", ""⟩, ?_⟩
          rw [AnsweredFrom.resolved hanswered] at havailable
          simp only [bind, havailable]
          rfl
      | some item =>
          dsimp only
          cases hmodifiers : resolveModifiers item refs with
          | error error =>
              refine .pure fun hanswered => ⟨⟨"", ""⟩, ?_⟩
              rw [AnsweredFrom.resolved hanswered] at havailable
              simp only [bind, havailable, hmodifiers]
              rfl
          | ok modifiers =>
              refine .bind (.call trivial) fun drawn lineId _ =>
                (settled_fixed menu _ _ _).mono fun fetched result hresult hanswered => ?_
              have hrest := (answeredFrom_append.mp (answeredFrom_append.mp hanswered).2).2
              obtain ⟨now, hnow⟩ := hresult hrest
              refine ⟨⟨lineId, now⟩, ?_⟩
              rw [AnsweredFrom.resolved hanswered] at havailable
              simp only [bind, havailable, hmodifiers]
              exact hnow lineId
  | removeItem lineId =>
      unfold applyOperation
      by_cases hline : cart.hasLine lineId = true
      · simp only [hline, ↓reduceIte]
        exact settled_fixed_any menu _ _ _
      · simp only [hline]
        exact .pure fun _ => ⟨⟨"", ""⟩, rfl⟩
  | updateQuantity lineId quantity =>
      unfold applyOperation
      by_cases hline : cart.hasLine lineId = true
      · simp only [hline, ↓reduceIte]
        by_cases hquantity : quantity ≤ 0
        · simp only [hquantity, ↓reduceIte]
          exact .pure fun _ => ⟨⟨"", ""⟩, rfl⟩
        · simp only [hquantity, ↓reduceIte]
          exact settled_fixed_any menu _ _ _
      · simp only [hline]
        exact .pure fun _ => ⟨⟨"", ""⟩, rfl⟩
  | addModifier lineId modifierKey => exact editModifiers_fixed menu cart pos lineId modifierKey _
  | removeModifier lineId modifierKey => exact editModifiers_fixed menu cart pos lineId modifierKey _

/-- Where the menu answers, the fold of a proposal is the batch against that menu. -/
theorem applyOperations_fixed (menu : MenuLookup Id) (pos : PosConfigId) (ops : List CartOperation)
    (start : Folded) :
    Fetches Call.Lookup (applyOperations pos ops start) fun fetched folded =>
      AnsweredFrom menu fetched → ∃ batch : List (Runtime Id × CartOperation),
        batch.map Prod.snd = ops ∧
        folded.cart = (applyBatch menu pos batch start.cart).1 ∧
        folded.applied = start.applied + (applyBatch menu pos batch start.cart).2.count none ∧
        folded.rejected =
          start.rejected ++ rejections ops (applyBatch menu pos batch start.cart).2 := by
  induction ops generalizing start with
  | nil => exact .pure fun _ => ⟨[], rfl, rfl, rfl, (List.append_nil _).symm⟩
  | cons op ops ih =>
      refine .bind (applyOperation_fixed menu start.cart op pos) fun read result hread => ?_
      cases result with
      | ok edited =>
          refine (ih { start with cart := edited, applied := start.applied + 1 }).mono
            fun fetched folded hfolded hanswered => ?_
          obtain ⟨hanswered, hlater⟩ := answeredFrom_append.mp hanswered
          obtain ⟨met, hmet⟩ := hread hanswered
          obtain ⟨batch, hops, hcart, happlied, hrejected⟩ := hfolded hlater
          refine ⟨(met, op) :: batch, congrArg (op :: ·) hops, ?_, ?_, ?_⟩
          · rw [applyBatch, hmet]
            exact hcart
          · rw [applyBatch, hmet, happlied]
            simp only [List.count_cons_self]
            omega
          · rw [applyBatch, hmet, hrejected]
            rfl
      | error error =>
          refine (ih { start with rejected := start.rejected ++ [(op, error)] }).mono
            fun fetched folded hfolded hanswered => ?_
          obtain ⟨hanswered, hlater⟩ := answeredFrom_append.mp hanswered
          obtain ⟨met, hmet⟩ := hread hanswered
          obtain ⟨batch, hops, hcart, happlied, hrejected⟩ := hfolded hlater
          refine ⟨(met, op) :: batch, congrArg (op :: ·) hops, ?_, ?_, ?_⟩
          · rw [applyBatch, hmet]
            exact hcart
          · rw [applyBatch, hmet, happlied]
            rfl
          · rw [applyBatch, hmet, hrejected, List.append_assoc]
            rfl

end

end VoiceOrder.CartModule
