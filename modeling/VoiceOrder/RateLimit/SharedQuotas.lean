import VoiceOrder.RateLimit.Registry
import Mathlib.Data.List.Induction

/-! # Calls for one quota share a limiter

What the registry keeps after any calls is said by the calls alone: the first call for a quota
decides about its limiter, the others are recorded and warned about. -/

namespace VoiceOrder.RateLimit

/-! ## What the calls ask for -/

section

variable (calls : List QuotaCall) (identity : String)

/-- The quotas, in the order of their first calls. -/
def identities : List String :=
  calls.foldl (fun identities call => OrderedMap.add identities call.identity) []

/-- The call that decides about a quota. -/
def firstCall : Option QuotaCall := calls.find? fun call => call.identity = identity

def callSitesOf : List String := (calls.filter fun call => call.identity = identity).map fun call => call.key.name

/-- The row of a quota: its limits are those of its first call, and so is its name, unless nothing
is capped. -/
def rowOf : Option LimiterReport :=
  (firstCall calls identity).map fun first =>
    { limiter := if hasAnyLimit first.limits then first.key.name else "none"
      callSites := callSitesOf calls identity
      limits := first.limits
      shaped := hasAnyLimit first.limits }

/-- What is logged about a call: nothing, where it asks for the limits of the first call. -/
def conflictOf (call : QuotaCall) : Option LimitsConflict :=
  (firstCall calls call.identity).bind fun first =>
    if first.limits = call.limits then none
    else some
      { limiter := if hasAnyLimit first.limits then first.key.name else "none"
        requestedBy := call.key.name
        kept := first.limits
        ignored := call.limits
        shaped := hasAnyLimit first.limits }

end

/-- The two keys stand for one quota, whatever their names. -/
structure QuotaKey.SameQuota (key other : QuotaKey) : Prop where
  provider : key.provider = other.provider
  baseUrl : key.baseUrl.getD "" = other.baseUrl.getD ""
  apiKey : key.apiKey.getD "" = other.apiKey.getD ""
  model : key.model.getD "" = other.model.getD ""

/-- No field in front of a separator holds one. -/
structure QuotaKey.Plain (key : QuotaKey) : Prop where
  provider : '|' ∉ key.provider.toList
  baseUrl : '|' ∉ (key.baseUrl.getD "").toList
  apiKey : '|' ∉ (key.apiKey.getD "").toList

theorem append_separator_inj {α : Type} {separator : α} {front other rest last : List α}
    (hfront : separator ∉ front) (hother : separator ∉ other) :
    front ++ separator :: rest = other ++ separator :: last ↔ front = other ∧ rest = last := by
  induction front generalizing other with
  | nil =>
      cases other with
      | nil => simp
      | cons b other =>
          have hb : separator ≠ b := fun heq => hother (heq ▸ List.mem_cons_self)
          simp [hb]
  | cons a front ih =>
      have ha : separator ≠ a := fun heq => hfront (heq ▸ List.mem_cons_self)
      cases other with
      | nil => simp [Ne.symm ha]
      | cons b other =>
          have hrest := ih (fun h => hfront (List.mem_cons_of_mem _ h))
            (fun h => hother (List.mem_cons_of_mem _ h))
          simp [hrest, and_assoc]

theorem identityOf_eq_iff {key other : QuotaKey} (hkey : key.Plain) (hother : other.Plain) :
    identityOf key = identityOf other ↔ key.SameQuota other := by
  have hbar : "|".toList = ['|'] := rfl
  rw [identityOf, identityOf, ← String.toList_inj]
  simp only [String.toList_append, hbar, List.append_assoc, List.cons_append, List.nil_append]
  rw [append_separator_inj hkey.provider hother.provider,
    append_separator_inj hkey.baseUrl hother.baseUrl, append_separator_inj hkey.apiKey hother.apiKey]
  simp only [String.toList_inj]
  constructor
  · rintro ⟨hprovider, hbase, hapi, hmodel⟩
    exact ⟨hprovider, hbase, hapi, hmodel⟩
  · intro h
    exact ⟨h.provider, h.baseUrl, h.apiKey, h.model⟩

/-! ## One call after another -/

section

variable {calls : List QuotaCall} {call first : QuotaCall} {identity : String}
  {registry : RateLimiterRegistry} {made : List Made} {entry existing : Entry} {limiter : LimiterRef}

theorem identities_concat : identities (calls ++ [call]) = OrderedMap.add (identities calls) call.identity :=
  List.foldl_append

theorem firstCall_concat : firstCall (calls ++ [call]) identity =
    (firstCall calls identity).or (if call.identity = identity then some call else none) := by
  simp only [firstCall, List.find?_append, List.find?_singleton, decide_eq_true_eq]

theorem firstCall_concat_of_some (h : firstCall calls identity = some first) :
    firstCall (calls ++ [call]) identity = some first := by
  rw [firstCall_concat, h, Option.some_or]

theorem callSitesOf_concat : callSitesOf (calls ++ [call]) identity =
    callSitesOf calls identity ++ if call.identity = identity then [call.key.name] else [] := by
  by_cases h : call.identity = identity <;> simp [callSitesOf, h]

theorem exists_firstCall (h : call ∈ calls) : ∃ first, firstCall calls call.identity = some first :=
  Option.isSome_iff_exists.mp (List.find?_isSome.mpr ⟨call, h, decide_eq_true rfl⟩)

/-- Later calls change nothing about what is logged of a call. -/
theorem conflicts_concat (later : QuotaCall) :
    calls.filterMap (conflictOf (calls ++ [later])) = calls.filterMap (conflictOf calls) := by
  refine List.filterMap_congr fun call hmem => ?_
  obtain ⟨first, hfirst⟩ := exists_firstCall hmem
  rw [conflictOf, conflictOf, hfirst, firstCall_concat_of_some hfirst]

/-! ## What the registry keeps -/

/-- The limiter that serves a quota, given the first call for it. -/
inductive Serves (made : List Made) (first : QuotaCall) : LimiterRef → Prop where
  | shaped (n : ℕ) (hlimits : hasAnyLimit first.limits = true)
      (hmade : made[n]? = some ⟨first.key.name, first.limits⟩) : Serves made first (some n)
  | uncapped (hlimits : hasAnyLimit first.limits = false) : Serves made first none

structure Kept (calls : List QuotaCall) (made : List Made) (identity : String) (entry : Entry)
    (first : QuotaCall) : Prop where
  limits : entry.limits = first.limits
  callSites : entry.callSites = callSitesOf calls identity
  limiter : Serves made first entry.limiter

theorem Serves.grow (h : Serves made first limiter) (later : List Made) :
    Serves (made ++ later) first limiter := by
  cases h with
  | shaped n hlimits hmade =>
      obtain ⟨hn, -⟩ := List.getElem?_eq_some_iff.mp hmade
      exact .shaped n hlimits ((List.getElem?_append_left hn).trans hmade)
  | uncapped hlimits => exact .uncapped hlimits

theorem Serves.isSome (h : Serves made first limiter) : limiter.isSome = hasAnyLimit first.limits := by
  cases h with
  | shaped n hlimits hmade => exact hlimits.symm
  | uncapped hlimits => exact hlimits.symm

theorem Serves.nameOf (h : Serves registry.made first limiter) :
    registry.nameOf limiter = if hasAnyLimit first.limits then first.key.name else "none" := by
  cases h with
  | shaped n hlimits hmade => simp [RateLimiterRegistry.nameOf, hmade, hlimits]
  | uncapped hlimits => simp [RateLimiterRegistry.nameOf, hlimits]

theorem Serves.created (h : Serves made first limiter) :
    (limiter.bind fun n => made[n]?) =
      if hasAnyLimit first.limits then some ⟨first.key.name, first.limits⟩ else none := by
  cases h with
  | shaped n hlimits hmade => simp [hmade, hlimits]
  | uncapped hlimits => simp [hlimits]

theorem Kept.later (h : Kept calls made identity entry first) (hne : call.identity ≠ identity)
    (later : List Made) : Kept (calls ++ [call]) (made ++ later) identity entry first where
  limits := h.limits
  callSites := by rw [callSitesOf_concat, if_neg hne, List.append_nil, h.callSites]
  limiter := h.limiter.grow later

/-- The limiter that the registry has for an identity. -/
def RateLimiterRegistry.limiterOf (registry : RateLimiterRegistry) (identity : String) : LimiterRef :=
  (OrderedMap.get registry.limiters identity).bind Entry.limiter

structure Grouped (calls : List QuotaCall) (registry : RateLimiterRegistry) : Prop where
  keys : registry.limiters.map Prod.fst = identities calls
  entries : ∀ identity, Option.Rel (Kept calls registry.made identity)
    (OrderedMap.get registry.limiters identity) (firstCall calls identity)
  /-- No limiter serves two quotas. -/
  apart : ∀ identity other n, registry.limiterOf identity = some n → registry.limiterOf other = some n →
    identity = other
  conflicts : registry.conflicts = calls.filterMap (conflictOf calls)
  given : registry.given = calls.map fun call => (call.key, registry.limiterOf call.identity)

theorem empty_grouped : Grouped [] .empty where
  keys := rfl
  entries := fun _ => .none
  apart := fun _ _ _ h => by cases h
  conflicts := rfl
  given := rfl

theorem Grouped.lt_made (h : Grouped calls registry) {n : ℕ}
    (hlimiter : registry.limiterOf identity = some n) : n < registry.made.length := by
  obtain ⟨entry, hget, hentry⟩ := Option.bind_eq_some_iff.mp hlimiter
  have hrel := h.entries identity
  rw [hget] at hrel
  generalize firstCall calls identity = found at hrel
  cases hrel with
  | some hkept =>
      have hserves := hkept.limiter
      rw [hentry] at hserves
      cases hserves with
      | shaped n hlimits hmade => exact (List.getElem?_eq_some_iff.mp hmade).1

/-- A call for another quota leaves an entry as it is. -/
theorem Grouped.others (h : Grouped calls registry) (hne : call.identity ≠ identity) (later : List Made) :
    Option.Rel (Kept (calls ++ [call]) (registry.made ++ later) identity)
      (OrderedMap.get registry.limiters identity) (firstCall (calls ++ [call]) identity) := by
  have hrel := h.entries identity
  rw [firstCall_concat, if_neg hne, Option.or_none]
  generalize OrderedMap.get registry.limiters identity = kept at hrel ⊢
  generalize firstCall calls identity = first at hrel ⊢
  cases hrel with
  | none => exact .none
  | some hkept => exact .some (hkept.later hne later)

/-! ## A later call for a quota -/

section

variable (hget : OrderedMap.get registry.limiters call.identity = some existing)
include hget

theorem get_again : registry.get call =
    { registry with
      limiters := OrderedMap.set registry.limiters call.identity
        { existing with callSites := existing.callSites ++ [call.key.name] }
      conflicts := registry.conflicts ++
        (if existing.limits = call.limits then []
        else [{ limiter := registry.nameOf existing.limiter
                requestedBy := call.key.name
                kept := existing.limits
                ignored := call.limits
                shaped := hasAnyLimit existing.limits }])
      given := registry.given ++ [(call.key, existing.limiter)] } := by
  rw [RateLimiterRegistry.get, hget]

theorem limiterOf_again (identity : String) :
    (registry.get call).limiterOf identity = registry.limiterOf identity := by
  simp only [get_again hget, RateLimiterRegistry.limiterOf, OrderedMap.get_set]
  by_cases heq : call.identity = identity
  · rw [if_pos heq, ← heq, hget]
    rfl
  · rw [if_neg heq]

theorem Grouped.again (h : Grouped calls registry) : Grouped (calls ++ [call]) (registry.get call) := by
  have hrel := h.entries call.identity
  rw [hget] at hrel
  generalize hfirst : firstCall calls call.identity = found at hrel
  cases hrel with
  | some hkept =>
      refine ⟨?_, fun identity => ?_, fun identity other n => ?_, ?_, ?_⟩
      · rw [identities_concat, ← h.keys, get_again hget]
        exact OrderedMap.keys_set ..
      · rw [get_again hget, OrderedMap.get_set]
        by_cases heq : call.identity = identity
        · subst heq
          rw [if_pos rfl, firstCall_concat_of_some hfirst]
          refine .some ⟨hkept.limits, ?_, hkept.limiter⟩
          rw [callSitesOf_concat, if_pos rfl, hkept.callSites]
        · rw [if_neg heq]
          exact List.append_nil registry.made ▸ h.others heq []
      · rw [limiterOf_again hget, limiterOf_again hget]
        exact h.apart identity other n
      · rw [List.filterMap_append, conflicts_concat, ← h.conflicts, get_again hget]
        refine congrArg (registry.conflicts ++ ·) ?_
        rw [List.filterMap_cons, List.filterMap_nil, conflictOf, firstCall_concat_of_some hfirst,
          hkept.limiter.nameOf, hkept.limits, Option.bind_some]
        split_ifs <;> rfl
      · have hcall : registry.limiterOf call.identity = existing.limiter := by
          rw [RateLimiterRegistry.limiterOf, hget, Option.bind_some]
        simp only [limiterOf_again hget, List.map_append, ← h.given, List.map_cons, List.map_nil, hcall]
        rw [get_again hget]

end

/-! ## The first call for a quota -/

section

variable (hget : OrderedMap.get registry.limiters call.identity = none)
include hget

theorem get_first : registry.get call =
    { registry with
      limiters := OrderedMap.set registry.limiters call.identity
        ⟨if hasAnyLimit call.limits then some registry.made.length else none, call.limits, [call.key.name]⟩
      made := registry.made ++
        if hasAnyLimit call.limits then [⟨call.key.name, call.limits⟩] else []
      given := registry.given ++
        [(call.key, if hasAnyLimit call.limits then some registry.made.length else none)] } := by
  rw [RateLimiterRegistry.get, hget]
  cases hasAnyLimit call.limits <;> simp

theorem limiterOf_first (identity : String) :
    (registry.get call).limiterOf identity =
      if call.identity = identity then
        if hasAnyLimit call.limits then some registry.made.length else none
      else registry.limiterOf identity := by
  simp only [get_first hget, RateLimiterRegistry.limiterOf, OrderedMap.get_set]
  by_cases heq : call.identity = identity
  · rw [if_pos heq, if_pos heq, Option.bind_some]
  · rw [if_neg heq, if_neg heq]

/-- The limiter that a first call makes. -/
theorem serves_first : Serves (registry.get call).made call
    (if hasAnyLimit call.limits then some registry.made.length else none) := by
  rw [get_first hget]
  cases hlimits : hasAnyLimit call.limits with
  | true => exact .shaped _ hlimits (by simp)
  | false => exact .uncapped hlimits

theorem Grouped.fresh (h : Grouped calls registry) : Grouped (calls ++ [call]) (registry.get call) := by
  have hrel := h.entries call.identity
  rw [hget] at hrel
  generalize hfirst : firstCall calls call.identity = found at hrel
  cases hrel
  have hnew : ∀ other ∈ calls, call.identity ≠ other.identity := fun other hmem heq =>
    List.find?_eq_none.mp hfirst other hmem (decide_eq_true heq.symm)
  have hconcat : firstCall (calls ++ [call]) call.identity = some call := by
    rw [firstCall_concat, hfirst, if_pos rfl, Option.none_or]
  refine ⟨?_, fun identity => ?_, fun identity other n hn hother => ?_, ?_, ?_⟩
  · rw [identities_concat, ← h.keys, get_first hget]
    exact OrderedMap.keys_set ..
  · by_cases heq : call.identity = identity
    · subst heq
      have hserves := serves_first hget
      rw [get_first hget] at hserves ⊢
      rw [OrderedMap.get_set, if_pos rfl, hconcat]
      refine .some ⟨rfl, ?_, hserves⟩
      have hnone : callSitesOf calls call.identity = [] := by
        rw [callSitesOf, List.map_eq_nil_iff, List.filter_eq_nil_iff]
        exact fun other hmem => by simpa using Ne.symm (hnew other hmem)
      rw [callSitesOf_concat, if_pos rfl, hnone, List.nil_append]
    · rw [get_first hget, OrderedMap.get_set, if_neg heq]
      exact h.others heq _
  · have hlt : ∀ identity, call.identity ≠ identity → (registry.get call).limiterOf identity = some n →
        registry.limiterOf identity = some n ∧ n < registry.made.length := fun identity hne hn => by
      rw [limiterOf_first hget, if_neg hne] at hn
      exact ⟨hn, h.lt_made hn⟩
    have hlength : (registry.get call).limiterOf call.identity = some n → n = registry.made.length := by
      rw [limiterOf_first hget, if_pos rfl]
      rintro hnew
      exact (Option.some.inj (Option.ite_none_right_eq_some.mp hnew).2).symm
    by_cases heq : call.identity = identity <;> by_cases heq' : call.identity = other
    · exact heq.symm.trans heq'
    · have hnew := hlength (heq ▸ hn)
      exact absurd hnew (hlt other heq' hother).2.ne
    · have hnew := hlength (heq' ▸ hother)
      exact absurd hnew (hlt identity heq hn).2.ne
    · exact h.apart identity other n (hlt identity heq hn).1 (hlt other heq' hother).1
  · rw [List.filterMap_append, conflicts_concat, ← h.conflicts, get_first hget, List.filterMap_cons,
      List.filterMap_nil, conflictOf, hconcat, Option.bind_some, if_pos rfl]
    exact (List.append_nil _).symm
  · have hsame : calls.map (fun other => (other.key, (registry.get call).limiterOf other.identity)) =
        registry.given := by
      rw [h.given]
      refine List.map_congr_left fun other hmem => ?_
      rw [limiterOf_first hget, if_neg (hnew other hmem)]
    rw [List.map_append, hsame, List.map_cons, List.map_nil, limiterOf_first hget, if_pos rfl,
      get_first hget]

end

theorem Grouped.step (h : Grouped calls registry) : Grouped (calls ++ [call]) (registry.get call) := by
  cases hget : OrderedMap.get registry.limiters call.identity with
  | none => exact h.fresh hget
  | some existing => exact h.again hget

theorem after_grouped (calls : List QuotaCall) : Grouped calls (.after calls) := by
  induction calls using List.reverseRecOn with
  | nil => exact empty_grouped
  | append_singleton calls call ih =>
      rw [RateLimiterRegistry.after, List.foldl_append]
      exact ih.step

/-! ## What the calls were given -/

theorem identities_nodup (calls : List QuotaCall) : (identities calls).Nodup := by
  have hmap : identities calls = (calls.map QuotaCall.identity).foldl OrderedMap.add [] :=
    List.foldl_map.symm
  rw [hmap]
  exact OrderedMap.nodup_foldl_add _ List.nodup_nil

theorem Grouped.describe (h : Grouped calls registry) :
    registry.describe.map some = (identities calls).map (rowOf calls) := by
  have hnodup : OrderedMap.KeysNodup registry.limiters := by
    rw [OrderedMap.KeysNodup, h.keys]
    exact identities_nodup calls
  rw [← h.keys, RateLimiterRegistry.describe, List.map_map, List.map_map]
  refine List.map_congr_left fun kept hmem => ?_
  obtain ⟨identity, entry⟩ := kept
  have hrel := h.entries identity
  rw [(OrderedMap.mem_iff_get hnodup identity entry).mp hmem] at hrel
  generalize hfirst : firstCall calls identity = found at hrel
  cases hrel with
  | some hkept =>
      simp only [Function.comp_apply, rowOf, hfirst, Option.map_some, hkept.limiter.nameOf, hkept.callSites,
        hkept.limits, hkept.limiter.isSome]

/-- What the calls settle about the registry. -/
structure SharesQuotas (calls : List QuotaCall) (registry : RateLimiterRegistry) : Prop where
  rows : registry.describe.map some = (identities calls).map (rowOf calls)
  warned : registry.conflicts = calls.filterMap (conflictOf calls)
  answered : registry.given.map Prod.fst = calls.map QuotaCall.key
  /-- Only uncapped quotas share a limiter with others. -/
  shared : ∀ a ∈ registry.given, ∀ b ∈ registry.given, a.1.Plain → b.1.Plain →
    (a.2 = b.2 ↔ a.1.SameQuota b.1 ∨ a.2 = none ∧ b.2 = none)
  /-- The first writer wins. -/
  created : ∀ a ∈ registry.given, ∃ first, firstCall calls (identityOf a.1) = some first ∧
    (a.2.bind fun n => registry.made[n]?) =
      if hasAnyLimit first.limits then some ⟨first.key.name, first.limits⟩ else none

theorem Grouped.shared (h : Grouped calls registry) {a b : QuotaKey × LimiterRef}
    (ha : a ∈ registry.given) (hb : b ∈ registry.given) (hplain : a.1.Plain) (hplain' : b.1.Plain) :
    a.2 = b.2 ↔ a.1.SameQuota b.1 ∨ a.2 = none ∧ b.2 = none := by
  rw [h.given] at ha hb
  obtain ⟨call, -, rfl⟩ := List.mem_map.mp ha
  obtain ⟨other, -, rfl⟩ := List.mem_map.mp hb
  rw [← identityOf_eq_iff hplain hplain']
  constructor
  · intro heq
    dsimp only at heq ⊢
    cases hlimiter : registry.limiterOf call.identity with
    | none =>
        rw [hlimiter] at heq
        exact .inr ⟨rfl, heq.symm⟩
    | some n =>
        rw [hlimiter] at heq
        exact .inl (h.apart _ _ n hlimiter heq.symm)
  · rintro (heq | ⟨hnone, hnone'⟩)
    · exact congrArg registry.limiterOf heq
    · exact hnone.trans hnone'.symm

theorem Grouped.created (h : Grouped calls registry) {a : QuotaKey × LimiterRef}
    (ha : a ∈ registry.given) : ∃ first, firstCall calls (identityOf a.1) = some first ∧
      (a.2.bind fun n => registry.made[n]?) =
        if hasAnyLimit first.limits then some ⟨first.key.name, first.limits⟩ else none := by
  rw [h.given] at ha
  obtain ⟨call, hmem, rfl⟩ := List.mem_map.mp ha
  obtain ⟨first, hfirst⟩ := exists_firstCall hmem
  refine ⟨first, hfirst, ?_⟩
  have hrel := h.entries call.identity
  rw [hfirst] at hrel
  dsimp only
  rw [RateLimiterRegistry.limiterOf]
  generalize OrderedMap.get registry.limiters call.identity = kept at hrel ⊢
  cases hrel with
  | some hkept => exact hkept.limiter.created

end

/-- Whatever the calls: those for one quota are given one limiter, that of the first of them, and
those that ask for other limits are warned about; no two capped quotas share a limiter. -/
theorem quotas_shared (calls : List QuotaCall) : SharesQuotas calls (.after calls) := by
  have h := after_grouped calls
  refine ⟨h.describe, h.conflicts, ?_, fun a ha b hb => h.shared ha hb, fun a ha => h.created ha⟩
  rw [h.given, List.map_map]
  rfl

/-- Two adapters of one account, and one that has no limits at all. -/
example : (RateLimiterRegistry.after
    [⟨⟨"llm", "openai-compatible", none, some "sk-1", some "m"⟩, ⟨60, 0, 0⟩⟩,
      ⟨⟨"stt", "assemblyai", none, some "", none⟩, ⟨0, 0, 0⟩⟩,
      ⟨⟨"intent-llm", "openai-compatible", none, some "sk-1", some "m"⟩, ⟨0, 0, 0⟩⟩]).describe =
    [⟨"llm", ["llm", "intent-llm"], ⟨60, 0, 0⟩, true⟩, ⟨"none", ["stt"], ⟨0, 0, 0⟩, false⟩] := by
  decide

end VoiceOrder.RateLimit
