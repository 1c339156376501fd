import VoiceOrder.Shared.AsyncLock
import Mathlib.Data.List.Pairwise

/-! # Mutual exclusion and isolation of the lock

Each call is chained on the last call of its key, and a call starts once every earlier call of
its key is settled; the entry of a key names the last call until that one is cleaned up. -/

namespace VoiceOrder.KeyedAsyncLock

open Runs

variable {κ : Type*}

/-! ## The chain of a key -/

/-- What holds of a call, among all the calls of its lock. -/
structure CallOk (calls : CallId → Option (LockCall κ)) (id : CallId) (call : LockCall κ) :
    Prop where
  /-- Every earlier call of the key is settled, or the call is chained on the last of them. -/
  chained :
    match call.prev with
    | .resolved => ∀ earlier other, earlier < id → calls earlier = some other →
        other.key = call.key → other.tailSettled = true
    | .settled last => last < id ∧ (∃ other, calls last = some other ∧ other.key = call.key) ∧
        ∀ between other, last < between → between < id → calls between = some other →
          other.key ≠ call.key
  /-- A function starts once every earlier call of the key is settled. -/
  started : call.result ≠ .waiting → ∀ earlier other, earlier < id →
    calls earlier = some other → other.key = call.key → other.tailSettled = true
  /-- The result settles as its own function ended. -/
  own : ∀ outcome, call.result = .settled outcome ∨ call.result = .following outcome →
    call.fnEnded = some outcome
  tail : call.tailSettled = true → ∃ outcome, call.result = .settled outcome
  cleaned : call.cleaned = true → call.tailSettled = true

/-- A later record of a call: same key, same place in the chain, settled if it was. -/
structure Grows (call next : LockCall κ) : Prop where
  key : next.key = call.key
  prev : next.prev = call.prev
  started : call.result ≠ .waiting → next.result ≠ .waiting
  tail : call.tailSettled = true → next.tailSettled = true

structure Chained (lock : KeyedAsyncLock κ) : Prop where
  unmade : ∀ id, lock.nextCall ≤ id → lock.calls id = none
  calls : ∀ id call, lock.calls id = some call → CallOk lock.calls id call
  /-- The entry of a key names its last call, not yet cleaned up. -/
  entry : ∀ key id, lock.tails key = some id → ∃ call, lock.calls id = some call ∧
    call.key = key ∧ call.cleaned = false ∧
      ∀ later other, id < later → lock.calls later = some other → other.key ≠ key
  /-- A key without an entry has no pending call. -/
  vacant : ∀ key id call, lock.tails key = none → lock.calls id = some call → call.key = key →
    call.tailSettled = true
  logged : ∀ id, id ∈ lock.starts → ∃ call, lock.calls id = some call ∧ call.result ≠ .waiting
  inOrder : lock.starts.Pairwise fun first second => ∀ a b, lock.calls first = some a →
    lock.calls second = some b → a.key = b.key → first < second

section

variable {calls after : CallId → Option (LockCall κ)} {id : CallId} {call next : LockCall κ}

theorem Grows.refl (call : LockCall κ) : Grows call call := ⟨rfl, rfl, id, id⟩

theorem grows_update (hcall : calls id = some call) (hgrows : Grows call next) (other : CallId) :
    Option.Rel Grows (calls other) (Function.update calls id (some next) other) := by
  by_cases h : other = id
  · subst h
    rw [Function.update_self, hcall]
    exact .some hgrows
  · rw [Function.update_of_ne h]
    cases calls other with
    | none => exact .none
    | some found => exact .some (.refl found)

/-- A call stays fine while the calls before it go on. -/
theorem CallOk.of_rel (h : CallOk calls id call)
    (hrel : ∀ earlier, earlier < id → Option.Rel Grows (calls earlier) (after earlier)) :
    CallOk after id call := by
  have hback : ∀ earlier other, earlier < id → after earlier = some other →
      ∃ before, calls earlier = some before ∧ Grows before other := by
    intro earlier other hlt hother
    have hearlier := hrel earlier hlt
    rw [hother] at hearlier
    generalize calls earlier = found at hearlier
    cases hearlier with
    | some hgrows => exact ⟨_, rfl, hgrows⟩
  refine ⟨?_, fun hstarted earlier other hlt hother hkey => ?_, h.own, h.tail, h.cleaned⟩
  · have hchained := h.chained
    cases hprev : call.prev with
    | resolved =>
        rw [hprev] at hchained
        intro earlier other hlt hother hkey
        obtain ⟨before, hbefore, hgrows⟩ := hback earlier other hlt hother
        exact hgrows.tail (hchained earlier before hlt hbefore (hgrows.key.symm.trans hkey))
    | settled last =>
        rw [hprev] at hchained
        obtain ⟨hlt, ⟨found, hfound, hkey⟩, hbetween⟩ := hchained
        refine ⟨hlt, ?_, fun between other hlast hid hother => ?_⟩
        · have hlast := hrel last hlt
          rw [hfound] at hlast
          generalize after last = later at hlast
          cases hlast with
          | some hgrows => exact ⟨_, rfl, hgrows.key.trans hkey⟩
        · obtain ⟨before, hbefore, hgrows⟩ := hback between other hid hother
          exact hgrows.key ▸ hbetween between before hlast hid hbefore
  · obtain ⟨before, hbefore, hgrows⟩ := hback earlier other hlt hother
    exact hgrows.tail (h.started hstarted earlier before hlt hbefore (hgrows.key.symm.trans hkey))

end

section

variable {lock after : KeyedAsyncLock κ} {id : CallId} {call next : LockCall κ}

theorem Chained.lt_nextCall (h : Chained lock) (hcall : lock.calls id = some call) :
    id < lock.nextCall := by
  by_contra hle
  rw [h.unmade id (Nat.not_lt.mp hle)] at hcall
  cases hcall

/-- A call whose previous tail is settled is next in line. -/
theorem Chained.settled_before (h : Chained lock) (hcall : lock.calls id = some call)
    (hprev : lock.prevSettled call.prev = true) {earlier : CallId} {other : LockCall κ}
    (hlt : earlier < id) (hother : lock.calls earlier = some other)
    (hkey : other.key = call.key) : other.tailSettled = true := by
  have hchained := (h.calls id call hcall).chained
  cases hp : call.prev with
  | resolved =>
      rw [hp] at hchained
      exact hchained earlier other hlt hother hkey
  | settled last =>
      rw [hp] at hchained hprev
      obtain ⟨hlast, ⟨found, hfound, hfoundKey⟩, hbetween⟩ := hchained
      have hsettled : found.tailSettled = true := by
        simpa [prevSettled, hfound] using hprev
      rcases Nat.lt_trichotomy earlier last with hbefore | rfl | hafter
      · obtain ⟨outcome, hresult⟩ := (h.calls last found hfound).tail hsettled
        exact (h.calls last found hfound).started (by simp [hresult]) earlier other hbefore hother
          (hkey.trans hfoundKey.symm)
      · cases hother.symm.trans hfound
        exact hsettled
      · exact absurd hkey (hbetween earlier other hafter hlt hother)

/-- One call goes on, and nothing else changes. -/
theorem Chained.put (h : Chained lock) (hcall : lock.calls id = some call)
    (hgrows : Grows call next)
    (hcleaned : ∀ key, lock.tails key = some id → next.cleaned = call.cleaned)
    (hok : CallOk lock.calls id next) : Chained (lock.put id next) := by
  have hrel := grows_update hcall hgrows
  have hback : ∀ other found, (lock.put id next).calls other = some found →
      ∃ before, lock.calls other = some before ∧ Grows before found := by
    intro other found hfound
    have hother := hrel other
    rw [show Function.update lock.calls id (some next) other = some found from hfound] at hother
    generalize lock.calls other = before at hother
    cases hother with
    | some hgrows => exact ⟨_, rfl, hgrows⟩
  refine ⟨fun other hle => ?_, fun other found hfound => ?_, fun key other hentry => ?_,
    fun key other found hnone hfound hkey => ?_, fun other hmem => ?_, ?_⟩
  · have hne : other ≠ id := Nat.ne_of_gt (Nat.lt_of_lt_of_le (h.lt_nextCall hcall) hle)
    exact (Function.update_of_ne hne _ _).trans (h.unmade other hle)
  · by_cases heq : other = id
    · subst heq
      have : next = found := by simpa [KeyedAsyncLock.put] using hfound
      exact this ▸ hok.of_rel fun earlier _ => hrel earlier
    · have hfound : lock.calls other = some found := by
        simpa [KeyedAsyncLock.put, heq] using hfound
      exact (h.calls other found hfound).of_rel fun earlier _ => hrel earlier
  · obtain ⟨found, hfound, hkey, hpending, hlast⟩ := h.entry key other hentry
    have hlater : ∀ later another, other < later → (lock.put id next).calls later = some another →
        another.key ≠ key := by
      intro later another hlt hanother
      obtain ⟨before, hbefore, hgrown⟩ := hback later another hanother
      exact hgrown.key ▸ hlast later before hlt hbefore
    by_cases heq : other = id
    · subst heq
      cases hfound.symm.trans hcall
      exact ⟨next, Function.update_self .., hgrows.key.trans hkey,
        (hcleaned key hentry).trans hpending, hlater⟩
    · exact ⟨found, (Function.update_of_ne heq _ _).trans hfound, hkey, hpending, hlater⟩
  · obtain ⟨before, hbefore, hgrown⟩ := hback other found hfound
    exact hgrown.tail (h.vacant key other before hnone hbefore (hgrown.key.symm.trans hkey))
  · obtain ⟨found, hfound, hstarted⟩ := h.logged other hmem
    by_cases heq : other = id
    · subst heq
      cases hfound.symm.trans hcall
      exact ⟨next, Function.update_self .., hgrows.started hstarted⟩
    · exact ⟨found, (Function.update_of_ne heq _ _).trans hfound, hstarted⟩
  · refine h.inOrder.imp fun {first second} hlt a b ha hb hkey => ?_
    obtain ⟨before, hbefore, hgrown⟩ := hback first a ha
    obtain ⟨before', hbefore', hgrown'⟩ := hback second b hb
    exact hlt before before' hbefore hbefore'
      (hgrown.key.symm.trans (hkey.trans hgrown'.key))

theorem Chained.advance (h : Chained lock) (hcall : lock.calls id = some call)
    (hadvance : Advance call next) : Chained (lock.put id next) := by
  have hok := h.calls id call hcall
  cases hadvance with
  | throws hactive =>
      refine h.put hcall ⟨rfl, rfl, by simp, fun hsettled => hsettled⟩ (fun _ _ => rfl)
        ⟨hok.chained, ?_, ?_, ?_, hok.cleaned⟩
      · exact fun _ => hok.started (by simp [hactive])
      · simp
      · exact fun _ => ⟨_, rfl⟩
  | ends outcome hactive =>
      refine h.put hcall ⟨rfl, rfl, by simp, fun hsettled => hsettled⟩ (fun _ _ => rfl)
        ⟨hok.chained, ?_, ?_, ?_, hok.cleaned⟩
      · exact fun _ => hok.started (by simp [hactive])
      · simp
      · intro hsettled
        obtain ⟨outcome, hresult⟩ := hok.tail hsettled
        simp [hactive] at hresult
  | follow outcome hfollowing =>
      refine h.put hcall ⟨rfl, rfl, by simp, fun hsettled => hsettled⟩ (fun _ _ => rfl)
        ⟨hok.chained, ?_, ?_, ?_, hok.cleaned⟩
      · exact fun _ => hok.started (by simp [hfollowing])
      · intro found hfound
        simp only [ResultPromise.settled.injEq, reduceCtorEq, or_false] at hfound
        exact hok.own found (Or.inr (hfollowing.trans (by rw [hfound])))
      · exact fun _ => ⟨_, rfl⟩
  | settleTail outcome hsettled hpending =>
      refine h.put hcall ⟨rfl, rfl, fun hstarted => hstarted, fun _ => rfl⟩ (fun _ _ => rfl)
        ⟨hok.chained, hok.started, hok.own, fun _ => ⟨outcome, hsettled⟩, fun _ => rfl⟩

theorem Chained.start (h : Chained lock) (hcall : lock.calls id = some call)
    (hwaiting : call.result = .waiting) (hprev : lock.prevSettled call.prev = true) :
    Chained
      { lock.put id { call with result := .active } with starts := lock.starts ++ [id] } := by
  have hok := h.calls id call hcall
  have hunsettled : call.tailSettled = false := by
    cases htail : call.tailSettled with
    | false => rfl
    | true =>
        obtain ⟨outcome, hresult⟩ := hok.tail htail
        simp [hwaiting] at hresult
  have hput : Chained (lock.put id { call with result := .active }) :=
    h.put hcall ⟨rfl, rfl, by simp, fun hsettled => hsettled⟩ (fun _ _ => rfl) ⟨hok.chained,
      fun _ _ _ hlt hother hkey => h.settled_before hcall hprev hlt hother hkey, by simp,
      by simp [hunsettled], hok.cleaned⟩
  have hactive : (lock.put id { call with result := .active }).calls id =
      some { call with result := .active } := Function.update_self ..
  refine ⟨hput.unmade, hput.calls, hput.entry, hput.vacant, fun other hmem => ?_, ?_⟩
  · rcases List.mem_append.mp hmem with hlogged | hnew
    · exact hput.logged other hlogged
    · rw [List.mem_singleton.mp hnew]
      exact ⟨_, hactive, by simp⟩
  · refine List.pairwise_append.mpr ⟨hput.inOrder, List.pairwise_singleton _ _, ?_⟩
    intro first hfirst second hsecond a b ha hb hkey
    rw [List.mem_singleton.mp hsecond] at hb ⊢
    cases hactive.symm.trans hb
    obtain ⟨before, hbefore, hstarted⟩ := h.logged first hfirst
    have hne : first ≠ id := by
      rintro rfl
      cases hbefore.symm.trans hcall
      exact hstarted hwaiting
    have ha : lock.calls first = some a := by
      simpa [KeyedAsyncLock.put, hne] using ha
    cases hbefore.symm.trans ha
    -- A later call of the key that has started would need this one settled.
    by_contra hlt
    have := (h.calls first a ha).started hstarted id call
      (Nat.lt_of_le_of_ne (Nat.not_lt.mp hlt) hne.symm) hcall hkey.symm
    simp [hunsettled] at this

/-- The entry of a key goes once its last call is settled. -/
theorem Chained.vacate [DecidableEq κ] (h : Chained lock) (hcall : lock.calls id = some call)
    (hsettled : call.tailSettled = true) (hentry : lock.tails call.key = some id) :
    Chained { lock with tails := Function.update lock.tails call.key none } := by
  refine ⟨h.unmade, h.calls, fun key last hlast => ?_, fun key other found hnone hfound hkey => ?_,
    h.logged, h.inOrder⟩
  · by_cases heq : key = call.key
    · subst heq
      simp at hlast
    · exact h.entry key last (by simpa [heq] using hlast)
  · by_cases heq : key = call.key
    · subst heq
      obtain ⟨same, hsame, -, -, hlast⟩ := h.entry call.key id hentry
      cases hcall.symm.trans hsame
      obtain ⟨outcome, hresult⟩ := (h.calls id call hcall).tail hsettled
      rcases Nat.lt_trichotomy other id with hlt | rfl | hgt
      · exact (h.calls id call hcall).started (by simp [hresult]) other found hlt hfound hkey
      · cases hcall.symm.trans hfound
        exact hsettled
      · exact absurd hkey (hlast other found hgt hfound)
    · exact h.vacant key other found (by simpa [heq] using hnone) hfound hkey

theorem Chained.cleanUp [DecidableEq κ] (h : Chained lock) (hcall : lock.calls id = some call)
    (hsettled : call.tailSettled = true) :
    Chained { lock.put id { call with cleaned := true } with
      tails :=
        if lock.tails call.key = some id then Function.update lock.tails call.key none
        else lock.tails } := by
  have hok := h.calls id call hcall
  have hnext : CallOk lock.calls id { call with cleaned := true } :=
    ⟨hok.chained, hok.started, hok.own, hok.tail, fun _ => hsettled⟩
  have hgrows : Grows call { call with cleaned := true } :=
    ⟨rfl, rfl, fun hstarted => hstarted, fun hsettled => hsettled⟩
  split_ifs with hentry
  · refine (h.vacate hcall hsettled hentry).put hcall hgrows (fun key hkey => ?_) hnext
    by_cases heq : key = call.key
    · subst heq
      simp at hkey
    · obtain ⟨same, hsame, hsameKey, -⟩ := h.entry key id (by simpa [heq] using hkey)
      cases hcall.symm.trans hsame
      exact absurd hsameKey.symm heq
  · refine h.put hcall hgrows (fun key hkey => ?_) hnext
    obtain ⟨same, hsame, rfl, -⟩ := h.entry key id hkey
    cases hcall.symm.trans hsame
    exact absurd hkey hentry

/-- A call is chained on the last call of its key. -/
theorem Chained.callOk_run (h : Chained lock) (key : κ) :
    CallOk lock.calls lock.nextCall
      ⟨key, lock.previousTail key, .waiting, none, false, false⟩ := by
  refine ⟨?_, by simp, by simp, by simp, by simp⟩
  cases hentry : lock.tails key with
  | none =>
      simp only [previousTail, hentry]
      exact fun earlier other _ hother hkey => h.vacant key earlier other hentry hother hkey
  | some last =>
      obtain ⟨call, hcall, hkey, -, hlast⟩ := h.entry key last hentry
      simp only [previousTail, hentry]
      exact ⟨h.lt_nextCall hcall, ⟨call, hcall, hkey⟩,
        fun between other hlt _ hother => hlast between other hlt hother⟩

theorem Chained.run [DecidableEq κ] (h : Chained lock) (key : κ) : Chained (lock.run key) := by
  have hsame : ∀ {other}, other ≠ lock.nextCall →
      (lock.run key).calls other = lock.calls other := fun hne => Function.update_of_ne hne _ _
  have hnew : (lock.run key).calls lock.nextCall =
      some ⟨key, lock.previousTail key, .waiting, none, false, false⟩ := Function.update_self ..
  have hold : ∀ {other found}, lock.calls other = some found →
      (lock.run key).calls other = some found :=
    fun hfound => (hsame (Nat.ne_of_lt (h.lt_nextCall hfound))).trans hfound
  have hrel : ∀ earlier, earlier < lock.nextCall →
      Option.Rel Grows (lock.calls earlier) ((lock.run key).calls earlier) := by
    intro earlier hlt
    rw [hsame (Nat.ne_of_lt hlt)]
    cases lock.calls earlier with
    | none => exact .none
    | some found => exact .some (.refl found)
  refine ⟨fun other hle => ?_, fun other found hfound => ?_, fun other last hlast => ?_,
    fun other id found hnone hfound hkey => ?_, fun other hmem => ?_, ?_⟩
  · have hlt : lock.nextCall < other := hle
    exact (hsame (Nat.ne_of_gt hlt)).trans (h.unmade other (Nat.le_of_lt hlt))
  · by_cases heq : other = lock.nextCall
    · subst heq
      cases hnew.symm.trans hfound
      exact (h.callOk_run key).of_rel hrel
    · have hfound := (hsame heq).symm.trans hfound
      exact (h.calls other found hfound).of_rel fun earlier hlt =>
        hrel earlier (Nat.lt_trans hlt (h.lt_nextCall hfound))
  · by_cases heq : other = key
    · subst heq
      have htail : (lock.run other).tails other = some lock.nextCall := Function.update_self ..
      cases htail.symm.trans hlast
      refine ⟨_, hnew, rfl, rfl, fun later found hlt hfound => ?_⟩
      rw [hsame (Nat.ne_of_gt hlt), h.unmade later (Nat.le_of_lt hlt)] at hfound
      cases hfound
    · have hentry : lock.tails other = some last := (Function.update_of_ne heq _ _).symm.trans hlast
      obtain ⟨call, hcall, hcallKey, hpending, hlater⟩ := h.entry other last hentry
      refine ⟨call, hold hcall, hcallKey, hpending, fun later found hlt hfound => ?_⟩
      by_cases hnext : later = lock.nextCall
      · subst hnext
        cases hnew.symm.trans hfound
        exact Ne.symm heq
      · exact hlater later found hlt ((hsame hnext).symm.trans hfound)
  · have hne : other ≠ key := by
      rintro rfl
      cases (Function.update_self ..).symm.trans hnone
    have hentry : lock.tails other = none := (Function.update_of_ne hne _ _).symm.trans hnone
    by_cases heq : id = lock.nextCall
    · subst heq
      cases hnew.symm.trans hfound
      exact absurd hkey.symm hne
    · exact h.vacant other id found hentry ((hsame heq).symm.trans hfound) hkey
  · obtain ⟨found, hfound, hstarted⟩ := h.logged other hmem
    exact ⟨found, hold hfound, hstarted⟩
  · refine h.inOrder.imp_of_mem fun {first second} hfirst hsecond hlt a b ha hb hkey => ?_
    obtain ⟨a', ha', -⟩ := h.logged first hfirst
    obtain ⟨b', hb', -⟩ := h.logged second hsecond
    cases (hold ha').symm.trans ha
    cases (hold hb').symm.trans hb
    exact hlt a b ha' hb' hkey

theorem create_chained : Chained (create : KeyedAsyncLock κ) :=
  ⟨fun _ _ => rfl, fun _ _ h => (nomatch h), fun _ _ h => (nomatch h),
    fun _ _ _ _ h => (nomatch h), fun _ h => (nomatch h), List.Pairwise.nil⟩

theorem Chained.step [DecidableEq κ] {action : LockAction κ} (h : Chained lock)
    (hstep : lock.step action = some after) : Chained after := by
  cases step_moves hstep with
  | run key => exact h.run key
  | start id call hcall hwaiting hprev => exact h.start hcall hwaiting hprev
  | advance id call next hcall hadvance => exact h.advance hcall hadvance
  | cleanUp id call hcall hsettled _ => exact h.cleanUp hcall hsettled

end

/-! ## What the lock promises -/

/-- The promise that `run` returned has not settled. -/
def Unsettled (call : LockCall κ) : Prop := ∀ outcome, call.result ≠ .settled outcome

structure Serves [DecidableEq κ] (lock : KeyedAsyncLock κ) : Prop where
  /-- At most one function of a key is active. -/
  exclusive : ∀ first second a b, lock.calls first = some a → lock.calls second = some b →
    a.key = b.key → a.result = .active → b.result = .active → first = second
  /-- The functions of a key start in the order of its calls. -/
  inOrder : lock.starts.Pairwise fun first second => ∀ a b, lock.calls first = some a →
    lock.calls second = some b → a.key = b.key → first < second
  /-- A function starts only after every earlier call of its key. -/
  afterEarlier : ∀ id call, lock.calls id = some call → call.result ≠ .waiting →
    ∀ earlier other, earlier < id → lock.calls earlier = some other → other.key = call.key →
      ¬ Unsettled other
  /-- A caller gets the outcome of its own function. -/
  isolated : ∀ id call outcome, lock.calls id = some call → call.result = .settled outcome →
    call.fnEnded = some outcome
  /-- A key with an unsettled call has an entry. -/
  present : ∀ id call, lock.calls id = some call → Unsettled call → (lock.tails call.key).isSome
  /-- A function waits for nothing but an active function of its own key. -/
  waits : lock.Drained → ∀ id call, lock.calls id = some call → call.result = .waiting →
    ∃ earlier other, earlier < id ∧ lock.calls earlier = some other ∧ other.key = call.key ∧
      other.result = .active
  /-- The entries left are those of keys with an unsettled call. -/
  swept : lock.Drained → ∀ key, (lock.tails key).isSome →
    ∃ id call, lock.calls id = some call ∧ call.key = key ∧ Unsettled call

section

variable [DecidableEq κ] {lock : KeyedAsyncLock κ} {id : CallId} {call : LockCall κ}

/-- Without microtasks a call whose tail is open has not settled. -/
theorem Drained.unsettled (h : lock.Drained) (hcall : lock.calls id = some call)
    (hopen : call.tailSettled = false) : Unsettled call := by
  intro outcome hsettled
  have := (h id).2.2.1
  simp [KeyedAsyncLock.settleTail, hcall, hsettled, hopen] at this

theorem Chained.waits (h : Chained lock) (hdrained : lock.Drained)
    (hcall : lock.calls id = some call) (hwaiting : call.result = .waiting) :
    ∃ earlier other, earlier < id ∧ lock.calls earlier = some other ∧ other.key = call.key ∧
      other.result = .active := by
  induction id using Nat.strongRecOn generalizing call with
  | ind id ih =>
      have hblocked : lock.prevSettled call.prev = false := by
        have := (hdrained id).1
        simpa [KeyedAsyncLock.start, hcall, hwaiting] using this
      have hchained := (h.calls id call hcall).chained
      cases hprev : call.prev with
      | resolved => simp [hprev, prevSettled] at hblocked
      | settled last =>
          rw [hprev] at hchained hblocked
          obtain ⟨hlt, ⟨other, hother, hkey⟩, -⟩ := hchained
          have hopen : other.tailSettled = false := by
            simpa [prevSettled, hother] using hblocked
          have hunsettled := hdrained.unsettled hother hopen
          cases hresult : other.result with
          | waiting =>
              obtain ⟨earlier, found, hearlier, hfound, hfoundKey, hactive⟩ :=
                ih last hlt hother hresult
              exact ⟨earlier, found, Nat.lt_trans hearlier hlt, hfound, hfoundKey.trans hkey,
                hactive⟩
          | active => exact ⟨last, other, hlt, hother, hkey, hresult⟩
          | following outcome =>
              have := (hdrained last).2.1
              simp [KeyedAsyncLock.follow, hother, hresult] at this
          | settled outcome => exact absurd hresult (hunsettled outcome)

omit [DecidableEq κ] in
theorem Chained.exclusive (h : Chained lock) {first second : CallId} {a b : LockCall κ}
    (ha : lock.calls first = some a) (hb : lock.calls second = some b) (hkey : a.key = b.key)
    (hactive : a.result = .active) (hactive' : b.result = .active) : ¬ first < second := by
  intro hlt
  have hsettled := (h.calls second b hb).started (by simp [hactive']) first a hlt ha hkey
  obtain ⟨outcome, hresult⟩ := (h.calls first a ha).tail hsettled
  simp [hactive] at hresult

theorem Chained.serves (h : Chained lock) : lock.Serves where
  exclusive := fun first second a b ha hb hkey hactive hactive' => by
    rcases Nat.lt_trichotomy first second with hlt | heq | hgt
    · exact absurd hlt (h.exclusive ha hb hkey hactive hactive')
    · exact heq
    · exact absurd hgt (h.exclusive hb ha hkey.symm hactive' hactive)
  inOrder := h.inOrder
  afterEarlier := fun id call hcall hstarted earlier other hlt hother hkey hunsettled => by
    have hsettled := (h.calls id call hcall).started hstarted earlier other hlt hother hkey
    obtain ⟨outcome, hresult⟩ := (h.calls earlier other hother).tail hsettled
    exact hunsettled outcome hresult
  isolated := fun id call outcome hcall hsettled =>
    (h.calls id call hcall).own outcome (Or.inl hsettled)
  present := fun id call hcall hunsettled => by
    cases hentry : lock.tails call.key with
    | some last => rfl
    | none =>
        obtain ⟨outcome, hresult⟩ :=
          (h.calls id call hcall).tail (h.vacant call.key id call hentry hcall rfl)
        exact absurd hresult (hunsettled outcome)
  waits := fun hdrained id call hcall hwaiting => h.waits hdrained hcall hwaiting
  swept := fun hdrained key hsome => by
    obtain ⟨last, hentry⟩ := Option.isSome_iff_exists.mp hsome
    obtain ⟨call, hcall, hkey, hpending, -⟩ := h.entry key last hentry
    refine ⟨last, call, hcall, hkey, hdrained.unsettled hcall ?_⟩
    have := (hdrained last).2.2.2
    simpa [KeyedAsyncLock.cleanUp, hcall, hpending] using this

/-- In every run of the lock, whatever calls are made and however their functions end. -/
theorem lock_serves {actions : List (LockAction κ)}
    (h : Run step (fun _ _ => True) create actions lock) : lock.Serves :=
  (h.invariant Chained create_chained fun _ _ _ hinv _ hstep => hinv.step hstep).serves

/-- The first call of a key rejects; the second one of the key still runs after it, and the
other key did not wait. -/
theorem lock_serves_rejection :
    ∃ lock : KeyedAsyncLock String, lock.Serves ∧ lock.starts = [0, 2, 1] := by
  obtain ⟨lock, hrun, hstarts⟩ :
      ∃ lock, Run step (fun _ _ => True) create
        [.run "cart_1", .run "cart_1", .run "cart_2", .start 0, .start 2, .ends 0 .rejected,
          .follow 0, .settleTail 0, .cleanUp 0, .start 1] lock ∧
        decide (lock.starts = [0, 2, 1]) = true :=
    exists_run (by decide +kernel)
  exact ⟨lock, lock_serves hrun, of_decide_eq_true hstarts⟩

end

end VoiceOrder.KeyedAsyncLock
