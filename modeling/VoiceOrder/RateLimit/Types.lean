import Mathlib.Data.Rat.Floor
import Mathlib.Data.List.Nodup

/-! # Rejections, clocks and signals

Amounts and instants are exact rationals. The injected clock is a parameter of every
call, as the readings the call takes, in order; they need not increase. -/

namespace VoiceOrder.RateLimit

/-- Why a limiter refused to grant capacity. -/
inductive RateLimitRejectReason where
  | deadline
  | queueFull
  | aborted
  deriving DecidableEq, Repr

/-- A caller waited for capacity and did not get it. -/
structure RateLimitTimeoutError where
  reason : RateLimitRejectReason
  message : String
  deriving DecidableEq, Repr

/-- The backstop against unbounded queue growth. -/
def maxQueuedWaiters : ℕ := 256

/-- The wait budget of an acquire that names none, in milliseconds. -/
def defaultWaitMs : ℚ := 1000

/-- A promise, in the order the calls return them. -/
abbrev PromiseId := ℕ

/-- The readings one call takes from the injected clock. -/
abbrev Clock := ℕ → ℚ

/-- The readings left after the first `k`. -/
def Clock.after (clock : Clock) (k : ℕ) : Clock := fun i => clock (i + k)

/-- An abort signal, when the caller passed one, and whether it has been aborted. -/
abbrev AbortSignal := Option Bool

/-- Taking the entry of a key out of a queue with one entry a key leaves none. -/
theorem ne_of_mem_eraseP {α κ : Type*} [DecidableEq κ] {key : α → κ} {queue : List α}
    (h : (queue.map key).Nodup) {entry : α} {k : κ}
    (hmem : entry ∈ queue.eraseP (fun other => key other = k)) : key entry ≠ k := by
  induction queue with
  | nil => cases hmem
  | cons head rest ih =>
      obtain ⟨hnot, hrest⟩ := List.nodup_cons.mp h
      by_cases hhead : key head = k
      · simp only [List.eraseP_cons, hhead, decide_true, cond_true] at hmem
        rintro he
        exact hnot (List.mem_map.mpr ⟨entry, hmem, he.trans hhead.symm⟩)
      · simp only [List.eraseP_cons, hhead, decide_false, cond_false] at hmem
        rcases List.mem_cons.mp hmem with rfl | hmem
        · exact hhead
        · exact ih hrest hmem

end VoiceOrder.RateLimit
