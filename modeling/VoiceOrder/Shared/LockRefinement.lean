import VoiceOrder.Shared.LockStages

/-! # The lock makes lanes

Seen lane by lane, a machine whose jobs go through the lock is a machine of lanes: the lock
calls the functions of a key in the order of its calls, each when the one before it has ended. -/

namespace VoiceOrder

open Async Runs Machine

/-- The first entry of a sorted list that satisfies a predicate. -/
theorem filter_first {Job : Type} {entries : List (ℕ × Job)}
    (hsorted : (entries.map Prod.fst).Pairwise (· < ·))
    {entry : ℕ × Job} (hmem : entry ∈ entries) {before after : ℕ → Bool}
    (hentry : before entry.1 = true)
    (hfirst : ∀ other ∈ entries, other.1 < entry.1 → before other.1 = false)
    (hafter : ∀ id, after id = (before id && decide (id ≠ entry.1))) :
    entries.filter (fun other => before other.1) =
      entry :: entries.filter fun other => after other.1 := by
  induction entries with
  | nil => cases hmem
  | cons head entries ih =>
      rw [List.map_cons, List.pairwise_cons] at hsorted
      rcases List.mem_cons.mp hmem with rfl | hrest
      · have hhead : after entry.1 = false := by simp [hafter]
        have hlater : ∀ other ∈ entries, before other.1 = after other.1 := by
          intro other hother
          have hlt := hsorted.1 other.1 (List.mem_map_of_mem hother)
          simp [hafter, Nat.ne_of_gt hlt]
        rw [List.filter_cons_of_pos (by simpa using hentry), List.filter_cons_of_neg (by simp [hhead])]
        exact congrArg (entry :: ·) (List.filter_congr hlater)
      · have hlt := hsorted.1 entry.1 (List.mem_map_of_mem hrest)
        have hhead := hfirst head List.mem_cons_self hlt
        rw [List.filter_cons_of_neg (by simp [hhead]), List.filter_cons_of_neg (by simp [hafter, hhead])]
        exact ih hsorted.2 hrest fun other hother => hfirst other (List.mem_cons_of_mem _ hother)

namespace LockedMachine

variable {Call : Type} {Answer : Call → Type} {Event Error κ Job σ : Type}

section

variable [DecidableEq κ] {design : Design Answer Event Error κ Job σ}
  {locked next : LockedMachine Answer Event Error κ Job σ}
  {machine : Machine Answer Event Error κ Job σ} {lane : κ} {id : CallId}

omit [DecidableEq κ] in
theorem waits_stage (machine : LockedMachine Answer Event Error κ Job σ) (id : CallId) :
    machine.waits id = (machine.lock.stage id).any fun call => decide (call.2 = .waiting) := by
  cases hcall : machine.lock.calls id with
  | none => simp [waits, KeyedAsyncLock.stage, hcall]
  | some call =>
      cases hresult : call.result <;>
        simp [waits, KeyedAsyncLock.stage, KeyedAsyncLock.stageOf, hcall, hresult]

/-- The lanes of a machine are the calls of the lock, taken key by key. -/
structure Refines (locked : LockedMachine Answer Event Error κ Job σ)
    (machine : Machine Answer Event Error κ Job σ) : Prop where
  state : machine.state = locked.state
  nextJob : machine.nextJob = locked.arrivals.length
  jobs : ∀ lane, (machine.lanes lane).jobs = locked.callsOn lane
  queue : ∀ lane, (machine.lanes lane).queue =
    (locked.callsOn lane).filter fun call => locked.waits call.1
  begun : ∀ lane, (machine.lanes lane).begun = locked.startsOn lane
  running : ∀ lane running, (machine.lanes lane).running = some running ↔
    locked.running running.id = some (lane, running)
  history : ∀ lane, (machine.lanes lane).history = locked.endedOn lane
  published : ∀ lane, (machine.lanes lane).published = Machine.fromLane lane locked.emitted

/-! ## Views of a lane -/

omit [DecidableEq κ] in
theorem waits_congr (h : next.lock.stage = locked.lock.stage) : next.waits = locked.waits := by
  funext id
  rw [waits_stage, waits_stage, h]

theorem mem_callsOn {job : Job} :
    (id, job) ∈ locked.callsOn lane ↔ locked.arrivals[id]? = some (lane, job) := by
  constructor
  · intro h
    obtain ⟨index, hid, hjob⟩ := mem_arrivals_iff.mp h
    rw [hid, Nat.zero_add]
    exact hjob
  · exact fun h => mem_arrivals_iff.mpr ⟨id, (Nat.zero_add id).symm, h⟩

theorem callsOn_submit (target : κ × Job) : (locked.submit target).callsOn lane =
    locked.callsOn lane ++ Machine.arrivals lane locked.arrivals.length [target] := by
  simp only [callsOn, submit, arrivals_append, Nat.zero_add]

theorem callsOn_submits (targets : List (κ × Job)) : (targets.foldl submit locked).callsOn lane =
    locked.callsOn lane ++ Machine.arrivals lane locked.arrivals.length targets := by
  have harrivals : ∀ machine : LockedMachine Answer Event Error κ Job σ,
      (targets.foldl submit machine).arrivals = machine.arrivals ++ targets := by
    induction targets with
    | nil => exact fun machine => (List.append_nil _).symm
    | cons target targets ih =>
        intro machine
        rw [List.foldl_cons, ih, submit, List.append_assoc]
        rfl
  rw [callsOn, callsOn, harrivals, arrivals_append, Nat.zero_add]

theorem submits_emitted (targets : List (κ × Job)) :
    (targets.foldl submit locked).emitted = locked.emitted := by
  induction targets generalizing locked with
  | nil => rfl
  | cons target targets ih => exact ih

theorem filter_tagged {β : Type} (other : κ) (items : List β) :
    ((items.map (Prod.mk lane)).filter fun entry => entry.1 = other).map Prod.snd =
      if lane = other then items else [] := by
  induction items with
  | nil => simp
  | cons item items ih =>
      rw [List.map_cons, List.filter_cons]
      by_cases h : lane = other
      · simpa [h] using ih
      · simp [h]

theorem Sound.startsOn_submit (h : Sound locked) (target : κ × Job) :
    (locked.submit target).startsOn lane = locked.startsOn lane := by
  refine List.filterMap_congr fun id hid => ?_
  obtain ⟨call, hcall, -⟩ := h.chained.logged id hid
  have hbound := h.chained.lt_nextCall hcall
  rw [h.nextCall] at hbound
  rw [LockedMachine.submit, List.getElem?_append_left hbound]

theorem Sound.waits_submit (h : Sound locked) (target : κ × Job) :
    (locked.submit target).waits id = if id = locked.arrivals.length then true else locked.waits id := by
  rw [waits_stage, waits_stage, LockedMachine.submit, KeyedAsyncLock.stage_run, h.nextCall]
  split <;> simp

/-! ## Steps -/

theorem Refines.submit (h : Refines locked machine) (hsound : Sound locked) (target : κ × Job) :
    Refines (locked.submit target) (machine.submit target) where
  state := h.state
  nextJob := by
    rw [Machine.submit, h.nextJob, LockedMachine.submit, List.length_append]
    rfl
  jobs := fun lane => by
    rw [Machine.submit_lanes, Lane.jobs_enqueue, h.jobs, h.nextJob, callsOn_submit]
  queue := fun lane => by
    have hold : (locked.callsOn lane).filter (fun call => (locked.submit target).waits call.1) =
        (locked.callsOn lane).filter fun call => locked.waits call.1 := by
      refine List.filter_congr fun call hcall => ?_
      have hbound : call.1 < locked.arrivals.length := by
        have := (arrivals_bounds hcall).2
        omega
      rw [hsound.waits_submit, if_neg (Nat.ne_of_lt hbound)]
    have hnew : ∀ call ∈ Machine.arrivals lane locked.arrivals.length [target],
        (locked.submit target).waits call.1 = true := by
      intro call hcall
      have hnew : call.1 = locked.arrivals.length := by
        have := arrivals_bounds hcall
        rw [List.length_singleton] at this
        omega
      rw [hsound.waits_submit, if_pos hnew]
    rw [callsOn_submit, List.filter_append, hold, List.filter_eq_self.mpr hnew, ← h.queue, ← h.nextJob,
      Machine.submit_lanes]
    rfl
  begun := fun lane => by
    rw [hsound.startsOn_submit, ← h.begun, Machine.submit_lanes]
    rfl
  running := fun lane running => by
    rw [Machine.submit_lanes]
    exact h.running lane running
  history := fun lane => by
    rw [Machine.submit_lanes]
    exact h.history lane
  published := fun lane => by
    rw [Machine.submit_lanes]
    exact h.published lane

theorem Refines.submits (h : Refines locked machine) (hsound : Sound locked) (targets : List (κ × Job)) :
    Refines (targets.foldl LockedMachine.submit locked) (targets.foldl Machine.submit machine) := by
  induction targets generalizing locked machine with
  | nil => exact h
  | cons target targets ih => exact ih (h.submit hsound target) (hsound.submit target)

/-- The function of a call and what its lane runs change together. -/
theorem running_put {running : CallId → Option (κ × Running Answer Event Error Job σ)}
    {lanes : κ → Lane Answer Event Error Job σ}
    (h : ∀ lane current, (lanes lane).running = some current ↔ running current.id = some (lane, current))
    (content : Lane Answer Event Error Job σ)
    (hcontent : ∀ current, content.running = some current → current.id = id)
    (hcall : ∀ other current, running id = some (other, current) → other = lane)
    (hlane : ∀ current, (lanes lane).running = some current → current.id = id) (other : κ)
    (current : Running Answer Event Error Job σ) :
    (Function.update lanes lane content other).running = some current ↔
      Function.update running id (content.running.map (Prod.mk lane)) current.id = some (other, current) := by
  by_cases hother : other = lane
  · subst hother
    rw [Function.update_self]
    by_cases hid : current.id = id
    · rw [hid, Function.update_self]
      simp
    · rw [Function.update_of_ne hid]
      constructor
      · exact fun hcurrent => absurd (hcontent current hcurrent) hid
      · exact fun hcurrent => absurd (hlane current ((h other current).mpr hcurrent)) hid
  · rw [Function.update_of_ne hother]
    by_cases hid : current.id = id
    · rw [hid, Function.update_self]
      constructor
      · intro hcurrent
        have hcall' := (h other current).mp hcurrent
        rw [hid] at hcall'
        exact absurd (hcall other current hcall') hother
      · intro hcurrent
        obtain ⟨found, -, heq⟩ := Option.map_eq_some_iff.mp hcurrent
        cases heq
        exact absurd rfl hother
    · rw [Function.update_of_ne hid]
      exact h other current

/-- A running function goes on or ends; it may emit an event. -/
theorem Refines.proceed (h : Refines locked machine) (hsound : Sound locked)
    {running : Running Answer Event Error Job σ} (hrunning : locked.running id = some (lane, running))
    {after : Machine Answer Event Error κ Job σ} (content : Lane Answer Event Error Job σ)
    (ended : List (Finished Answer Event Error Job σ)) (sent : List Event)
    (hlanes : after.lanes = Function.update machine.lanes lane content)
    (hstate : after.state = next.state) (hnextJob : after.nextJob = machine.nextJob)
    (hnext : next.running = Function.update locked.running id (content.running.map (Prod.mk lane)))
    (hcontent : ∀ current, content.running = some current → current.id = id)
    (hwaits : next.waits = locked.waits) (hstarts : next.lock.starts = locked.lock.starts)
    (harrivals : next.arrivals = locked.arrivals)
    (hqueue : content.queue = (machine.lanes lane).queue)
    (hbegun : content.begun = (machine.lanes lane).begun)
    (hhistory : content.history = (machine.lanes lane).history ++ ended)
    (hended : next.ended = locked.ended ++ ended.map (Prod.mk lane))
    (hpublished : content.published = (machine.lanes lane).published ++ sent)
    (hemitted : next.emitted = locked.emitted ++ sent.map (Prod.mk lane)) : Refines next after := by
  have hcalls : ∀ other, next.callsOn other = locked.callsOn other := fun other => by
    rw [callsOn, callsOn, harrivals]
  have hother : ∀ {other}, other ≠ lane → after.lanes other = machine.lanes other := fun hne => by
    rw [hlanes, Function.update_of_ne hne]
  have hself : after.lanes lane = content := by rw [hlanes, Function.update_self]
  refine ⟨hstate, by rw [hnextJob, h.nextJob, harrivals], fun other => ?_, fun other => ?_,
    fun other => ?_, ?_, fun other => ?_, fun other => ?_⟩
  · rw [hcalls, ← h.jobs]
    by_cases heq : other = lane
    · rw [heq, hself, Lane.jobs_begun, Lane.jobs_begun, hbegun, hqueue]
    · rw [hother heq]
  · rw [hcalls, hwaits, ← h.queue]
    by_cases heq : other = lane
    · rw [heq, hself, hqueue]
    · rw [hother heq]
  · have hstartsOn : next.startsOn other = locked.startsOn other := by
      rw [startsOn, startsOn, hstarts, harrivals]
    rw [hstartsOn, ← h.begun]
    by_cases heq : other = lane
    · rw [heq, hself, hbegun]
    · rw [hother heq]
  · rw [hlanes, hnext]
    refine running_put h.running content hcontent (fun other current hcurrent => ?_) fun current hcurrent => ?_
    · rw [hrunning] at hcurrent
      cases hcurrent
      rfl
    · have hsame := (h.running lane running).mpr (by rwa [(hsound.running id lane running hrunning).1])
      rw [hsame] at hcurrent
      cases hcurrent
      exact (hsound.running id lane running hrunning).1
  · rw [endedOn, hended, List.filter_append, List.map_append, filter_tagged]
    by_cases heq : other = lane
    · rw [heq, hself, hhistory, if_pos rfl, h.history]
      rfl
    · rw [hother heq, if_neg (Ne.symm heq), List.append_nil, h.history]
      rfl
  · rw [hemitted, Machine.fromLane_append, ← h.published, Machine.fromLane, filter_tagged]
    by_cases heq : other = lane
    · rw [heq, hself, hpublished, if_pos rfl]
    · rw [hother heq, if_neg (Ne.symm heq), List.append_nil]

/-- The call that starts is the first of its lane that waits, and the lane is free. -/
theorem Refines.first (h : Refines locked machine) (hsound : Sound locked)
    {call : LockCall κ} {target : κ × Job} (hcall : locked.lock.calls id = some call)
    (hwaiting : call.result = .waiting) (hprev : locked.lock.prevSettled call.prev = true)
    (htarget : locked.arrivals[id]? = some target) (hnext : ∀ other, next.waits other =
      (locked.waits other && decide (other ≠ id))) :
    (machine.lanes target.1).running = none ∧
      (machine.lanes target.1).queue =
        (id, target.2) :: (locked.callsOn target.1).filter fun call => next.waits call.1 := by
  have hstage : locked.lock.stage id = some (call.key, .waiting) := by
    simp [KeyedAsyncLock.stage, hcall, KeyedAsyncLock.stageOf, hwaiting]
  have hkey : call.key = target.1 := by
    have hkeys := hsound.keys id
    rw [hstage, htarget] at hkeys
    exact Option.some.inj hkeys
  rw [hkey] at hstage
  constructor
  · cases hrunning : (machine.lanes target.1).running with
    | none => rfl
    | some running =>
        obtain ⟨-, hactive⟩ := hsound.running _ _ _ ((h.running _ _).mp hrunning)
        rcases Nat.lt_trichotomy running.id id with hlt | heq | hgt
        · cases hsound.chained.over_before hcall hprev hlt (hkey ▸ hactive)
        · rw [heq, hstage] at hactive
          cases hactive
        · cases hsound.chained.over_started hgt hstage hactive (by decide)
  · rw [h.queue]
    refine filter_first arrivals_sorted (mem_callsOn.mpr htarget) ?_ (fun other hother hlt => ?_) hnext
    · rw [waits_stage, hstage]
      rfl
    · have hkeys := hsound.keys other.1
      rw [mem_callsOn.mp hother] at hkeys
      obtain ⟨⟨key, stage⟩, hearlier, hsame⟩ := Option.map_eq_some_iff.mp hkeys
      cases hsame
      have hover := hsound.chained.over_before hcall hprev hlt (hearlier.trans (by rw [hkey]))
      simp [waits_stage, hearlier, hover]

omit [DecidableEq κ] in
theorem start_waits (h : locked.start design id = some next) (other : CallId) :
    next.waits other = (locked.waits other && decide (other ≠ id)) := by
  obtain ⟨lock, target, hlock, -, rfl⟩ := start_some h
  obtain ⟨call, -, -, -, rfl⟩ := KeyedAsyncLock.start_some hlock
  by_cases heq : other = id
  · simp [waits, KeyedAsyncLock.put, heq]
  · simp [waits, KeyedAsyncLock.put, heq]

theorem Refines.start (h : Refines locked machine) (hsound : Sound locked)
    (hstart : locked.start design id = some next) :
    ∃ lane after, machine.begin design lane = some after ∧ Refines next after := by
  have hwaits := start_waits hstart
  obtain ⟨lock, ⟨lane, job⟩, hlock, htarget, hnext⟩ := start_some hstart
  obtain ⟨call, hcall, hwaiting, hprev, rfl⟩ := KeyedAsyncLock.start_some hlock
  obtain ⟨hidle, hqueue⟩ := h.first hsound hcall hwaiting hprev htarget hwaits
  have hcalls : ∀ other, next.callsOn other = locked.callsOn other := fun other => by
    rw [hnext]
    rfl
  refine ⟨lane, machine.put lane { machine.lanes lane with
    queue := (locked.callsOn lane).filter fun call => next.waits call.1
    running := some ⟨id, job, machine.state, [], [], design.program job⟩ },
    by simp [Machine.begin, hidle, hqueue], ?_, ?_, fun other => ?_, fun other => ?_, fun other => ?_, ?_,
    fun other => ?_, fun other => ?_⟩
  · rw [hnext]
    exact h.state
  · rw [hnext]
    exact h.nextJob
  · refine (put_keeps Lane.jobs ?_ other).trans ((h.jobs other).trans (hcalls other).symm)
    simp [Lane.jobs, Lane.pending, hidle, hqueue]
  · rw [hcalls]
    by_cases heq : other = lane
    · subst heq
      simp [Machine.put]
    · have hsame : (locked.callsOn other).filter (fun call => next.waits call.1) =
          (locked.callsOn other).filter fun call => locked.waits call.1 := by
        refine List.filter_congr fun entry hentry => ?_
        have hne : entry.1 ≠ id := by
          intro hid
          rw [← hid, mem_callsOn.mp hentry] at htarget
          cases htarget
          exact heq rfl
        rw [hwaits]
        simp [hne]
      rw [hsame, ← h.queue]
      simp [Machine.put, heq]
  · have hstarts : next.startsOn other =
        locked.startsOn other ++ if lane = other then [(id, job)] else [] := by
      rw [hnext, startsOn, List.filterMap_append]
      refine congrArg (_ ++ ·) ?_
      by_cases heq : lane = other
      · simp [htarget, heq]
      · simp [htarget, heq]
    rw [hstarts, ← h.begun]
    by_cases heq : lane = other
    · subst heq
      simp [Machine.put, Lane.begun, hidle]
    · simp [Machine.put, heq, Ne.symm heq]
  · have hfree : locked.running id = none := by
      cases hrunning : locked.running id with
      | none => rfl
      | some entry =>
          obtain ⟨-, hstage⟩ := hsound.running id entry.1 entry.2 hrunning
          simp [KeyedAsyncLock.stage, KeyedAsyncLock.stageOf, hcall, hwaiting] at hstage
    have hrunning : next.running = Function.update locked.running id
        (some (lane, ⟨id, job, machine.state, [], [], design.program job⟩)) := by
      rw [hnext, h.state]
    rw [hrunning]
    refine running_put h.running _ (fun current hcurrent => ?_) (fun other current hcurrent => ?_)
      fun current hcurrent => ?_
    · cases hcurrent
      rfl
    · rw [hfree] at hcurrent
      cases hcurrent
    · rw [hidle] at hcurrent
      cases hcurrent
  · rw [hnext]
    exact (put_keeps Lane.history (by rfl) other).trans (h.history other)
  · rw [hnext]
    refine (put_keeps Lane.published ?_ other).trans (h.published other)
    simp [Lane.published, Lane.entries, hidle]

theorem Refines.emit (h : Refines locked machine) (hsound : Sound locked)
    (hemit : locked.emit design id = some next) :
    ∃ lane after, machine.emit design lane = some after ∧ Refines next after := by
  obtain ⟨lane, running, event, rest, hrunning, hrest, rfl⟩ := emit_some hemit
  have hid := (hsound.running id lane running hrunning).1
  have hbusy : (machine.lanes lane).running = some running := (h.running lane running).mpr (hid ▸ hrunning)
  refine ⟨lane, (design.react event).foldl Machine.submit (machine.put lane { machine.lanes lane with
    running := some { running with
      entries := running.entries ++ [.emitted event]
      submitted := running.submitted ++ List.range' machine.nextJob (design.react event).length
      rest := rest } }), by simp [Machine.emit, hbusy, hrest], .submits ?_ ?_ _⟩
  · refine h.proceed hsound hrunning _ [] [event] rfl h.state rfl (by rw [h.nextJob]; rfl)
      (fun current hcurrent => ?_) rfl rfl rfl rfl ?_ (List.append_nil _).symm
      (List.append_nil _).symm ?_ rfl
    · cases hcurrent
      exact hid
    · simp [Lane.begun, hbusy]
    · simp [Lane.published, Lane.entries, hbusy, Entry.event?]
  · exact hsound.proceed hrunning (by rfl) (by rfl) (by rfl) (by rfl)

theorem Refines.reply [DecidableEq Call] (h : Refines locked machine) (hsound : Sound locked) {call : Call}
    {reply : Except Error (Answer call)} (hreply : locked.reply design id call reply = some next) :
    ∃ lane after, machine.reply design lane call reply = some after ∧ Refines next after := by
  obtain ⟨lane, running, resume, state, hrunning, hawait, hhandle, rfl⟩ := reply_some hreply
  have hid := (hsound.running id lane running hrunning).1
  have hbusy : (machine.lanes lane).running = some running := (h.running lane running).mpr (hid ▸ hrunning)
  rw [← h.state] at hhandle
  refine ⟨lane, { machine.put lane { machine.lanes lane with
    running := some { running with
      entries := running.entries ++ [.called call reply]
      rest := resume reply } } with state := state }, by simp [Machine.reply, hbusy, hawait, hhandle], ?_⟩
  refine h.proceed hsound hrunning _ [] [] rfl rfl rfl rfl (fun current hcurrent => ?_) rfl rfl rfl rfl
    ?_ (List.append_nil _).symm (List.append_nil _).symm ?_ (List.append_nil _).symm
  · cases hcurrent
    exact hid
  · simp [Lane.begun, hbusy]
  · simp [Lane.published, Lane.entries, hbusy, Entry.event?]

theorem Refines.finish (h : Refines locked machine) (hsound : Sound locked)
    (hfinish : locked.finish id = some next) :
    ∃ lane after, machine.finish lane = some after ∧ Refines next after := by
  obtain ⟨lane, running, result, lock, hrunning, hresult, hlock, rfl⟩ := finish_some hfinish
  have hid := (hsound.running id lane running hrunning).1
  have hbusy : (machine.lanes lane).running = some running := (h.running lane running).mpr (hid ▸ hrunning)
  obtain ⟨call, hcall, hactive, rfl⟩ := KeyedAsyncLock.ends_some hlock
  refine ⟨lane, machine.put lane { machine.lanes lane with
    running := none
    history := (machine.lanes lane).history ++ [⟨running.id, running.job, running.before,
      running.entries, running.submitted, result, machine.state⟩] },
    by simp [Machine.finish, hbusy, hresult], ?_⟩
  refine h.proceed hsound hrunning _ [_] [] rfl h.state rfl rfl (fun _ hcurrent => (nomatch hcurrent))
    (funext fun other => ?_) rfl rfl rfl ?_ rfl (by rw [h.state]; rfl) ?_ (List.append_nil _).symm
  · by_cases heq : other = id
    · simp [waits, KeyedAsyncLock.put, heq, hcall, hactive]
    · simp [waits, KeyedAsyncLock.put, heq]
  · simp [Lane.begun, hbusy]
  · simp [Lane.published, Lane.entries, hbusy]

theorem Refines.microtask (h : Refines locked machine) {lock : KeyedAsyncLock κ}
    (hmicrotask : KeyedAsyncLock.Microtask locked.lock lock) :
    Refines { locked with lock := lock } machine where
  state := h.state
  nextJob := h.nextJob
  jobs := h.jobs
  queue := fun lane => by
    rw [waits_congr hmicrotask.stage]
    exact h.queue lane
  begun := fun lane => by
    rw [h.begun, startsOn, startsOn, hmicrotask.starts]
  running := h.running
  history := h.history
  published := h.published

/-! ## Runs -/

variable {V : Type} {iso : Isolation Answer Event Error κ Job σ V} {allowed : κ → Job → Prop}

/-- A step of the locked machine is a step of the lanes, or they do not notice it. -/
theorem Refines.step [DecidableEq Call] {action : LockedAction Answer Error κ Job}
    (h : Refines locked machine) (hsound : Sound locked)
    (hfits : ∀ lane job, allowed lane job → iso.fits lane job) (hmeets : submitsOnly allowed locked action)
    (hstep : locked.step design action = some next) :
    ∃ actions after, Run (Machine.step design) (submitsFit iso) machine actions after ∧
      Refines next after := by
  have hone : ∀ {action : LaneAction Answer Error κ Job} {after}, submitsFit iso machine action →
      machine.step design action = some after →
      Run (Machine.step design) (submitsFit iso) machine [action] after :=
    fun hmeets hstep => .cons hmeets hstep (.nil _)
  cases action with
  | submit lane job =>
      cases hstep
      exact ⟨[.submit lane job], _, hone (hfits lane job hmeets) rfl, h.submit hsound (lane, job)⟩
  | start id =>
      obtain ⟨lane, after, hbegin, hafter⟩ := h.start hsound hstep
      exact ⟨[.begin lane], after, hone trivial hbegin, hafter⟩
  | emit id =>
      obtain ⟨lane, after, hemit, hafter⟩ := h.emit hsound hstep
      exact ⟨[.emit lane], after, hone trivial hemit, hafter⟩
  | reply id call reply =>
      obtain ⟨lane, after, hreply, hafter⟩ := h.reply hsound hstep
      exact ⟨[.reply lane call reply], after, hone trivial hreply, hafter⟩
  | finish id =>
      obtain ⟨lane, after, hfinish, hafter⟩ := h.finish hsound hstep
      exact ⟨[.finish lane], after, hone trivial hfinish, hafter⟩
  | follow id =>
      obtain ⟨lock, hlock, rfl⟩ := Option.map_eq_some_iff.mp hstep
      exact ⟨[], machine, .nil _, h.microtask (KeyedAsyncLock.follow_microtask hlock)⟩
  | settleTail id =>
      obtain ⟨lock, hlock, rfl⟩ := Option.map_eq_some_iff.mp hstep
      exact ⟨[], machine, .nil _, h.microtask (KeyedAsyncLock.settleTail_microtask hlock)⟩
  | cleanUp id =>
      obtain ⟨lock, hlock, rfl⟩ := Option.map_eq_some_iff.mp hstep
      exact ⟨[], machine, .nil _, h.microtask (KeyedAsyncLock.cleanUp_microtask hlock)⟩

theorem create_refines (state : σ) :
    Refines (create state : LockedMachine Answer Event Error κ Job σ) (.create state) :=
  ⟨rfl, rfl, fun _ => rfl, fun _ => rfl, fun _ => rfl,
    fun _ _ => ⟨fun h => (nomatch h), fun h => (nomatch h)⟩, fun _ => rfl, fun _ => rfl⟩

/-- Every run of the locked machine is a run of the lanes. -/
theorem refines_run [DecidableEq Call] {initial : σ} {actions : List (LockedAction Answer Error κ Job)}
    (hfits : ∀ lane job, allowed lane job → iso.fits lane job)
    (h : Run (LockedMachine.step design) (submitsOnly allowed) (.create initial) actions locked) :
    Sound locked ∧ ∃ actions machine,
      Run (Machine.step design) (submitsFit iso) (.create initial) actions machine ∧
        Refines locked machine := by
  refine h.invariant (fun locked => Sound locked ∧ ∃ actions machine,
    Run (Machine.step design) (submitsFit iso) (.create initial) actions machine ∧ Refines locked machine)
    ⟨create_sound initial, [], _, .nil _, create_refines initial⟩ ?_
  intro locked action next hinv hmeets hstep
  obtain ⟨hsound, actions, machine, hrun, hrefines⟩ := hinv
  obtain ⟨more, after, hmore, hafter⟩ := hrefines.step hsound hfits hmeets hstep
  exact ⟨hsound.step hstep, actions ++ more, after, hrun.append hmore, hafter⟩

omit [DecidableEq κ] in
/-- At most one function of a key runs at a time. -/
theorem Sound.exclusive (h : Sound locked) {first second : CallId}
    {running other : Running Answer Event Error Job σ}
    (hfirst : locked.running first = some (lane, running))
    (hsecond : locked.running second = some (lane, other)) : first = second := by
  obtain ⟨-, hactive⟩ := h.running first lane running hfirst
  obtain ⟨-, hactive'⟩ := h.running second lane other hsecond
  rcases Nat.lt_trichotomy first second with hlt | heq | hgt
  · cases h.chained.over_started hlt hactive hactive' (by decide)
  · exact heq
  · cases h.chained.over_started hgt hactive' hactive (by decide)

end

end LockedMachine

end VoiceOrder
