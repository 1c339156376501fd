import VoiceOrder.Realtime.RealtimeGateway

/-! # The live socket stays reachable

The registry drops a session by its id, so the disconnect of an older socket takes the newer
one's entry with it, and its voice session and speech too. -/

namespace VoiceOrder.Realtime

open Tts Voice
open Runs

namespace RealtimeGateway

variable {provider : TtsProvider} {gateway next last : RealtimeGateway} {action : Action}
  {conn older newer other : ClientConnection} {connected : List ClientConnection}
  {session_id : SessionId} {actions before after : List Action}

/-! ## Which sockets are connected -/

/-- The connected sockets after one more action, in the order they connected. -/
def tracked (connected : List ClientConnection) : Action → List ClientConnection
  | .connect conn => connected.filter (· ≠ conn) ++ [conn]
  | .disconnect conn => connected.filter (· ≠ conn)
  | .publish _ | .voice _ | .settles .. => connected

/-- The sockets connected and not yet disconnected, in the order they connected. -/
def connectedAfter (actions : List Action) : List ClientConnection := actions.foldl tracked []

/-- The most recently connected socket of a session. -/
def newest (connected : List ClientConnection) (session_id : SessionId) : Option ClientConnection :=
  (connected.filter fun conn => conn.session_id = session_id).getLast?

/-- The newest socket of each session is the one found by it, and is found by its cart; and no
other than a connected socket is found. -/
structure Reachable (gateway : RealtimeGateway) (connected : List ClientConnection) : Prop where
  bySession : ∀ session_id conn, newest connected session_id = some conn →
    gateway.registry.getBySession session_id = some conn
  byCart : ∀ session_id conn, newest connected session_id = some conn →
    conn ∈ gateway.registry.getByCart conn.cart_id
  sessionLive : ∀ session_id conn, gateway.registry.getBySession session_id = some conn →
    conn ∈ connected
  cartLive : ∀ cart_id conn, conn ∈ gateway.registry.getByCart cart_id → conn ∈ connected

/-- The step leaves a socket registered, and leaves the voice session and the speech that it
is using. -/
structure Spares (gateway next : RealtimeGateway) (conn : ClientConnection) : Prop where
  bySession : gateway.registry.getBySession conn.session_id = some conn →
    next.registry.getBySession conn.session_id = some conn
  byCart : conn ∈ gateway.registry.getByCart conn.cart_id →
    conn ∈ next.registry.getByCart conn.cart_id
  voice : ∀ ref activation, gateway.voice.sessions conn.session_id = some ref →
    gateway.voice.activations ref = some activation →
    activation.conn = conn.toClientConnection →
    next.voice.sessions conn.session_id = some ref ∧
      next.voice.activations ref = some activation
  speech : ∀ ref reply, gateway.tts.inflight conn.session_id = some ref →
    gateway.tts.replies ref = some reply → reply.conn = conn.toClientConnection →
    next.tts.inflight conn.session_id = some ref ∧ next.tts.replies ref = some reply

/-- One socket of a session connected before another. -/
def Older (connected : List ClientConnection) (older newer : ClientConnection) : Prop :=
  older ≠ newer ∧ older.session_id = newer.session_id ∧ [older, newer].Sublist connected

/-- In every state of the run the live sockets are reachable, and every disconnect of an older
socket spares the newer ones of its session. -/
structure KeepsLive (provider : TtsProvider) (actions : List Action) : Prop where
  reachable : ∀ before after gateway, actions = before ++ after →
    exec (step provider) create before = some gateway →
    gateway.Reachable (connectedAfter before)
  spares : ∀ before after gateway next older newer,
    actions = before ++ .disconnect older :: after →
    exec (step provider) create before = some gateway →
    step provider gateway (.disconnect older) = some next →
    Older (connectedAfter before) older newer → Spares gateway next newer

/-- At every disconnect, no other socket of its session is connected. -/
def DisconnectsAlone (actions : List Action) : Prop :=
  ∀ before conn after, actions = before ++ .disconnect conn :: after →
    ∀ other ∈ connectedAfter before, other.session_id = conn.session_id → other = conn

/-! ## What a step does to the registry -/

@[simp]
theorem connectedAfter_concat (before : List Action) (action : Action) :
    connectedAfter (before ++ [action]) = tracked (connectedAfter before) action := by
  simp [connectedAfter]

/-- Only a connect and a disconnect write the registry. -/
def registryAfter (registry : ClientRegistry) : Action → ClientRegistry
  | .connect conn => registry.add conn
  | .disconnect conn => registry.remove conn
  | .publish _ | .voice _ | .settles .. => registry

theorem step_registry (h : step provider gateway action = some next) :
    next.registry = registryAfter gateway.registry action := by
  cases action with
  | connect conn =>
      obtain rfl := Option.some.inj h
      rfl
  | disconnect conn =>
      obtain rfl := Option.some.inj h
      rfl
  | publish event =>
      obtain rfl := Option.some.inj h
      cases event with
      | orderReply =>
          unfold onEvent
          dsimp only
          split <;> rfl
      | _ => rfl
  | voice action =>
      cases action with
      | disconnect => cases h
      | _ =>
          simp only [step, Option.map_eq_some_iff] at h
          obtain ⟨voice, -, rfl⟩ := h
          rfl
  | settles ref outcome =>
      obtain ⟨tts, -, rfl⟩ := Option.map_eq_some_iff.mp h
      rfl

/-- The sets of the carts hold the connected sockets. -/
def CartsTrack (registry : ClientRegistry) (connected : List ClientConnection) : Prop :=
  ∀ cart_id conn, conn ∈ registry.getByCart cart_id ↔ conn ∈ connected ∧ conn.cart_id = cart_id

theorem CartsTrack.step {registry : ClientRegistry} (h : CartsTrack registry connected)
    (action : Action) : CartsTrack (registryAfter registry action) (tracked connected action) := by
  intro cart_id other
  cases action with
  | connect conn =>
      rw [registryAfter, ClientRegistry.mem_getByCart_add, h cart_id other, tracked]
      by_cases hother : other = conn
      · simp [hother, eq_comm]
      · simp [hother]
  | disconnect conn =>
      rw [registryAfter, ClientRegistry.mem_getByCart_remove, h cart_id other, tracked]
      by_cases hother : other = conn
      · simp [hother, eq_comm]
      · simp [hother]
  | publish | voice | settles => exact h cart_id other

theorem newest_concat (connected : List ClientConnection) (conn : ClientConnection)
    (session_id : SessionId) :
    newest (connected ++ [conn]) session_id =
      if session_id = conn.session_id then some conn else newest connected session_id := by
  by_cases hsession : session_id = conn.session_id
  · simp [newest, hsession]
  · simp [newest, hsession, Ne.symm hsession]

/-- A socket of another session leaves the newest one as it is. -/
theorem newest_without (connected : List ClientConnection) {conn : ClientConnection}
    {session_id : SessionId} (h : session_id ≠ conn.session_id) :
    newest (connected.filter (· ≠ conn)) session_id = newest connected session_id := by
  rw [newest, newest, List.filter_filter]
  congr 1
  refine List.filter_congr fun other _ => ?_
  by_cases hother : other = conn
  · simp [hother, Ne.symm h]
  · simp [hother]

/-- The entries of the sessions are their newest sockets. -/
def SessionsTrack (registry : ClientRegistry) (connected : List ClientConnection) : Prop :=
  ∀ session_id, registry.getBySession session_id = newest connected session_id

theorem SessionsTrack.step {registry : ClientRegistry} (h : SessionsTrack registry connected)
    (halone : ∀ conn, action = .disconnect conn →
      ∀ other ∈ connected, other.session_id = conn.session_id → other = conn) :
    SessionsTrack (registryAfter registry action) (tracked connected action) := by
  intro session_id
  cases action with
  | connect conn =>
      rw [registryAfter, ClientRegistry.getBySession_add, tracked, newest_concat]
      split
      case isTrue => rfl
      case isFalse hsession => rw [h, newest_without connected hsession]
  | disconnect conn =>
      rw [registryAfter, ClientRegistry.getBySession_remove, tracked]
      split
      case isTrue hsession =>
          have hnone : (connected.filter (· ≠ conn)).filter
              (fun other => other.session_id = session_id) = [] := by
            rw [List.filter_eq_nil_iff]
            intro other hother
            obtain ⟨hmem, hne⟩ := List.mem_filter.mp hother
            have hother := halone conn rfl other hmem
            simp only [decide_eq_true_eq] at hne ⊢
            exact fun hsame => hne (hother (hsame.trans hsession))
          rw [newest, hnone]
          rfl
      case isFalse hsession => rw [h, newest_without connected hsession]
  | publish | voice | settles => exact h session_id

theorem mem_of_newest (h : newest connected session_id = some conn) :
    conn ∈ connected ∧ conn.session_id = session_id := by
  obtain ⟨hmem, hsession⟩ := List.mem_filter.mp (List.mem_of_getLast? h)
  exact ⟨hmem, of_decide_eq_true hsession⟩

theorem reachable_of_track (hcarts : CartsTrack gateway.registry connected)
    (hsessions : SessionsTrack gateway.registry connected) : gateway.Reachable connected where
  bySession session_id _ hnewest := (hsessions session_id).trans hnewest
  byCart _ conn hnewest := (hcarts conn.cart_id conn).mpr ⟨(mem_of_newest hnewest).1, rfl⟩
  sessionLive session_id _ hfound :=
    (mem_of_newest ((hsessions session_id).symm.trans hfound)).1
  cartLive cart_id conn hfound := ((hcarts cart_id conn).mp hfound).1

/-! ## Runs -/

theorem cartsTrack_run (h : exec (step provider) create before = some gateway) :
    CartsTrack gateway.registry (connectedAfter before) := by
  induction before using List.reverseRecOn generalizing gateway with
  | nil =>
      obtain rfl := Option.some.inj h
      intro cart_id conn
      simp [connectedAfter, create, ClientRegistry.create, ClientRegistry.getByCart]
  | append_singleton before action ih =>
      obtain ⟨middle, hmiddle, hstep⟩ := exec_concat h
      rw [step_registry hstep, connectedAfter_concat]
      exact (ih hmiddle).step action

theorem DisconnectsAlone.of_append (h : DisconnectsAlone (before ++ after)) :
    DisconnectsAlone before := by
  intro first conn rest hbefore
  exact h first conn (rest ++ after) (by rw [hbefore, List.append_assoc, List.cons_append])

theorem sessionsTrack_run (h : exec (step provider) create before = some gateway)
    (halone : DisconnectsAlone before) :
    SessionsTrack gateway.registry (connectedAfter before) := by
  induction before using List.reverseRecOn generalizing gateway with
  | nil =>
      obtain rfl := Option.some.inj h
      exact fun _ => rfl
  | append_singleton before action ih =>
      obtain ⟨middle, hmiddle, hstep⟩ := exec_concat h
      rw [step_registry hstep, connectedAfter_concat]
      refine (ih hmiddle halone.of_append).step fun conn haction => ?_
      exact halone before conn [] (by rw [haction])

/-- A disconnect while another socket of the session is connected leaves that one unreachable. -/
theorem not_reachable_of_disconnect (hother : other ∈ connected) (hne : other ≠ conn)
    (hsession : other.session_id = conn.session_id)
    (hstep : step provider gateway (.disconnect conn) = some next) :
    ¬next.Reachable (tracked connected (.disconnect conn)) := by
  intro hreachable
  have hmem : other ∈ (connected.filter (· ≠ conn)).filter
      (fun other => other.session_id = conn.session_id) := by
    simp [hother, hne, hsession]
  obtain ⟨found, hfound⟩ : ∃ found, newest (connected.filter (· ≠ conn)) conn.session_id =
      some found :=
    Option.isSome_iff_exists.mp (List.getLast?_isSome.mpr (List.ne_nil_of_mem hmem))
  have hnone := hreachable.bySession conn.session_id found hfound
  rw [step_registry hstep, registryAfter, ClientRegistry.getBySession_remove, if_pos rfl] at hnone
  cases hnone

/-- The live sockets stay reachable, and no disconnect of an older socket takes anything from a
newer one, in exactly the runs in which no socket disconnects while another of its session is
connected. -/
theorem keepsLive_iff_disconnectsAlone (h : exec (step provider) create actions = some last) :
    KeepsLive provider actions ↔ DisconnectsAlone actions := by
  constructor
  · intro hkeeps before conn after hactions other hother hsession
    by_contra hne
    rw [hactions, List.append_cons, exec_append] at h
    obtain ⟨next, hnext, -⟩ := Option.bind_eq_some_iff.mp h
    obtain ⟨middle, -, hstep⟩ := exec_concat hnext
    have hreachable := hkeeps.reachable (before ++ [.disconnect conn]) after next
      (by rw [hactions, List.append_cons]) hnext
    rw [connectedAfter_concat] at hreachable
    exact not_reachable_of_disconnect hother hne hsession hstep hreachable
  · intro halone
    constructor
    · intro before after gateway hactions hexec
      exact reachable_of_track (cartsTrack_run hexec)
        (sessionsTrack_run hexec (DisconnectsAlone.of_append (hactions ▸ halone)))
    · intro before after gateway next older newer hactions _ _ holder
      obtain ⟨hne, hsession, hsublist⟩ := holder
      have hnewer : newer ∈ connectedAfter before := hsublist.subset (by simp)
      exact absurd (halone before older after hactions newer hnewer hsession.symm).symm hne

/-! ## A reconnect before the old socket's close fires -/

def oldSocket : ClientConnection := ⟨⟨0, "s1", "cart_1", 1⟩, "dev_1", none⟩

def newSocket : ClientConnection := ⟨⟨1, "s1", "cart_1", 1⟩, "dev_1", none⟩

/-- The new socket starts a voice session and is spoken to, and then the old one closes. -/
def takeover : List Action :=
  [.connect oldSocket, .connect newSocket, .voice (.start newSocket.toClientConnection),
    .publish (.orderReply "cart_1" "s1" "r1" "Hi." "en" []), .disconnect oldSocket]

theorem keepsLive_iff_disconnectsAlone_takeover :
    ∃ last, exec (step ⟨"mp3", none⟩) create takeover = some last ∧
      (KeepsLive ⟨"mp3", none⟩ takeover ↔ DisconnectsAlone takeover) :=
  ⟨_, rfl, keepsLive_iff_disconnectsAlone rfl⟩

/-- The old socket's close leaves the new one unreachable by its session, and takes its voice
session and its speech. -/
theorem takeover_silences_newSocket :
    ¬KeepsLive ⟨"mp3", none⟩ takeover ∧
      ∃ before last, exec (step ⟨"mp3", none⟩) create takeover.dropLast = some before ∧
        before.voice.sessions "s1" = some 0 ∧ before.tts.inflight "s1" = some 0 ∧
        exec (step ⟨"mp3", none⟩) create takeover = some last ∧
        newest (connectedAfter takeover) "s1" = some newSocket ∧
        last.registry.getBySession "s1" = none ∧
        last.voice.sessions "s1" = none ∧ last.tts.inflight "s1" = none := by
  have hbefore : (exec (step ⟨"mp3", none⟩) create takeover.dropLast).any (fun gateway =>
      gateway.voice.sessions "s1" = some 0 ∧ gateway.tts.inflight "s1" = some 0) = true := by
    decide +kernel
  have hafter : (exec (step ⟨"mp3", none⟩) create takeover).any (fun gateway =>
      gateway.registry.getBySession "s1" = none ∧ gateway.voice.sessions "s1" = none ∧
        gateway.tts.inflight "s1" = none) = true := by
    decide +kernel
  have hnewest : newest (connectedAfter takeover) "s1" = some newSocket := by decide +kernel
  obtain ⟨before, hexec, huses⟩ := (Option.any_eq_true _ _).mp hbefore
  obtain ⟨last, hlast, htaken⟩ := (Option.any_eq_true _ _).mp hafter
  obtain ⟨hsession, hvoice, hspeech⟩ := of_decide_eq_true htaken
  refine ⟨fun hkeeps => ?_, before, last, hexec, (of_decide_eq_true huses).1,
    (of_decide_eq_true huses).2, hlast, hnewest, hsession, hvoice, hspeech⟩
  have hreachable := hkeeps.reachable takeover [] last (List.append_nil _).symm hlast
  have hfound := hreachable.bySession "s1" newSocket hnewest
  rw [hsession] at hfound
  cases hfound

end RealtimeGateway

end VoiceOrder.Realtime
