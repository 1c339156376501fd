import VoiceOrder.Realtime.SocketSteps

/-! # The heartbeat

A socket is cut off at a tick if nothing was heard of it since the tick before. What counts as
heard is its connect and, once it is authenticated, each of its pongs. -/

namespace VoiceOrder.Realtime.WebSocketServer

open Runs

variable {transport : Transport} {server next : WebSocketServer} {action : Action}
  {id : SocketId} {socket : Socket} {taken : List Action} {heard : Bool}

/-! ## The history of a socket -/

/-- The socket has connected, and its close has not fired. -/
def Joined (id : SocketId) (taken : List Action) : Prop :=
  (∃ query, .connection id query ∈ taken) ∧ .close id ∉ taken

/-- A sign of life; the pongs of a socket count if they are heard. -/
def isSign (heard : Bool) (id : SocketId) : Action → Bool
  | .connection other _ => other = id
  | .pong other => heard && decide (other = id)
  | _ => false

/-- Since the last sign of life there was a tick. -/
def Silent (heard : Bool) (id : SocketId) (taken : List Action) : Prop :=
  ∃ before after, taken = before ++ .heartbeat :: after ∧
    ∀ action ∈ after, isSign heard id action = false

/-- The action cuts a socket off, after these. -/
def Cuts (heard : Bool) (id : SocketId) (taken : List Action) : Action → Prop
  | .heartbeat => Joined id taken ∧ Silent heard id taken
  | .shutdown => Joined id taken
  | _ => False

/-- One of the actions has cut the socket off. -/
def CutOff (heard : Bool) (id : SocketId) (taken : List Action) : Prop :=
  ∃ before action after, taken = before ++ action :: after ∧ Cuts heard id before action

theorem silent_concat : Silent heard id (taken ++ [action]) ↔
    action = .heartbeat ∨ Silent heard id taken ∧ isSign heard id action = false := by
  constructor
  · rintro ⟨before, after, heq, hquiet⟩
    rcases List.eq_nil_or_concat after with rfl | ⟨after, last, rfl⟩
    · exact .inl (List.head_eq_of_cons_eq (List.append_inj' heq rfl).2)
    · rw [List.concat_eq_append] at hquiet
      rw [List.concat_eq_append, ← List.cons_append, ← List.append_assoc] at heq
      obtain ⟨rfl, hlast⟩ := List.append_inj' heq rfl
      obtain rfl : action = last := List.head_eq_of_cons_eq hlast
      refine .inr ⟨⟨before, after, rfl, fun other hmem => hquiet other ?_⟩, hquiet action ?_⟩
      · exact List.mem_append_left _ hmem
      · simp
  · rintro (rfl | ⟨⟨before, after, rfl, hquiet⟩, haction⟩)
    · exact ⟨taken, [], rfl, fun _ hmem => by cases hmem⟩
    · refine ⟨before, after ++ [action], by simp, fun other hmem => ?_⟩
      rcases List.mem_append.mp hmem with hmem | hmem
      · exact hquiet other hmem
      · exact List.mem_singleton.mp hmem ▸ haction

theorem cutOff_concat : CutOff heard id (taken ++ [action]) ↔
    CutOff heard id taken ∨ Cuts heard id taken action := by
  constructor
  · rintro ⟨before, cut, after, heq, hcuts⟩
    rcases List.eq_nil_or_concat after with rfl | ⟨after, last, rfl⟩
    · obtain ⟨rfl, hlast⟩ := List.append_inj' heq rfl
      obtain rfl : action = cut := List.head_eq_of_cons_eq hlast
      exact .inr hcuts
    · rw [List.concat_eq_append, ← List.cons_append, ← List.append_assoc] at heq
      obtain ⟨rfl, -⟩ := List.append_inj' heq rfl
      exact .inl ⟨before, cut, after, rfl, hcuts⟩
  · rintro (⟨before, cut, after, rfl, hcuts⟩ | hcuts)
    · exact ⟨before, cut, after ++ [action], by simp, hcuts⟩
    · exact ⟨taken, action, [], rfl, hcuts⟩

theorem joined_concat : Joined id (taken ++ [action]) ↔
    (Joined id taken ∨ (∃ query, action = .connection id query) ∧ .close id ∉ taken) ∧
      action ≠ .close id := by
  have hconnected : (∃ query, Action.connection id query ∈ taken ++ [action]) ↔
      (∃ query, .connection id query ∈ taken) ∨ ∃ query, action = .connection id query := by
    simp only [List.mem_append, List.mem_singleton, exists_or, eq_comm]
  unfold Joined
  rw [hconnected, List.mem_append, List.mem_singleton, not_or, eq_comm (a := Action.close id)]
  tauto

/-! ## What the server keeps -/

/-- How the sockets stand after these actions. -/
structure Stands (taken : List Action) (server : WebSocketServer) : Prop where
  nodup : server.clients.Nodup
  clients : ∀ id, id ∈ server.clients ↔ Joined id taken
  known : ∀ id, (server.sockets id).isSome ↔ ∃ query, .connection id query ∈ taken
  closed : ∀ id, .close id ∈ taken → ∃ query, .connection id query ∈ taken
  alive : ∀ id socket, server.sockets id = some socket → id ∈ server.clients →
    (socket.alive = some false ↔ Silent socket.conn.isSome id taken)
  terminated : ∀ id socket, server.sockets id = some socket →
    (socket.terminated = true ↔ CutOff socket.conn.isSome id taken)
  /-- A socket that was cut off or has closed is not open. -/
  left : ∀ id socket, server.sockets id = some socket →
    socket.terminated = true ∨ id ∉ server.clients ∨ socket.conn = none → socket.readyState ≠ .isOpen

section

variable (server action id socket)

@[simp] theorem touched_conn : (server.touched id action socket).conn = socket.conn := by
  cases action with
  | pong other | closing other | close other | heartbeat | shutdown =>
      simp only [touched, Socket.pong, Socket.leave, Socket.beat, Socket.terminate]
      split_ifs <;> rfl
  | _ => rfl

/-- A touched client was not heard of since the last tick, or is heard of now. -/
theorem touched_alive (hclient : id ∈ server.clients)
    (hconnected : ∀ query, action ≠ .connection id query) :
    (server.touched id action socket).alive = some false ↔ action = .heartbeat ∨
      socket.alive = some false ∧ isSign socket.conn.isSome id action = false := by
  cases action with
  | connection other query =>
      have hne : other ≠ id := fun heq => hconnected query (heq ▸ rfl)
      simp [touched, isSign, hne]
  | pong other =>
      by_cases hid : id = other
      · cases hconn : socket.conn <;> simp [touched, Socket.pong, isSign, hid, hconn]
      · simp [touched, isSign, hid, Ne.symm hid]
  | closing other | close other =>
      by_cases hid : id = other <;> simp [touched, Socket.leave, isSign, hid]
  | heartbeat =>
      by_cases halive : socket.alive = some false <;>
        simp [touched, hclient, Socket.beat, Socket.terminate, Socket.leave, halive]
  | shutdown => simp [touched, hclient, Socket.terminate, Socket.leave, isSign]
  | _ => simp [touched, isSign]

theorem touched_terminated : (server.touched id action socket).terminated = true ↔
    socket.terminated = true ∨ id ∈ server.clients ∧
      (action = .heartbeat ∧ socket.alive = some false ∨ action = .shutdown) := by
  cases action with
  | pong other | closing other | close other =>
      by_cases hid : id = other
      · cases hconn : socket.conn <;> simp [touched, Socket.pong, Socket.leave, hid, hconn]
      · simp [touched, hid]
  | heartbeat =>
      by_cases hclient : id ∈ server.clients
      · by_cases halive : socket.alive = some false <;>
          simp [touched, hclient, Socket.beat, Socket.terminate, halive]
      · simp [touched, hclient]
  | shutdown =>
      by_cases hclient : id ∈ server.clients <;> simp [touched, hclient, Socket.terminate]
  | _ => simp [touched]

/-- A socket stays open only if nothing has it leave. -/
theorem touched_open (h : (server.touched id action socket).readyState = .isOpen) :
    socket.readyState = .isOpen ∧ action ≠ .close id ∧
      (socket.terminated = false → (server.touched id action socket).terminated = false) := by
  have hleave : socket.leave.readyState ≠ .isOpen := by
    by_cases hopen : socket.readyState = .isOpen <;> simp [Socket.leave, hopen]
  cases action with
  | pong other =>
      by_cases hid : id = other
      · cases hconn : socket.conn <;> simp_all [touched, Socket.pong]
      · simp_all [touched]
  | closing other =>
      by_cases hid : id = other
      · exact absurd (by simpa [touched, hid] using h) hleave
      · simp_all [touched]
  | close other =>
      by_cases hid : id = other
      · simp [touched, hid] at h
      · simp_all [touched, Ne.symm hid]
  | heartbeat =>
      by_cases hclient : id ∈ server.clients
      · by_cases halive : socket.alive = some false
        · exact absurd (by simpa [touched, hclient, Socket.beat, Socket.terminate, halive] using h) hleave
        · simp_all [touched, Socket.beat]
      · simp_all [touched]
  | shutdown =>
      by_cases hclient : id ∈ server.clients
      · exact absurd (by simpa [touched, hclient, Socket.terminate] using h) hleave
      · simp_all [touched]
  | _ => simp_all [touched]

end

theorem accepted_stands (id : SocketId) (query : List (String × String)) :
    (accepted id query).alive ≠ some false ∧ (accepted id query).terminated = false ∧
      ((accepted id query).readyState = .isOpen ↔ (accepted id query).conn.isSome) := by
  unfold accepted
  split
  · exact ⟨by simp, rfl, by simp⟩
  · exact ⟨by simp, rfl, by simp⟩

theorem create_stands : Stands [] create where
  nodup := List.nodup_nil
  clients := fun id => by simp [create, Joined]
  known := fun id => by simp [create]
  closed := fun id h => by cases h
  alive := fun id socket hs => by cases hs
  terminated := fun id socket hs => by cases hs
  left := fun id socket hs => by cases hs

theorem Stands.joined (h : Stands taken server) (hs : server.sockets id = some socket) :
    ∃ query, .connection id query ∈ taken := (h.known id).mp (by rw [hs]; rfl)

/-- A socket connects once. -/
theorem Stands.fresh (h : Stands taken server) {query : List (String × String)}
    (hstep : server.step transport (.connection id query) = some next) :
    server.sockets id = none ∧ (∀ query, .connection id query ∉ taken) ∧ .close id ∉ taken := by
  obtain ⟨⟨hnone, -⟩, -⟩ := Option.ite_none_right_eq_some.mp hstep
  have hnone := Option.isNone_iff_eq_none.mp hnone
  have hnew : ∀ query, .connection id query ∉ taken := fun query hmem => by
    have hknown := (h.known id).mpr ⟨query, hmem⟩
    rw [hnone] at hknown
    cases hknown
  refine ⟨hnone, hnew, fun hclosed => ?_⟩
  obtain ⟨query, hmem⟩ := h.closed id hclosed
  exact hnew query hmem

theorem Stands.clients_step (h : Stands taken server)
    (hstep : server.step transport action = some next) (id : SocketId) :
    id ∈ clientsAfter server.clients action ↔ Joined id (taken ++ [action]) := by
  rw [joined_concat, ← h.clients]
  cases action with
  | connection other query =>
      by_cases hid : id = other
      · subst hid
        simp [clientsAfter, (h.fresh hstep).2.2]
      · simp [clientsAfter, hid, Ne.symm hid]
  | close other =>
      rw [clientsAfter, h.nodup.mem_erase_iff]
      simp [and_comm, eq_comm]
  | _ => simp [clientsAfter]

theorem Stands.nodup_step (h : Stands taken server)
    (hstep : server.step transport action = some next) :
    (clientsAfter server.clients action).Nodup := by
  cases action with
  | connection id query =>
      obtain ⟨-, hnew, -⟩ := h.fresh hstep
      refine List.nodup_append.mpr ⟨h.nodup, List.nodup_singleton id, ?_⟩
      rintro other hmem _ hid rfl
      obtain ⟨⟨query, hquery⟩, -⟩ := (h.clients other).mp hmem
      exact hnew query (List.mem_singleton.mp hid ▸ hquery)
  | close id => exact h.nodup.erase id
  | _ => exact h.nodup

theorem not_silent_of_fresh (heard : Bool) (query : List (String × String)) :
    ¬Silent heard id (taken ++ [.connection id query]) := by
  simp [silent_concat, isSign]

theorem not_cutOff_of_fresh (hnew : ∀ query, .connection id query ∉ taken) :
    ¬CutOff heard id taken := by
  rintro ⟨before, action, after, rfl, hcuts⟩
  have hjoined : Joined id before := by
    cases action with
    | heartbeat => exact hcuts.1
    | shutdown => exact hcuts
    | _ => cases hcuts
  obtain ⟨query, hquery⟩ := hjoined.1
  exact hnew query (List.mem_append_left _ hquery)

theorem Stands.step (h : Stands taken server) (hstep : server.step transport action = some next) :
    Stands (taken ++ [action]) next := by
  obtain ⟨-, hsockets, hfresh, hclients⟩ := step_stepped h.nodup hstep
  -- A socket of the next state was there before, or it has just connected.
  have hcases : ∀ id socket, next.sockets id = some socket →
      (∃ old frames, server.sockets id = some old ∧
        socket = (server.touched id action old).sendAll frames) ∨
      ∃ query frames, action = .connection id query ∧ server.sockets id = none ∧
        socket = (accepted id query).sendAll frames := by
    intro id socket hs
    cases hold : server.sockets id with
    | some old =>
        rw [hsockets id old hold] at hs
        exact .inl ⟨old, _, rfl, (Option.some.inj hs).symm⟩
    | none =>
        rcases hfresh id hold with ⟨hnone, -⟩ | ⟨query, haction, hnew⟩
        · rw [hnone] at hs
          cases hs
        · rw [hnew] at hs
          exact .inr ⟨query, _, haction, rfl, (Option.some.inj hs).symm⟩
  constructor
  case nodup => exact hclients ▸ h.nodup_step hstep
  case clients => exact fun id => hclients ▸ h.clients_step hstep id
  case known =>
    intro id
    simp only [List.mem_append, List.mem_singleton, exists_or]
    rw [← h.known id]
    cases hold : server.sockets id with
    | some old => simp [hsockets id old hold]
    | none =>
        rcases hfresh id hold with ⟨hnone, hnot⟩ | ⟨query, haction, hnew⟩
        · simp [hnone, eq_comm, hnot]
        · simp [hnew, haction]
  case closed =>
    intro id hclosed
    rcases List.mem_append.mp hclosed with hclosed | hclosed
    · obtain ⟨query, hmem⟩ := h.closed id hclosed
      exact ⟨query, List.mem_append_left _ hmem⟩
    · obtain rfl := List.mem_singleton.mp hclosed
      obtain ⟨query, hmem⟩ := ((h.clients id).mp (Option.ite_none_right_eq_some.mp hstep).1).1
      exact ⟨query, List.mem_append_left _ hmem⟩
  case alive =>
    intro id socket hs hclient
    rcases hcases id socket hs with ⟨old, frames, hold, rfl⟩ | ⟨query, frames, rfl, -, rfl⟩
    · have hnot : ∀ query, action ≠ .connection id query := by
        rintro query rfl
        rw [(h.fresh hstep).1] at hold
        cases hold
      have hmember : id ∈ server.clients := by
        rw [hclients] at hclient
        cases action with
        | connection other query =>
            rcases List.mem_append.mp hclient with hmem | hmem
            · exact hmem
            · exact absurd (List.mem_singleton.mp hmem ▸ rfl) (hnot query)
        | close other => exact List.mem_of_mem_erase hclient
        | _ => exact hclient
      rw [Socket.sendAll_alive, Socket.sendAll_conn, touched_conn, touched_alive server action id old
        hmember hnot, h.alive id old hold hmember, silent_concat]
    · rw [Socket.sendAll_alive]
      exact iff_of_false (accepted_stands id query).1 (not_silent_of_fresh _ query)
  case terminated =>
    intro id socket hs
    rcases hcases id socket hs with ⟨old, frames, hold, rfl⟩ | ⟨query, frames, rfl, -, rfl⟩
    · rw [Socket.sendAll_terminated, Socket.sendAll_conn, touched_conn, touched_terminated,
        h.terminated id old hold, cutOff_concat]
      refine or_congr_right ?_
      by_cases hclient : id ∈ server.clients
      · have hjoined := (h.clients id).mp hclient
        have halive := h.alive id old hold hclient
        cases action <;> simp [Cuts, hclient, hjoined, halive]
      · have hjoined := mt (h.clients id).mpr hclient
        cases action <;> simp [Cuts, hclient, hjoined]
    · obtain ⟨-, hnew, -⟩ := h.fresh hstep
      rw [Socket.sendAll_terminated, cutOff_concat]
      refine iff_of_false ?_ ?_
      · rw [(accepted_stands id query).2.1]
        exact Bool.false_ne_true
      · rintro (hcut | hcut)
        · exact not_cutOff_of_fresh hnew hcut
        · cases hcut
  case left =>
    intro id socket hs
    rcases hcases id socket hs with ⟨old, frames, hold, rfl⟩ | ⟨query, frames, rfl, -, rfl⟩
    · rw [Socket.sendAll_terminated, Socket.sendAll_conn, Socket.sendAll_readyState, touched_conn]
      intro hleft hopen
      obtain ⟨hold_open, hnot, hkeeps⟩ := touched_open server action id old hopen
      have hstands := mt (h.left id old hold) (not_not_intro hold_open)
      rw [not_or, not_or, Bool.not_eq_true, not_not] at hstands
      obtain ⟨halive, hmember, hconn⟩ := hstands
      rcases hleft with hterminated | hgone | hnone
      · rw [hkeeps halive] at hterminated
        cases hterminated
      · rw [hclients] at hgone
        cases action with
        | connection => exact hgone (List.mem_append_left _ hmember)
        | close other =>
            refine hgone ((List.mem_erase_of_ne ?_).mpr hmember)
            rintro rfl
            exact hnot rfl
        | _ => exact hgone hmember
      · exact hconn hnone
    · rw [Socket.sendAll_terminated, Socket.sendAll_conn, Socket.sendAll_readyState]
      obtain ⟨-, hterminated, hopen⟩ := accepted_stands id query
      rintro (hcut | hgone | hnone) hready
      · rw [hterminated] at hcut
        cases hcut
      · exact hgone (hclients ▸ List.mem_append_right _ List.mem_cons_self)
      · have hsome := hopen.mp hready
        rw [hnone] at hsome
        cases hsome

theorem stands_run (h : exec (step transport) create taken = some server) : Stands taken server :=
  exec_invariant Stands h create_stands fun _ _ _ _ hstands hstep => hstands.step hstep

/-! ## A socket that has left gets nothing more -/

theorem touched_delivered : (server.touched id action socket).delivered = socket.delivered := by
  cases action with
  | pong other | closing other | close other | heartbeat | shutdown =>
      simp only [touched, Socket.pong, Socket.leave, Socket.beat, Socket.terminate]
      split_ifs <;> rfl
  | _ => rfl

/-- What was delivered on a socket that is not open stays, and the socket does not open again. -/
theorem left_run {later : List Action} (hstands : Stands taken server)
    (hs : server.sockets id = some socket) (hleft : socket.readyState ≠ .isOpen)
    (h : exec (step transport) server later = some next) :
    ∃ after, next.sockets id = some after ∧ after.readyState ≠ .isOpen ∧
      after.delivered = socket.delivered := by
  refine (exec_invariant (fun later next => Stands (taken ++ later) next ∧ ∃ after,
    next.sockets id = some after ∧ after.readyState ≠ .isOpen ∧ after.delivered = socket.delivered) h
    ⟨by rwa [List.append_nil], socket, hs, hleft, rfl⟩ ?_).2
  rintro later middle action last ⟨hmiddle, found, hfound, hnot, hsame⟩ hstep
  refine ⟨List.append_assoc .. ▸ hmiddle.step hstep, ?_⟩
  have htouched : (middle.touched id action found).readyState ≠ .isOpen := fun hopen =>
    hnot (touched_open middle action id found hopen).1
  refine ⟨_, (step_stepped hmiddle.nodup hstep).sockets id found hfound, ?_, ?_⟩
  · rwa [Socket.sendAll_readyState]
  · rw [Socket.sendAll_eq, if_neg htouched, touched_delivered, hsame]

/-- In every run the sockets that were cut off are those that, at some tick, had not been heard of
since the tick before, or that the end of the server found connected. Nothing more goes out on
such a socket, nor on one that has closed or was never let in. -/
theorem heartbeat_exact (h : exec (step transport) create taken = some server) (id : SocketId)
    (socket : Socket) (hs : server.sockets id = some socket) :
    (socket.terminated = true ↔ CutOff socket.conn.isSome id taken) ∧
      (socket.terminated = true ∨ .close id ∈ taken ∨ socket.conn = none →
        ∀ later last, exec (step transport) server later = some last →
          ∃ after, last.sockets id = some after ∧ after.delivered = socket.delivered) := by
  have hstands := stands_run h
  refine ⟨hstands.terminated id socket hs, fun hgone later last hlater => ?_⟩
  have hleft : socket.readyState ≠ .isOpen := by
    refine hstands.left id socket hs (hgone.imp_right (Or.imp_left fun hclosed hmem => ?_))
    exact ((hstands.clients id).mp hmem).2 hclosed
  obtain ⟨after, hafter, -, hsame⟩ := left_run hstands hs hleft hlater
  exact ⟨after, hafter, hsame⟩

/-- The query of a phone. -/
def phoneQuery : List (String × String) :=
  [("session_id", "s1"), ("cart_id", "cart_1"), ("pos_config_id", "1"), ("device_id", "dev_1")]

def anyTransport : Transport := ⟨⟨"mp3", none⟩, fun _ => 0, fun _ => []⟩

/-- Two phones connect. The first one answers the ping, the second one does not. -/
def silentPhone : List Action :=
  [.connection 0 phoneQuery, .connection 1 phoneQuery, .heartbeat, .pong 0, .heartbeat]

theorem heartbeat_exact_silentPhone :
    ∃ server first second, exec (step anyTransport) create silentPhone = some server ∧
      server.sockets 0 = some first ∧ server.sockets 1 = some second ∧
      first.terminated = false ∧ second.terminated = true ∧
      (second.terminated = true ↔ CutOff second.conn.isSome 1 silentPhone) := by
  have hends : (exec (step anyTransport) create silentPhone).any (fun server =>
      (server.sockets 0).any (fun socket => !socket.terminated) &&
        (server.sockets 1).any Socket.terminated) = true := by
    decide +kernel
  obtain ⟨server, hexec, hholds⟩ := (Option.any_eq_true _ _).mp hends
  obtain ⟨hfirst, hsecond⟩ := Bool.and_eq_true_iff.mp hholds
  obtain ⟨first, hs, hlive⟩ := (Option.any_eq_true _ _).mp hfirst
  obtain ⟨second, hs', hcut⟩ := (Option.any_eq_true _ _).mp hsecond
  exact ⟨server, first, second, hexec, hs, hs', by simpa using hlive, hcut,
    (heartbeat_exact hexec 1 second hs').1⟩

end VoiceOrder.Realtime.WebSocketServer
