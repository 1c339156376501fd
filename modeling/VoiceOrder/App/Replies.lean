import VoiceOrder.App.Broadcasts
import VoiceOrder.Ordering.TurnOrder

/-! # The replies that a socket hears

The turns of a cart answer its transcripts in the order in which they were heard, and the gateway
hands each reply to one socket of the session, if there is one. -/

namespace VoiceOrder

open Async Runs CartModule Backend VoiceOrder.Ordering Realtime
open Realtime.WebSocketServer (Stands Addressed Registered framesFor framesOf)

/-- A reply about a cart: the session it is for, and the request it answers. -/
def Ordering.replyAbout? (cartId : CartId) : Event → Option (SessionId × RequestId)
  | .orderReply cart sessionId requestId _ _ _ =>
      if cart = cartId then some (sessionId, requestId) else none
  | _ => none

/-- The replies about a cart that are for a session, by the requests that they answer. -/
def Ordering.repliesTo (sessionId : SessionId) (cartId : CartId) (events : List Event) :
    List RequestId :=
  ((events.filterMap (replyAbout? cartId)).filter fun reply => reply.1 = sessionId).map Prod.snd

/-- A frame that is a reply about a cart. -/
def Realtime.repliedAbout? (cartId : CartId) : Frame → Option RequestId
  | .orderReply cart_id request_id _ _ => if cart_id = cartId then some request_id else none
  | _ => none

/-- The replies about a cart that a socket was sent. -/
def Realtime.repliesOn (cartId : CartId) (socket : Socket) : List RequestId :=
  socket.delivered.filterMap (repliedAbout? cartId)

/-! ## The sockets -/

namespace Realtime

variable {transport : Transport} {server next : WebSocketServer} {taken : List WebSocketServer.Action}
  {id : SocketId} {socket : Socket} {conn : ClientConnection}

theorem repliedAbout?_fromBackend (cartId : CartId) :
    WebSocketServer.FromBackend (repliedAbout? cartId) where
  voice := fun message => by cases message <;> rfl
  speech := fun message => by cases message <;> rfl
  error := fun _ _ _ => rfl
  resumed := fun _ _ _ _ => rfl

/-- What an event sends to a socket is a reply for its session. -/
theorem replies_published (haddressed : Addressed transport taken server)
    (hs : server.sockets id = some socket) (hconn : socket.conn = some conn) (event : Event)
    (cartId : CartId) :
    (((server.gateway.sentBy (.publish event)).filter fun entry =>
        entry.1.socket = conn.socket).filterMap fun entry =>
          repliedAbout? cartId (.ofGateway entry.2)).Sublist
      (repliesTo conn.session_id cartId [event]) := by
  have hnothing : ∀ {entries : List (ClientConnection × OutboundMessage)} {replies : List RequestId},
      (∀ entry ∈ entries, repliedAbout? cartId (.ofGateway entry.2) = none) →
      ((entries.filter fun entry => entry.1.socket = conn.socket).filterMap fun entry =>
        repliedAbout? cartId (.ofGateway entry.2)).Sublist replies := by
    intro entries replies hnone
    rw [List.filterMap_eq_nil_iff.mpr fun entry hmem => hnone entry (List.mem_filter.mp hmem).1]
    exact List.nil_sublist _
  cases event with
  | orderReply cart session_id request_id reply language mentioned =>
      have hsent : server.gateway.sentBy
          (.publish (.orderReply cart session_id request_id reply language mentioned)) =
          (server.gateway.registry.getBySession session_id).toList.map fun target =>
            (target, .orderReply cart request_id reply mentioned) := List.append_nil _
      rw [hsent]
      cases hfound : server.gateway.registry.getBySession session_id with
      | none => exact List.nil_sublist _
      | some found =>
          obtain ⟨hknown, hsession⟩ := haddressed.gateway.bySession session_id found hfound
          by_cases hsocket : found.socket = conn.socket
          · -- The socket was let in once only, so the connection found is its own.
            obtain ⟨other, target, hother, htarget, hsame⟩ := hknown
            rw [show found.toClientConnection.socket = id from
              hsocket.trans (haddressed.conn id socket conn hs hconn), hs] at hother
            obtain rfl := Option.some.inj hother
            obtain rfl := Option.some.inj (hconn.symm.trans htarget)
            have hfor : session_id = conn.session_id :=
              hsession.symm.trans (congrArg Voice.ClientConnection.session_id hsame).symm
            by_cases hcart : cart = cartId
            · simp [hsocket, repliesTo, replyAbout?, Frame.ofGateway, repliedAbout?, hcart, hfor]
            · simp [hsocket, Frame.ofGateway, repliedAbout?, hcart]
          · simp [hsocket]
  | operationsProposed => exact List.nil_sublist _
  | cartUpdated | operationRejected | sessionFailed =>
      refine hnothing fun entry hmem => ?_
      obtain ⟨message, hmessage, hmem⟩ := List.mem_flatMap.mp hmem
      obtain ⟨target, -, rfl⟩ := List.mem_map.mp hmem
      obtain rfl := List.mem_singleton.mp hmessage
      rfl

end Realtime

/-! ## The lanes -/

section

variable {ttsLanguage : LangCode} {cartId : CartId} {lane : LaneKey} {start : Unit} {state : Store}
  {content : Lane Answer Event AppError Job Store} {job : Job}

/-- What a reply to a transcript names. -/
def Ordering.replyTo (e : SttFinalTranscriptReceived) : SessionId × RequestId :=
  (e.sessionId, e.requestId)

/-- The reports on a proposal are carts and rejections. -/
theorem Ordering.replyAbout?_reports {proposal : OrderProposal} {sessionId : Option SessionId}
    {result : Except AppError (Option Persisted)} {event : Event}
    (hmem : event ∈ reports proposal sessionId result) : replyAbout? cartId event = none := by
  cases result with
  | error error =>
      cases List.mem_singleton.mp hmem
      rfl
  | ok outcome =>
      cases outcome with
      | none => cases hmem
      | some persisted =>
          rcases List.mem_append.mp hmem with hcart | hrejection
          · obtain ⟨cart, -, rfl⟩ := Option.map_eq_some_iff.mp (Option.mem_toList.mp hcart)
            rfl
          · obtain ⟨rejected, -, rfl⟩ := List.mem_map.mp hrejection
            rfl

/-- A turn replies to its transcript at most once, about its own cart. -/
theorem Ordering.dispatch_replies (e : SttFinalTranscriptReceived) (result : GraphTurnResult)
    (cartId : CartId) : (dispatch ttsLanguage e result).filterMap (replyAbout? cartId) = [] ∨
      e.cartId = cartId ∧ (dispatch ttsLanguage e result).filterMap (replyAbout? cartId) =
        [replyTo e] := by
  by_cases hcart : e.cartId = cartId
  · cases result with
    | junk | fail => exact .inl rfl
    | reply spoken => exact .inr ⟨hcart, by simp [dispatch, speak, replyAbout?, replyTo, hcart]⟩
    | complete operations baseVersion spoken =>
        cases spoken with
        | none => exact .inl rfl
        | some spoken => exact .inr ⟨hcart, by
            simp [dispatch, propose, speak, replyAbout?, replyTo, hcart, List.filterMap_cons]⟩
  · refine .inl (List.filterMap_eq_nil_iff.mpr fun event hmem => ?_)
    cases result with
    | junk => cases hmem
    | fail reason =>
        cases List.mem_singleton.mp hmem
        rfl
    | reply spoken =>
        cases List.mem_singleton.mp hmem
        exact if_neg hcart
    | complete operations baseVersion spoken =>
        rcases List.mem_cons.mp hmem with rfl | hmem
        · rfl
        · obtain ⟨words, -, rfl⟩ := Option.map_eq_some_iff.mp (Option.mem_toList.mp hmem)
          exact if_neg hcart

/-- A job replies nothing, or it is a turn that replies to its transcript, once. -/
theorem Ordering.job_replies {σ : Type} {handler : Handler Answer AppError σ} {view after : σ}
    {trace : Trace} {last : Promise Unit}
    (h : Executes handler (job.program ttsLanguage) view trace last after) (cartId : CartId) :
    (published trace).filterMap (replyAbout? cartId) = [] ∨
      ∃ e, job = .turn e ∧ e.cartId = cartId ∧
        (published trace).filterMap (replyAbout? cartId) = [replyTo e] := by
  have hsilent : published trace = [] → (published trace).filterMap (replyAbout? cartId) = [] :=
    fun hnone => by rw [hnone]; rfl
  cases job with
  | ensureCart e => exact .inl (hsilent ((ensureCart_silent e).executes h))
  | confirm cartId => exact .inl (hsilent ((confirmJob_silent cartId).executes h))
  | applyProposal proposal sessionId =>
      refine .inl (List.filterMap_eq_nil_iff.mpr fun event hmem => ?_)
      rcases applyProposal_executes h with ⟨left, hpersist⟩ | ⟨result, first, sent, hpersist, hsent, rfl⟩
      · rw [show published trace = [] from persistProposal_silent.executes hpersist] at hmem
        cases hmem
      · rw [published_append, show published first = [] from persistProposal_silent.completes hpersist,
          List.nil_append, published_emit] at hmem
        exact replyAbout?_reports (hsent.subset hmem)
  | turn e =>
      obtain ⟨result, hpublished⟩ := turn_published h
      have hreplied := hpublished.filterMap (replyAbout? cartId)
      rcases dispatch_replies e result cartId with hnone | ⟨hcart, hone⟩
      · rw [hnone] at hreplied
        exact .inl (List.prefix_nil.mp hreplied)
      · rw [hone] at hreplied
        cases hfound : (published trace).filterMap (replyAbout? cartId) with
        | nil => exact .inl rfl
        | cons reply rest =>
            rw [hfound] at hreplied
            obtain ⟨rfl, hrest⟩ := List.cons_prefix_cons.mp hreplied
            cases List.prefix_nil.mp hrest
            exact .inr ⟨e, rfl, hcart, rfl⟩

/-- The turns of a cart reply to some of their transcripts, in order. -/
theorem Ordering.lane_replies
    (h : Serial (backend ttsLanguage) (.blind placed) (.turns cartId) start state content) :
    ∃ answered : List SttFinalTranscriptReceived, answered.Sublist (transcripts content.begun) ∧
      answered.map replyTo = content.published.filterMap (replyAbout? cartId) := by
  have hforall : ∀ {answered : List SttFinalTranscriptReceived} {replies : List (SessionId × RequestId)},
      List.Forall₂ (fun e reply => replyTo e = reply) answered replies → answered.map replyTo = replies :=
    fun h => List.forall₂_eq_eq_eq ▸ List.forall₂_map_left_iff.mpr h
  have hbegun : transcripts content.begun =
      content.attempts.flatMap fun attempt => (transcript? attempt.1).toList := by
    have hjobs : transcripts content.begun = (content.begun.map Prod.snd).filterMap transcript? := by
      rw [List.filterMap_map]
      rfl
    rw [hjobs, Lane.begun_attempts, List.filterMap_map, List.filterMap_eq_flatMap_toList]
    rfl
  rw [hbegun, Lane.published_attempts, List.filterMap_flatMap]
  refine (exists_sublist fun attempt hmem => ?_).imp fun _ hanswered => hanswered.imp_right hforall
  obtain ⟨-, before, last, after, hexec⟩ := h.attempts attempt hmem
  rcases job_replies hexec cartId with hnone | ⟨e, hjob, -, hone⟩
  · refine ⟨[], List.nil_sublist _, ?_⟩
    rw [published] at hnone
    rw [hnone]
    exact .nil
  · rw [published] at hone
    rw [hjob, hone]
    exact ⟨[e], List.Sublist.refl _, .cons rfl .nil⟩

/-- Only the turns of a cart reply about it. -/
theorem Ordering.lane_replies_own
    (h : Serial (backend ttsLanguage) (.blind placed) lane start state content)
    (hlane : lane ≠ .turns cartId) {event : Event} (hevent : event ∈ content.published) :
    replyAbout? cartId event = none := by
  rw [Lane.published_attempts] at hevent
  obtain ⟨attempt, hmem, hevent⟩ := List.mem_flatMap.mp hevent
  obtain ⟨hplaced, before, last, after, hexec⟩ := h.attempts attempt hmem
  rcases job_replies hexec cartId with hnone | ⟨e, hjob, hcart, -⟩
  · exact List.filterMap_eq_nil_iff.mp hnone event hevent
  · have hturn : lane = .turns e.cartId := hplaced.trans (congrArg Job.lane hjob)
    exact absurd (hturn.trans (congrArg LaneKey.turns hcart)) hlane

end

/-! ## Runs -/

namespace App

variable {platform : Platform} {initial : Store} {app next : App} {action : Action}
  {actions : List Action} {id : SocketId} {socket : Socket} {conn : ClientConnection}

/-- The transcripts about a cart that were heard are those of its turns, and what a socket was
sent of the replies for its session keeps their order. -/
structure Answering (app : App) : Prop where
  heard : ∀ cartId, transcripts (app.process.lanes (.turns cartId)).jobs =
    app.heard.filter fun e => e.cartId = cartId
  replies : ∀ id socket conn, app.server.sockets id = some socket → socket.conn = some conn →
    ∀ cartId, (repliesOn cartId socket).Sublist (repliesTo conn.session_id cartId app.published)

theorem create_answering : Answering (create initial) where
  heard := fun _ => rfl
  replies := fun _ _ _ hs => by cases hs

theorem transcripts_append (calls later : List (ℕ × Job)) :
    transcripts (calls ++ later) = transcripts calls ++ transcripts later := List.filterMap_append

theorem repliesTo_append (sessionId : SessionId) (cartId : CartId) (events later : List Event) :
    repliesTo sessionId cartId (events ++ later) =
      repliesTo sessionId cartId events ++ repliesTo sessionId cartId later := by
  simp [repliesTo]

/-- The transcripts among the jobs that are queued for the turns of a cart. -/
theorem transcripts_arrivals (cartId : CartId) (first : ℕ) (jobs : List Job) :
    transcripts (Machine.arrivals (.turns cartId) first (jobs.map fun job => (job.lane, job))) =
      (jobs.filterMap transcript?).filter fun e => e.cartId = cartId := by
  induction jobs generalizing first with
  | nil => rfl
  | cons job jobs ih =>
      rw [List.map_cons, Machine.arrivals]
      dsimp only
      cases job with
      | turn e =>
          rw [show (Job.turn e :: jobs).filterMap transcript? = e :: jobs.filterMap transcript? from rfl,
            show (Job.turn e).lane = LaneKey.turns e.cartId from rfl, List.filter_cons]
          by_cases hcart : e.cartId = cartId
          · rw [if_pos (congrArg LaneKey.turns hcart), if_pos (decide_eq_true hcart), ← ih (first + 1)]
            rfl
          · rw [if_neg fun hlane => hcart (LaneKey.turns.inj hlane), if_neg (by simp [hcart]),
              ih (first + 1)]
      | ensureCart | applyProposal | confirm =>
          rw [List.filterMap_cons_none rfl, if_neg (by simp [Job.lane]), ih (first + 1)]

/-- The listeners of the backend's events queue no turn. -/
theorem step_transcripts {ttsLanguage : LangCode} {process after : Process} {asked : Backend.Action}
    (hfrom : fromBackend asked = true) (hstep : process.step (backend ttsLanguage) asked = some after)
    (cartId : CartId) : transcripts (after.lanes (.turns cartId)).jobs =
      transcripts (process.lanes (.turns cartId)).jobs := by
  have hinside : ∀ lane job, asked ≠ .submit lane job := by
    rintro lane job rfl
    cases hfrom
  rw [Machine.step_reacts hstep hinside, transcripts_append]
  cases process.emitted? asked with
  | none => exact List.append_nil _
  | some entry =>
      obtain ⟨lane, event⟩ := entry
      cases event with
      | operationsProposed sessionId proposal => exact List.append_nil _
      | cartUpdated | orderReply | sessionFailed | operationRejected => exact List.append_nil _

section

variable {taken : List WebSocketServer.Action} {asked : WebSocketServer.Action}
  {server : WebSocketServer} {published : List Event}

/-- Whatever a socket is sent in a step, the replies on it keep the order of the bus. -/
theorem Answering.sockets (h : Answering app)
    (htaken : exec (WebSocketServer.step platform.toTransport) .create taken = some app.server)
    (hstep : app.server.step platform.toTransport asked = some server)
    (hpublished : published = app.published ++ asked.event?.toList)
    (hs : server.sockets id = some socket) (hconn : socket.conn = some conn) (cartId : CartId) :
    (repliesOn cartId socket).Sublist (repliesTo conn.session_id cartId published) := by
  obtain ⟨hstands, haddressed, -⟩ := WebSocketServer.registered_run htaken
  have hkind := repliedAbout?_fromBackend cartId
  rw [hpublished, repliesTo_append]
  rcases WebSocketServer.sockets_step hstands hstep hs with ⟨old, hold, rfl⟩ | ⟨query, rfl, -, rfl⟩
  · rw [Socket.sendAll_conn, WebSocketServer.touched_conn] at hconn
    obtain ⟨after, hafter, -, -, hreplies⟩ :=
      hkind.delivered_step hstands haddressed hold hconn hstep
    rw [hs] at hafter
    obtain rfl := Option.some.inj hafter
    rw [repliesOn, hreplies]
    refine (h.replies id old conn hold hconn cartId).append ?_
    split
    · cases hevent : asked.event? with
      | none => exact List.nil_sublist _
      | some event => exact replies_published haddressed hold hconn event cartId
    · exact List.nil_sublist _
  · rw [repliesOn, Socket.sendAll_eq]
    have hempty := (WebSocketServer.accepted_conn id query).2
    split
    · rw [List.filterMap_append, hempty, hkind.framesOf hstands.nodup hstep]
      exact List.nil_sublist _
    · rw [hempty]
      exact List.nil_sublist _

end

theorem Answering.step (h : Answering app) (hcoherent : Coherent platform initial app)
    (hstep : step platform app action = some next) : Answering next := by
  obtain ⟨taken, htaken⟩ := hcoherent.server
  have hqueued : ∀ jobs cartId, transcripts ((submitAll jobs app.process).lanes (.turns cartId)).jobs =
      (app.heard ++ jobs.filterMap transcript?).filter fun e => e.cartId = cartId := by
    intro jobs cartId
    rw [submitAll_lanes, Lane.jobs_enqueue, transcripts_append, transcripts_arrivals, h.heard cartId,
      List.filter_append]
  cases step_moves hstep with
  | transport asked server hfrom hserver =>
      have hsilent : asked.event? = none := event?_fromTransport hfrom
      refine ⟨fun cartId => ?_, fun id socket conn hs hconn => h.sockets htaken hserver ?_ hs hconn⟩
      · have hheard : (jobsSince app.server.gateway server.gateway).filterMap transcript? =
            transcriptsSince app.server.gateway server.gateway := by
          simp [jobsSince, List.filterMap_map, Function.comp_def, transcript?]
        exact (hqueued _ cartId).trans (by rw [hheard]; rfl)
      · rw [hsilent]
        exact (List.append_nil _).symm
  | silent asked process hfrom hprocess hemitted =>
      exact ⟨fun cartId => (step_transcripts hfrom hprocess cartId).trans (h.heard cartId), h.replies⟩
  | emits asked process lane event server hfrom hprocess hemitted hserver =>
      exact ⟨fun cartId => (step_transcripts hfrom hprocess cartId).trans (h.heard cartId),
        fun id socket conn hs hconn => h.sockets htaken hserver rfl hs hconn⟩
  | confirms cartId =>
      exact ⟨fun cartId => (hqueued _ cartId).trans (by simp [transcript?]), h.replies⟩

theorem answering_run (h : exec (step platform) (create initial) actions = some app) :
    Coherent platform initial app ∧ Answering app :=
  exec_invariant (fun _ app => Coherent platform initial app ∧ Answering app) h
    ⟨create_coherent, create_answering⟩
    fun _ _ _ _ hinv hstep => ⟨hinv.1.step hstep, hinv.2.step hinv.1 hstep⟩

/-- The turns of a cart reply to some of its transcripts, in order. -/
theorem replies_of_heard (hcoherent : Coherent platform initial app) (h : Answering app)
    (cartId : CartId) : ∃ answered : List SttFinalTranscriptReceived,
      answered.Sublist (app.heard.filter fun e => e.cartId = cartId) ∧
      answered.map replyTo = app.published.filterMap (replyAbout? cartId) := by
  obtain ⟨asked, hrun, -⟩ := hcoherent.process
  have hserial := serial_of_run (backend_blind platform.ttsLanguage) (fun _ => trivial)
    (hrun.mono fun _ action hfits => by
      cases action with
      | submit lane job => exact hfits.1.symm
      | begin | emit | reply | finish => trivial)
  obtain ⟨answered, hanswered, hreplies⟩ := lane_replies (hserial (.turns cartId))
  refine ⟨answered, hanswered.trans ?_, hreplies.trans ?_⟩
  · rw [← h.heard cartId, Lane.jobs_begun]
    exact (List.sublist_append_left _ _).filterMap _
  · exact (hcoherent.fromLane (.turns cartId) fun other hother event hevent =>
      lane_replies_own (hserial other) hother hevent).symm

/-- In every run the replies about a cart that a socket is sent answer transcripts of its session,
in the order in which these were heard, and each of them once at most. -/
theorem replies_in_order (h : exec (step platform) (create initial) actions = some app)
    (hs : app.server.sockets id = some socket) (hconn : socket.conn = some conn) (cartId : CartId) :
    ∃ answered : List SttFinalTranscriptReceived,
      answered.Sublist (app.heard.filter fun e => e.cartId = cartId) ∧
      (∀ e ∈ answered, e.sessionId = conn.session_id) ∧
      repliesOn cartId socket = answered.map SttFinalTranscriptReceived.requestId := by
  obtain ⟨hcoherent, hanswering⟩ := answering_run h
  obtain ⟨answered, hanswered, hreplies⟩ := replies_of_heard hcoherent hanswering cartId
  have hsent := hanswering.replies id socket conn hs hconn cartId
  rw [repliesTo, ← hreplies, List.filter_map, List.map_map] at hsent
  obtain ⟨chosen, hchosen, heq⟩ := List.sublist_map_iff.mp hsent
  refine ⟨chosen, (hchosen.trans List.filter_sublist).trans hanswered, fun e hmem => ?_, heq⟩
  exact of_decide_eq_true (List.mem_filter.mp (hchosen.subset hmem)).2

/-- The agent answers the customer, and the tablet is sent what it says. -/
def repliedSteps : List Action :=
  .transport (.connection 0 tabletQuery) :: backendSteps (connectSteps (.ok ())) ++ spokenSteps ++
    backendSteps (turnToCartSteps "request-1" "one cola" [] ++
      [.reply (.turns "cart-1") (.getCart "cart-1") (.ok (some createdCart)),
        .reply (.turns "cart-1") (.getItems 1 []) (.ok []),
        .reply (.turns "cart-1") (.runAgent "one cola" [] ⟨"cart-1", 1, 0, []⟩)
          (.ok (.spoke ⟨"We have no cola.", some "en", []⟩)),
        .reply (.turns "cart-1") (.appendHistory 1 "cart-1" ⟨"one cola", some "We have no cola."⟩)
          (.ok ()),
        .emit (.turns "cart-1"), .finish (.turns "cart-1")])

theorem replies_in_order_spoken :
    ∃ app socket conn, exec (step anyPlatform) (create Store.empty) repliedSteps = some app ∧
      app.server.sockets 0 = some socket ∧ socket.conn = some conn ∧
      repliesOn "cart-1" socket = ["request-1"] ∧
      ∃ answered : List SttFinalTranscriptReceived,
        answered.Sublist (app.heard.filter fun e => e.cartId = "cart-1") ∧
        (∀ e ∈ answered, e.sessionId = conn.session_id) ∧
        repliesOn "cart-1" socket = answered.map SttFinalTranscriptReceived.requestId := by
  have hends : (exec (step anyPlatform) (create Store.empty) repliedSteps).any (fun app =>
      (app.server.sockets 0).any fun socket =>
        socket.conn.isSome && decide (repliesOn "cart-1" socket = ["request-1"])) = true := by
    decide +kernel
  obtain ⟨app, hexec, hsocket⟩ := (Option.any_eq_true _ _).mp hends
  obtain ⟨socket, hs, hholds⟩ := (Option.any_eq_true _ _).mp hsocket
  obtain ⟨hlet, hreplies⟩ := Bool.and_eq_true_iff.mp hholds
  obtain ⟨conn, hconn⟩ := Option.isSome_iff_exists.mp hlet
  exact ⟨app, socket, conn, hexec, hs, hconn, of_decide_eq_true hreplies,
    replies_in_order hexec hs hconn "cart-1"⟩

end App

end VoiceOrder
