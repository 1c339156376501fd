import VoiceOrder.Tts.TtsService

/-! # The frames of one reply

Whatever the calls of `synthesize` do, the frames of a reply are a start, the chunks of its
segments in text order, and at most one frame that closes it. -/

namespace VoiceOrder.Tts

open Voice (ClientConnection Buffer)

/-- One chunk for each audio that is not empty, numbered from zero. -/
def chunks (ctx : TtsContext) (audio : List Buffer) : List TtsMessage :=
  (audio.filter fun bytes => !bytes.isEmpty).mapIdx fun seq bytes =>
    .audioChunk ctx seq (toBase64 bytes)

theorem chunks_concat (ctx : TtsContext) (audio : List Buffer) (bytes : Buffer) :
    chunks ctx (audio ++ [bytes]) =
      chunks ctx audio ++ (if bytes.isEmpty then []
        else [.audioChunk ctx (audio.filter fun bytes => !bytes.isEmpty).length
          (toBase64 bytes)]) := by
  cases hbytes : bytes.isEmpty with
  | true => simp [chunks, hbytes]
  | false => simp [chunks, hbytes, List.mapIdx_append]

namespace Reply

variable {provider : TtsProvider} {reply : Reply} {audio : List Buffer}

/-- How the frames after the chunks of `audio` close, by how the calls of `synthesize` settled:
nothing while the stream goes on, an end once every segment has its audio, an error after a
rejection, and nothing ever again once the reply is cancelled. -/
inductive Closes (reply : Reply) (audio : List Buffer) : List TtsMessage → Prop where
  | streaming : reply.settled = audio.map .resolved → reply.pending ≠ [] → Closes reply audio []
  | ended : reply.settled = audio.map .resolved → audio.length = reply.segments.length →
      Closes reply audio [.audioEnd reply.ctx]
  | failed (message) : reply.settled = audio.map .resolved ++ [.rejected message] →
      Closes reply audio [.error reply.ctx message]
  | silenced (outcome) : reply.settled = audio.map .resolved ++ [outcome] →
      reply.aborted = true → Closes reply audio []

/-- The frames of a reply are one start, the chunks of the audio that its segments were
synthesized to, one after the other in text order, and then at most one more. -/
structure FollowsProtocol (provider : TtsProvider) (reply : Reply) (audio : List Buffer)
    (closing : List TtsMessage) : Prop where
  frames : reply.frames =
    .audioStart reply.ctx provider.encoding provider.sampleRate ::
      (chunks reply.ctx audio ++ closing)
  asked : reply.asked = reply.segments.take (audio.length + 1)
  closes : Closes reply audio closing

/-- The stream between two calls of `synthesize`, with the audio of all segments before. -/
structure Advanced (provider : TtsProvider) (reply : Reply) (audio : List Buffer) : Prop where
  frames : reply.frames =
    .audioStart reply.ctx provider.encoding provider.sampleRate :: chunks reply.ctx audio
  asked : reply.asked = reply.segments.take audio.length
  settled : reply.settled = audio.map .resolved
  seq : reply.seq = (audio.filter fun bytes => !bytes.isEmpty).length
  within : audio.length ≤ reply.segments.length

/-- The stream is suspended in the call of `synthesize` after the one for the last of `audio`. -/
structure Suspended (provider : TtsProvider) (reply : Reply) (audio : List Buffer) : Prop where
  follows : FollowsProtocol provider reply audio []
  settled : reply.settled = audio.map .resolved
  seq : reply.seq = (audio.filter fun bytes => !bytes.isEmpty).length
  pending : reply.pending = reply.segments.drop audio.length

/-- A reply that follows the protocol, and that can go on to follow it. -/
def Sound (provider : TtsProvider) (reply : Reply) : Prop :=
  (∃ audio closing, FollowsProtocol provider reply audio closing) ∧
    (reply.pending ≠ [] → ∃ audio, Suspended provider reply audio)

theorem Advanced.next (h : Advanced provider reply audio) :
    Sound provider (reply.next (reply.segments.drop audio.length)) := by
  cases hrest : reply.segments.drop audio.length with
  | nil =>
      have hlength : audio.length = reply.segments.length :=
        le_antisymm h.within (List.drop_eq_nil_iff.mp hrest)
      refine ⟨⟨audio, [.audioEnd reply.ctx], ?_, ?_, ?_⟩, fun hpending => absurd rfl hpending⟩
      · simp [Reply.next, Reply.send, Reply.exit, h.frames]
      · have hall : reply.segments.take (reply.segments.length + 1) = reply.segments :=
          List.take_of_length_le (Nat.le_succ _)
        simp [Reply.next, Reply.send, Reply.exit, h.asked, hlength, hall]
      · exact .ended h.settled hlength
  | cons segment rest =>
      have hasked : (reply.next (segment :: rest)).asked =
          reply.segments.take (audio.length + 1) := by
        rw [List.take_add_one, ← List.head?_drop, hrest, ← h.asked]
        rfl
      have hfollows : FollowsProtocol provider (reply.next (segment :: rest)) audio [] := by
        refine ⟨?_, hasked, .streaming h.settled (List.cons_ne_nil _ _)⟩
        rw [List.append_nil]
        exact h.frames
      exact ⟨⟨audio, [], hfollows⟩, fun _ => ⟨audio, hfollows, h.settled, h.seq, hrest.symm⟩⟩

theorem start_sound (provider : TtsProvider) (conn : ClientConnection) (ctx : TtsContext)
    (segments : List CodeUnits) (language : LangCode) :
    Sound provider (Reply.start provider conn ctx segments language) := by
  have hopened : Advanced provider
      (Reply.send (.audioStart ctx provider.encoding provider.sampleRate)
        ⟨conn, ctx, segments, language, false, 0, segments, [], [], []⟩) [] :=
    ⟨rfl, rfl, rfl, rfl, Nat.zero_le _⟩
  exact hopened.next

theorem FollowsProtocol.abort {closing : List TtsMessage}
    (h : FollowsProtocol provider reply audio closing) :
    FollowsProtocol provider reply.abort audio closing := by
  refine ⟨h.frames, h.asked, ?_⟩
  cases h.closes with
  | streaming hsettled hpending => exact .streaming hsettled hpending
  | ended hsettled hlength => exact .ended hsettled hlength
  | failed message hsettled => exact .failed message hsettled
  | silenced outcome hsettled _ => exact .silenced outcome hsettled rfl

theorem Sound.abort (h : Sound provider reply) : Sound provider reply.abort := by
  obtain ⟨⟨audio, closing, hfollows⟩, hpending⟩ := h
  refine ⟨⟨audio, closing, hfollows.abort⟩, fun hne => ?_⟩
  obtain ⟨audio, hsuspended⟩ := hpending hne
  exact ⟨audio, hsuspended.follows.abort, hsuspended.settled, hsuspended.seq,
    hsuspended.pending⟩

theorem ship_segments (bytes : Buffer) (reply : Reply) :
    (reply.ship bytes).segments = reply.segments := by
  unfold Reply.ship
  split <;> rfl

/-- What the settled call leaves: the audio is one segment longer. -/
theorem Suspended.ship (h : Suspended provider reply audio) (hpending : reply.pending ≠ [])
    (bytes : Buffer) :
    Advanced provider
      (Reply.ship bytes { reply with settled := reply.settled ++ [.resolved bytes] })
      (audio ++ [bytes]) := by
  have hframes := h.follows.frames
  rw [List.append_nil] at hframes
  have hwithin : audio.length < reply.segments.length := by
    by_contra hnot
    exact hpending (h.pending.trans (List.drop_eq_nil_of_le (not_lt.mp hnot)))
  cases hbytes : bytes.isEmpty with
  | true =>
      simp only [Reply.ship, hbytes, if_true]
      refine ⟨?_, ?_, ?_, ?_, ?_⟩
      · simp [hframes, chunks_concat, hbytes]
      · simp [h.follows.asked]
      · simp [h.settled]
      · simp [h.seq, hbytes]
      · simpa [Nat.succ_le_iff] using hwithin
  | false =>
      simp only [Reply.ship, Reply.send, hbytes, Bool.false_eq_true, if_false]
      refine ⟨?_, ?_, ?_, ?_, ?_⟩
      · simp [hframes, chunks_concat, hbytes, h.seq]
      · simp [h.follows.asked]
      · simp [h.settled]
      · simp [h.seq, hbytes]
      · simpa [Nat.succ_le_iff] using hwithin

theorem Sound.resume (h : Sound provider reply) (hpending : reply.pending ≠ [])
    (outcome : Outcome) : Sound provider (reply.resume outcome) := by
  obtain ⟨audio, hsuspended⟩ := h.2 hpending
  have hframes := hsuspended.follows.frames
  have hsettled : reply.settled ++ [outcome] = audio.map .resolved ++ [outcome] := by
    rw [hsuspended.settled]
  unfold Reply.resume
  cases haborted : reply.aborted with
  | true =>
      simp only [if_true]
      exact ⟨⟨audio, [], hframes, hsuspended.follows.asked,
        .silenced outcome hsettled rfl⟩, fun hne => absurd rfl hne⟩
  | false =>
      simp only [Bool.false_eq_true, if_false]
      cases outcome with
      | rejected message =>
          refine ⟨⟨audio, [.error reply.ctx message], ?_, hsuspended.follows.asked,
            .failed message hsettled⟩, fun hne => absurd rfl hne⟩
          simp [Reply.send, Reply.exit, hframes]
      | resolved bytes =>
          have hrest : reply.pending.tail = (Reply.ship bytes
              { reply with settled := reply.settled ++ [.resolved bytes] }).segments.drop
                (audio ++ [bytes]).length := by
            rw [hsuspended.pending, List.tail_drop, List.length_append, ship_segments]
            rfl
          have hnext := (hsuspended.ship hpending bytes).next
          rw [← hrest] at hnext
          simpa only [haborted] using hnext

end Reply

end VoiceOrder.Tts
