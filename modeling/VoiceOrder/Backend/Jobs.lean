import VoiceOrder.Ordering.Turns

/-! # The jobs of the backend and the lanes they run in

The controller's lock gives every cart one lane, in which its connects, proposals and
confirmations run. The turn queue gives it another one for its turns. The two are joined by
the event bus alone: a proposal that a turn emits is submitted to the cart's first lane, and
the turn goes on without it. -/

namespace VoiceOrder.Backend

open Async VoiceOrder.CartModule VoiceOrder.Ordering

inductive LaneKey where
  /-- The applies of a cart, one at a time. -/
  | apply (cartId : CartId)
  /-- The turns of a cart, one at a time. -/
  | turns (cartId : CartId)
  deriving DecidableEq, Repr

def LaneKey.cartId : LaneKey → CartId
  | .apply cartId => cartId
  | .turns cartId => cartId

inductive Job where
  | ensureCart (e : ClientConnected)
  | applyProposal (proposal : OrderProposal) (sessionId : Option SessionId)
  | confirm (cartId : CartId)
  | turn (e : SttFinalTranscriptReceived)
  deriving DecidableEq, Repr

/-- The request that a job carries. -/
def Job.requestId? : Job → Option RequestId
  | .applyProposal proposal _ => some proposal.requestId
  | .turn e => some e.requestId
  | _ => none

/-- The lane that a job is queued in. -/
def Job.lane : Job → LaneKey
  | .ensureCart e => .apply e.cartId
  | .applyProposal proposal _ => .apply proposal.cartId
  | .confirm cartId => .apply cartId
  | .turn e => .turns e.cartId

def Job.program (ttsLanguage : LangCode) : Job → Promise Unit
  | .ensureCart e => CartModule.ensureCart e
  | .applyProposal proposal sessionId => CartModule.applyProposal proposal sessionId
  | .confirm cartId => do
      let _ ← CartModule.confirm cartId
      pure ()
  | .turn e => handleFinalTranscript ttsLanguage e

/-- The handlers on the bus that queue jobs. -/
def react : Event → List (LaneKey × Job)
  | .operationsProposed sessionId proposal =>
      let job := Job.applyProposal proposal (some sessionId)
      [(job.lane, job)]
  | _ => []

def backend (ttsLanguage : LangCode) : Design Answer Event AppError LaneKey Job Store where
  program := Job.program ttsLanguage
  handle := handle
  react := react

abbrev Process : Type := Machine Answer Event AppError LaneKey Job Store

abbrev Action : Type := LaneAction Answer AppError LaneKey Job

end VoiceOrder.Backend
