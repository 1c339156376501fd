import VoiceOrder.CartModule.ModifierUniqueness
import VoiceOrder.RateLimit.LeaseAccounting
import VoiceOrder.RateLimit.RateLimiter
import VoiceOrder.RateLimit.BucketPromises
import VoiceOrder.RateLimit.Semaphore
import VoiceOrder.RateLimit.RateBound
import VoiceOrder.Ordering.CheckerAgreement
import VoiceOrder.Voice.TerminalStates
import VoiceOrder.Shared.LockChain
import VoiceOrder.CartModule.ConfirmationFreeze
import VoiceOrder.Ordering.TurnFreshness
import VoiceOrder.Menu.JinaEmbeddingService
import VoiceOrder.Menu.SearchResults
import VoiceOrder.Menu.PostgresMenuStore
import VoiceOrder.RateLimit.PermitFairness
import VoiceOrder.RateLimit.BucketFairness
import VoiceOrder.RateLimit.WakeUps
import VoiceOrder.CartModule.OperationAccounting
import VoiceOrder.CartModule.LossyVersions
import VoiceOrder.Ordering.TurnOrder
import VoiceOrder.CartModule.RequestUniqueness
import VoiceOrder.Voice.SessionOwnership
import VoiceOrder.Shared.Json
import VoiceOrder.Ordering.AgentReply
import VoiceOrder.Shared.PlainObject
import VoiceOrder.Shared.FirstHits
import VoiceOrder.Ordering.MentionedItems
import VoiceOrder.Ordering.RunTools
import VoiceOrder.Ordering.AgentGraph
import VoiceOrder.Ordering.AgentTranscript
import VoiceOrder.Ordering.BatchFolding
import VoiceOrder.Ordering.AgentTurns
import VoiceOrder.Ordering.MentionVerification
import VoiceOrder.Ordering.ProposalIntegrity
import VoiceOrder.Tts.Supersession
import VoiceOrder.Tts.WholeWords
import VoiceOrder.Menu.Similarity
import VoiceOrder.Ordering.WrappedReplies
import VoiceOrder.Realtime.Reachability
import VoiceOrder.Voice.AudioOrder
import VoiceOrder.Ordering.TranscriptShape
import VoiceOrder.Ordering.TurnIsolation
import VoiceOrder.Ordering.GraphTurns
import VoiceOrder.CartModule.QuotedOrders
import VoiceOrder.CartModule.Traceability
import VoiceOrder.CartModule.Rebase
import VoiceOrder.CartModule.OneRestaurant
import VoiceOrder.Redis.BackendReplies
import VoiceOrder.Stt.SessionLease
import VoiceOrder.Realtime.Heartbeat
import VoiceOrder.App.Broadcasts
import VoiceOrder.App.Replies
import VoiceOrder.App.Resumes
import VoiceOrder.Llm.CallAccounting
import VoiceOrder.Llm.HeldOff
import VoiceOrder.Redis.CartTexts
import VoiceOrder.RateLimit.SharedQuotas
import VoiceOrder.Api.ImageAnswers
import VoiceOrder.Api.Addresses
