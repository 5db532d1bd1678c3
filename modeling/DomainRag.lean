import DomainRag.Pii.Policies
import DomainRag.Verifier.Soundness
import DomainRag.Verifier.Inference
import DomainRag.Verifier.Separate
import DomainRag.Verifier.Groups
import DomainRag.Verifier.Conservative
import DomainRag.Acl.Visibility
import DomainRag.Retrieval.Soundness
import DomainRag.Chat.Storage
import DomainRag.Chat.Totality
import DomainRag.Chat.StreamLog
import DomainRag.Chat.Exposure
import DomainRag.Chat.Ownership
import DomainRag.Chat.QuestionBound
import DomainRag.Chat.Difficulty
import DomainRag.Chat.FallbackChain
import DomainRag.Chat.Classification
import DomainRag.Chat.PromptEdits
import DomainRag.Chat.RoutingUse
import DomainRag.Indexing.Retry
import DomainRag.Indexing.Upload
import DomainRag.Indexing.Blocking
import DomainRag.Indexing.Accounting
import DomainRag.Documents.Validity
import DomainRag.InputSchema.Compatibility
import DomainRag.InputSchema.Keywords
import DomainRag.InputSchema.Acceptance
import DomainRag.Lifecycle.Hidden
import DomainRag.Lifecycle.Transitions
import DomainRag.Lifecycle.TenantObjects
import DomainRag.Auth.Isolation
import DomainRag.Auth.Revocation
import DomainRag.Auth.ExtraAdmin
import DomainRag.Auth.StateStore
import DomainRag.Auth.Login
import DomainRag.Auth.SigningKeys
import DomainRag.Storage.Confinement
import DomainRag.Storage.Assets
import DomainRag.Lora.Rejection
import DomainRag.Lora.Secrets
import DomainRag.Lora.Activation
import DomainRag.ChatLogs.Erasure
import DomainRag.ChatLogs.Averages
import DomainRag.ChatLogs.Partitions
import DomainRag.Audit.Ledger
import DomainRag.Approval.Lookup
import DomainRag.Approval.Compliance
import DomainRag.Cron.Exclusion
import DomainRag.Config.Restricted
import DomainRag.Config.RowOrder
import DomainRag.Config.Convergence
import DomainRag.Config.MergeLaw
import DomainRag.Config.Cache
import DomainRag.Evaluation.LiveTraffic
import DomainRag.Evaluation.TenantBound
import DomainRag.Evaluation.Agreement
import DomainRag.Evaluation.Gate
import DomainRag.Assessment.Answerable
import DomainRag.Assessment.ItemBank
import DomainRag.Assessment.Safety
import DomainRag.Assessment.Chunks
import DomainRag.Assessment.Replies
import DomainRag.Assessment.Guarantees
import DomainRag.Assessment.FigureAccounting
import DomainRag.Assessment.FigureClusters
import DomainRag.Assessment.ContentKey
import DomainRag.Assessment.ExtractEndpoint
import DomainRag.Chat.VllmStream
import DomainRag.Indexing.JobRefinement
import DomainRag.Evaluation.PostgresJobs
