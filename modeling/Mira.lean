import Mira.Runtime.Takeover
import Mira.Runtime.Operations
import Mira.Events.FailedAppends
import Mira.Checkpoint.Validity
import Mira.Checkpoint.Coordinator
import Mira.Checkpoint.Agreement
import Mira.Checkpoint.PublishedFacts
import Mira.Actions.Dispatched
import Mira.Actions.LiveJournal
import Mira.Interaction.Stages
import Mira.Interaction.Restart
import Mira.Interaction.RoutedAgreed
import Mira.Workflow.Restored
import Mira.Workflow.Handoffs
import Mira.Workflow.DryRun
import Mira.Workflow.Settled
import Mira.Workflow.Licensed
import Mira.Workflow.Accepted
import Mira.Model.Released
import Mira.Model.Resend
import Mira.Model.Verdict
import Mira.Recovery.Attempts
import Mira.Context.MergeAccounted
import Mira.Storage.Durable
import Mira.Memory.OneLine
import Mira.Events.Interchangeable
import Mira.Json.LeastInteger
import Mira.Context.Commits
import Mira.Net.Contained
import Mira.Interaction.StoredText
import Mira.WorldState.RunBounds
import Mira.Temporal.Histories
import Mira.Temporal.Signatures
import Mira.Temporal.Adoptable
import Mira.Workflow.Bound
import Mira.Model.Circuits
import Mira.Model.Costs
import Mira.Workflow.Confidence
import Mira.Conversation.Proposals
import Mira.Model.SseReading
import Mira.Model.ConversationKept
import Mira.Workflow.PatchAudit
import Mira.Workflow.CheapestPaths
import Mira.Json.Identity
import Mira.Digest.Standard
import Mira.Observation.TransformChains
