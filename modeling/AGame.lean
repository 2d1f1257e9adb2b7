import AGame.Base.History
import AGame.Base.Rounding
import AGame.Brain.Hindsight
import AGame.Pipeline.Outbox
import AGame.Worker.DailyRun
import AGame.Pipeline.Programs
import AGame.Pipeline.Jobs
import AGame.Pipeline.Prose
import AGame.Pipeline.CachedText
import AGame.Pipeline.Coherence
import AGame.Pipeline.Freshness
import AGame.Base.Replay
import AGame.Engine.Replay
import AGame.Engine.Points
import AGame.Engine.Kickoff
import AGame.Brain.Ratings
import AGame.Engine.Fit
import AGame.Engine.Rates
import AGame.Engine.Divisions
import AGame.Brain.Outcomes
import AGame.Worker.ChangeGate
import AGame.Api.ReadPath
import AGame.Worker.Backfill
import AGame.Worker.GatedColumns
import AGame.Worker.Ownership
import AGame.Brain.Redelivery
import AGame.Base.Distributions
import AGame.Engine.RateOrder
import AGame.Engine.PoissonLaw
import AGame.Base.Ranking
import AGame.Engine.TopScores
import AGame.Brain.Regeneration
import AGame.Engine.Balance
import AGame.Engine.Shrinkage
import AGame.Engine.Commute
import AGame.Engine.Update
import AGame.Brain.Baseline
import AGame.Base.Yaml
import AGame.Brain.Consumer
import AGame.Scripts.CheckK8sPolicies
import AGame.Scripts.NetworkPolicies
import AGame.Scripts.PolicyDocuments
import AGame.Scripts.CheckK8sRefs
import AGame.Scripts.PolicyExactness
import AGame.Scripts.ManifestRefs
import AGame.Base.Retry
import AGame.Worker.Retries
import AGame.Pipeline.Startup
import AGame.Base.Accounts
import AGame.Pipeline.Accounts
import AGame.Pipeline.Announcements
import AGame.Brain.Corrections
import AGame.Worker.Resumption
import AGame.Brain.RatingColumns
import AGame.Pipeline.Provenance
import AGame.Pipeline.Settling
import AGame.Brain.Forgetting
import AGame.Pipeline.Wire
import AGame.Base.Closeness
import AGame.Engine.Stability
import AGame.Base.Gated
import AGame.Base.Dict
import AGame.Brain.Corpus
import AGame.Brain.Lifecycle
import AGame.Pipeline.Connecting
import AGame.Worker.BackfillRun
import AGame.Pipeline.ToolCall
import AGame.Brain.Answers
import AGame.Brain.OneMatch
import AGame.Engine.RateError
