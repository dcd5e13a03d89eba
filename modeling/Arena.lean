import Arena.Lib.JsMap
import Arena.Lib.Run
import Arena.Lib.JsArray
import Arena.Shared.State
import Arena.Shared.Cards
import Arena.GameCore.Prng
import Arena.GameCore.CardEngine
import Arena.GameCore.Engines
import Arena.GameCore.Machine
import Arena.GameCore.Steps
import Arena.GameCore.Rehydrate
import Arena.GameCore.Codec
import Arena.GameCore.Failover
import Arena.GameCore.Snapshot
import Arena.GameCore.Roster
import Arena.GameCore.Ledger
import Arena.GameCore.SecondChance
import Arena.GameCore.Atomicity
import Arena.GameCore.Winner
import Arena.Lib.Brackets
import Arena.GameCore.Phases
import Arena.Lib.LuaNumber
import Arena.Redis.Lease
import Arena.Redis.Fencing
import Arena.Api.Cluster
import Arena.Api.CanonicalLog
import Arena.Api.Runner
import Arena.Api.RoundOrder
import Arena.GameCore.Elo
import Arena.Api.Placements
import Arena.Api.Results
import Arena.Api.Settlement
import Arena.Api.Shape
import Arena.Api.Stall
import Arena.Api.MatchService
import Arena.Api.Coherence
import Arena.Api.Grading
import Arena.GameCore.CardEffects
import Arena.Api.CardCommands
import Arena.Api.Commands
import Arena.Api.CommandSteps
import Arena.Api.Durability
import Arena.Api.AnswerRounds
import Arena.Api.Evidence
import Arena.Api.OnceOnly
import Arena.Api.LossyCluster
import Arena.Api.OwnerPersists
import Arena.GameCore.CardLog
import Arena.GameCore.Delta
import Arena.Api.SnapshotRequest
import Arena.Api.Deadlines
import Arena.GameCore.ActiveEffects
import Arena.Api.HandDestroy
import Arena.GameCore.CardTable
import Arena.Api.OwnerPath
import Arena.GameCore.Eliminated
import Arena.Api.LegalPlays
import Arena.Api.MilestoneOffers
import Arena.GameCore.Entrants
import Arena.Api.Stretch
import Arena.Api.EarlyTermination
import Arena.Api.RoundRecovery
import Arena.GameCore.Reencode
import Arena.Api.AnswerTiles
import Arena.Lib.ReadCommitted
import Arena.Api.Ratings
import Arena.Api.Lobby
import Arena.Api.Admission
import Arena.Api.Launches
import Arena.Api.Matchmaking
import Arena.Api.TicketOutcomes
import Arena.Api.Finishes
import Arena.Api.Sessions
import Arena.Api.NewestSession
import Arena.Api.ReplayPrivacy
import Arena.Api.Lifecycle
import Arena.Api.LifecycleChanges
import Arena.Redis.ReaderPool
import Arena.GameCore.Sampling
import Arena.Lib.Calendar
import Arena.Api.Daily
import Arena.Api.Streaks
import Arena.Api.AoeCap
import Arena.Api.Presence
import Arena.Api.VariantUnlocks
import Arena.Lib.Expiring
import Arena.Api.MatchCache
import Arena.GameCore.Sourced
import Arena.Web.MatchUpdaters
import Arena.Web.BatchReplay
import Arena.Redis.PubSub
import Arena.Redis.PubSubWaits
import Arena.Redis.PubSubChannels
import Arena.Redis.PubSubAgreement
import Arena.Lib.Doubles
import Arena.Lib.Unicode
import Arena.Lib.Sha256
import Arena.GameCore.SeedHash
import Arena.Api.RandomPicks
import Arena.GameCore.EloLaws
import Arena.GameCore.Ranking
import Arena.GameCore.TopicVoting
import Arena.Api.MatchGroups
import Arena.Api.SpeedBonus
import Arena.Lib.DigitText
import Arena.Redis.Tombstone
import Arena.Redis.Requeue
import Arena.Api.QuestionLoop
import Arena.Api.QuestionCopies
import Arena.Api.UsedQuestions
import Arena.Lib.Knockout
import Arena.GameCore.EventSourcing
import Arena.Api.Classes
import Arena.Lib.Budget
import Arena.Api.MatchEnds
import Arena.Api.CommandPolls
import Arena.Api.Recovery
import Arena.Lib.InsertOnce
import Arena.GameCore.RoundHistory
import Arena.Api.SavedRounds
import Arena.Api.Accounts
import Arena.Api.OwnedEntries
import Arena.Api.Countdown
