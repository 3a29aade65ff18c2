import Backgammon.Analysis.CubeDecision
import Backgammon.Analysis.Options
import Backgammon.Analysis.Rating
import Backgammon.Analysis.RollLuck
import Backgammon.Analysis.Skill
import Backgammon.Analysis.Statistics
import Backgammon.Config.Document
import Backgammon.Config.Document.Reading
import Backgammon.Config.Settings
import Backgammon.Config.Source
import Backgammon.Config.Value
import Backgammon.CubeLines
import Backgammon.Decimal.Reading
import Backgammon.Decimal.Shortest
import Backgammon.Dice
import Backgammon.DoubleBits
import Backgammon.Equities
import Backgammon.Evaluation
import Backgammon.Game
import Backgammon.History
import Backgammon.MatchEquity
import Backgammon.MatchEquity.Table
import Backgammon.Player
import Backgammon.Proofs.Analysis.Counters
import Backgammon.Proofs.Analysis.CubeMistakes
import Backgammon.Proofs.Analysis.CubePercent
import Backgammon.Proofs.Analysis.CubeValue
import Backgammon.Proofs.Analysis.MatchResults
import Backgammon.Proofs.Analysis.Merging
import Backgammon.Proofs.Analysis.Recordings
import Backgammon.Proofs.Analysis.Results
import Backgammon.Proofs.Analysis.Totals
import Backgammon.Proofs.Checks
import Backgammon.Proofs.Coherence
import Backgammon.Proofs.Config.Counts
import Backgammon.Proofs.Config.Entries
import Backgammon.Proofs.Config.Fallbacks
import Backgammon.Proofs.Doubles.Differences
import Backgammon.Proofs.Doubles.Order
import Backgammon.Proofs.Doubles.Quotients
import Backgammon.Proofs.Doubles.Rounding
import Backgammon.Proofs.Doubles.Zeros
import Backgammon.Proofs.Exact
import Backgammon.Proofs.MatchEquity.EvenGames
import Backgammon.Proofs.MatchEquity.Fairness
import Backgammon.Proofs.MatchEquity.Lookup
import Backgammon.Proofs.MatchEquity.PointsPay
import Backgammon.Proofs.MatchEquity.Trailers
import Backgammon.Proofs.MatchEquity.WinningPays
import Backgammon.Proofs.Rollout.Accounting
import Backgammon.Proofs.Rollout.Batch
import Backgammon.Proofs.Rollout.BestPlay
import Backgammon.Proofs.Rollout.Cancellation
import Backgammon.Proofs.Rollout.CoherentMeans
import Backgammon.Proofs.Rollout.Companions
import Backgammon.Proofs.Rollout.Completion
import Backgammon.Proofs.Rollout.CubeScale
import Backgammon.Proofs.Rollout.CubeTurns
import Backgammon.Proofs.Rollout.DiceStreams
import Backgammon.Proofs.Rollout.Elimination
import Backgammon.Proofs.Rollout.Failures
import Backgammon.Proofs.Rollout.Faults
import Backgammon.Proofs.Rollout.Interruption
import Backgammon.Proofs.Rollout.Leader
import Backgammon.Proofs.Rollout.Ledger
import Backgammon.Proofs.Rollout.MoveChoice
import Backgammon.Proofs.Rollout.Pairing
import Backgammon.Proofs.Rollout.Relabelling
import Backgammon.Proofs.Rollout.Reliable
import Backgammon.Proofs.Rollout.Schedules
import Backgammon.Proofs.Rollout.Snapshots
import Backgammon.Proofs.Rollout.Stages
import Backgammon.Proofs.Rollout.Stratified
import Backgammon.Proofs.Rollout.Survivors
import Backgammon.Proofs.Rollout.Trace
import Backgammon.Proofs.Rollout.TrialResult
import Backgammon.Proofs.Rollout.Turns
import Backgammon.Proofs.Rollout.VarianceReduction
import Backgammon.Proofs.Rollout.ZeroVariance
import Backgammon.Proofs.ScalarOrder
import Backgammon.Race
import Backgammon.Random.Draw
import Backgammon.Random.Keystream
import Backgammon.Rollout.Error
import Backgammon.Rollout.Moments
import Backgammon.Rollout.Pool
import Backgammon.Rollout.Run
import Backgammon.Rollout.SeededDice
import Backgammon.Rollout.Settings
import Backgammon.Rollout.Stopping
import Backgammon.Rollout.Trial
import Backgammon.Scalar
import Backgammon.SettingError
import Backgammon.Stakes
import Backgammon.Proofs.Rollout.RunningMoments
import Backgammon.Proofs.Analysis.AverageLuck
import Backgammon.Proofs.Analysis.CubeOwner
import Backgammon.Proofs.Analysis.ResultMoments
import Backgammon.Proofs.Analysis.AbsoluteRating
import Backgammon.Proofs.Analysis.Grading
import Backgammon.Proofs.Doubles.Products
import Backgammon.Proofs.Rollout.Repair
import Backgammon.Proofs.ScalarSigns
import Backgammon.Proofs.Sides
