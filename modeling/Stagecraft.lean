import Stagecraft.Binary64
import Stagecraft.Cache
import Stagecraft.Command
import Stagecraft.CommandLine.Arguments
import Stagecraft.CommandLine.Commands
import Stagecraft.CommandLine.Console
import Stagecraft.CommandLine.Inspection
import Stagecraft.Curve
import Stagecraft.Decimal
import Stagecraft.Demo
import Stagecraft.Diagnostic
import Stagecraft.Digest.Content
import Stagecraft.Digest.Sha256
import Stagecraft.Export.Folder
import Stagecraft.Export.Layout
import Stagecraft.Export.Manifest
import Stagecraft.Export.Report
import Stagecraft.Files.Path
import Stagecraft.Files.Store
import Stagecraft.Files.Tree
import Stagecraft.FrameRate
import Stagecraft.Framing
import Stagecraft.Heading
import Stagecraft.Json.Basic
import Stagecraft.Json.Parser
import Stagecraft.Json.Printer
import Stagecraft.Json.Record
import Stagecraft.Json.Token
import Stagecraft.Lane
import Stagecraft.Main
import Stagecraft.Motion
import Stagecraft.Movie.Basic
import Stagecraft.Movie.Composition
import Stagecraft.Movie.Decoding
import Stagecraft.Movie.Encoding
import Stagecraft.Movie.Issue
import Stagecraft.Movie.Reading
import Stagecraft.Movie.Validation
import Stagecraft.Plan.Basic
import Stagecraft.Plan.Run
import Stagecraft.Plan.Session
import Stagecraft.Plan.Shooting
import Stagecraft.Proofs.ActorRuns
import Stagecraft.Proofs.AimedCameras
import Stagecraft.Proofs.CacheRuns
import Stagecraft.Proofs.CameraShots
import Stagecraft.Proofs.CommandNumbers
import Stagecraft.Proofs.CommandRuns
import Stagecraft.Proofs.CommandTags
import Stagecraft.Proofs.ConfinedExports
import Stagecraft.Proofs.ContentStreams
import Stagecraft.Proofs.CurveJourneys
import Stagecraft.Proofs.DefaultedRanges
import Stagecraft.Proofs.ExportedFolders
import Stagecraft.Proofs.FaceTargets
import Stagecraft.Proofs.FileTrees
import Stagecraft.Proofs.FilledTracks
import Stagecraft.Proofs.IndependentSteps
import Stagecraft.Proofs.JoinedCurves
import Stagecraft.Proofs.JoinedMoves
import Stagecraft.Proofs.KeptFocals
import Stagecraft.Proofs.KeptReports
import Stagecraft.Proofs.KeyedSpans
import Stagecraft.Proofs.LaneRuns
import Stagecraft.Proofs.MeasuredCurves
import Stagecraft.Proofs.MergedSegments
import Stagecraft.Proofs.MovedScenes
import Stagecraft.Proofs.OffendingCommands
import Stagecraft.Proofs.OrderedNumbers
import Stagecraft.Proofs.OrderedTracks
import Stagecraft.Proofs.OtherRates
import Stagecraft.Proofs.Outcomes
import Stagecraft.Proofs.PhysicalProfiles
import Stagecraft.Proofs.PlannedMovies
import Stagecraft.Proofs.PlayedClips
import Stagecraft.Proofs.ProfileShape
import Stagecraft.Proofs.RangeWarnings
import Stagecraft.Proofs.RangeWindows
import Stagecraft.Proofs.RealScalar
import Stagecraft.Proofs.RecountedRuns
import Stagecraft.Proofs.RefusedPlans
import Stagecraft.Proofs.ReplayedCues
import Stagecraft.Proofs.ResolvedMotions
import Stagecraft.Proofs.RetaggedMovies
import Stagecraft.Proofs.SafeWalks
import Stagecraft.Proofs.SampledTracks
import Stagecraft.Proofs.ScriptSteps
import Stagecraft.Proofs.SessionRuns
import Stagecraft.Proofs.SharedStarts
import Stagecraft.Proofs.ShortTurns
import Stagecraft.Proofs.SolvedMotions
import Stagecraft.Proofs.SoundDivisions
import Stagecraft.Proofs.SplitStays
import Stagecraft.Proofs.StraightCurves
import Stagecraft.Proofs.SwappedBlocks
import Stagecraft.Proofs.TillEndStays
import Stagecraft.Proofs.TrackCoverage
import Stagecraft.Proofs.TurnedYaws
import Stagecraft.Proofs.ValidMovies
import Stagecraft.Proofs.WellFormedMovies
import Stagecraft.Proofs.WrittenMovies
import Stagecraft.Proofs.ZeroDivisors
import Stagecraft.Proofs.ZoomAccounts
import Stagecraft.Proofs.ZoomBounds
import Stagecraft.Proofs.ZoomTallies
import Stagecraft.Proofs.ZoomedFocals
import Stagecraft.Reel.Basic
import Stagecraft.Scalar
import Stagecraft.Search
import Stagecraft.Settings
import Stagecraft.Space
import Stagecraft.Text.Blank
import Stagecraft.Toml.Reader
import Stagecraft.Toml.Scalar
import Stagecraft.Toml.Table
import Stagecraft.Toml.Value
import Stagecraft.Toml.Writer
import Stagecraft.Track
import Stagecraft.Units
