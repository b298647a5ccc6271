import FilmOS.Board.Batches
import FilmOS.Board.FormulaRuns
import FilmOS.Board.QueueOrder
import FilmOS.Production.CanonicalForm
import FilmOS.Scheduling.Combinations
import FilmOS.Scheduling.Guards
import FilmOS.Scheduling.Staleness
import FilmOS.Agent.Archive
import FilmOS.Agent.Chain
import FilmOS.Agent.Claiming
import FilmOS.Agent.Commands
import FilmOS.Agent.EventReader
import FilmOS.Agent.Executors
import FilmOS.Agent.FileLaws
import FilmOS.Agent.ItemOrders
import FilmOS.Agent.Messages
import FilmOS.Agent.ModelIO
import FilmOS.Agent.PlanLife
import FilmOS.Agent.RecognitionLaws
import FilmOS.Agent.Submission
import FilmOS.Agent.ToolRuns
import FilmOS.Agent.UserEdits
import FilmOS.Identity.Resolution
