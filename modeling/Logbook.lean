import Logbook.Placeholder.Stock
import Logbook.Proofs.ArgumentFields
import Logbook.Proofs.BodiesKept
import Logbook.Proofs.BodyPlace
import Logbook.Proofs.CascadeCalls
import Logbook.Proofs.Composition
import Logbook.Proofs.ConfigReading
import Logbook.Proofs.ConfigRoundTrip
import Logbook.Proofs.DeliveredRuns
import Logbook.Proofs.EscapeSequences
import Logbook.Proofs.Exits
import Logbook.Proofs.FailureReports
import Logbook.Proofs.FileWrites
import Logbook.Proofs.Flushing
import Logbook.Proofs.Isolation
import Logbook.Proofs.LevelCascade
import Logbook.Proofs.LevelColumns
import Logbook.Proofs.LevelInheritance
import Logbook.Proofs.LevelNames
import Logbook.Proofs.MemoHistory
import Logbook.Proofs.MemoTransparency
import Logbook.Proofs.MemoryCapture
import Logbook.Proofs.MessageRecovery
import Logbook.Proofs.PlaceholderCalls
import Logbook.Proofs.RecordLines
import Logbook.Proofs.Routing
import Logbook.Proofs.StreamWrites
import Logbook.Proofs.TimeLayouts
import Logbook.Proofs.TimeOrder
import Logbook.Proofs.TokenBoundaries
import Logbook.Session.Run
import Logbook.Text.Pad
import Logbook.Time.Json
