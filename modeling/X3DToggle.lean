import X3DToggle.Automation
import X3DToggle.GameFiles
import X3DToggle.Generated
import X3DToggle.IrqUndo
import X3DToggle.ReadBack
import X3DToggle.Sessions
import X3DToggle.Suspend
import X3DToggle.Tracking
import X3DToggle.UserGames
import X3DToggle.Rejected
import X3DToggle.Arguments
import X3DToggle.SetMode
import X3DToggle.Offline
import X3DToggle.Interleave
import X3DToggle.TrackerLife
import X3DToggle.Topology
import X3DToggle.Readers
import X3DToggle.Reload
import X3DToggle.Info
import X3DToggle.Launcher
import X3DToggle.Convergence
import X3DToggle.Parking
import X3DToggle.LineArray
import X3DToggle.Interrupts
import X3DToggle.IrqWatch
import X3DToggle.Steam
import X3DToggle.Sleep
import X3DToggle.GamesLoad
import X3DToggle.Config.Laws
import X3DToggle.Removal
import X3DToggle.AddRemove
import X3DToggle.Selection
import X3DToggle.Rewriters
import X3DToggle.OtherKeys
import X3DToggle.Search
import X3DToggle.Copies
import X3DToggle.Journal
import X3DToggle.Strtol
import X3DToggle.Indent
import X3DToggle.Maps
import X3DToggle.Guard
import X3DToggle.Rotate
import X3DToggle.Trim
import X3DToggle.Confinement
import X3DToggle.History
import X3DToggle.Shutdown
import X3DToggle.ProcScan
import X3DToggle.ModeWrites
import X3DToggle.Pages
import X3DToggle.Guardrail
import X3DToggle.SearchPath
import X3DToggle.Exempt
import X3DToggle.Tracepoints
