import DenonAvr.Library.Machine
import DenonAvr.ApiContract.State
import DenonAvr.ApiContract.Events
import DenonAvr.ApiContract.Error
import DenonAvr.ApiContract.Paths
import DenonAvr.Policy.Baseline
import DenonAvr.Protocol.QuickSelectName
import DenonAvr.Protocol.SourceCatalog
import DenonAvr.Session.Reader
import DenonAvr.Session.Reobserve
import DenonAvr.Session.Contract
import DenonAvr.Session.Connection
import DenonAvr.Session.Dispatch
import DenonAvr.Session.Echo
import DenonAvr.Session.StateRuns
import DenonAvr.Session.Debt
import DenonAvr.Application.Reservation
import DenonAvr.Application.Restart
import DenonAvr.Application.LateRebuild
import DenonAvr.Application.Counting
import DenonAvr.Application.Finished
import DenonAvr.Application.Table
import DenonAvr.Application.Charges
import DenonAvr.Application.AccessCounts
import DenonAvr.Application.IdleRelease
import DenonAvr.Application.Retirement
import DenonAvr.Application.Events
import DenonAvr.Application.FreeText
import DenonAvr.Infrastructure.LogRuns
import DenonAvr.Infrastructure.Pages
import DenonAvr.Infrastructure.Replay
import DenonAvr.Infrastructure.TokenWrites
import DenonAvr.Server.ConfigPut
import DenonAvr.Server.Streams
import DenonAvr.Gui.Reconnect
import DenonAvr.Gui.Reports
import DenonAvr.Session.Evidence
import DenonAvr.Infrastructure.ConfigSave
import DenonAvr.Infrastructure.Discovery
import DenonAvr.Infrastructure.ChunkedBody
import DenonAvr.Gui.Favorites
import DenonAvr.Application.Quiescence
import DenonAvr.Session.Pacing
import DenonAvr.Server.Instance
import DenonAvr.Server.Pipeline
import DenonAvr.ApiContract.Wire
import DenonAvr.ApiClient.EventStream
