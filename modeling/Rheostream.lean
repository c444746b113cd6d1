import Rheostream.Work.ExactlyOnce
import Rheostream.Work.RetryBudget
import Rheostream.Storage.WorkIndex
import Rheostream.Storage.EnginesInUse
import Rheostream.Events.Order
import Rheostream.Events.RetryBudget
import Rheostream.Operations.KeyedReplay
import Rheostream.Operations.AdapterPaths
import Rheostream.Leads.LinkedSet
import Rheostream.Work.Coalescing
import Rheostream.Modules.RecordedModules
import Rheostream.Workspaces.Restore
import Rheostream.OAuth.GrantSafety
import Rheostream.Foundation.PyText
import Rheostream.Leads.Drafting
import Rheostream.Leads.ScoringClaims
import Rheostream.Leads.LinkRepair
import Rheostream.Leads.Dispositions
import Rheostream.Leads.IntakeOnce
import Rheostream.Leads.ConservativePermission
import Rheostream.Leads.SoundAssessment
import Rheostream.Leads.DraftRoundTrip
import Rheostream.Relationships.Ownership
import Rheostream.Routing.RoundTrip
import Rheostream.Foundation.Search
import Rheostream.Current.OneItem
import Rheostream.Current.Signals
import Rheostream.Leads.OneHandoffItem
import Rheostream.Recallatron.OrderFree
import Rheostream.Recallatron.EarlyStop
import Rheostream.Refs.ShortIdLaws
import Rheostream.Bridge.SettingsLaws
import Rheostream.Connectors.EventReaderLaws
import Rheostream.Bridge.SpoolCuts
import Rheostream.Settings.ReadBack
import Rheostream.Evidence.Resending
import Rheostream.Relationships.SecondCall
import Rheostream.Recallatron.FreshVectors
import Rheostream.Recallatron.ExpiredClosure
import Rheostream.Recallatron.OneRepresentation
import Rheostream.Recallatron.MemoryLineage
import Rheostream.Evidence.FailsClosed
import Rheostream.Tools.GenericCall
import Rheostream.Approvals.OneEffect
