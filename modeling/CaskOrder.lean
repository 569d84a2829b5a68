import CaskOrder.Json.Grammar
import CaskOrder.Report
import CaskOrder.Schema.Verdict
import CaskOrder.Session
import CaskOrder.Proofs.Schema.FirstDefect
import CaskOrder.Proofs.Schema.Places
import CaskOrder.Proofs.Json.Blanks
import CaskOrder.Proofs.Json.Strings
import CaskOrder.Proofs.Json.Numerals
import CaskOrder.Proofs.Json.Skipping
import CaskOrder.Proofs.Config.Loading
import CaskOrder.Proofs.Config.Reload
import CaskOrder.Proofs.Schema.WeakOrder
import CaskOrder.Proofs.OnSystem.Lookup
import CaskOrder.Proofs.Schema.Joining
import CaskOrder.Proofs.Config.Reports
import CaskOrder.Proofs.Schema.SameVerdicts
import CaskOrder.Proofs.Schema.Rearranging
import CaskOrder.Proofs.Config.Platform
import CaskOrder.Proofs.OnSystem.Architectures
import CaskOrder.Proofs.Schema.Checking
import CaskOrder.Proofs.Schema.Restricting
import CaskOrder.Proofs.OnSystem.Releases
import CaskOrder.Proofs.OnSystem.Repetitions
import CaskOrder.Proofs.OnSystem.Joining
import CaskOrder.Proofs.Config.Equality
import CaskOrder.Proofs.Config.Stanzas
import CaskOrder.Proofs.Config.CutExports
import CaskOrder.Proofs.Json.AbsentFields
import CaskOrder.Proofs.Config.ReportsAsConfigurations
import CaskOrder.Proofs.Json.Choices
import CaskOrder.Proofs.Config.NamedValues
import CaskOrder.Proofs.OnSystem.CaskStanzas
import CaskOrder.Proofs.Text.Utf8Order
import CaskOrder.Proofs.Schema.StanzaOrder
import CaskOrder.Proofs.Json.Faults
import CaskOrder.Proofs.Json.ValueFaults
import CaskOrder.Proofs.Config.ErrorPlaces
import CaskOrder.Proofs.Decimal.ReadsBack
import CaskOrder.Proofs.Session.Runs
