import HostInventory.Main
import HostInventory.Proofs.ListRoundTrip
import HostInventory.Proofs.ListPass
import HostInventory.Proofs.PhysicalCaches
import HostInventory.Proofs.PhysicalCores
import HostInventory.Proofs.ListingOrder
import HostInventory.Proofs.RepeatedListing
import HostInventory.Proofs.SkippedCaches
import HostInventory.Proofs.MapEntries
import HostInventory.Proofs.RecordView
import HostInventory.Proofs.StanzaBlocks
import HostInventory.Proofs.ByteDamage
import HostInventory.Proofs.CollectionFailures
import HostInventory.Proofs.ConsultedFiles
import HostInventory.Proofs.CollectionRun
import HostInventory.Proofs.FailureIsolation
import HostInventory.Proofs.InterfaceGroups
import HostInventory.Proofs.CollectionAccount
import HostInventory.Proofs.ExitStatus
import HostInventory.Proofs.LogIndependence
import HostInventory.Proofs.ListGrammar
import HostInventory.Proofs.CanonicalList
import HostInventory.Proofs.StanzaRendering
import HostInventory.Proofs.IdentityFacts
import HostInventory.Proofs.CatalogNames
import HostInventory.Proofs.PairLookup
import HostInventory.Proofs.AddressText
import HostInventory.Proofs.NetworkBlocks
import HostInventory.Proofs.ReportRoundTrip
import HostInventory.Proofs.EncodedText
import HostInventory.Proofs.MemoryAmounts
import HostInventory.Proofs.SelectedRuns
import HostInventory.Proofs.DifferenceBelow
import HostInventory.Proofs.PlatformFacts
import HostInventory.Proofs.OutlineNodes
import HostInventory.Proofs.NumeralValues
import HostInventory.Proofs.SizeTexts
import HostInventory.Proofs.TotalsRuns
import HostInventory.Proofs.ProbeRun
