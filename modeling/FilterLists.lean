import FilterLists.Main
import FilterLists.Proofs.Arrangement
import FilterLists.Proofs.Lists.Interleaving
import FilterLists.Proofs.Lists.Recovery
import FilterLists.Proofs.Pattern.Hosts
import FilterLists.Proofs.Pattern.Grammar
import FilterLists.Proofs.Scriptlet.Bundle
import FilterLists.Proofs.UrlFilters
import FilterLists.Proofs.Files.Change
import FilterLists.Proofs.ActivityLog
import FilterLists.Proofs.Republication
import FilterLists.Proofs.Candidates
import FilterLists.Proofs.Rule.Rearrangement
import FilterLists.Proofs.Rule.Calls
import FilterLists.Proofs.Rule.HiddenElements
import FilterLists.Proofs.Rule.Dollars
import FilterLists.Proofs.Pattern.Unambiguous
import FilterLists.Proofs.Capacity
import FilterLists.Proofs.Rule.Options
import FilterLists.Proofs.Files.Footprint
import FilterLists.Proofs.Lists.Counting
import FilterLists.Proofs.Rule.CleanDomains
import FilterLists.Proofs.Timestamp
