import PropertyGraph.Value.Display
import PropertyGraph.Main
import PropertyGraph.Proofs.SortedMap.Membership
import PropertyGraph.Proofs.Store.Index
import PropertyGraph.Proofs.Store.Coherence
import PropertyGraph.Proofs.Store.Reference
import PropertyGraph.Proofs.Store.Twin
import PropertyGraph.Proofs.Search.Join
import PropertyGraph.Proofs.Search.Assignment
import PropertyGraph.Proofs.Search.Trail
import PropertyGraph.Proofs.Search.Answers
import PropertyGraph.Proofs.Text.Run
import PropertyGraph.Proofs.Json.Number
import PropertyGraph.Proofs.Json.String
import PropertyGraph.Proofs.Json.RoundTrip
import PropertyGraph.Proofs.Value.SavedForm
import PropertyGraph.Proofs.Files.Record
import PropertyGraph.Proofs.Files.Replace
import PropertyGraph.Proofs.Files.Rebuild
import PropertyGraph.Proofs.Files.SaveLoad
import PropertyGraph.Proofs.Query.Scanning
import PropertyGraph.Proofs.Query.Phrase
import PropertyGraph.Proofs.Query.Tokens
import PropertyGraph.Proofs.Query.Rules
import PropertyGraph.Proofs.Query.Language
import PropertyGraph.Proofs.Query.Denotation
import PropertyGraph.Proofs.Store.Growth
import PropertyGraph.Proofs.Session.Plan
import PropertyGraph.Proofs.Session.Making
import PropertyGraph.Proofs.Session.Create
import PropertyGraph.Proofs.Files.Interrupted
import PropertyGraph.Proofs.Files.Preserved
import PropertyGraph.Proofs.Files.Apart
import PropertyGraph.Proofs.Files.Reopen
import PropertyGraph.Proofs.Session.Literals
import PropertyGraph.Proofs.Catalog.Residence
import PropertyGraph.Proofs.Session.Durable
import PropertyGraph.Proofs.Session.Twin
import PropertyGraph.Proofs.Session.Reopened
import PropertyGraph.Proofs.Files.Reread
import PropertyGraph.Proofs.Files.Freshness
import PropertyGraph.Proofs.Session.Removal
import PropertyGraph.Proofs.Session.Delete
import PropertyGraph.Proofs.Search.Within
import PropertyGraph.Proofs.Session.DeleteFound
import PropertyGraph.Proofs.Value.Alike
import PropertyGraph.Proofs.Search.Numbered
import PropertyGraph.Proofs.Session.FindCreated
import PropertyGraph.Proofs.Query.WellFormed
import PropertyGraph.Proofs.Session.Unfailing
import PropertyGraph.Proofs.Number.Rounding
import PropertyGraph.Proofs.Number.Shortest
import PropertyGraph.Proofs.Number.Parts
import PropertyGraph.Proofs.Number.Scaled
import PropertyGraph.Proofs.Json.FloatText
import PropertyGraph.Proofs.Json.Injective
import PropertyGraph.Proofs.Json.Depth
import PropertyGraph.Proofs.Search.Held
import PropertyGraph.Proofs.Files.Loaded
import PropertyGraph.Proofs.Files.Latest
import PropertyGraph.Proofs.Files.Repeats
import PropertyGraph.Proofs.Files.Loadable
import PropertyGraph.Proofs.Session.Rows
import PropertyGraph.Proofs.Session.Distinct
import PropertyGraph.Proofs.Session.Joined
import PropertyGraph.Proofs.Files.Confined
import PropertyGraph.Proofs.Session.Alone
import PropertyGraph.Proofs.Catalog.Registry
import PropertyGraph.Proofs.Session.World
import PropertyGraph.Proofs.Session.History
import PropertyGraph.Proofs.Session.Precedence
import PropertyGraph.Proofs.Session.StillThere
import PropertyGraph.Proofs.Search.Condition
import PropertyGraph.Proofs.Search.Regrouping
import PropertyGraph.Proofs.Files.Layout
import PropertyGraph.Proofs.Files.Restored
import PropertyGraph.Proofs.Number.Nearest
import PropertyGraph.Proofs.Value.Comparison
import PropertyGraph.Proofs.Number.Decimal
import PropertyGraph.Proofs.Json.SameData
import PropertyGraph.Proofs.Json.Grammar
import PropertyGraph.Proofs.Json.Document
import PropertyGraph.Proofs.Files.BareList
import PropertyGraph.Proofs.Session.Kept
import PropertyGraph.Proofs.Query.Valueless
import PropertyGraph.Proofs.Value.Symmetry
import PropertyGraph.Proofs.Value.Codec
import PropertyGraph.Proofs.Query.Quoted
