import TagSearch.Main
import TagSearch.Proofs.Metatag.Reading
import TagSearch.Proofs.Query.Quotation
import TagSearch.Proofs.Query.Canonical
import TagSearch.Proofs.Query.Filter
import TagSearch.Proofs.Query.Meaning
import TagSearch.Proofs.Query.Negation
import TagSearch.Proofs.Query.Searchable
import TagSearch.Proofs.Store.Integrity
import TagSearch.Workspace
import TagSearch.Proofs.Search.Shape
import TagSearch.Proofs.Search.Limit
import TagSearch.Proofs.Search.Similarity
import TagSearch.Proofs.Search.Neighbour
import TagSearch.Proofs.Query.Alias
import TagSearch.Proofs.Query.Override
import TagSearch.Proofs.Store.Exchange
import TagSearch.Proofs.CountCache
import TagSearch.Proofs.Search.Nearest
import TagSearch.Proofs.Query.Expansion
import TagSearch.Proofs.Query.MergeLaws
import TagSearch.Proofs.PageMenu.Current
import TagSearch.Proofs.Search.Random
import TagSearch.Proofs.Store.LastWrite
import TagSearch.Proofs.Store.Membership
import TagSearch.Proofs.Text.Decimal
import TagSearch.Proofs.Query.Literal
import TagSearch.Proofs.Metatag.Pattern
import TagSearch.Proofs.Query.Pattern
import TagSearch.Proofs.Query.SimilarImage
import TagSearch.Proofs.CommandLine.Arguments
import TagSearch.Proofs.CommandLine.Login
import TagSearch.Proofs.Export
import TagSearch.Proofs.Hashing
import TagSearch.Proofs.Search.Keys
import TagSearch.Proofs.Config
