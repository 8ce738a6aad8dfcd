import Cohort.Catalog.Bundled
import Cohort.Catalog.File
import Cohort.Expression.Describe
import Cohort.Expression.New
import Cohort.Log.Book
import Cohort.Service.Basic
import Cohort.Service.Settings
import Cohort.Proofs.Expression.Editing
import Cohort.Proofs.Expression.Grammar
import Cohort.Proofs.Expression.Independence
import Cohort.Proofs.Expression.JsonText
import Cohort.Proofs.Expression.Paths
import Cohort.Proofs.Expression.RoundTrip
import Cohort.Proofs.Search.LiteralList
import Cohort.Proofs.Search.Unsearched
import Cohort.Proofs.Search.Untested
import Cohort.Proofs.Sql.Alignment
import Cohort.Proofs.Sql.Marks
import Cohort.Proofs.Sql.Meaning
import Cohort.Proofs.Sql.Noninterference
import Cohort.Proofs.Sql.Pattern
import Cohort.Proofs.Sql.Polarity
import Cohort.Proofs.Validation.Locality
import Cohort.Proofs.Validation.Soundness
import Cohort.Proofs.Validation.Totality
import Cohort.Proofs.Preview.Conduct
import Cohort.Proofs.Preview.Execution
import Cohort.Proofs.Preview.Insertion
import Cohort.Proofs.Preview.Protocol
import Cohort.Proofs.Service.Envelope
import Cohort.Proofs.Service.Gate
import Cohort.Proofs.Service.Statements
import Cohort.Proofs.Expression.Alteration
import Cohort.Proofs.Expression.Lens
import Cohort.Proofs.Expression.Siblings
import Cohort.Proofs.Catalog.Building
import Cohort.Proofs.Catalog.Categories
import Cohort.Proofs.Catalog.Loading
import Cohort.Proofs.Date.Range
import Cohort.Proofs.Filters.Locality
import Cohort.Proofs.Service.Warnings
import Cohort.Proofs.Sql.Identifier
import Cohort.Proofs.Log.Calls
