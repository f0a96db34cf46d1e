import PredicateSql.Query
import PredicateSql.Settings.Sources
import PredicateSql.Cipher.Json
import PredicateSql.Dialect.Json
import PredicateSql.Value.Json
import PredicateSql.Proofs.Condition.Basic
import PredicateSql.Proofs.Condition.Binding
import PredicateSql.Proofs.Condition.Operand
import PredicateSql.Proofs.Compilation.Calls
import PredicateSql.Proofs.Compilation.Joins
import PredicateSql.Proofs.Compilation.Rejection
import PredicateSql.Proofs.Compilation.Strings
import PredicateSql.Proofs.Meaning.Formula
import PredicateSql.Proofs.Meaning.Spelling
import PredicateSql.Proofs.Compilation.Existence
import PredicateSql.Proofs.Compilation.Encryption
import PredicateSql.Proofs.Encryption.Literals
import PredicateSql.Proofs.Encryption.Tests
import PredicateSql.Proofs.Cipher.RoundTrip
import PredicateSql.Proofs.Compilation.Emptiness
import PredicateSql.Proofs.Compilation.BooleanMembers
import PredicateSql.Proofs.Compilation.EmptyLists
import PredicateSql.Proofs.Compilation.Dialects
import PredicateSql.Proofs.Compilation.Captures
import PredicateSql.Proofs.Compilation.FirstRow
import PredicateSql.Proofs.Compilation.Ordering
import PredicateSql.Proofs.Compilation.Modifiers
import PredicateSql.Proofs.Compilation.RootNames
import PredicateSql.Proofs.Cipher.Truncation
import PredicateSql.Proofs.Cipher.StoredForms
import PredicateSql.Proofs.Cipher.KeySizes
import PredicateSql.Proofs.Compilation.Conversions
import PredicateSql.Proofs.Compilation.Grouping
import PredicateSql.Proofs.Settings.Layers
import PredicateSql.Proofs.Quoting.Identifiers
import PredicateSql.Proofs.Compilation.SingleOperands
import PredicateSql.Proofs.Compilation.EnumNames
import PredicateSql.Proofs.Compilation.TextColumns
import PredicateSql.Proofs.Compilation.BareLiterals
import PredicateSql.Proofs.Compilation.Composition
import PredicateSql.Proofs.Buffer.Markers
import PredicateSql.Proofs.Buffer.Finality
import PredicateSql.Proofs.Buffer.Collapsing
import PredicateSql.Proofs.Compilation.Counts
import PredicateSql.Proofs.Registry.Tags
import PredicateSql.Proofs.Registry.Histories
import PredicateSql.Proofs.Value.Documents
import PredicateSql.Proofs.Quoting.Counting
import PredicateSql.Proofs.Compilation.Paths
