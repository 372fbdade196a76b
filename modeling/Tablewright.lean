import Tablewright.Files.Tree
import Tablewright.Main
import Tablewright.Proofs.Checks
import Tablewright.Proofs.Schema.Accepted
import Tablewright.Proofs.Schema.Validity
import Tablewright.Proofs.Schema.Blame
import Tablewright.Proofs.Finder.Candidates
import Tablewright.Proofs.Finder.Single
import Tablewright.Proofs.Sql.KeyColumns
import Tablewright.Proofs.Dao.Query
import Tablewright.Proofs.Model.Imports
import Tablewright.Proofs.Schema.Stored
import Tablewright.Proofs.Dao.Save
import Tablewright.Proofs.Dao.Members
import Tablewright.Proofs.Model.Forwarding
import Tablewright.Proofs.Entity.Codecs
import Tablewright.Proofs.Code.Roundtrip
import Tablewright.Proofs.Model.Scope
import Tablewright.Proofs.Model.Comparisons
import Tablewright.Proofs.Model.Members
import Tablewright.Proofs.Finder.Declared
import Tablewright.Proofs.Command.Stages
import Tablewright.Proofs.Model.ReadOnly
import Tablewright.Proofs.Project.Outputs
import Tablewright.Proofs.Model.NilSafety
import Tablewright.Proofs.Schema.BackReferences
import Tablewright.Proofs.Schema.InlineKeys
import Tablewright.Proofs.Model.Advertised
import Tablewright.Proofs.Dao.Stamps
import Tablewright.Proofs.Sql.Qualified
import Tablewright.Proofs.Schema.ListedColumns
import Tablewright.Proofs.Schema.Modifiers
import Tablewright.Proofs.Schema.Members
import Tablewright.Proofs.Finder.Sequences
import Tablewright.Proofs.Code.Indentation
import Tablewright.Proofs.Code.Literals
import Tablewright.Proofs.Code.Columns
import Tablewright.Proofs.Project.OutputNames
import Tablewright.Proofs.Project.Batches
import Tablewright.Proofs.Report.Outline
