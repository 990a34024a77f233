import Docstore.Main
import Docstore.Model.Registry
import Docstore.Proofs.Listener.Position
import Docstore.Proofs.Log.Chunks
import Docstore.Proofs.Log.Interleaving
import Docstore.Proofs.Log.Visibility
import Docstore.Proofs.Predicate.Meaning
import Docstore.Proofs.Predicate.Unambiguous
import Docstore.Proofs.Predicate.Verbatim
import Docstore.Settings.Level
import Docstore.Proofs.Model.Routing
import Docstore.Listener.Scene
import Docstore.Proofs.Listener.Scenes
import Docstore.Proofs.Bus.Receivers
import Docstore.Proofs.Listener.Publishing
import Docstore.Proofs.Listener.Stopping
import Docstore.Proofs.Listener.Balance
import Docstore.Proofs.Bus.Delivery
import Docstore.Proofs.Statement.Acceptance
import Docstore.Proofs.Statement.Pinned
import Docstore.Proofs.Statement.Upsert
import Docstore.Proofs.Statement.ReadBack
import Docstore.Proofs.Log.DocumentId
import Docstore.Proofs.Pipeline.Stages
import Docstore.Proofs.Pipeline.Names
import Docstore.Proofs.Term.PathReading
import Docstore.Proofs.Update.NormalForm
import Docstore.Proofs.Statement.PrimaryKey
import Docstore.Proofs.Pipeline.Shape
import Docstore.Proofs.Pipeline.Variables
import Docstore.Proofs.Statement.Expression
import Docstore.Proofs.Term.Numeric
import Docstore.Proofs.Statement.LeftSides
import Docstore.Proofs.Bus.Calls
import Docstore.Proofs.Log.Accounts
import Docstore.Proofs.EdgeList
import Docstore.Proofs.Predicate.Membership
import Docstore.Proofs.Criteria.Format
import Docstore.Proofs.Log.Respelling
import Docstore.Proofs.Log.History
import Docstore.Proofs.Distance
