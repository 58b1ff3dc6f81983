import UmlOntology.FileName
import UmlOntology.Ontology.Statement
import UmlOntology.Uml.Document
import UmlOntology.Uml.Operation
import UmlOntology.Uml.Options.Json
import UmlOntology.Proofs.Uml.Request
import UmlOntology.Proofs.Uml.History
import UmlOntology.Proofs.Uml.Kinds
import UmlOntology.Proofs.Uml.Run
import UmlOntology.Proofs.Xml.Tree
import UmlOntology.Proofs.Xml.Markup
import UmlOntology.Proofs.Xml.Step
import UmlOntology.Proofs.Uml.Scopes
import UmlOntology.Proofs.Uml.Replay
import UmlOntology.Proofs.Uml.Order
import UmlOntology.Proofs.Uml.Construct
import UmlOntology.Proofs.Uml.Labels
import UmlOntology.Proofs.Uml.Identifiers
import UmlOntology.Proofs.Xml.Stream
import UmlOntology.Proofs.Text.Utf8
import UmlOntology.Proofs.Xml.Escape
import UmlOntology.Proofs.Xml.Written
import UmlOntology.Proofs.Xml.Tag
import UmlOntology.Proofs.Xml.RoundTrip
import UmlOntology.Proofs.Xml.Prefix
import UmlOntology.Proofs.Uml.Document
import UmlOntology.Proofs.Uml.Reference
import UmlOntology.Proofs.Uml.Distinct
import UmlOntology.Proofs.Uml.Provisional
import UmlOntology.Proofs.Uml.Totals
import UmlOntology.Proofs.Uml.Types
import UmlOntology.Proofs.Uml.Settings
import UmlOntology.Proofs.Uml.Essence
import UmlOntology.Proofs.Uml.Growth
import UmlOntology.Proofs.Ontology.Literal
import UmlOntology.Proofs.Ontology.Statement
import UmlOntology.Proofs.Uml.Output
import UmlOntology.Proofs.Uml.Subject
import UmlOntology.Proofs.Uml.Journal
import UmlOntology.Proofs.Ontology.Label
import UmlOntology.Proofs.Ontology.View
import UmlOntology.Proofs.Uml.Index
import UmlOntology.Proofs.Uml.Mandatory
