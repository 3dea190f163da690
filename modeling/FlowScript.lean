import FlowScript.Host.Disk
import FlowScript.Main
import FlowScript.Proofs.Layout.RoundTrip
import FlowScript.Proofs.Session.Counter
import FlowScript.Proofs.Session.Saving
import FlowScript.Proofs.Script.Succession
import FlowScript.Proofs.Script.Reference
import FlowScript.Proofs.Session.Compilation
import FlowScript.Proofs.Session.Refusal
import FlowScript.Proofs.Script.Dependence
import FlowScript.Proofs.Session.DeadNode
import FlowScript.Proofs.Session.Wiring
import FlowScript.Proofs.Command.Reopening
import FlowScript.Proofs.Script.Naming
import FlowScript.Proofs.Layout.Verdict
import FlowScript.Proofs.Session.EditedScript
import FlowScript.Proofs.Session.Placeholders
import FlowScript.Proofs.Session.Comments
import FlowScript.Proofs.Session.Literals
import FlowScript.Proofs.Script.Identifier
import FlowScript.Proofs.Session.Drawing
import FlowScript.Proofs.Session.Dropping
import FlowScript.Proofs.Session.Undoing
import FlowScript.Proofs.Command.Compiling
import FlowScript.Proofs.Script.Layouts
import FlowScript.Proofs.Command.Creation
import FlowScript.Proofs.Graph.Suffix
import FlowScript.Proofs.Catalog.Indexing
