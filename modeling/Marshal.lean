import Marshal.DeclarationCell
import Marshal.Derivation.Declaration
import Marshal.Derivation.Description
import Marshal.Exact.Cause
import Marshal.Exact.Type
import Marshal.Package.Description
import Marshal.Read.Strict
import Marshal.Report.Derivation
import Marshal.Report.Document
import Marshal.Report.Schema
import Marshal.Settings.Global
import Marshal.Structure.Placement
import Marshal.Structure.Selection
import Marshal.Write.Document
import Marshal.Proofs.Derivation.Spelling
import Marshal.Proofs.Graph.Connections
import Marshal.Proofs.Graph.Dot
import Marshal.Proofs.Graph.Ending
import Marshal.Proofs.Graph.Nodes
import Marshal.Proofs.Graph.Outputs
import Marshal.Proofs.Json.Dumping
import Marshal.Proofs.Json.RoundTrip
import Marshal.Proofs.Reading.Chosen
import Marshal.Proofs.Reading.Integers
import Marshal.Proofs.Reading.Kept
import Marshal.Proofs.Reading.Leniency
import Marshal.Proofs.Reading.Rearranged
import Marshal.Proofs.Reading.Residue
import Marshal.Proofs.Reading.Targets
import Marshal.Proofs.Reading.Trails
import Marshal.Proofs.RoundTrip.Enumerators
import Marshal.Proofs.RoundTrip.Forms
import Marshal.Proofs.RoundTrip.Keys
import Marshal.Proofs.RoundTrip.Values
import Marshal.Proofs.Settings.Declaring
import Marshal.Proofs.Settings.Loading
import Marshal.Proofs.Settings.Refusal
import Marshal.Proofs.Settings.Registrations
import Marshal.Proofs.Settings.Rollback
import Marshal.Proofs.Settings.Saving
import Marshal.Proofs.Settings.Transfer
import Marshal.Proofs.Structure.Cells
import Marshal.Proofs.Structure.Lookups
import Marshal.Proofs.Writing.Refusal
import Marshal.Proofs.Writing.Replacing
