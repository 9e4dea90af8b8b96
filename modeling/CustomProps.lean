import CustomProps.Main
import CustomProps.Session.Step
import CustomProps.Proofs.Block.Pieces
import CustomProps.Proofs.CommandLine.Bytes
import CustomProps.Proofs.CommandLine.Effects
import CustomProps.Proofs.CommandLine.Ending
import CustomProps.Proofs.CommandLine.Transform
import CustomProps.Proofs.Edit.Order
import CustomProps.Proofs.Files.Directories
import CustomProps.Proofs.Reference.Balance
import CustomProps.Proofs.Reference.Exchange
import CustomProps.Proofs.Reference.Leftover
import CustomProps.Proofs.Scope.RootSheet
import CustomProps.Proofs.Session.Accounts
import CustomProps.Proofs.Session.Rereading
import CustomProps.Proofs.Session.RootScope
import CustomProps.Proofs.Session.Run
import CustomProps.Proofs.Session.Twins
import CustomProps.Proofs.Session.Survival
import CustomProps.Proofs.Session.Versions
import CustomProps.Proofs.Sheet.Innermost
import CustomProps.Proofs.Sheet.LineEnds
import CustomProps.Proofs.Sheet.Protocol
import CustomProps.Proofs.Sheet.Squeeze
import CustomProps.Proofs.Text.LineEnds
import CustomProps.Proofs.Text.Squeeze
import CustomProps.Proofs.Block.Growth
import CustomProps.Proofs.Edit.Canonical
import CustomProps.Proofs.Reference.Matching
import CustomProps.Proofs.Session.Changes
import CustomProps.Proofs.Json.Names
import CustomProps.Proofs.Options.Faults
import CustomProps.Proofs.Reference.Recording
import CustomProps.Proofs.Sheet.Blanking
