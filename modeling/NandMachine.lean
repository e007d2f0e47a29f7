import NandMachine.Instruction.Json
import NandMachine.Main
import NandMachine.Proofs.Memory.Access
import NandMachine.Proofs.Memory.Chronicle
import NandMachine.Proofs.Instruction.Source
import NandMachine.Proofs.Instruction.Listing
import NandMachine.Proofs.Machine.Step
import NandMachine.Proofs.Machine.Table
import NandMachine.Proofs.Layout.Build
import NandMachine.Proofs.Machine.Run
import NandMachine.Proofs.Program.Loaded
import NandMachine.Proofs.Program.Closed
import NandMachine.Proofs.Layout.Strict
import NandMachine.Proofs.Memory.Checked
import NandMachine.Proofs.Memory.Display
import NandMachine.Proofs.Program.Listing
import NandMachine.Proofs.Machine.Host
import NandMachine.Proofs.Machine.Account
import NandMachine.Proofs.Machine.Halt
import NandMachine.Proofs.Machine.Influence
import NandMachine.Proofs.Machine.Frame
import NandMachine.Proofs.Program.Stores
import NandMachine.Proofs.Command.Session
import NandMachine.Proofs.Layout.Check
import NandMachine.Proofs.Json.RoundTrip
import NandMachine.Proofs.Machine.Log
import NandMachine.Proofs.Machine.Fitted
import NandMachine.Proofs.Layout.Shape
import NandMachine.Proofs.Machine.Output
import NandMachine.Proofs.Command.Dump
import NandMachine.Proofs.Command.Stream
import NandMachine.Proofs.Memory.Image
import NandMachine.Proofs.Instruction.Tables
import NandMachine.Proofs.Machine.Fetch
import NandMachine.Proofs.Bytes.Run
