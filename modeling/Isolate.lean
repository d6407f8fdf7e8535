import Isolate.Attribution
import Isolate.Blueprint.Module
import Isolate.Blueprint.Script
import Isolate.CommandLine.Outcome
import Isolate.Diagnostic
import Isolate.Error.Report
import Isolate.Flight
import Isolate.Kind
import Isolate.Log
import Isolate.Main
import Isolate.Path.Specifier
import Isolate.Project.Reader
import Isolate.Proofs.Blueprint.Availability
import Isolate.Proofs.Blueprint.Seclusion
import Isolate.Proofs.Blueprint.Delivery
import Isolate.Proofs.Blueprint.Failures
import Isolate.Proofs.Blueprint.Life
import Isolate.Proofs.Blueprint.Once
import Isolate.Proofs.Blueprint.Places
import Isolate.Proofs.Blueprint.Provenance
import Isolate.Proofs.Blueprint.Reachable
import Isolate.Proofs.Blueprint.Refusals
import Isolate.Proofs.Blueprint.Retries
import Isolate.Proofs.Blueprint.RoundTrip
import Isolate.Proofs.Blueprint.Verbatim
import Isolate.Proofs.Diagnostic.Innermost
import Isolate.Proofs.Diagnostic.Quotations
import Isolate.Proofs.Diagnostic.Stacks
import Isolate.Proofs.Flight.Handover
import Isolate.Proofs.Flight.Leaving
import Isolate.Proofs.Json.Sorting
import Isolate.Proofs.Path.Directory
import Isolate.Proofs.Path.Joining
import Isolate.Proofs.Path.Pieces
import Isolate.Proofs.Path.Resolution
import Isolate.Proofs.Project.Texts
import Isolate.Proofs.Rules.Leading
import Isolate.Proofs.Rules.Segments
import Isolate.Proofs.Script.GlobalNames
import Isolate.Proofs.Script.Stringify
import Isolate.Proofs.Script.Tokens
import Isolate.Proofs.Text.Utf8
import Isolate.Proofs.Worker.Contract
import Isolate.Proofs.Worker.Positions
import Isolate.Proofs.Store.Native
import Isolate.Proofs.Store.Recording
import Isolate.Rules
import Isolate.Session
import Isolate.Store.Source
import Isolate.Wasm.Validator
import Isolate.Wrapper
