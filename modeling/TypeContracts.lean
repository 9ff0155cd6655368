import TypeContracts.Call.OverloadTable
import TypeContracts.Script
import TypeContracts.World.Inspect
import TypeContracts.Spec.Union
import TypeContracts.Proofs.Conformance.Nominal
import TypeContracts.Proofs.Conformance.Soundness
import TypeContracts.Proofs.Conformance.Transitivity
import TypeContracts.Proofs.Conformance.Interchange
import TypeContracts.Proofs.Spec.Union
import TypeContracts.Proofs.Spec.Twins
import TypeContracts.Proofs.Conformance.Union
import TypeContracts.Proofs.Conformance.UpperBound
import TypeContracts.Proofs.World.Reachable
import TypeContracts.Proofs.Conformance.Interfaces
import TypeContracts.Proofs.Conformance.Substitution
import TypeContracts.Proofs.Conformance.Simulation
import TypeContracts.Proofs.Host
import TypeContracts.Proofs.Call.Settled
import TypeContracts.Proofs.Call.Overload
import TypeContracts.Proofs.Call.Nominal
import TypeContracts.Proofs.Conformance.Writes
import TypeContracts.Proofs.Session
import TypeContracts.Proofs.Call.Enforcement
import TypeContracts.Proofs.Call.Operations
import TypeContracts.Proofs.Logging
import TypeContracts.Proofs.Call.Arguments
import TypeContracts.Proofs.Conformance.Options
import TypeContracts.Proofs.Call.Registration
import TypeContracts.Proofs.Value.Collection
import TypeContracts.Proofs.Spec.Signature
import TypeContracts.Proofs.Call.Growth
import TypeContracts.Proofs.Call.Dispatch
import TypeContracts.Proofs.Call.Layers
import TypeContracts.Proofs.Call.Receiver
import TypeContracts.Proofs.Spec.Members
import TypeContracts.Proofs.Spec.Literal
import TypeContracts.Proofs.Number.Rational
import TypeContracts.Proofs.World.Methods
import TypeContracts.Proofs.Log
import TypeContracts.Proofs.World.Hierarchy
import TypeContracts.Proofs.Conformance.Termination
