import Reconciler.Proofs.Controller.Guard
import Reconciler.Proofs.Controller.Release
import Reconciler.Proofs.Controller.Report
import Reconciler.Proofs.Controller.Writers
import Reconciler.Proofs.Informer.Repetition
import Reconciler.Proofs.Informer.Resync
import Reconciler.Proofs.Resource.Layers
import Reconciler.Proofs.Resource.Nesting
import Reconciler.Proofs.Resource.Persistence
import Reconciler.Simulation.Consumer
import Reconciler.Simulation.Operator
import Reconciler.Simulation.Script
import Reconciler.Simulation.Server
import Reconciler.Simulation.Spread
import Reconciler.Telemetry.Dump
import Reconciler.Telemetry.Settings
import Reconciler.Proofs.Informer.Routing
import Reconciler.Proofs.Informer.LastSeen
import Reconciler.Proofs.Informer.Calls
import Reconciler.Proofs.Informer.Errors
import Reconciler.Proofs.Controller.Selection
import Reconciler.Proofs.Controller.Schema
import Reconciler.Proofs.Controller.Handling
import Reconciler.Proofs.Resource.Accounting
import Reconciler.Proofs.Resource.WholePasses
import Reconciler.Proofs.Backoff.Schedule
import Reconciler.Proofs.Controller.Shortcut
import Reconciler.Proofs.Informer.Listing
import Reconciler.Proofs.Informer.Queue
import Reconciler.Proofs.Informer.Pacing
import Reconciler.Proofs.Resource.Wrapping
import Reconciler.Proofs.Resource.Bracketing
import Reconciler.Proofs.Controller.Note
import Reconciler.Proofs.Resource.Foreign
import Reconciler.Proofs.Backoff.Ceiling
import Reconciler.Proofs.Classification
import Reconciler.Proofs.Informer.Independence
