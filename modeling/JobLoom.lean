import JobLoom.Main
import JobLoom.Proofs.Command.Batch
import JobLoom.Proofs.Container.Variables
import JobLoom.Proofs.Conversion.Independence
import JobLoom.Proofs.Conversion.Refusal
import JobLoom.Proofs.Manifest.Realization
import JobLoom.Proofs.Pool.Delivery
import JobLoom.Proofs.Script
import JobLoom.Proofs.Graph.Bounds
import JobLoom.Proofs.Graph.Relation
import JobLoom.Proofs.Command.Single
import JobLoom.Proofs.Command.Sequence
import JobLoom.Proofs.Manifest.Runnable
import JobLoom.Proofs.Pool.Destruction
import JobLoom.Proofs.Pool.Draining
import JobLoom.Proofs.Manifest.Recovery
import JobLoom.Proofs.Pipeline.Jobs
import JobLoom.Proofs.Store.Agreement
import JobLoom.Proofs.Container.Places
import JobLoom.Proofs.Environment.Fallback
import JobLoom.Proofs.Container.Isolation
import JobLoom.Proofs.Container.Reuse
import JobLoom.Proofs.Container.Quantity
import JobLoom.Proofs.Manifest.Name
import JobLoom.Proofs.Script.Edits
import JobLoom.Proofs.Command.Settings
import JobLoom.Proofs.Command.Backlog
