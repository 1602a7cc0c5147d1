import Vaa.PairTree.Binding
import Vaa.KeyedLog
import Vaa.BoundedSum
import Vaa.Rust
import Vaa.Merkle.Binding
import Vaa.ProofStore.Refinement
import Vaa.Cli.Forgery
import Vaa.Cli.Evidence
import Vaa.Simstudy.RollForward
import Vaa.Simstudy.Faults
import Vaa.Simstudy.Population
import Vaa.Simstore.Basic
import Vaa.Simstore.Storage
import Vaa.Cli.Anchor
import Vaa.Cli.Settlement
import Vaa.Json
import Vaa.Simstore.Report
import Vaa.Cli.Reproduce
import Vaa.Merkle.Heights
import Vaa.ProofStore.Clients
import Vaa.Simstudy.Sample
import Vaa.Simstudy.Coincidence
import Vaa.Simstudy.Disclosure
import Vaa.Cli.Vectors
import Vaa.Cli.Bridge
import Vaa.Simstore.Sampling
import Vaa.Refusals
import Vaa.Cli.Session
import Vaa.Simstore.Dedup
import Vaa.Merkle.Accepted
import Vaa.ProofStore.Levels
import Vaa.Simstudy.Outcome
