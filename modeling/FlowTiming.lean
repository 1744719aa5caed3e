import FlowTiming.Main
import FlowTiming.Network.Building
import FlowTiming.Propagation.Table
import FlowTiming.Proofs.Propagation.Board
import FlowTiming.Proofs.Propagation.Unfolding
import FlowTiming.Proofs.Propagation.Passes
import FlowTiming.Proofs.Propagation.TableClosure
import FlowTiming.Proofs.Network.WellFormed
import FlowTiming.Proofs.NetworkFile.Building
import FlowTiming.Proofs.Flow.Handing
import FlowTiming.Proofs.Dynamics.Triggers
import FlowTiming.Proofs.Flow.Closure
import FlowTiming.Proofs.Flow.Seeding
import FlowTiming.Proofs.Flow.SeededTasks
import FlowTiming.Proofs.Flow.Dependence
import FlowTiming.Proofs.Flow.Resolution
import FlowTiming.Proofs.Flow.Attempt
import FlowTiming.Proofs.Flow.Linking
import FlowTiming.Proofs.Flow.FinalNodes
import FlowTiming.Proofs.Flow.FinalTriggers
import FlowTiming.Proofs.Flow.Stall
import FlowTiming.Proofs.Policy.Judgement
import FlowTiming.Proofs.Policy.Provision
import FlowTiming.Proofs.Dynamics.Arrivals
import FlowTiming.Proofs.Policy.Capacity
import FlowTiming.Proofs.Network.Endpoint
import FlowTiming.Proofs.Policy.CycleFailure
import FlowTiming.Proofs.Flow.Devices
import FlowTiming.Proofs.Propagation.Updates
import FlowTiming.Proofs.NetworkFile.Validation
import FlowTiming.Proofs.NetworkFile.Deployment
import FlowTiming.Proofs.Propagation.Turns
import FlowTiming.Proofs.Propagation.Balance
import FlowTiming.Proofs.Policy.Relabelling
import FlowTiming.Proofs.Policy.Accounting
import FlowTiming.Proofs.Flow.Locality
import FlowTiming.Proofs.Network.Extension
import FlowTiming.Proofs.Flow.Mirroring
import FlowTiming.Proofs.Flow.Upstream
import FlowTiming.Proofs.Binary64.Rounding
import FlowTiming.Proofs.Policy.Sizes
import FlowTiming.Proofs.Policy.Widening
import FlowTiming.Proofs.Flow.Bursts
import FlowTiming.Proofs.Flow.Declared
import FlowTiming.Proofs.Dynamics.Resampling
import FlowTiming.Proofs.Propagation.Components
import FlowTiming.Proofs.Flow.SeedingDepth
import FlowTiming.Proofs.Flow.TaskSeeds
import FlowTiming.Proofs.Policy.RootPeriod
import FlowTiming.Proofs.Network.MasterChain
import FlowTiming.Proofs.Policy.Overflow
import FlowTiming.Proofs.NetworkFile.Faithfulness
import FlowTiming.Proofs.NetworkFile.Endpoints
import FlowTiming.Proofs.Network.Bundles
import FlowTiming.Proofs.Dynamics.Operations
