import ReplicatedLog.Channel.Settings
import ReplicatedLog.Codec.Plain
import ReplicatedLog.Main
import ReplicatedLog.Proofs.Binary.Delimiting
import ReplicatedLog.Proofs.Channel.Documents
import ReplicatedLog.Proofs.Channel.Hosting
import ReplicatedLog.Proofs.Channel.Stalling
import ReplicatedLog.Proofs.Cluster.Agreement
import ReplicatedLog.Proofs.Cluster.Converging
import ReplicatedLog.Proofs.Cluster.Crew
import ReplicatedLog.Proofs.Cluster.Interrupting
import ReplicatedLog.Proofs.Cluster.Operating
import ReplicatedLog.Proofs.Cluster.Playing
import ReplicatedLog.Proofs.Cluster.Recognizing
import ReplicatedLog.Proofs.Cluster.Scenario
import ReplicatedLog.Proofs.Cluster.Workload
import ReplicatedLog.Proofs.Command.Admission
import ReplicatedLog.Proofs.Concourse.Seclusion
import ReplicatedLog.Proofs.Desk.Failing
import ReplicatedLog.Proofs.Desk.Wakeups
import ReplicatedLog.Proofs.Dispatch.Interruptions
import ReplicatedLog.Proofs.Exchange.Quiet
import ReplicatedLog.Proofs.Log.Addressing
import ReplicatedLog.Proofs.Log.Carrying
import ReplicatedLog.Proofs.Log.Order
import ReplicatedLog.Proofs.Log.Recovering
import ReplicatedLog.Proofs.Log.Refusing
import ReplicatedLog.Proofs.Log.Rewinding
import ReplicatedLog.Proofs.Runner.Closing
import ReplicatedLog.Proofs.Runner.Idling
import ReplicatedLog.Proofs.Runner.Stopping
import ReplicatedLog.Proofs.Runner.Watch
import ReplicatedLog.Proofs.Trace.Ancestry
import ReplicatedLog.Proofs.Trace.Documents
import ReplicatedLog.Proofs.Trace.Lifetimes
import ReplicatedLog.Proofs.Trace.Lines
import ReplicatedLog.Proofs.Trace.Nesting
import ReplicatedLog.Session.Run
import ReplicatedLog.Trace.Output
