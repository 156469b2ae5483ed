import ObjectSyncer.AuthorizedRuns
import ObjectSyncer.Coexistence
import ObjectSyncer.ConditionHistory
import ObjectSyncer.Contention
import ObjectSyncer.Convergence
import ObjectSyncer.Deletability
import ObjectSyncer.DependedSources
import ObjectSyncer.DestinationRemoval
import ObjectSyncer.DestinationWatch
import ObjectSyncer.Expansion
import ObjectSyncer.FaultIsolation
import ObjectSyncer.FinalizerPatch
import ObjectSyncer.Fixpoint
import ObjectSyncer.Footprint
import ObjectSyncer.Format
import ObjectSyncer.InSync
import ObjectSyncer.Lifecycle
import ObjectSyncer.LiveControllers
import ObjectSyncer.LostUpdate
import ObjectSyncer.Quiescence
import ObjectSyncer.ReadyCondition
import ObjectSyncer.Registration
import ObjectSyncer.RequestCost
import ObjectSyncer.SourceChange
import ObjectSyncer.SourceContent
import ObjectSyncer.SourceDeletion
import ObjectSyncer.SourceFinalizer
import ObjectSyncer.SourceKinds
import ObjectSyncer.SourceProtection
import ObjectSyncer.StuckFinalizers
import ObjectSyncer.TargetNamespaces
import ObjectSyncer.Teardown
import ObjectSyncer.UserEdits
import ObjectSyncer.Watch
import ObjectSyncer.WriteAhead
