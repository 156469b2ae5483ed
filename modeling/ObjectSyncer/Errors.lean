import Mathlib.Logic.Basic

/-!
# Errors

The errors of the Kubernetes client that the controller tells apart, and the controller's own.
-/
namespace ObjectSyncer

/-- `kube::Error`: an answer of the API server, a failed discovery, or anything else. -/
inductive KubeError where
  /-- The API server answered with an HTTP error code. -/
  | api (code : Nat) (message : String)
  /-- API discovery found no such group. -/
  | discovery (message : String)
  /-- Transport, serialization and all other errors. -/
  | other (message : String)
  deriving DecidableEq, Repr

namespace KubeError

/-- `ExtKubeApiError::is_not_found`. -/
def isNotFound : KubeError → Bool
  | .api code _ => code == 404 || code == 410
  | _ => false

/-- `ExtKubeApiError::is_conflict`. -/
def isConflict : KubeError → Bool
  | .api code _ => code == 409
  | _ => false

/-- `Display for kube::Error`. -/
def message : KubeError → String
  | .api _ message => message
  | .discovery message => message
  | .other message => message

end KubeError

/-- `ControllerError`. -/
inductive ControllerError where
  /-- Group, kind or version do not exist, perhaps only for now. -/
  | apiDiscoveryError (message : String)
  /-- Cluster scoped resources cannot be synced. -/
  | clusterScopedResource (message : String)
  /-- Some destinations could not be removed. -/
  | destinationRemovalError (message : String)
  /-- Kubernetes API error. -/
  | kubeApi (error : KubeError)
  /-- Serialization error. -/
  | serde (message : String)
  /-- Any other error. -/
  | any (message : String)
  deriving DecidableEq, Repr

namespace ControllerError

/-- `ControllerError::is_temporary`. -/
def isTemporary : ControllerError → Bool
  | .clusterScopedResource _ => false
  | _ => true

/-- `Display for ControllerError`. -/
def message : ControllerError → String
  | .apiDiscoveryError message => message
  | .clusterScopedResource message => message
  | .destinationRemovalError message => message
  | .kubeApi error => error.message
  | .serde message => message
  | .any message => message

end ControllerError

end ObjectSyncer
