import StorageNode.Container.LoadError

/-!
# The log

Whatever happens on the node that an operator may want to know is an `Event`. How serious it is, which
part of the node it comes from, and its words follow from the event alone.
-/

namespace StorageNode

/-- How serious an event is, the most serious first. -/
inductive LogLevel where
  | error
  | warn
  | info
  | debug
  | trace
deriving DecidableEq, Repr

/-- The word for a level. -/
def LogLevel.word : LogLevel → String
  | error => "ERROR"
  | warn => "WARN"
  | info => "INFO"
  | debug => "DEBUG"
  | trace => "TRACE"

/-- Why a volume cannot be used. -/
inductive VolumeFault where
  | unreadable (root : FilePath) (cause : DiskError)
  | noCluster (root : FilePath)
  /-- There is more than one cluster directory. -/
  | manyClusters (root : FilePath) (found : List FilePath)
deriving DecidableEq, Repr

/-- The text of a fault. -/
def VolumeFault.message : VolumeFault → String
  | unreadable root cause =>
    "volume root " ++ Text.quoted root.text ++ " is unreadable: " ++ cause.message
  | noCluster root => "volume root " ++ Text.quoted root.text ++ " has no cluster directory"
  | manyClusters root found =>
    "volume root " ++ Text.quoted root.text ++ " has " ++ toString found.length
      ++ " cluster directories"

/-- Something that happens on the node. -/
inductive Event where
  | volumeRegistered (volume : VolumeId) (root : FilePath)
  | volumeFailed (volume : VolumeId) (root : FilePath)
  /-- A failure is reported of a root that is no volume of the node. -/
  | unknownVolumeFailed (root : FilePath)
  | volumeInvalid (volume : VolumeId) (fault : VolumeFault) (root : FilePath)
  | currentUnreadable (volume : VolumeId) (dir : FilePath) (cause : DiskError)
  | groupUnreadable (volume : VolumeId) (dir : FilePath) (cause : DiskError)
  /-- A directory among those of containers is not named by a number. -/
  | nameMalformed (volume : VolumeId) (dir : FilePath)
  | containerInserted (volume : VolumeId) (id : ContainerId)
  | containerLoaded (volume : VolumeId) (id : ContainerId) (state : ContainerState)
  | containerSkipped (volume : VolumeId) (id : ContainerId) (cause : LoadError)
  | scanComplete (volume : VolumeId) (root : FilePath) (loaded skipped : Nat) (aborted : Bool)
  | containerProvisioned (id : ContainerId) (dir : FilePath)
  | scanCrashed (volume : VolumeId) (root : FilePath)
  | recoveryComplete (volumes loaded skipped failed catalog : Nat)
  | recoveryStarted (config : FilePath) (volumes : Nat)
  | volumeUnusable (root : FilePath)
deriving DecidableEq, Repr

namespace Event

/-- How serious an event is. -/
def level : Event → LogLevel
  | volumeInvalid .. => .error
  | nameMalformed .. => .error
  | scanCrashed .. => .error
  | volumeFailed .. => .warn
  | unknownVolumeFailed _ => .warn
  | currentUnreadable .. => .warn
  | groupUnreadable .. => .warn
  | containerSkipped .. => .warn
  | volumeUnusable _ => .warn
  | volumeRegistered .. => .info
  | scanComplete .. => .info
  | containerProvisioned .. => .info
  | recoveryComplete .. => .info
  | recoveryStarted .. => .info
  | containerInserted .. => .debug
  | containerLoaded .. => .debug

/-- The part of the node that an event comes from. -/
def target : Event → String
  | volumeRegistered .. => "datanode::volume::registry"
  | volumeFailed .. => "datanode::volume::registry"
  | unknownVolumeFailed _ => "datanode::volume::registry"
  | volumeInvalid .. => "datanode::volume::scanner"
  | currentUnreadable .. => "datanode::volume::scanner"
  | groupUnreadable .. => "datanode::volume::scanner"
  | nameMalformed .. => "datanode::volume::scanner"
  | containerLoaded .. => "datanode::volume::scanner"
  | containerSkipped .. => "datanode::volume::scanner"
  | scanComplete .. => "datanode::volume::scanner"
  | containerInserted .. => "datanode::container::catalog"
  | containerProvisioned .. => "datanode::container::provision"
  | scanCrashed .. => "datanode::recovery"
  | recoveryComplete .. => "datanode::recovery"
  | recoveryStarted .. => "recover_volumes"
  | volumeUnusable _ => "recover_volumes"

/-- A name and a value. -/
def item (name value : String) : String := " " ++ name ++ "=" ++ value

/-- The items of a volume. -/
def volumeItem (v : VolumeId) : String := item "volume" (VolumeId.label v)

/-- The item of a root. -/
def rootItem (p : FilePath) : String := item "root" p.text

/-- The item of a path. -/
def pathItem (p : FilePath) : String := item "path" p.text

/-- The item of a container. -/
def containerItem (id : ContainerId) : String := item "container_id" (ContainerId.text id)

/-- The item of a count. -/
def countItem (name : String) (n : Nat) : String := item name (toString n)

/-- The item of a cause. -/
def causeItem (words : String) : String := item "error" words

/-- The words of an event. -/
def words : Event → String
  | volumeRegistered v root => "event=volume_registered" ++ volumeItem v ++ rootItem root
  | volumeFailed v root => "event=volume_failed" ++ volumeItem v ++ rootItem root
  | unknownVolumeFailed root => "event=volume_failed_unknown" ++ rootItem root
  | volumeInvalid v fault root =>
    "event=volume_structure_invalid" ++ volumeItem v ++ rootItem root ++ causeItem fault.message
  | currentUnreadable v dir cause =>
    "event=volume_current_unreadable" ++ volumeItem v ++ pathItem dir ++ causeItem cause.message
  | groupUnreadable v dir cause =>
    "event=container_group_unreadable" ++ volumeItem v ++ pathItem dir ++ causeItem cause.message
  | nameMalformed v dir => "event=container_dir_malformed" ++ volumeItem v ++ pathItem dir
  | containerInserted v id => "event=catalog_insert" ++ containerItem id ++ volumeItem v
  | containerLoaded v id state =>
    "event=container_loaded" ++ volumeItem v ++ containerItem id ++ item "state" state.label
  | containerSkipped v id cause =>
    "event=container_skipped" ++ volumeItem v ++ containerItem id ++ item "kind" cause.kind.label
      ++ causeItem cause.message
  | scanComplete v root loaded skipped aborted =>
    "event=volume_scan_complete" ++ volumeItem v ++ rootItem root ++ countItem "loaded" loaded
      ++ countItem "skipped" skipped ++ item "aborted" (if aborted then "true" else "false")
  | containerProvisioned id dir => "event=container_provisioned" ++ containerItem id ++ pathItem dir
  | scanCrashed v root => "event=volume_scan_panicked" ++ volumeItem v ++ rootItem root
  | recoveryComplete volumes loaded skipped failed catalog =>
    "event=recovery_complete" ++ countItem "volumes" volumes ++ countItem "loaded" loaded
      ++ countItem "skipped" skipped ++ countItem "failed" failed ++ countItem "catalog" catalog
  | recoveryStarted config volumes =>
    "event=recovery_start" ++ item "config" config.text ++ countItem "volumes" volumes
  | volumeUnusable root => "event=volume_unusable" ++ rootItem root

end Event

end StorageNode
