import StorageNode.Block.Codec
import StorageNode.Block.Operation
import StorageNode.Disk.Setup
import StorageNode.Placement
import StorageNode.Main
import StorageNode.Proofs.FilePath
import StorageNode.Proofs.Layout
import StorageNode.Proofs.DiskView
import StorageNode.Proofs.Loading
import StorageNode.Proofs.Scan
import StorageNode.Proofs.Scan.Order
import StorageNode.Proofs.Scan.Isolation
import StorageNode.Proofs.Disk.Descent
import StorageNode.Proofs.Disk.Outside
import StorageNode.Proofs.Disk.Effects
import StorageNode.Proofs.Placement
import StorageNode.Proofs.Scan.Grouped
import StorageNode.Proofs.Placement.Reading
import StorageNode.Proofs.Placement.Agreement
import StorageNode.Proofs.Disk.Passage
import StorageNode.Proofs.Disk.Interruption
import StorageNode.Proofs.Disk.Ways
import StorageNode.Proofs.Disk.Slots
import StorageNode.Proofs.Descriptor.Saving
import StorageNode.Proofs.Disk.Resuming
import StorageNode.Proofs.Placement.Crash
import StorageNode.Proofs.Yaml.Reading
import StorageNode.Proofs.Descriptor.Fields
import StorageNode.Proofs.Descriptor.Foreign
import StorageNode.Proofs.Yaml.Printing
import StorageNode.Proofs.Yaml.Resolving
import StorageNode.Proofs.Descriptor.RoundTrip
import StorageNode.Proofs.Block.RoundTrip
import StorageNode.Proofs.Block.Streams
import StorageNode.Proofs.Block.Size
import StorageNode.Proofs.Block.Frames
import StorageNode.Proofs.Recovery.Interleaving
import StorageNode.Proofs.Recovery.Summary
import StorageNode.Proofs.Recovery.Integrity
import StorageNode.Proofs.Recovery.Containment
import StorageNode.Proofs.Scan.Relocation
import StorageNode.Proofs.Recovery.History
import StorageNode.Proofs.Scan.Naming
import StorageNode.Proofs.Scan.Failure
import StorageNode.Proofs.Scan.Rescan
import StorageNode.Proofs.Registry.Calls
import StorageNode.Proofs.Descriptor.Settings
import StorageNode.Proofs.Config
import StorageNode.Proofs.Recovery.Selection
import StorageNode.Proofs.Placement.Frame
import StorageNode.Proofs.Scan.Chronicle
import StorageNode.Proofs.Layout.Separation
