import Vtoydump.Basis.Fault
import Vtoydump.Basis.Bytes
import Vtoydump.Basis.Bits
import Vtoydump.Basis.Bitmap
import Vtoydump.Basis.Packing
import Vtoydump.Basis.Path
import Vtoydump.Basis.Checksum
import Vtoydump.Basis.Record
import Vtoydump.Basis.Layout
import Vtoydump.Basis.Segment
import Vtoydump.Basis.Scan
import Vtoydump.Basis.Text
import Vtoydump.Basis.Utf
import Vtoydump.Basis.Media
import Vtoydump.Basis.Cursor
import Vtoydump.Basis.Blocks
import Vtoydump.Basis.Content
import Vtoydump.Basis.ByteStore
import Vtoydump.Basis.Chain
import Vtoydump.Exfat.Cluster
import Vtoydump.Exfat.Advance
import Vtoydump.Exfat.Pread
import Vtoydump.Exfat.FreeClusters
import Vtoydump.Exfat.Resize
import Vtoydump.Exfat.Holding
import Vtoydump.Exfat.Resized
import Vtoydump.Exfat.Truncate
import Vtoydump.Exfat.Contents
import Vtoydump.Exfat.Truncated
import Vtoydump.Exfat.Written
import Vtoydump.Exfat.FileStore
import Vtoydump.Exfat.Time
import Vtoydump.Exfat.Utf
import Vtoydump.Exfat.Entries
import Vtoydump.Exfat.Directory
import Vtoydump.Exfat.Slots
import Vtoydump.Exfat.FlushNode
import Vtoydump.Exfat.Lookup
import Vtoydump.Exfat.Mount
import Vtoydump.Exfat.RegionTable
import Vtoydump.Exfat.Growth
import Vtoydump.Exfat.ImageLocation
import Vtoydump.Exfat.TableRun
import Vtoydump.Exfat.FileRuns
import Vtoydump.Exfat.ExactTable
import Vtoydump.Exfat.Translation
import Vtoydump.Exfat.Coverage
import Vtoydump.Exfat.Mapped
import Vtoydump.Exfat.WordSize
import Vtoydump.Exfat.Allocation
import Vtoydump.Exfat.TableInvariant
import Vtoydump.Exfat.Coalescing
import Vtoydump.OsParam
import Vtoydump.ImageTable
import Vtoydump.Linux.System
import Vtoydump.Linux.Disk
import Vtoydump.Linux.Completeness
import Vtoydump.Linux.Loaders
import Vtoydump.Linux.Location
import Vtoydump.Linux.Print
import Vtoydump.Linux.Sources
import Vtoydump.Linux.LinearTable
import Vtoydump.Linux.PartitionName
import Vtoydump.Linux.ExfatDevice
import Vtoydump.Linux.Main
import Vtoydump.Windows.System
import Vtoydump.Windows.Loaders
import Vtoydump.Windows.PathConversion
import Vtoydump.Windows.Scanners
import Vtoydump.Windows.Disk
import Vtoydump.Windows.Search
import Vtoydump.Windows.Drive
import Vtoydump.Windows.Mount
import Vtoydump.Windows.LetterDetection
import Vtoydump.Windows.FatDisk
import Vtoydump.Windows.PathBuffers
import Vtoydump.Windows.Main
import Vtoydump.RuntimeData
import Vtoydump.ScanReads
