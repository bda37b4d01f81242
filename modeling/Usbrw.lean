import Usbrw.Shim.Read
import Usbrw.Shim.Write
import Usbrw.Base.Run
import Usbrw.Block.Resource
import Usbrw.Block.Device
import Usbrw.Block.ReadYourWrites
import Usbrw.Base.Call
import Usbrw.Ext.File
import Usbrw.Ext.Reference
import Usbrw.Ext.Resize
import Usbrw.Ext.Addressing
import Usbrw.Base.Paging
import Usbrw.Ext.Readdir
import Usbrw.Base.Reach
import Usbrw.Ext.Remove
import Usbrw.Ext.Orphans
import Usbrw.Ntfs.Library
import Usbrw.Ntfs.Link
import Usbrw.Ntfs.Rename
import Usbrw.Ntfs.Displace
import Usbrw.Ntfs.Reference
import Usbrw.Ntfs.Lost
import Usbrw.Ntfs.Atomic
import Usbrw.Base.Lookahead
import Usbrw.Ntfs.Readdir
import Usbrw.Ext.Create
import Usbrw.Ext.Dotdot
import Usbrw.Ext.ReferenceNew
import Usbrw.Ext.Names
import Usbrw.Ext.Alias
import Usbrw.Base.Tally
import Usbrw.Ext.Files
import Usbrw.Ext.Parents
import Usbrw.Ext.Links
import Usbrw.Ext.Subdirs
import Usbrw.Ext.Intact
import Usbrw.Block.Commit
import Usbrw.Block.Reports
import Usbrw.Shim.Failure
import Usbrw.Ntfs.Data
import Usbrw.Ntfs.Signs
import Usbrw.Base.Mutex
import Usbrw.Ntfs.Bridge
import Usbrw.Ntfs.Balance
import Usbrw.Ext.Interleave
import Usbrw.Ext.Collide
import Usbrw.Ntfs.Create
import Usbrw.Ntfs.ReferenceNew
import Usbrw.Ntfs.Metadata
import Usbrw.Shim.Logged
import Usbrw.Shim.Geometry
import Usbrw.Ext.Loader
import Usbrw.Ext.Isolation
import Usbrw.Ext.Identity
import Usbrw.Ext.Channel
import Usbrw.Ext.Alignment
import Usbrw.Ext.Fsync
import Usbrw.Ntfs.WindowsNames
import Usbrw.Ntfs.Utf8
import Usbrw.Ntfs.Lookup
import Usbrw.Ntfs.Xattr
import Usbrw.Ntfs.XattrReference
import Usbrw.Ntfs.XattrMap
import Usbrw.Ntfs.Items
import Usbrw.Ntfs.ItemParents
import Usbrw.Ntfs.ItemRuns
import Usbrw.Trees
import Usbrw.Ntfs.DataStream
import Usbrw.Ntfs.Setattr
import Usbrw.Ntfs.Transfer
import Usbrw.Ntfs.XattrFailure
import Usbrw.Ntfs.XattrVolume
import Usbrw.Ntfs.XattrData
import Usbrw.Ext.Truncate
import Usbrw.Ext.Open
import Usbrw.Ext.ByteIo
import Usbrw.Ext.Complete
import Usbrw.Ext.FailedCreate
import Usbrw.Ntfs.Resume
import Usbrw.Ntfs.Replace
import Usbrw.Ntfs.Stamps
import Usbrw.Ext.EntryTypes
import Usbrw.Ext.Expand
import Usbrw.Ntfs.Record
import Usbrw.Ntfs.ReferenceRecord
import Usbrw.Ntfs.Symlinks
import Usbrw.Ntfs.Changes
import Usbrw.Ntfs.SetRecord
import Usbrw.Ntfs.SetAttributes
import Usbrw.Ntfs.Statistics
import Usbrw.Ntfs.Invariants
import Usbrw.Ntfs.FreeSpace
import Usbrw.Ntfs.TreeRuns
import Usbrw.Base.Service
import Usbrw.Base.FlatFile
import Usbrw.Ntfs.FlatFiles
import Usbrw.Ext.FlatFiles
import Usbrw.Base.Serial
import Usbrw.Ntfs.Serial
import Usbrw.Shim.Stack
import Usbrw.Shim.FlatDevice
import Usbrw.Settings.Shared
import Usbrw.Settings.Mount
import Usbrw.Settings.Preferences
import Usbrw.Settings.Rescue
import Usbrw.Settings.Protection
import Usbrw.Shim.Kept
import Usbrw.Ext.Kept
import Usbrw.Block.Settled
import Usbrw.Ext.FlatChannel
import Usbrw.Ext.TreeRuns
import Usbrw.Ext.Untouched
import Usbrw.Ntfs.OtherNames
import Usbrw.Dispatch
import Usbrw.Ext.Items
import Usbrw.Ext.FoundAgain
