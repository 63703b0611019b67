import OsProjects.Library.DoublyLinked
import OsProjects.Paging.List
import OsProjects.Paging.MMU
import OsProjects.Library.Hand
import OsProjects.Paging.PolicySpec
import OsProjects.Paging.Tables
import OsProjects.Paging.Service
import OsProjects.Paging.Transparent
import OsProjects.Library.Recency
import OsProjects.Paging.Inclusion
import OsProjects.Paging.Conservative
import OsProjects.Library.Ring
import OsProjects.Library.Tally
import OsProjects.WebServer.Queue
import OsProjects.WebServer.Delivery
import OsProjects.MatMul.Machine
import OsProjects.MatMul.Rows
import OsProjects.MatMul.Recovery
import OsProjects.FileSys.Layout
import OsProjects.FileSys.Bitmap
import OsProjects.Library.FirstFit
import OsProjects.FileSys.Machine
import OsProjects.FileSys.File
import OsProjects.FileSys.Command
import OsProjects.FileSys.Alloc
import OsProjects.Library.Ownership
import OsProjects.FileSys.Blocks
import OsProjects.FileSys.FileSteps
import OsProjects.FileSys.Create
import OsProjects.FileSys.Live
import OsProjects.FileSys.Consistent
import OsProjects.FileSys.Mount
import OsProjects.FileSys.Contents
import OsProjects.FileSys.Survive
import OsProjects.FileSys.ChangeDir
import OsProjects.FileSys.Failure
import OsProjects.FileSys.MakeDir
import OsProjects.FileSys.RemoveDir
import OsProjects.FileSys.Restore
import OsProjects.FileSys.Image
import OsProjects.FileSys.Remount
import OsProjects.Fsck.Fix
import OsProjects.Fsck.Walk
import OsProjects.Fsck.Image
import OsProjects.Paging.Statistics
import OsProjects.Fsck.Rebuild
import OsProjects.Fsck.Repair
import OsProjects.Fsck.Termination
import OsProjects.Library.DirTree
import OsProjects.Library.Run
import OsProjects.FileSys.Rooted
import OsProjects.FileSys.Tree
import OsProjects.FileSys.RootKept
import OsProjects.FileSys.Names
import OsProjects.FileSys.Allocator
import OsProjects.Paging.Print
import OsProjects.Paging.Observer
import OsProjects.Paging.Order
import OsProjects.Paging.Safety
import OsProjects.Library.SecondChance
import OsProjects.Paging.Clock
import OsProjects.Paging.Translate
import OsProjects.MatMul.Killed
import OsProjects.MatMul.Deadlock
import OsProjects.WebServer.Process
import OsProjects.WebServer.Directories
import OsProjects.Library.Competitive
import OsProjects.Paging.Competitive
import OsProjects.Paging.Renaming
import OsProjects.Library.Ranked
import OsProjects.Library.Pair
import OsProjects.Library.StoreBuffer
import OsProjects.Threads.Peterson
import OsProjects.Threads.Exclusion
import OsProjects.Threads.Progress
import OsProjects.Threads.Mutex
import OsProjects.Threads.LostUpdate
import OsProjects.Mailbox.Matrix
import OsProjects.Mailbox.Rows
import OsProjects.Library.Stdio
import OsProjects.Paging.Main
import OsProjects.Paging.Decode
import OsProjects.Paging.Lines
import OsProjects.Paging.InputGen
import OsProjects.MatMul.Product
import OsProjects.MatMul.File
import OsProjects.Library.Fair
import OsProjects.WebServer.Liveness
import OsProjects.WebServer.Client
import OsProjects.Library.Connected
import OsProjects.FileSys.Kept
import OsProjects.FileSys.Intact
import OsProjects.FileSys.Lifetime
import OsProjects.Fsck.Lifetime
import OsProjects.Fsck.Cycle
import OsProjects.FileSys.Output
import OsProjects.FileSys.Main
import OsProjects.FileSys.Script
import OsProjects.Fsck.Session
