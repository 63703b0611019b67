import OsProjects.FileSys.Script
import OsProjects.Fsck.Cycle

/-!
# Sessions in the life of a disk

A session of `fs_sim` on the text of its input is one of the runs between a mount and the unmount
that follows it.
-/

namespace OsProjects.Fsck
open FileSys Stdio Run
open Relation (ReflTransGen)

end OsProjects.Fsck
