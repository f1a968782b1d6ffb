import Rufux.Library.Run
import Rufux.Mountd.Ext.Quiet
import Rufux.Mountd.Ntfs.Quiet
import Rufux.Mountd.Server

/-!
EXCLUSIVE CREATE requests for one name of one directory.
-/

namespace Rufux.Mountd

open Rufux.Library ExtVolume NtfsVolume

section Ext

variable {config : Config} {calls : ExtCalls} {volume : ExtVolume} {dirIno : Nat} {name : Name}

end Ext

section Ntfs

variable {config : Config} {calls : NtfsCalls} {mount : NtfsMount} {dirIno : Nat} {name : Name}

end Ntfs

section Contest

variable {server : Server} {fh : Handle} {dirIno : Nat} {name : Name}

end Contest

end Rufux.Mountd
