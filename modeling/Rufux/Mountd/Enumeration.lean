import Rufux.Library.Paging
import Rufux.Mountd.Ext.Effects
import Rufux.Mountd.Server

/-!
A directory read in pages while other requests change it.
-/

namespace Rufux.Mountd

open Rufux.Library

/-- A READDIR or READDIRPLUS request of the enumeration, but for handle and cookie. -/
structure PageCall where
  plus : Bool
  verf : List UInt8
  dircount : Nat
  count : Nat
  calls : Calls

def PageCall.exchange (call : PageCall) (fh : Handle) (cookie : Nat) : Exchange where
  request :=
    if call.plus then .readdirplus fh cookie call.verf call.dircount call.count
    else .readdir fh cookie call.verf call.count
  calls := call.calls

/-- A page, and the requests of any client that come before it. -/
structure Round where
  before : List Exchange
  call : PageCall

/-- The entries and the end mark of a page that succeeded. -/
def Reply.page : Reply → Option (List Entry3 × Bool)
  | .readdir .ok _ entries eof => some (entries, eof)
  | .readdirplus .ok _ entries eof => some (entries.map EntryPlus3.toEntry3, eof)
  | _ => none

def Entry3.item (entry : Entry3) : DirEntryItem where
  fileid := entry.fileid
  name := entry.name

/-- A client goes on from the cookie of the last entry it got. -/
def nextCookie (cookie : Nat) (entries : List Entry3) : Nat :=
  (entries.getLast?.map Entry3.cookie).getD cookie

/-- The listing that a page is cut from. -/
def listing (server : Server) (calls : Calls) (volume : Volume) (dirIno : Nat) :
    List DirEntryItem :=
  match (fsReaddir server calls volume dirIno).1 with
  | .ok list => list
  | .error _ => []

theorem listingFrom_items (cookie : Nat) (list : List DirEntryItem) :
    (listingFrom cookie list).map Prod.fst = list.drop cookie := by
  rw [listingFrom, List.map_drop, List.zipIdx_map_fst]
  rcases Nat.le_total cookie list.length with within | past
  · rw [Nat.min_eq_left within]
  · rw [Nat.min_eq_right past, List.drop_length, List.drop_of_length_le past]

theorem listingFrom_length (cookie : Nat) (list : List DirEntryItem) :
    (listingFrom cookie list).length = list.length - cookie := by
  have counted := congrArg List.length (listingFrom_items cookie list)
  simpa using counted

theorem fsReaddir_error_ne_ok {server : Server} {calls : Calls} {volume : Volume} {dirIno : Nat}
    {status : Nfsstat} (refused : (fsReaddir server calls volume dirIno).1 = .error status) :
    status ≠ .ok := by
  cases volume with
  | ntfs mount =>
      simp only [fsReaddir, ntfsOpReaddir] at refused
      split at refused
      · cases refused
        decide
      · split at refused
        · cases refused
          decide
        · split at refused
          · rename_i code _
            cases refused
            exact errnoToNfs3_ne_ok code
          · cases refused
  | ext volume =>
      simp only [fsReaddir, extOpReaddir] at refused
      split at refused
      · rename_i invalid
        cases refused
        exact extReadValidInode_error_ne_ok invalid
      · split at refused
        · cases refused
          decide
        · split at refused
          · rename_i code _
            cases refused
            exact extErrToNfs3_ne_ok code
          · cases refused

theorem page_of_status_ne_ok {reply : Reply} (refused : reply.status ≠ .ok) : reply.page = none := by
  unfold Reply.page
  split
  · exact absurd rfl refused
  · exact absurd rfl refused
  · rfl

theorem handleReaddir_page {server : Server} {calls : Calls} {volume : Volume}
    {dirIno cookie maxBytes : Nat} {entries : List Entry3} {eof : Bool}
    (paged : (handleReaddir server calls volume dirIno cookie maxBytes).1.page =
      some (entries, eof)) :
    ∃ attr, entries =
        (readdirPage attr cookie maxBytes (listing server calls volume dirIno)).map toEntry3 ∧
      eof = pageEnds cookie (listing server calls volume dirIno)
        (readdirPage attr cookie maxBytes (listing server calls volume dirIno)) := by
  unfold handleReaddir at paged
  unfold listing
  split at paged
  · rename_i status attr left refused
    have bad := fsReaddir_error_ne_ok (congrArg Prod.fst refused)
    rw [page_of_status_ne_ok (by exact bad)] at paged
    cases paged
  · rename_i list attr left listed
    rw [listed]
    split at paged
    · cases paged
    · cases paged
      exact ⟨attr, rfl, rfl⟩

theorem handleReaddirplus_page {server : Server} {calls : Calls} {volume : Volume}
    {dirIno cookie maxcount : Nat} {entries : List Entry3} {eof : Bool}
    (paged : (handleReaddirplus server calls volume dirIno cookie maxcount).1.page =
      some (entries, eof)) :
    ∃ size attr, entries =
        (readdirplusPage size attr cookie maxcount (listing server calls volume dirIno)).map
          toEntry3 ∧
      eof = pageEnds cookie (listing server calls volume dirIno)
        (readdirplusPage size attr cookie maxcount (listing server calls volume dirIno)) := by
  unfold handleReaddirplus at paged
  unfold listing
  split at paged
  · rename_i status attr left refused
    have bad := fsReaddir_error_ne_ok (congrArg Prod.fst refused)
    rw [page_of_status_ne_ok (by exact bad)] at paged
    cases paged
  · rename_i list attr left listed
    rw [listed]
    split at paged
    · cases paged
    · simp only [Reply.page, List.map_map, Option.some.injEq, Prod.mk.injEq] at paged
      obtain ⟨rfl, rfl⟩ := paged
      exact ⟨_, attr, rfl, rfl⟩

/-- Either page is cut from the listing behind the cookie, and is not empty when anything is
left there. -/
theorem page_cases {server : Server} {volume : Volume} {fh : Handle} {dirIno cookie : Nat}
    {call : PageCall} {entries : List Entry3} {eof : Bool} (decoded : xdrGetFh fh = some dirIno)
    (paged : (server.reply volume (call.exchange fh cookie)).page = some (entries, eof)) :
    ∃ page, entries = page.map toEntry3 ∧
      page <+: listingFrom cookie (listing server call.calls volume dirIno) ∧
      (listingFrom cookie (listing server call.calls volume dirIno) ≠ [] → page ≠ []) ∧
      eof = pageEnds cookie (listing server call.calls volume dirIno) page := by
  obtain ⟨plus, verf, dircount, count, calls⟩ := call
  cases plus with
  | false =>
      simp only [Server.reply, PageCall.exchange, Bool.false_eq_true, if_false, handleProc,
        decoded] at paged
      obtain ⟨attr, rfl, rfl⟩ := handleReaddir_page paged
      exact ⟨_, rfl, takePage_isPrefix _ _ _ _ _ _, takePage_ne_nil _ _ _ _, rfl⟩
  | true =>
      simp only [Server.reply, PageCall.exchange, if_true, handleProc, decoded] at paged
      obtain ⟨size, attr, rfl, rfl⟩ := handleReaddirplus_page paged
      exact ⟨_, rfl, takePage_isPrefix _ _ _ _ _ _, takePage_ne_nil _ _ _ _, rfl⟩

theorem page_items {cookie : Nat} {list : List DirEntryItem} {page : List (DirEntryItem × Nat)}
    (cut : page <+: listingFrom cookie list) :
    (page.map toEntry3).map Entry3.item = (list.drop cookie).take page.length := by
  have items : (page.map toEntry3).map Entry3.item = page.map Prod.fst := by
    rw [List.map_map]
    rfl
  rw [items, List.prefix_iff_eq_take.mp cut, List.map_take, listingFrom_items, List.length_take,
    listingFrom_length, List.take_eq_take_iff]
  simp

/-- The cookie to go on from lies as many entries further as the page had. -/
theorem page_nextCookie {cookie : Nat} {list : List DirEntryItem}
    {page : List (DirEntryItem × Nat)} (cut : page <+: listingFrom cookie list)
    (nonempty : page ≠ []) : nextCookie cookie (page.map toEntry3) = cookie + page.length := by
  have short := cut.length_le
  have positive := List.length_pos_iff.mpr nonempty
  rw [listingFrom_length] at short
  have last : page[page.length - 1]? = (listingFrom cookie list)[page.length - 1]? := by
    rw [List.getElem?_eq_getElem (by omega), cut.getElem (by omega), ← List.getElem?_eq_getElem]
  rw [nextCookie, List.getLast?_map, List.getLast?_eq_getElem?, last, listingFrom,
    List.getElem?_drop, List.getElem?_zipIdx]
  have reached : min cookie list.length + (page.length - 1) < list.length := by omega
  rw [List.getElem?_eq_getElem reached]
  simp only [Option.map_some, Option.getD_some, toEntry3]
  omega

/-- A regular file with one link. -/
def plainFile : ExtInode := { ExtInode.zero with format := .reg, perm := 0o644, linksCount := 1 }

/-- A fresh ext volume with the files `a`, `b` and `c` in its root. -/
def threeFiles : ExtVolume :=
  let filled := ExtVolume.fresh.setEntries extRootIno [⟨[97], 12⟩, ⟨[98], 13⟩, ⟨[99], 14⟩]
  { filled with
    inodeMap := fun ino => decide (ino < 11 ∨ ino = 12 ∨ ino = 13 ∨ ino = 14)
    inode := fun ino =>
      if ino = 12 ∨ ino = 13 ∨ ino = 14 then plainFile else ExtVolume.fresh.inode ino }

end Rufux.Mountd
