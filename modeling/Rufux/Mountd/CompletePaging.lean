import Rufux.Mountd.Enumeration

/-!
Paging through a directory that does not change: every entry once, in the order of the listing.
-/

namespace Rufux.Mountd

open Rufux.Library

/-- The least size that either request is served for. -/
def PageCall.Roomy (call : PageCall) : Prop := (if call.plus then 256 else 128) ≤ call.count

section Run

variable (server : Server) (fh : Handle) (volume : Volume) (rounds : Nat → Round)

/-- A page of an enumeration: the volume when it is asked for, and the cookie. -/
structure PageState where
  volume : Volume
  cookie : Nat

def PageState.answer (state : PageState) (call : PageCall) : Option (List Entry3 × Bool) :=
  (server.reply state.volume (call.exchange fh state.cookie)).page

/-- The states at which the pages are asked for, each from the last cookie of the one before. -/
def pageState : Nat → PageState
  | 0 => ⟨(rounds 0).before.foldl server.step volume, 0⟩
  | n + 1 =>
      let state := pageState n
      let left := server.step state.volume ((rounds n).call.exchange fh state.cookie)
      ⟨(rounds (n + 1)).before.foldl server.step left,
        ((state.answer server fh (rounds n).call).map fun page =>
          nextCookie state.cookie page.1).getD state.cookie⟩

def pageAnswer (n : Nat) : Option (List Entry3 × Bool) :=
  (pageState server fh volume rounds n).answer server fh (rounds n).call

def pageEntries (n : Nat) : List Entry3 :=
  ((pageAnswer server fh volume rounds n).map Prod.fst).getD []

/-- Whenever a page is asked for, `fs_readdir` lists the same entries. -/
def Unchanging (dirIno : Nat) (list : List DirEntryItem) : Prop :=
  ∀ n, (fsReaddir server (rounds n).call.calls (pageState server fh volume rounds n).volume
    dirIno).1 = .ok list

end Run

section Steps

variable {server : Server} {fh : Handle} {volume : Volume} {rounds : Nat → Round} {dirIno : Nat}
  {list : List DirEntryItem}

/-- A page that has room is never refused. -/
theorem answer_isSome {state : PageState} {call : PageCall} (decoded : xdrGetFh fh = some dirIno)
    (roomy : call.Roomy) (listed : (fsReaddir server call.calls state.volume dirIno).1 = .ok list) :
    ∃ page, state.answer server fh call = some page := by
  obtain ⟨plus, verf, dircount, count, calls⟩ := call
  unfold PageState.answer Server.reply PageCall.exchange
  unfold PageCall.Roomy at roomy
  cases plus with
  | false =>
    simp only [Bool.false_eq_true, if_false] at roomy ⊢
    simp only [handleProc, decoded, handleReaddir]
    split
    · rename_i status attr left refused
      rw [refused] at listed
      cases listed
    · rw [if_neg (by omega)]
      exact ⟨_, rfl⟩
  | true =>
    simp only [if_true] at roomy ⊢
    simp only [handleProc, decoded, handleReaddirplus]
    split
    · rename_i status attr left refused
      rw [refused] at listed
      cases listed
    · rw [if_neg (by omega)]
      exact ⟨_, rfl⟩

theorem page_cookies {cookie : Nat} {page : List (DirEntryItem × Nat)}
    (cut : page <+: listingFrom cookie list) :
    (page.map toEntry3).map Entry3.cookie = List.range' (cookie + 1) page.length := by
  have short := cut.length_le
  rw [listingFrom_length] at short
  refine List.ext_getElem (by simp) fun i inside inside' => ?_
  have within : i < page.length := by simpa using inside
  have listed : page[i]? = (listingFrom cookie list)[i]? := by
    rw [List.getElem?_eq_getElem within, cut.getElem within, ← List.getElem?_eq_getElem]
  have reached : min cookie list.length + i < list.length := by omega
  rw [listingFrom, List.getElem?_drop, List.getElem?_zipIdx, List.getElem?_eq_getElem reached,
    List.getElem?_eq_getElem within] at listed
  simp only [List.getElem_map, List.getElem_range', toEntry3, Option.some.inj listed]
  omega

/-- One page: what it hands out lies at the cookie, and the next cookie behind that. -/
theorem page_step (decoded : xdrGetFh fh = some dirIno) (roomy : ∀ n, (rounds n).call.Roomy)
    (unchanging : Unchanging server fh volume rounds dirIno list) (n : Nat) :
    ∃ entries eof, pageAnswer server fh volume rounds n = some (entries, eof) ∧
      entries.map Entry3.item =
        (list.drop (pageState server fh volume rounds n).cookie).take entries.length ∧
      entries.map Entry3.cookie =
        List.range' ((pageState server fh volume rounds n).cookie + 1) entries.length ∧
      ((pageState server fh volume rounds n).cookie < list.length → entries ≠ []) ∧
      (pageState server fh volume rounds (n + 1)).cookie =
        (pageState server fh volume rounds n).cookie + entries.length ∧
      (eof = true ↔
        list.length ≤ (pageState server fh volume rounds n).cookie + entries.length) := by
  obtain ⟨⟨entries, eof⟩, answered⟩ := answer_isSome decoded (roomy n) (unchanging n)
  have paged : pageAnswer server fh volume rounds n = some (entries, eof) := answered
  have same : listing server (rounds n).call.calls (pageState server fh volume rounds n).volume
      dirIno = list := by
    rw [listing, unchanging n]
  have next : (pageState server fh volume rounds (n + 1)).cookie =
      nextCookie (pageState server fh volume rounds n).cookie entries := by
    rw [pageState]
    dsimp only
    rw [answered]
    rfl
  obtain ⟨page, rfl, cut, progress, ends⟩ := page_cases decoded answered
  rw [same] at cut progress ends
  have short := cut.length_le
  rw [listingFrom_length] at short
  refine ⟨_, _, paged, ?_, ?_, fun more => ?_, ?_, ?_⟩
  · rw [page_items cut, List.length_map]
  · rw [page_cookies cut, List.length_map]
  · have pending : listingFrom (pageState server fh volume rounds n).cookie list ≠ [] := by
      intro none
      have empty := listingFrom_length (pageState server fh volume rounds n).cookie list
      rw [none, List.length_nil] at empty
      omega
    simpa using progress pending
  · rw [next, List.length_map]
    by_cases empty : page = []
    · subst empty
      rfl
    · exact page_nextCookie cut empty
  · rw [ends, pageEnds, decide_eq_true_iff, listingFrom_length, List.length_map]
    omega

/-- What the first pages hand out together. -/
theorem pages_collected (decoded : xdrGetFh fh = some dirIno) (roomy : ∀ n, (rounds n).call.Roomy)
    (unchanging : Unchanging server fh volume rounds dirIno list) (n : Nat) :
    ((List.range n).flatMap (pageEntries server fh volume rounds)).map Entry3.item =
        list.take (pageState server fh volume rounds n).cookie ∧
      ((List.range n).flatMap (pageEntries server fh volume rounds)).map Entry3.cookie =
        List.range' 1 (pageState server fh volume rounds n).cookie := by
  induction n with
  | zero => exact ⟨rfl, rfl⟩
  | succ n ih =>
    obtain ⟨items, cookies⟩ := ih
    obtain ⟨entries, eof, answered, more, marks, -, next, -⟩ := page_step decoded roomy unchanging n
    have handed : pageEntries server fh volume rounds n = entries := by
      rw [pageEntries, answered]
      rfl
    rw [List.range_succ, List.flatMap_append, List.flatMap_singleton, handed, List.map_append,
      List.map_append, items, cookies, more, marks, next]
    constructor
    · rw [List.take_add]
    · rw [Nat.add_comm _ 1, List.range'_append_1]

/-- Some page carries the end mark: each one before it goes on by an entry at least. -/
theorem exists_last (decoded : xdrGetFh fh = some dirIno) (roomy : ∀ n, (rounds n).call.Roomy)
    (unchanging : Unchanging server fh volume rounds dirIno list) :
    ∃ last, (∀ n < last,
        (pageState server fh volume rounds (n + 1)).cookie < list.length) ∧
      list.length ≤ (pageState server fh volume rounds (last + 1)).cookie := by
  have climbs (n : Nat) : min n list.length ≤ (pageState server fh volume rounds n).cookie := by
    induction n with
    | zero => omega
    | succ n ih =>
      obtain ⟨entries, eof, -, -, -, progress, next, -⟩ := page_step decoded roomy unchanging n
      rw [next]
      by_cases more : (pageState server fh volume rounds n).cookie < list.length
      · have some_entry := List.length_pos_iff.mpr (progress more)
        omega
      · omega
  have ends : ∃ last, list.length ≤ (pageState server fh volume rounds (last + 1)).cookie := by
    have reached := climbs (list.length + 1)
    exact ⟨list.length, by omega⟩
  refine ⟨Nat.find ends, fun n before => ?_, Nat.find_spec ends⟩
  have early := Nat.find_min ends before
  omega

end Steps

/-- Whatever sizes the client asks for, and however it mixes the two requests, the pages of a
directory that does not change are never refused and never empty before the end mark, the end mark
comes after finitely many, and together they are the listing. -/
theorem paging_enumerates_once (server : Server) (fh : Handle) (volume : Volume)
    (rounds : Nat → Round) (dirIno : Nat) (list : List DirEntryItem)
    (decoded : xdrGetFh fh = some dirIno) (roomy : ∀ n, (rounds n).call.Roomy)
    (unchanging : Unchanging server fh volume rounds dirIno list) :
    ∃ last,
      (∀ n < last, ∃ entries,
        pageAnswer server fh volume rounds n = some (entries, false) ∧ entries ≠ []) ∧
      (∃ entries, pageAnswer server fh volume rounds last = some (entries, true)) ∧
      ((List.range (last + 1)).flatMap (pageEntries server fh volume rounds)).map Entry3.item =
        list ∧
      ((List.range (last + 1)).flatMap (pageEntries server fh volume rounds)).map Entry3.cookie =
        List.range' 1 list.length := by
  obtain ⟨last, early, ends⟩ := exists_last decoded roomy unchanging
  obtain ⟨items, cookies⟩ := pages_collected decoded roomy unchanging (last + 1)
  have whole : (pageState server fh volume rounds (last + 1)).cookie = list.length := by
    have counted := congrArg List.length items
    have marked := congrArg List.length cookies
    rw [List.length_map, List.length_take] at counted
    rw [List.length_map, List.length_range'] at marked
    omega
  refine ⟨last, fun n before => ?_, ?_, ?_, ?_⟩
  · obtain ⟨entries, eof, answered, -, -, progress, next, finish⟩ :=
      page_step decoded roomy unchanging n
    have short := early n before
    rw [next] at short
    have more : eof = false := by
      by_contra done
      have reached := finish.mp (Bool.not_eq_false _ ▸ done)
      omega
    rw [more] at answered
    exact ⟨entries, answered, progress (by omega)⟩
  · obtain ⟨entries, eof, answered, -, -, -, next, finish⟩ := page_step decoded roomy unchanging last
    rw [next] at ends
    rw [finish.mpr ends] at answered
    exact ⟨entries, answered⟩
  · rw [items, whole, List.take_length]
  · rw [cookies, whole]

/-- The root of the volume with three files, two hundred bytes at a time. -/
def smallPages : Round :=
  { before := []
    call := { plus := false, verf := [], dircount := 0, count := 200, calls := .quiet 0 } }

theorem smallPages_unchanging :
    Unchanging .plain (xdrPutFh extRootIno) (.ext threeFiles) (fun _ => smallPages) extRootIno
      (listing .plain (.quiet 0) (.ext threeFiles) extRootIno) := by
  have still (n : Nat) : (pageState .plain (xdrPutFh extRootIno) (.ext threeFiles)
      (fun _ => smallPages) n).volume = .ext threeFiles := by
    induction n with
    | zero => rfl
    | succ n ih =>
      rw [pageState]
      dsimp only
      rw [ih]
      rfl
  intro n
  rw [still n]
  rfl

theorem paging_enumerates_once_smallPages :
    ∃ last,
      (∀ n < last, ∃ entries,
        pageAnswer .plain (xdrPutFh extRootIno) (.ext threeFiles) (fun _ => smallPages) n =
          some (entries, false) ∧ entries ≠ []) ∧
      (∃ entries, pageAnswer .plain (xdrPutFh extRootIno) (.ext threeFiles)
        (fun _ => smallPages) last = some (entries, true)) ∧
      ((List.range (last + 1)).flatMap (pageEntries .plain (xdrPutFh extRootIno) (.ext threeFiles)
        fun _ => smallPages)).map Entry3.item =
          listing .plain (.quiet 0) (.ext threeFiles) extRootIno ∧
      ((List.range (last + 1)).flatMap (pageEntries .plain (xdrPutFh extRootIno) (.ext threeFiles)
        fun _ => smallPages)).map Entry3.cookie =
          List.range' 1 (listing .plain (.quiet 0) (.ext threeFiles) extRootIno).length :=
  paging_enumerates_once .plain (xdrPutFh extRootIno) (.ext threeFiles) (fun _ => smallPages)
    extRootIno _ (by decide) (fun _ => (by decide : 128 ≤ 200)) smallPages_unchanging

end Rufux.Mountd
