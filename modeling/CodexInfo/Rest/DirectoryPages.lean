import CodexInfo.Rest.HistoryIndex
import CodexInfo.Rest.SnapshotStore

/-!
# `CodexInfo.Rest.DirectoryPages`: the pages of a period directory

Model of `serialize_directory` and of the frames whose pages it keeps. A page holds as many entries
as its body has room for, and names the next one by a cursor with the pair of the frame. Encoded
pages are kept beside the frame, in a cache that frames share.

* `DirectoryFrame.buildPage`: the greedy page from an offset.
* `serializeDirectory`: a page from the cache, or a new one.
* `DirectoryPublisher`: the frames of one account, as `admit_candidate`, `with_history` and
  `admit_independent_history` hand them on, and the requests they answer.

A directory is its entries in order. The JSON of an entry is a parameter, and so are the answers of
the comparisons and guards that do not look at directories: a candidate that is not admitted is no
event.
-/

set_option autoImplicit false

namespace CodexInfo.Rest

open CodexInfo.Contract
open CodexInfo.Lib
open CodexInfo.Writer (decimal hex32 parseU64)

/-! ### Directories -/

/-- `directory_kind`. -/
inductive DirectoryKind where
  | acquisition
  | selectable
  deriving DecidableEq, Repr

def DirectoryKind.tag : DirectoryKind → Text
  | .acquisition => "a".toList
  | .selectable => "s".toList

/-- What a `DirectoryPeriodV5` is made of. -/
structure DirectoryEntry where
  period : PublicHistoryPeriod
  originAt : Option Int
  deriving DecidableEq, Repr

/-- The entries that `directory_indices` lists, with a `usize` for each offset. -/
structure Directory where
  acquisition : List DirectoryEntry
  selectable : List DirectoryEntry
  offsets : acquisition.length < 2 ^ 64 ∧ selectable.length < 2 ^ 64
  deriving DecidableEq

namespace Directory

def entries (directory : Directory) : DirectoryKind → List DirectoryEntry
  | .acquisition => directory.acquisition
  | .selectable => directory.selectable

theorem length_lt (directory : Directory) (kind : DirectoryKind) :
    (directory.entries kind).length < 2 ^ 64 := by
  cases kind with
  | acquisition => exact directory.offsets.1
  | selectable => exact directory.offsets.2

end Directory

/-- What the pages of a published frame rest on. -/
structure DirectoryFrame where
  /-- The number of the published pair. -/
  pair : Nat
  historyAvailable : Bool
  directory : Directory
  /-- Which cache the frame shares. -/
  pages : Nat
  deriving DecidableEq

/-- The texts of one process: the epoch of its pairs, and `serde_json::to_vec` of an entry. -/
structure DirectoryWire where
  epoch : Text
  row : DirectoryEntry → List UInt8

inductive DirectoryError where
  | historyUnavailable
  | staleCursor
  | resourceTooLarge
  deriving DecidableEq, Repr

/-! ### Cursors -/

variable (wire : DirectoryWire)

/-- `&pair[3..]`. -/
def DirectoryWire.pairDigits (pair : Nat) : Text := wire.epoch ++ hex32 pair

namespace DirectoryFrame

def cursorStart (frame : DirectoryFrame) (kind : DirectoryKind) : Text :=
  "d1.".toList ++ wire.pairDigits frame.pair ++ ['.'] ++ kind.tag ++ ['.']

/-- `directory_cursor`. -/
def directoryCursor (frame : DirectoryFrame) (kind : DirectoryKind) (offset : Nat) : Text :=
  frame.cursorStart wire kind ++ decimal offset

/-- `directory_start`. -/
def directoryStart (frame : DirectoryFrame) (kind : DirectoryKind) (cursor : Option Text) :
    Except DirectoryError Nat :=
  if !frame.historyAvailable then .error .historyUnavailable
  else
    match cursor with
    | none => .ok 0
    | some cursor =>
        match List.isPrefixOf? (frame.cursorStart wire kind) cursor with
        | none => .error .staleCursor
        | some rawOffset =>
            match parseU64 rawOffset with
            | none => .error .staleCursor
            | some offset =>
                if offset = 0 ∨ (frame.directory.entries kind).length ≤ offset ∨
                    decimal offset ≠ rawOffset then .error .staleCursor
                else .ok offset

end DirectoryFrame

/-! ### Pages -/

structure DirectoryPage where
  rows : List DirectoryEntry
  nextCursor : Option Text
  deriving DecidableEq

/-- The first bytes of every page. -/
def pageHead : List UInt8 := ascii "\x7b\"api_version\":\"v5\",\"history_periods\":[".toList

/-- `SUFFIX`. -/
def pageSuffix : List UInt8 := ascii "],\"next_cursor\":".toList

/-- `serde_json::to_vec(&next)`. -/
def encodeNext : Option Text → List UInt8
  | none => ascii "null".toList
  | some cursor => 34 :: ascii cursor ++ [34]

/-- The body of a page. -/
def DirectoryPage.bytes (page : DirectoryPage) : List UInt8 :=
  pageHead ++ [44].intercalate (page.rows.map wire.row) ++ pageSuffix ++
    encodeNext page.nextCursor ++ [125]

namespace DirectoryFrame

/-- The cursor after the entries before `offset`, where more follow. -/
def nextCursor (frame : DirectoryFrame) (kind : DirectoryKind) (offset : Nat) : Option Text :=
  if offset < (frame.directory.entries kind).length then
    some (frame.directoryCursor wire kind offset)
  else none

/-- The loop of `serialize_directory` at the offset `last`, with the entries from there on. The
length is that of the body so far. It ends before the first entry that has no room. -/
def fill (frame : DirectoryFrame) (kind : DirectoryKind) (budget start : Nat) :
    Nat → Nat → List DirectoryEntry → Option Nat
  | last, _, [] => some last
  | last, length, entry :: rest =>
      let row := (wire.row entry).length
      let next := (encodeNext (frame.nextCursor wire kind (last + 1))).length
      let comma := if start < last then 1 else 0
      if budget < length + comma + row + pageSuffix.length + next + 1 then
        if last = start then none else some last
      else fill frame kind budget start (last + 1) (length + comma + row) rest

/-- The page with the entries from `start` to `last`. -/
def pageOf (frame : DirectoryFrame) (kind : DirectoryKind) (start last : Nat) : DirectoryPage where
  rows := ((frame.directory.entries kind).take last).drop start
  nextCursor := frame.nextCursor wire kind last

/-- A page that is not in the cache, and where it ends. -/
def buildPage (frame : DirectoryFrame) (kind : DirectoryKind) (budget start : Nat) :
    Except DirectoryError (DirectoryPage × Nat) :=
  match frame.fill wire kind budget start start pageHead.length
      ((frame.directory.entries kind).drop start) with
  | none => .error .resourceTooLarge
  | some last =>
      let page := frame.pageOf wire kind start last
      if budget < (page.bytes wire).length then .error .resourceTooLarge else .ok (page, last)

end DirectoryFrame

/-! ### The cache -/

structure DirectorySequence where
  pages : SortedMap Nat DirectoryPage
  frontier : Nat

/-- A sequence of pages for each kind and budget. One that is not there yet is empty. -/
structure DirectoryPages where
  sequences : DirectoryKind → Nat → DirectorySequence

namespace DirectoryPages

def empty : DirectoryPages := ⟨fun _ _ => ⟨.empty, 0⟩⟩

def page? (cache : DirectoryPages) (kind : DirectoryKind) (budget start : Nat) :
    Option DirectoryPage :=
  (cache.sequences kind budget).pages.get? start

/-- A page at the frontier of its sequence is kept, and the frontier moves to its end. -/
def keep (cache : DirectoryPages) (kind : DirectoryKind) (budget start last : Nat)
    (page : DirectoryPage) : DirectoryPages :=
  if start = (cache.sequences kind budget).frontier then
    ⟨fun otherKind otherBudget =>
      if otherKind = kind ∧ otherBudget = budget then
        ⟨(cache.sequences kind budget).pages.insert start page, last⟩
      else cache.sequences otherKind otherBudget⟩
  else cache

end DirectoryPages

/-- `serialize_directory` of a frame with its cache. -/
def serializeDirectory (frame : DirectoryFrame) (cache : DirectoryPages) (kind : DirectoryKind)
    (cursor : Option Text) (budget : Nat) : Except DirectoryError DirectoryPage × DirectoryPages :=
  match frame.directoryStart wire kind cursor with
  | .error error => (.error error, cache)
  | .ok start =>
      match cache.page? kind budget start with
      | some page => (.ok page, cache)
      | none =>
          match frame.buildPage wire kind budget start with
          | .error error => (.error error, cache)
          | .ok (page, last) => (.ok page, cache.keep kind budget start last page)

/-! ### Published frames -/

/-- What a read of the database brings. -/
structure DirectoryCandidate where
  historyAvailable : Bool
  directory : Directory

/-- `self.with_history(history)`: the pages of the other frame come with its directory. -/
def DirectoryFrame.withHistory (self history : DirectoryFrame) : DirectoryFrame :=
  { self with
    historyAvailable := history.historyAvailable
    directory := history.directory
    pages := history.pages }

/-- The merges of `complete_reader_lane`. -/
inductive HistoryMerge where
  | none
  /-- A candidate without history takes over that of the current frame. -/
  | keep
  /-- The current fields take over the history of a candidate with an older window. -/
  | give
  deriving DecidableEq, Repr

/-- The candidate that comes to admission. -/
def mergeHistory (merge : HistoryMerge) (current : Option DirectoryFrame) (next : DirectoryFrame) :
    DirectoryFrame :=
  match merge, current with
  | .keep, some current =>
      if !next.historyAvailable && current.historyAvailable then next.withHistory current else next
  | .give, some current =>
      if next.historyAvailable then current.withHistory next else next
  | _, _ => next

/-- `same_public_domain`. The flag is the answer of the comparisons beyond the directories. -/
def sameDirectoryDomain (same : Bool) (previous candidate : DirectoryFrame) : Bool :=
  same && decide (previous.historyAvailable = candidate.historyAvailable) &&
    (!previous.historyAvailable || decide (previous.directory = candidate.directory))

/-- A request and its answer. -/
structure DirectoryAnswer where
  frame : DirectoryFrame
  kind : DirectoryKind
  cursor : Option Text
  budget : Nat
  result : Except DirectoryError DirectoryPage

structure DirectoryPublisher where
  issuer : PairIssuer
  current : Option DirectoryFrame
  lastVerifiedHistory : Option DirectoryFrame
  caches : List DirectoryPages
  /-- Every frame that was published. A request may still hold an old one. -/
  frames : List DirectoryFrame
  answers : List DirectoryAnswer

inductive DirectoryEvent where
  | admitCandidate (candidate : DirectoryCandidate) (merge : HistoryMerge) (same : Bool)
  | admitIndependentHistory (candidate : DirectoryCandidate) (same : Bool)
  | revokeHistory
  | request (frame : Nat) (kind : DirectoryKind) (cursor : Option Text) (budget : Nat)

namespace DirectoryPublisher

def init : DirectoryPublisher where
  issuer := ⟨0, false⟩
  current := none
  lastVerifiedHistory := none
  caches := []
  frames := []
  answers := []

/-- `candidate_from_db_for_account`: the candidate has a cache of its own and no pair yet. -/
def candidateFrame (s : DirectoryPublisher) (candidate : DirectoryCandidate) : DirectoryFrame where
  pair := 0
  historyAvailable := candidate.historyAvailable
  directory := candidate.directory
  pages := s.caches.length

/-- The pair and the cache that a frame is published with: those of a predecessor with the same
public domain, else a new pair. Nothing is published without a pair. -/
def assignPair (s : DirectoryPublisher) (previous : Option DirectoryFrame) (same : Bool)
    (frame : DirectoryFrame) : Option DirectoryFrame × PairIssuer :=
  match previous.filter (sameDirectoryDomain same · frame) with
  | some previous => (some { frame with pair := previous.pair, pages := previous.pages }, s.issuer)
  | none =>
      match s.issuer.issue with
      | (none, issuer) => (none, issuer)
      | (some pair, issuer) => (some { frame with pair := pair }, issuer)

/-- `admit_candidate` after the merge. -/
def admitCandidate (s : DirectoryPublisher) (candidate : DirectoryCandidate) (merge : HistoryMerge)
    (same : Bool) : DirectoryPublisher :=
  let next := mergeHistory merge s.current (s.candidateFrame candidate)
  let s' := { s with caches := s.caches ++ [DirectoryPages.empty] }
  match s.assignPair s.current same next with
  | (none, issuer) => { s' with issuer := issuer }
  | (some frame, issuer) =>
      { s' with
        issuer := issuer
        current := some frame
        lastVerifiedHistory := if frame.historyAvailable then some frame else s.lastVerifiedHistory
        frames := s.frames ++ [frame] }

/-- `admit_independent_history`. -/
def admitIndependentHistory (s : DirectoryPublisher) (candidate : DirectoryCandidate)
    (same : Bool) : DirectoryPublisher :=
  let s' := { s with caches := s.caches ++ [DirectoryPages.empty] }
  match s.assignPair s.lastVerifiedHistory same (s.candidateFrame candidate) with
  | (none, issuer) => { s' with issuer := issuer }
  | (some frame, issuer) =>
      { s' with
        issuer := issuer
        lastVerifiedHistory := some frame
        frames := s.frames ++ [frame] }

/-- A request to one of the published frames. -/
def request (s : DirectoryPublisher) (position : Nat) (kind : DirectoryKind) (cursor : Option Text)
    (budget : Nat) : DirectoryPublisher :=
  match s.frames[position]? with
  | none => s
  | some frame =>
      match s.caches[frame.pages]? with
      | none => s
      | some cache =>
          let (result, cache) := serializeDirectory wire frame cache kind cursor budget
          { s with
            caches := s.caches.set frame.pages cache
            answers := s.answers ++ [⟨frame, kind, cursor, budget, result⟩] }

def step (s : DirectoryPublisher) : DirectoryEvent → DirectoryPublisher
  | .admitCandidate candidate merge same => s.admitCandidate candidate merge same
  | .admitIndependentHistory candidate same => s.admitIndependentHistory candidate same
  | .revokeHistory => { s with lastVerifiedHistory := none }
  | .request position kind cursor budget => s.request wire position kind cursor budget

def run (events : List DirectoryEvent) : DirectoryPublisher := events.foldl (step wire) init

end DirectoryPublisher

end CodexInfo.Rest
