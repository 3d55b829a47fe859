import CodexInfo.Lib.Run
import CodexInfo.Proofs.Writer.StoredText
import CodexInfo.Rest.DirectoryPages

/-!
# `CodexInfo.Proofs.Rest.DirectoryPages`: directory pages over a run

A page is built for the frame that is asked, but it is kept in a cache that other frames share, and
its cursor has the pair of the frame that built it. Frames with one cache answer alike as long as
they have one pair.

* `buildPage_ok`, `buildPage_error`: what the greedy loop guarantees.
* `Coherent`: frames that share a cache have one pair and one directory, and each page in it is the
  page they would build.
* `run_paged`: in a run where no frame takes over a history under a new pair, every answer is a page
  of the directory of its frame, and following the cursors yields the directory.
* `mergedFrame_stale`: a merged frame hands out a cursor that it rejects.
-/

set_option autoImplicit false

namespace CodexInfo.Rest

open CodexInfo.Contract
open CodexInfo.Lib
open CodexInfo.Writer (decimal parseU64 parseU64_decimal)

variable {wire : DirectoryWire}

/-! ### Greedy pages -/

theorem length_intercalate_concat (rows : List (List UInt8)) (row : List UInt8) :
    ([44].intercalate (rows ++ [row]) : List UInt8).length =
      ([44].intercalate rows : List UInt8).length + (if rows = [] then 0 else 1) + row.length := by
  induction rows with
  | nil => simp [List.intercalate]
  | cons first rest ih =>
      cases rest with
      | nil => simp [List.intercalate]; omega
      | cons second rest =>
          simp only [List.cons_append, List.intercalate_cons_cons, List.length_append] at ih ⊢
          rw [ih]
          simp
          omega

namespace DirectoryFrame

variable {frame : DirectoryFrame} {kind : DirectoryKind} {budget start : Nat}

theorem pageOf_length (frame : DirectoryFrame) (kind : DirectoryKind) (start last : Nat) :
    ((frame.pageOf wire kind start last).bytes wire).length =
      pageHead.length +
        ([44].intercalate ((((frame.directory.entries kind).take last).drop start).map wire.row) :
          List UInt8).length +
        pageSuffix.length + (encodeNext (frame.nextCursor wire kind last)).length + 1 := by
  simp only [DirectoryPage.bytes, pageOf, List.length_append, List.length_singleton]

/-- One more entry on a page: the sum that the loop compares with the budget. -/
theorem pageOf_succ_length {last : Nat} {entry : DirectoryEntry} (hstart : start ≤ last)
    (hentry : (frame.directory.entries kind)[last]? = some entry) :
    ((frame.pageOf wire kind start (last + 1)).bytes wire).length =
      pageHead.length +
        ([44].intercalate ((((frame.directory.entries kind).take last).drop start).map wire.row) :
          List UInt8).length +
        (if start < last then 1 else 0) + (wire.row entry).length + pageSuffix.length +
        (encodeNext (frame.nextCursor wire kind (last + 1))).length + 1 := by
  have hlast := (List.getElem?_eq_some_iff.mp hentry).1
  have hslice : ((frame.directory.entries kind).take (last + 1)).drop start =
      ((frame.directory.entries kind).take last).drop start ++ [entry] := by
    rw [List.take_add_one, hentry, Option.toList_some, List.drop_append_of_le_length]
    rw [List.length_take]
    omega
  have hempty : (((frame.directory.entries kind).take last).drop start).map wire.row = [] ↔
      ¬start < last := by
    rw [List.map_eq_nil_iff, List.drop_eq_nil_iff, List.length_take]
    omega
  rw [pageOf_length, hslice, List.map_append, List.map_singleton, length_intercalate_concat]
  by_cases h : start < last
  · rw [if_neg (mt hempty.mp (by simpa using h)), if_pos h]
    omega
  · rw [if_pos (hempty.mpr h), if_neg h]
    omega

variable (wire budget) in
/-- The loop keeps a page that fits, and takes an entry wherever it starts before the end. -/
theorem fill_spec {rest : List DirectoryEntry} {last length : Nat} (hstart : start ≤ last)
    (hlast : last ≤ (frame.directory.entries kind).length)
    (hrest : rest = (frame.directory.entries kind).drop last)
    (hlength : length = pageHead.length +
      ([44].intercalate ((((frame.directory.entries kind).take last).drop start).map wire.row) :
        List UInt8).length)
    (hfits : start < last → ((frame.pageOf wire kind start last).bytes wire).length ≤ budget) :
    match frame.fill wire kind budget start last length rest with
    | none => start < (frame.directory.entries kind).length ∧
        budget < ((frame.pageOf wire kind start (start + 1)).bytes wire).length
    | some stop => start ≤ stop ∧ stop ≤ (frame.directory.entries kind).length ∧
        (start < (frame.directory.entries kind).length → start < stop) ∧
        (start < stop → ((frame.pageOf wire kind start stop).bytes wire).length ≤ budget) := by
  induction rest generalizing last length with
  | nil =>
      have hend := List.drop_eq_nil_iff.mp hrest.symm
      simp only [fill]
      exact ⟨hstart, hlast, by omega, hfits⟩
  | cons entry rest ih =>
      have hentry : (frame.directory.entries kind)[last]? = some entry := by
        have hat := congrArg (·[0]?) hrest
        simpa [List.getElem?_drop] using hat.symm
      have hlt := (List.getElem?_eq_some_iff.mp hentry).1
      have hsucc : ((frame.pageOf wire kind start (last + 1)).bytes wire).length = _ :=
        pageOf_succ_length hstart hentry
      rw [← hlength] at hsucc
      simp only [fill]
      rw [← hsucc]
      by_cases hbudget : budget < ((frame.pageOf wire kind start (last + 1)).bytes wire).length
      · rw [if_pos hbudget]
        by_cases hfirst : last = start
        · subst hfirst
          rw [if_pos rfl]
          exact ⟨hlt, hbudget⟩
        · rw [if_neg hfirst]
          exact ⟨hstart, hlast, by omega, hfits⟩
      · rw [if_neg hbudget]
        have hnext : rest = (frame.directory.entries kind).drop (last + 1) := by
          rw [← List.tail_drop, ← hrest]
          rfl
        refine ih (by omega) (by omega) hnext ?_ fun _ => by omega
        rw [pageOf_length] at hsucc
        omega

/-- A page that is built starts where it is asked, is not empty while entries are left, and fits. -/
theorem buildPage_ok {page : DirectoryPage} {last : Nat}
    (hstart : start ≤ (frame.directory.entries kind).length)
    (h : frame.buildPage wire kind budget start = .ok (page, last)) :
    page = frame.pageOf wire kind start last ∧ start ≤ last ∧
      last ≤ (frame.directory.entries kind).length ∧
      (start < (frame.directory.entries kind).length → start < last) ∧
      (page.bytes wire).length ≤ budget := by
  have hspec := fill_spec wire budget (le_refl start) hstart rfl
    (show pageHead.length = _ by simp) fun hlt => absurd hlt (lt_irrefl _)
  unfold buildPage at h
  split at h
  · cases h
  · rename_i stop hstop
    rw [hstop] at hspec
    dsimp only at h hspec
    split at h
    · cases h
    · simp only [Except.ok.injEq, Prod.mk.injEq] at h
      obtain ⟨rfl, rfl⟩ := h
      exact ⟨rfl, hspec.1, hspec.2.1, hspec.2.2.1, by omega⟩

/-- A page is refused where its first entry alone has no room. -/
theorem buildPage_error {error : DirectoryError}
    (hstart : start ≤ (frame.directory.entries kind).length)
    (h : frame.buildPage wire kind budget start = .error error) :
    error = .resourceTooLarge ∧
      (start < (frame.directory.entries kind).length →
        budget < ((frame.pageOf wire kind start (start + 1)).bytes wire).length) ∧
      (start = (frame.directory.entries kind).length →
        budget < ((frame.pageOf wire kind start start).bytes wire).length) := by
  have hspec := fill_spec wire budget (le_refl start) hstart rfl
    (show pageHead.length = _ by simp) fun hlt => absurd hlt (lt_irrefl _)
  unfold buildPage at h
  split at h
  · rename_i hnone
    rw [hnone] at hspec
    cases h
    exact ⟨rfl, fun _ => hspec.2, fun hend => absurd hspec.1 (by omega)⟩
  · rename_i stop hstop
    rw [hstop] at hspec
    dsimp only at h hspec
    split at h
    · rename_i hbudget
      cases h
      obtain ⟨hle, hend, hprogress, hfits⟩ := hspec
      refine ⟨rfl, fun hlt => ?_, fun heq => ?_⟩
      · have := hfits (hprogress hlt)
        omega
      · obtain rfl : stop = start := by omega
        exact hbudget
    · cases h

/-! ### Cursors -/

/-- A start is an offset of the directory. -/
theorem directoryStart_le {cursor : Option Text}
    (h : frame.directoryStart wire kind cursor = .ok start) :
    frame.historyAvailable = true ∧ start ≤ (frame.directory.entries kind).length ∧
      (cursor = none → start = 0) ∧
      (cursor ≠ none → start < (frame.directory.entries kind).length) := by
  unfold directoryStart at h
  split at h
  · cases h
  · rename_i havailable
    have havailable' : frame.historyAvailable = true := by simpa using havailable
    split at h
    · cases h
      exact ⟨havailable', Nat.zero_le _, fun _ => rfl, fun hne => absurd rfl hne⟩
    · split at h
      · cases h
      · split at h
        · cases h
        · split at h
          · cases h
          · rename_i hoffset
            cases h
            exact ⟨havailable', by omega, fun hnone => (nomatch hnone), fun _ => by omega⟩

/-- No cursor is too large. -/
theorem directoryStart_error {cursor : Option Text} {error : DirectoryError}
    (h : frame.directoryStart wire kind cursor = .error error) : error ≠ .resourceTooLarge := by
  rintro rfl
  unfold directoryStart at h
  split at h
  · cases h
  · split at h
    · cases h
    · split at h
      · cases h
      · split at h
        · cases h
        · split at h
          · cases h
          · cases h

/-- A frame accepts its own cursors. -/
theorem directoryStart_directoryCursor {offset : Nat} (havailable : frame.historyAvailable = true)
    (hpos : 0 < offset) (hlt : offset < (frame.directory.entries kind).length) :
    frame.directoryStart wire kind (some (frame.directoryCursor wire kind offset)) =
      .ok offset := by
  have hrest : List.isPrefixOf? (frame.cursorStart wire kind)
      (frame.directoryCursor wire kind offset) = some (decimal offset) :=
    List.isPrefixOf?_eq_some_iff_append_eq.mpr rfl
  have hsize : offset ≤ u64Max := by
    have := frame.directory.length_lt kind
    have hmax : u64Max = 2 ^ 64 - 1 := rfl
    omega
  have hvalid : ¬(offset = 0 ∨ (frame.directory.entries kind).length ≤ offset ∨
      decimal offset ≠ decimal offset) := by
    rintro (hzero | hle | hne)
    · omega
    · omega
    · exact hne rfl
  unfold directoryStart
  rw [havailable]
  simp only [Bool.not_true, Bool.false_eq_true, if_false]
  rw [hrest]
  dsimp only
  rw [parseU64_decimal hsize]
  dsimp only
  rw [if_neg hvalid]

end DirectoryFrame

/-! ### Frames that share a cache -/

/-- Frames that build the same pages. -/
structure SameDirectory (f g : DirectoryFrame) : Prop where
  pair : f.pair = g.pair
  available : f.historyAvailable = g.historyAvailable
  directory : f.historyAvailable = true → f.directory = g.directory

theorem SameDirectory.symm {f g : DirectoryFrame} (h : SameDirectory f g) : SameDirectory g f where
  pair := h.pair.symm
  available := h.available.symm
  directory := fun hg => (h.directory (h.available.trans hg)).symm

theorem SameDirectory.trans {f g k : DirectoryFrame} (h : SameDirectory f g)
    (h' : SameDirectory g k) : SameDirectory f k where
  pair := h.pair.trans h'.pair
  available := h.available.trans h'.available
  directory := fun hf => (h.directory hf).trans (h'.directory (h.available.symm.trans hf))

theorem SameDirectory.refl (f : DirectoryFrame) : SameDirectory f f := ⟨rfl, rfl, fun _ => rfl⟩

theorem SameDirectory.buildPage_eq {f g : DirectoryFrame} (h : SameDirectory f g)
    (havailable : f.historyAvailable = true) (kind : DirectoryKind) (budget start : Nat) :
    f.buildPage wire kind budget start = g.buildPage wire kind budget start := by
  obtain ⟨pair, available, directory, pages⟩ := f
  obtain ⟨pair', available', directory', pages'⟩ := g
  obtain rfl : pair = pair' := h.pair
  obtain rfl : directory = directory' := h.directory havailable
  have hfill : ∀ last length rest,
      DirectoryFrame.fill wire ⟨pair, available, directory, pages⟩ kind budget start last length
          rest =
        DirectoryFrame.fill wire ⟨pair, available', directory, pages'⟩ kind budget start last length
          rest := by
    intro last length rest
    induction rest generalizing last length with
    | nil => rfl
    | cons entry rest ih =>
        simp only [DirectoryFrame.fill, ih]
        rfl
  unfold DirectoryFrame.buildPage
  rw [hfill]
  rfl

/-- The page that a frame builds for a request. -/
def DirectoryFrame.answer (wire : DirectoryWire) (frame : DirectoryFrame) (kind : DirectoryKind)
    (cursor : Option Text) (budget : Nat) : Except DirectoryError DirectoryPage := do
  let start ← frame.directoryStart wire kind cursor
  let built ← frame.buildPage wire kind budget start
  return built.1

/-- Every page in the cache of a frame is the page that the frame would build. -/
def Cached (wire : DirectoryWire) (frame : DirectoryFrame) (cache : DirectoryPages) : Prop :=
  frame.historyAvailable = true → ∀ kind budget start page,
    cache.page? kind budget start = some page →
      ∃ last, frame.buildPage wire kind budget start = .ok (page, last)

theorem cached_empty (frame : DirectoryFrame) : Cached wire frame .empty := by
  intro _ kind budget start page h
  cases h

theorem Cached.congr {f g : DirectoryFrame} {cache : DirectoryPages} (h : Cached wire f cache)
    (hsame : SameDirectory f g) : Cached wire g cache := by
  intro havailable kind budget start page hpage
  have hf : f.historyAvailable = true := hsame.available.trans havailable
  rw [← hsame.buildPage_eq hf]
  exact h hf kind budget start page hpage

/-- A page that the frame has built may be kept. -/
theorem Cached.keep {frame : DirectoryFrame} {cache : DirectoryPages} (h : Cached wire frame cache)
    {kind : DirectoryKind} {budget start last : Nat} {page : DirectoryPage}
    (hbuilt : frame.buildPage wire kind budget start = .ok (page, last)) :
    Cached wire frame (cache.keep kind budget start last page) := by
  intro havailable kind' budget' start' page' hpage
  unfold DirectoryPages.keep at hpage
  split at hpage
  · simp only [DirectoryPages.page?] at hpage
    split at hpage
    · rename_i hsequence
      obtain ⟨rfl, rfl⟩ := hsequence
      rw [SortedMap.get?_insert] at hpage
      split at hpage
      · rename_i hstart
        subst hstart
        obtain rfl := Option.some.inj hpage
        exact ⟨last, hbuilt⟩
      · exact h havailable _ _ _ _ hpage
    · exact h havailable _ _ _ _ hpage
  · exact h havailable _ _ _ _ hpage

/-- A request gets the page that its frame builds, and the cache stays one of this frame. -/
theorem serializeDirectory_spec {frame : DirectoryFrame} {cache : DirectoryPages}
    (h : Cached wire frame cache) (kind : DirectoryKind) (cursor : Option Text) (budget : Nat) :
    (serializeDirectory wire frame cache kind cursor budget).1 =
        frame.answer wire kind cursor budget ∧
      Cached wire frame (serializeDirectory wire frame cache kind cursor budget).2 := by
  unfold serializeDirectory DirectoryFrame.answer
  cases hstart : frame.directoryStart wire kind cursor with
  | error error => exact ⟨rfl, h⟩
  | ok start =>
      have havailable := (DirectoryFrame.directoryStart_le hstart).1
      dsimp only
      cases hpage : cache.page? kind budget start with
      | some page =>
          obtain ⟨last, hbuilt⟩ := h havailable kind budget start page hpage
          refine ⟨?_, h⟩
          show _ = (frame.buildPage wire kind budget start >>= fun built => pure built.1)
          rw [hbuilt]
          rfl
      | none =>
          show _ = (frame.buildPage wire kind budget start >>= fun built => pure built.1) ∧ _
          cases hbuilt : frame.buildPage wire kind budget start with
          | error error => exact ⟨rfl, h⟩
          | ok built =>
              obtain ⟨page, last⟩ := built
              exact ⟨rfl, h.keep hbuilt⟩

/-! ### Runs -/

namespace DirectoryPublisher

variable {s : DirectoryPublisher}

/-- The page without entries. -/
def emptyPage : DirectoryPage := ⟨[], none⟩

/-- The candidate takes over the history of the current frame. -/
def keepsHistory (s : DirectoryPublisher) (candidate : DirectoryCandidate) (merge : HistoryMerge) :
    Bool :=
  decide (merge = .keep) && !candidate.historyAvailable && s.current.any (·.historyAvailable)

/-- The events that keep the pages of a cache those of one pair: a candidate that takes over the
history of the current frame also has its public domain. A request has room for the empty page
where the directory is empty. -/
def Regular (wire : DirectoryWire) (s : DirectoryPublisher) : DirectoryEvent → Prop
  | .admitCandidate candidate merge same => s.keepsHistory candidate merge = true → same = true
  | .admitIndependentHistory _ _ | .revokeHistory => True
  | .request position kind _ budget =>
      ∀ frame ∈ s.frames[position]?, frame.directory.entries kind = [] →
        (emptyPage.bytes wire).length ≤ budget

/-- What the caches and the answers are in every state of such a run. -/
structure Coherent (wire : DirectoryWire) (s : DirectoryPublisher) : Prop where
  current_mem : ∀ frame ∈ s.current, frame ∈ s.frames
  verified_mem : ∀ frame ∈ s.lastVerifiedHistory, frame ∈ s.frames
  pages_lt : ∀ frame ∈ s.frames, frame.pages < s.caches.length
  shared : ∀ f ∈ s.frames, ∀ g ∈ s.frames, f.pages = g.pages → SameDirectory f g
  cached : ∀ frame ∈ s.frames, ∀ cache ∈ s.caches[frame.pages]?, Cached wire frame cache
  answered : ∀ answer ∈ s.answers,
    answer.result = answer.frame.answer wire answer.kind answer.cursor answer.budget
  room : ∀ answer ∈ s.answers, answer.frame.directory.entries answer.kind = [] →
    (emptyPage.bytes wire).length ≤ answer.budget

theorem coherent_init : Coherent wire init where
  current_mem := nofun
  verified_mem := nofun
  pages_lt := nofun
  shared := nofun
  cached := nofun
  answered := nofun
  room := nofun

/-- The state after a frame is published, or none is. -/
structure Published (s after : DirectoryPublisher) (frame : DirectoryFrame) : Prop where
  frames : after.frames = s.frames ++ [frame]
  caches : after.caches = s.caches ++ [DirectoryPages.empty]
  answers : after.answers = s.answers
  current : ∀ f ∈ after.current, f = frame ∨ f ∈ s.current
  verified : ∀ f ∈ after.lastVerifiedHistory, f = frame ∨ f ∈ s.lastVerifiedHistory

/-- A published frame has a cache of its own, or shares that of a frame with the same pages. -/
def Placed (s : DirectoryPublisher) (frame : DirectoryFrame) : Prop :=
  frame.pages = s.caches.length ∨
    ∃ f ∈ s.frames, frame.pages = f.pages ∧ SameDirectory f frame

/-- One published frame. -/
theorem Coherent.publish (h : Coherent wire s) {after : DirectoryPublisher} {frame : DirectoryFrame}
    (hpublished : Published s after frame) (hplaced : s.Placed frame) : Coherent wire after := by
  have hlt : frame.pages < (s.caches ++ [DirectoryPages.empty]).length := by
    rw [List.length_append, List.length_singleton]
    rcases hplaced with hfresh | ⟨f, hf, hpages, -⟩
    · omega
    · have := h.pages_lt f hf
      omega
  -- The new frame and an old one with its cache build the same pages.
  have hsame : ∀ g ∈ s.frames, frame.pages = g.pages → SameDirectory g frame := by
    intro g hg hpages
    rcases hplaced with hfresh | ⟨f, hf, hshared, hsame⟩
    · have := h.pages_lt g hg
      omega
    · exact (h.shared g hg f hf (hpages.symm.trans hshared)).trans hsame
  have hcached : ∀ g ∈ s.frames, ∀ cache ∈ (s.caches ++ [DirectoryPages.empty])[g.pages]?,
      Cached wire g cache := by
    intro g hg cache hcache
    rw [List.getElem?_append_left (h.pages_lt g hg)] at hcache
    exact h.cached g hg cache hcache
  exact
    { current_mem := by
        intro f hf
        rw [hpublished.frames]
        rcases hpublished.current f hf with rfl | hold
        · simp
        · exact List.mem_append_left _ (h.current_mem f hold)
      verified_mem := by
        intro f hf
        rw [hpublished.frames]
        rcases hpublished.verified f hf with rfl | hold
        · simp
        · exact List.mem_append_left _ (h.verified_mem f hold)
      pages_lt := by
        intro f hf
        rw [hpublished.frames] at hf
        rw [hpublished.caches]
        rcases List.mem_append.mp hf with hold | hnew
        · have := h.pages_lt f hold
          rw [List.length_append]
          omega
        · rw [List.mem_singleton.mp hnew]
          exact hlt
      shared := by
        intro f hf g hg hpages
        rw [hpublished.frames] at hf hg
        rcases List.mem_append.mp hf with hfold | hfnew
        · rcases List.mem_append.mp hg with hgold | hgnew
          · exact h.shared f hfold g hgold hpages
          · obtain rfl := List.mem_singleton.mp hgnew
            exact hsame f hfold hpages.symm
        · obtain rfl := List.mem_singleton.mp hfnew
          rcases List.mem_append.mp hg with hgold | hgnew
          · exact (hsame g hgold hpages).symm
          · obtain rfl := List.mem_singleton.mp hgnew
            exact .refl _
      cached := by
        intro f hf cache hcache
        rw [hpublished.frames] at hf
        rw [hpublished.caches] at hcache
        rcases List.mem_append.mp hf with hold | hnew
        · exact hcached f hold cache hcache
        · obtain rfl := List.mem_singleton.mp hnew
          rcases hplaced with hfresh | ⟨g, hg, hshared, hsame⟩
          · rw [hfresh, List.getElem?_concat_length] at hcache
            obtain rfl := Option.some.inj hcache
            exact cached_empty _
          · rw [hshared] at hcache
            exact (hcached g hg cache hcache).congr hsame
      answered := by
        rw [hpublished.answers]
        exact h.answered
      room := by
        rw [hpublished.answers]
        exact h.room }

/-- Without a pair nothing is published. -/
theorem Coherent.refuse (h : Coherent wire s) (issuer : PairIssuer) :
    Coherent wire
      { s with issuer := issuer, caches := s.caches ++ [DirectoryPages.empty] } where
  current_mem := h.current_mem
  verified_mem := h.verified_mem
  pages_lt := by
    intro f hf
    have := h.pages_lt f hf
    show f.pages < (s.caches ++ [DirectoryPages.empty]).length
    rw [List.length_append]
    omega
  shared := h.shared
  cached := by
    intro f hf cache hcache
    rw [List.getElem?_append_left (h.pages_lt f hf)] at hcache
    exact h.cached f hf cache hcache
  answered := h.answered
  room := h.room

/-- The frame that gets a pair: it shares the cache of its predecessor, or keeps its own. -/
theorem assignPair_spec {previous : Option DirectoryFrame} {same : Bool}
    {frame published : DirectoryFrame} {issuer : PairIssuer}
    (h : s.assignPair previous same frame = (some published, issuer)) :
    (∃ old ∈ previous, sameDirectoryDomain same old frame = true ∧ published.pages = old.pages ∧
        SameDirectory old published) ∨
      ((∀ old ∈ previous, sameDirectoryDomain same old frame = false) ∧
        published.pages = frame.pages) := by
  unfold assignPair at h
  cases hfilter : previous.filter (sameDirectoryDomain same · frame) with
  | some old =>
      rw [hfilter] at h
      obtain ⟨hprevious, hdomain⟩ := Option.filter_eq_some_iff.mp hfilter
      simp only [Prod.mk.injEq, Option.some.injEq] at h
      obtain ⟨rfl, -⟩ := h
      refine .inl ⟨old, hprevious, hdomain, rfl, ?_⟩
      simp only [sameDirectoryDomain, Bool.and_eq_true, decide_eq_true_eq, Bool.or_eq_true,
        Bool.not_eq_true'] at hdomain
      obtain ⟨⟨-, havailable⟩, hdirectory⟩ := hdomain
      refine ⟨rfl, havailable, fun hold => ?_⟩
      rcases hdirectory with hunavailable | hdirectory
      · rw [hold] at hunavailable
        cases hunavailable
      · exact hdirectory
  | none =>
      rw [hfilter] at h
      have hnone : ∀ old ∈ previous, sameDirectoryDomain same old frame = false := by
        intro old hold
        have := Option.filter_eq_none_iff.mp hfilter old hold
        simpa using this
      cases hissue : s.issuer.issue with
      | mk pair next =>
          rw [hissue] at h
          cases pair with
          | none => simp at h
          | some pair =>
              simp only [Prod.mk.injEq, Option.some.injEq] at h
              obtain ⟨rfl, -⟩ := h
              exact .inr ⟨hnone, rfl⟩

/-- A frame that goes to admission has a cache of its own, unless it takes over a history. -/
theorem mergeHistory_pages (s : DirectoryPublisher) (candidate : DirectoryCandidate)
    (merge : HistoryMerge) :
    (mergeHistory merge s.current (s.candidateFrame candidate)).pages = s.caches.length ∨
      s.keepsHistory candidate merge = true ∧ ∃ current ∈ s.current,
        sameDirectoryDomain true current
          (mergeHistory merge s.current (s.candidateFrame candidate)) = true := by
  cases hcurrent : s.current with
  | none => cases merge <;> exact .inl rfl
  | some current =>
      cases merge with
      | none => exact .inl rfl
      | give =>
          left
          simp only [mergeHistory]
          split
          · rfl
          · rfl
      | keep =>
          simp only [mergeHistory]
          split
          · rename_i htakes
            right
            simp only [candidateFrame, Bool.and_eq_true, Bool.not_eq_true'] at htakes
            refine ⟨by simp [keepsHistory, hcurrent, htakes.1, htakes.2], current, rfl, ?_⟩
            simp [sameDirectoryDomain, DirectoryFrame.withHistory]
          · exact .inl rfl

theorem Coherent.admitCandidate (h : Coherent wire s) {candidate : DirectoryCandidate}
    {merge : HistoryMerge} {same : Bool}
    (hregular : s.keepsHistory candidate merge = true → same = true) :
    Coherent wire (s.admitCandidate candidate merge same) := by
  unfold DirectoryPublisher.admitCandidate
  dsimp only
  cases hassigned : s.assignPair s.current same
      (mergeHistory merge s.current (s.candidateFrame candidate)) with
  | mk published issuer =>
      cases published with
      | none => exact h.refuse issuer
      | some frame =>
          refine @Coherent.publish _ _ h _ frame ⟨rfl, rfl, rfl, ?_, ?_⟩ ?_
          · intro f hf
            exact .inl (Option.some.inj hf).symm
          · intro f hf
            dsimp only at hf
            split at hf
            · exact .inl (Option.some.inj hf).symm
            · exact .inr hf
          · rcases assignPair_spec hassigned with ⟨old, hold, -, hpages, hsame⟩ | ⟨hnone, hpages⟩
            · exact .inr ⟨old, h.current_mem old hold, hpages, hsame⟩
            · -- A new pair: the regular events take over no history.
              rcases s.mergeHistory_pages candidate merge with hown | ⟨hkeeps, old, hold, hdomain⟩
              · exact .inl (hpages.trans hown)
              · have hdiffers := hnone old hold
                rw [hregular hkeeps, hdomain] at hdiffers
                cases hdiffers

theorem Coherent.admitIndependentHistory (h : Coherent wire s) (candidate : DirectoryCandidate)
    (same : Bool) : Coherent wire (s.admitIndependentHistory candidate same) := by
  unfold DirectoryPublisher.admitIndependentHistory
  dsimp only
  cases hassigned : s.assignPair s.lastVerifiedHistory same (s.candidateFrame candidate) with
  | mk published issuer =>
      cases published with
      | none => exact h.refuse issuer
      | some frame =>
          refine @Coherent.publish _ _ h _ frame ⟨rfl, rfl, rfl, fun f hf => .inr hf, ?_⟩ ?_
          · intro f hf
            exact .inl (Option.some.inj hf).symm
          · rcases assignPair_spec hassigned with ⟨old, hold, -, hpages, hsame⟩ | ⟨-, hpages⟩
            · exact .inr ⟨old, h.verified_mem old hold, hpages, hsame⟩
            · exact .inl hpages

/-- A request changes one cache, and keeps it a cache of each frame that shares it. -/
theorem Coherent.request (h : Coherent wire s) {position : Nat} {kind : DirectoryKind}
    {cursor : Option Text} {budget : Nat}
    (hroom : ∀ frame ∈ s.frames[position]?, frame.directory.entries kind = [] →
      (emptyPage.bytes wire).length ≤ budget) :
    Coherent wire (s.request wire position kind cursor budget) := by
  unfold DirectoryPublisher.request
  cases hframe : s.frames[position]? with
  | none => exact h
  | some frame =>
      have hmem := List.mem_of_getElem? hframe
      dsimp only
      cases hcache : s.caches[frame.pages]? with
      | none => exact h
      | some cache =>
          obtain ⟨hresult, hcached⟩ :=
            serializeDirectory_spec (h.cached frame hmem cache hcache) kind cursor budget
          exact
            { current_mem := h.current_mem
              verified_mem := h.verified_mem
              pages_lt := by
                intro f hf
                show f.pages < (s.caches.set frame.pages _).length
                rw [List.length_set]
                exact h.pages_lt f hf
              shared := h.shared
              cached := by
                intro f hf other hother
                rw [List.getElem?_set] at hother
                split at hother
                · rename_i hpages
                  rw [if_pos (h.pages_lt frame hmem)] at hother
                  obtain rfl := Option.some.inj hother
                  exact hcached.congr (h.shared frame hmem f hf hpages)
                · exact h.cached f hf other hother
              answered := by
                intro answer hanswer
                rcases List.mem_append.mp hanswer with hold | hnew
                · exact h.answered answer hold
                · rw [List.mem_singleton.mp hnew]
                  exact hresult
              room := by
                intro answer hanswer
                rcases List.mem_append.mp hanswer with hold | hnew
                · exact h.room answer hold
                · rw [List.mem_singleton.mp hnew]
                  exact hroom frame hframe }

/-- One event. -/
theorem Coherent.step (h : Coherent wire s) {event : DirectoryEvent}
    (hregular : Regular wire s event) : Coherent wire (s.step wire event) := by
  cases event with
  | admitCandidate candidate merge same => exact h.admitCandidate hregular
  | admitIndependentHistory candidate same => exact h.admitIndependentHistory candidate same
  | revokeHistory =>
      exact
        { current_mem := h.current_mem
          verified_mem := nofun
          pages_lt := h.pages_lt
          shared := h.shared
          cached := h.cached
          answered := h.answered
          room := h.room }
  | request position kind cursor budget => exact h.request hregular

end DirectoryPublisher

/-- What an answer promises. Its cursor is accepted by the frame that gave it, at a later start; its
body fits; and a page is refused only where one entry with its cursor has no room. -/
structure DirectoryAnswer.Paged (wire : DirectoryWire) (answer : DirectoryAnswer) : Prop where
  accepted : ∀ page cursor, answer.result = .ok page → page.nextCursor = some cursor →
    ∃ start last, answer.frame.directoryStart wire answer.kind answer.cursor = .ok start ∧
      answer.frame.directoryStart wire answer.kind (some cursor) = .ok last ∧ start < last
  fits : ∀ page, answer.result = .ok page → (page.bytes wire).length ≤ answer.budget
  tooLarge : answer.result = .error .resourceTooLarge →
    ∃ start entry, answer.frame.directoryStart wire answer.kind answer.cursor = .ok start ∧
      (answer.frame.directory.entries answer.kind)[start]? = some entry ∧
      answer.budget < (DirectoryPage.bytes wire
        ⟨[entry], answer.frame.nextCursor wire answer.kind (start + 1)⟩).length

/-- The pages that a client gets from one frame when it follows the cursors from `cursor` to the
last page. Its requests may come at any time and with any budgets. -/
def Follows (answers : List DirectoryAnswer) (frame : DirectoryFrame) (kind : DirectoryKind) :
    Option Text → List DirectoryPage → Prop
  | _, [] => False
  | cursor, page :: rest =>
      (∃ budget, (⟨frame, kind, cursor, budget, .ok page⟩ : DirectoryAnswer) ∈ answers) ∧
        match page.nextCursor with
        | none => rest = []
        | some next => Follows answers frame kind (some next) rest

/-- A page that a frame builds. -/
theorem answer_ok {frame : DirectoryFrame} {kind : DirectoryKind} {cursor : Option Text}
    {budget : Nat} {page : DirectoryPage} (h : frame.answer wire kind cursor budget = .ok page) :
    ∃ start last, frame.directoryStart wire kind cursor = .ok start ∧
      page = frame.pageOf wire kind start last ∧ start ≤ last ∧
      last ≤ (frame.directory.entries kind).length ∧
      (start < (frame.directory.entries kind).length → start < last) ∧
      (page.bytes wire).length ≤ budget := by
  simp only [DirectoryFrame.answer, bind_eq_ok_iff] at h
  obtain ⟨start, hstart, ⟨built, last⟩, hbuilt, hpage⟩ := h
  obtain rfl := Except.ok.inj hpage
  have hle := (DirectoryFrame.directoryStart_le hstart).2.1
  exact ⟨start, last, hstart, DirectoryFrame.buildPage_ok hle hbuilt⟩

/-- The next cursor of a page starts where the page ends. -/
theorem start_nextCursor {frame : DirectoryFrame} {kind : DirectoryKind} {start last : Nat}
    {next : Text} (havailable : frame.historyAvailable = true) (hlt : start < last)
    (h : frame.nextCursor wire kind last = some next) :
    frame.directoryStart wire kind (some next) = .ok last := by
  unfold DirectoryFrame.nextCursor at h
  split at h
  · rename_i hend
    obtain rfl := Option.some.inj h
    exact DirectoryFrame.directoryStart_directoryCursor havailable (by omega) hend
  · cases h

theorem entry_left {frame : DirectoryFrame} {kind : DirectoryKind} {last : Nat} {next : Text}
    (h : frame.nextCursor wire kind last = some next) :
    last < (frame.directory.entries kind).length := by
  unfold DirectoryFrame.nextCursor at h
  split at h
  · assumption
  · cases h

theorem paged_of_answered {answer : DirectoryAnswer}
    (hresult : answer.result =
      answer.frame.answer wire answer.kind answer.cursor answer.budget)
    (hroom : answer.frame.directory.entries answer.kind = [] →
      (DirectoryPublisher.emptyPage.bytes wire).length ≤ answer.budget) :
    answer.Paged wire where
  accepted := by
    intro page cursor hok hnext
    obtain ⟨start, last, hstart, rfl, hle, -, hprogress, -⟩ := answer_ok (hresult.symm.trans hok)
    have hlt : start < last := by
      have := entry_left hnext
      omega
    have havailable := (DirectoryFrame.directoryStart_le hstart).1
    exact ⟨start, last, hstart, start_nextCursor havailable hlt hnext, hlt⟩
  fits := by
    intro page hok
    obtain ⟨_, _, -, -, -, -, -, hfits⟩ := answer_ok (hresult.symm.trans hok)
    exact hfits
  tooLarge := by
    intro herror
    rw [herror] at hresult
    unfold DirectoryFrame.answer at hresult
    cases hstart : answer.frame.directoryStart wire answer.kind answer.cursor with
    | error error =>
        rw [hstart] at hresult
        exact absurd (Except.error.inj hresult).symm (DirectoryFrame.directoryStart_error hstart)
    | ok start =>
        obtain ⟨-, hle, hfirst, hlater⟩ := DirectoryFrame.directoryStart_le hstart
        rw [hstart] at hresult
        cases hbuilt : answer.frame.buildPage wire answer.kind answer.budget start with
        | ok built =>
            have hok : Except.error DirectoryError.resourceTooLarge = Except.ok built.1 := by
              rw [hresult]
              show (answer.frame.buildPage wire answer.kind answer.budget start >>= _) = _
              rw [hbuilt]
              rfl
            cases hok
        | error error =>
            obtain ⟨-, hsingle, hempty⟩ := DirectoryFrame.buildPage_error hle hbuilt
            by_cases hlt : start < (answer.frame.directory.entries answer.kind).length
            · have hentry := List.getElem?_eq_getElem hlt
              refine ⟨start, _, rfl, hentry, ?_⟩
              have hrows : ((answer.frame.directory.entries answer.kind).take (start + 1)).drop
                  start = [(answer.frame.directory.entries answer.kind)[start]] := by
                rw [List.take_add_one, hentry, Option.toList_some, List.drop_append_of_le_length]
                · rw [List.drop_eq_nil_iff.mpr (by rw [List.length_take]; omega), List.nil_append]
                · rw [List.length_take]
                  omega
              have hbudget := hsingle hlt
              unfold DirectoryFrame.pageOf at hbudget
              rw [hrows] at hbudget
              exact hbudget
            · -- Only an empty directory starts at its end, and there the empty page has room.
              have hcursor : answer.cursor = none := by
                by_contra hne
                exact hlt (hlater hne)
              obtain rfl := hfirst hcursor
              have hnil : answer.frame.directory.entries answer.kind = [] :=
                List.length_eq_zero_iff.mp (by omega)
              have hbudget := hempty (by omega)
              have hpage : answer.frame.pageOf wire answer.kind 0 0 =
                  DirectoryPublisher.emptyPage := by
                unfold DirectoryFrame.pageOf DirectoryFrame.nextCursor
                rw [hnil]
                rfl
              rw [hpage] at hbudget
              have := hroom hnil
              omega

/-- Pages that follow one another have the entries from the first start to the end. -/
theorem rows_of_follows {answers : List DirectoryAnswer} {frame : DirectoryFrame}
    {kind : DirectoryKind}
    (hanswers : ∀ answer ∈ answers,
      answer.result = answer.frame.answer wire answer.kind answer.cursor answer.budget)
    {pages : List DirectoryPage} {cursor : Option Text} (h : Follows answers frame kind cursor pages)
    {start : Nat} (hstart : frame.directoryStart wire kind cursor = .ok start) :
    pages.flatMap (·.rows) = (frame.directory.entries kind).drop start := by
  induction pages generalizing cursor start with
  | nil => exact h.elim
  | cons page rest ih =>
      obtain ⟨⟨budget, hmem⟩, hrest⟩ := h
      have hok : frame.answer wire kind cursor budget = .ok page := (hanswers _ hmem).symm
      obtain ⟨start', last, hstart', rfl, hle, hlast, hprogress, -⟩ := answer_ok hok
      obtain rfl : start = start' := Except.ok.inj (hstart.symm.trans hstart')
      have havailable := (DirectoryFrame.directoryStart_le hstart).1
      rw [List.flatMap_cons]
      cases hnext : frame.nextCursor wire kind last with
      | none =>
          have hpage : (frame.pageOf wire kind start last).nextCursor = none := hnext
          rw [hpage] at hrest
          obtain rfl : rest = [] := hrest
          have hend : last = (frame.directory.entries kind).length := by
            unfold DirectoryFrame.nextCursor at hnext
            split at hnext
            · cases hnext
            · omega
          show ((frame.directory.entries kind).take last).drop start ++ [] = _
          rw [List.append_nil, hend, List.take_length]
      | some next =>
          have hpage : (frame.pageOf wire kind start last).nextCursor = some next := hnext
          rw [hpage] at hrest
          have hleft := entry_left hnext
          have hstartNext := start_nextCursor havailable (hprogress (by omega)) hnext
          rw [ih hrest hstartNext]
          show ((frame.directory.entries kind).take last).drop start ++ _ = _
          calc ((frame.directory.entries kind).take last).drop start ++
                (frame.directory.entries kind).drop last
              = ((frame.directory.entries kind).take last ++
                  (frame.directory.entries kind).drop last).drop start := by
                rw [List.drop_append_of_le_length (by rw [List.length_take]; omega)]
            _ = (frame.directory.entries kind).drop start := by rw [List.take_append_drop]

/-- Directory paging over a run. Every answer keeps its promise, and the pages that follow one
another from the start have every entry of the directory once and in order, where every candidate
that takes over the history of the current frame has its public domain. -/
theorem run_paged (wire : DirectoryWire) (events : List DirectoryEvent)
    (h : EveryStep (DirectoryPublisher.step wire) (DirectoryPublisher.Regular wire)
      DirectoryPublisher.init events) :
    (∀ answer ∈ (DirectoryPublisher.run wire events).answers, answer.Paged wire) ∧
      ∀ frame kind pages,
        Follows (DirectoryPublisher.run wire events).answers frame kind none pages →
          pages.flatMap (·.rows) = frame.directory.entries kind := by
  have hcoherent : DirectoryPublisher.Coherent wire (DirectoryPublisher.run wire events) :=
    foldl_invariant (fun s event hregular hs => hs.step hregular) h
      DirectoryPublisher.coherent_init
  refine ⟨?_, ?_⟩
  · intro answer hanswer
    exact paged_of_answered (hcoherent.answered answer hanswer) (hcoherent.room answer hanswer)
  · intro frame kind pages hfollows
    have hstart : frame.directoryStart wire kind none = .ok 0 := by
      cases pages with
      | nil => exact hfollows.elim
      | cons page rest =>
          obtain ⟨⟨budget, hmem⟩, -⟩ := hfollows
          obtain ⟨start, -, hstart, -⟩ := answer_ok (hcoherent.answered _ hmem).symm
          have hzero := (DirectoryFrame.directoryStart_le hstart).2.2.1 rfl
          rw [hstart, hzero]
    rw [rows_of_follows hcoherent.answered hfollows hstart, List.drop_zero]

/-! ### Two entries on two pages -/

/-- The JSON of an entry without an origin. -/
def directoryRowJson (entry : DirectoryEntry) : List UInt8 :=
  ascii ("\x7b\"id\":\"".toList ++ entry.period.id ++ "\",\"start_at\":".toList ++
    showI64 entry.period.startAt ++ ",\"end_at\":".toList ++ showI64 entry.period.endAt ++
    ",\"reset_at\":".toList ++ showI64 entry.period.resetAt ++ ",\"label\":\"".toList ++
    entry.period.label ++ "\",\"current\":".toList ++
    (if entry.period.current then "true" else "false").toList ++ ",\"origin_at\":null\x7d".toList)

def directoryWire : DirectoryWire :=
  ⟨List.replicate 32 'a', directoryRowJson⟩

def directoryEntry (resetAt : Int) (current : Bool) : DirectoryEntry where
  period :=
    { id := showI64 resetAt, startAt := resetAt - 604800, endAt := resetAt - 604740
      resetAt := resetAt, label := "2027/01/15".toList, current := current }
  originAt := none

def twoEntries : Directory where
  acquisition := [directoryEntry 1800604800 false, directoryEntry 1800604920 true]
  selectable := [directoryEntry 1800604920 true]
  offsets := by decide

def noEntries : Directory := ⟨[], [], by decide⟩

/-- The cursor of the first published frame to its second entry. -/
def firstCursor : Text :=
  "d1.".toList ++ List.replicate 32 'a' ++ List.replicate 31 '0' ++ "1.a.1".toList

/-- A second frame takes over the history of the first one and has its public domain. -/
def sameDomainEvents : List DirectoryEvent :=
  [.admitCandidate ⟨true, twoEntries⟩ .none false, .request 0 .acquisition none 300,
    .admitCandidate ⟨false, noEntries⟩ .keep true, .request 1 .acquisition none 300,
    .request 1 .acquisition (some firstCursor) 300]

theorem run_paged_sameDomain :
    (∀ answer ∈ (DirectoryPublisher.run directoryWire sameDomainEvents).answers,
        answer.Paged directoryWire) ∧
      ∀ frame kind pages,
        Follows (DirectoryPublisher.run directoryWire sameDomainEvents).answers frame kind none
            pages →
          pages.flatMap (·.rows) = frame.directory.entries kind := by
  have hroom : (DirectoryPublisher.emptyPage.bytes directoryWire).length ≤ 300 := by decide +kernel
  exact run_paged directoryWire sameDomainEvents
    ⟨fun h => (nomatch h), fun _ _ _ => hroom, fun _ => rfl, fun _ _ _ => hroom,
      fun _ _ _ => hroom, trivial⟩

/-- A second frame takes over the history of the first one, and its current fields differ. -/
def newPairEvents : List DirectoryEvent :=
  [.admitCandidate ⟨true, twoEntries⟩ .none false, .request 0 .acquisition none 300,
    .admitCandidate ⟨false, noEntries⟩ .keep false, .request 1 .acquisition none 300]

/-- The second frame answers with the page that the first one has built. The cursor of that page
has the pair of the first frame, so the second frame rejects it. -/
theorem mergedFrame_stale :
    ∃ answer ∈ (DirectoryPublisher.run directoryWire newPairEvents).answers,
      answer.frame.pair = 2 ∧
        answer.result = .ok ⟨[directoryEntry 1800604800 false], some firstCursor⟩ ∧
        answer.frame.directoryStart directoryWire answer.kind (some firstCursor) =
          .error .staleCursor :=
  ⟨(DirectoryPublisher.run directoryWire newPairEvents).answers.get ⟨1, by decide +kernel⟩,
    List.get_mem _ _, by decide +kernel, by decide +kernel, by decide +kernel⟩

end CodexInfo.Rest
