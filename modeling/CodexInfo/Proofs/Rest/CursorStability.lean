import CodexInfo.Proofs.Rest.HistoryCursor
import CodexInfo.Proofs.Writer.StoredText

/-!
# `CodexInfo.Proofs.Rest.CursorStability`: cursors across appends

A later frame accepts the cursors of an earlier one exactly where its fingerprints repeat. The
fingerprint of a row covers the local evidence up to the next row, or up to the end of the period
for the last row. So the evidence of the last row is that of another range once rows are appended
or the period grows.

* `search_eq_some`: the binary search finds every row of an ordered index.
* `accepts_iff`: one cursor is accepted where the identity and the blocks up to its row are kept.
* `issued_accepted_iff`: the cursors of a frame are accepted after an append exactly where every
  row keeps its evidence.
* `growing_end_stale`: a grown period rejects the cursor of an unchanged row.
-/

set_option autoImplicit false

namespace CodexInfo.Rest

open CodexInfo.Contract
open CodexInfo.Lib
open CodexInfo.Reader
open CodexInfo.Writer (decimal parseU64 parseU64_decimal validTime validTime_iff isLowerHexDigit)

/-! ### Published archives -/

/-- The order of published rows: by their resets, then by their times. -/
def Precedes (a b : PublicHistoryObservation) : Prop :=
  a.resetAt < b.resetAt ∨ (a.resetAt = b.resetAt ∧ a.timestamp < b.timestamp)

/-- What `validate_history_domain` has checked of a published archive, as far as an index rests on
it: the ids of the periods are distinct, the times are valid, and the rows are distinct and in
order. -/
structure HistoryArchive.Validated (archive : HistoryArchive) : Prop where
  ids : (archive.periods.map (·.id)).Nodup
  times : ∀ sample ∈ archive.samples,
    validTime sample.resetAt = true ∧ validTime sample.timestamp = true
  order : archive.samples.Pairwise Precedes

def HistoryFrame.Validated (frame : HistoryFrame) (id : Text) : Prop :=
  (frame.selectedHistoryArchive id).1.Validated

namespace HistoryArchive.Validated

variable {archive : HistoryArchive}

/-- An id is of at most one period. -/
theorem periodsOf_eq (h : archive.Validated) {id : Text} {period : PublicHistoryPeriod}
    (hperiod : period ∈ archive.periodsOf id) : archive.periodsOf id = [period] := by
  have hids : ((archive.periodsOf id).map (·.id)).Nodup := h.ids.sublist (List.filter_sublist.map _)
  have hid : ∀ other ∈ archive.periodsOf id, other.id = id := fun other hother =>
    of_decide_eq_true (List.mem_filter.mp hother).2
  cases hperiods : archive.periodsOf id with
  | nil => simp [hperiods] at hperiod
  | cons head rest =>
      cases rest with
      | nil =>
          rw [hperiods] at hperiod
          rw [List.mem_singleton.mp hperiod]
      | cons second rest =>
          rw [hperiods] at hids hid
          have hsame : head.id = second.id := by
            rw [hid head (by simp), hid second (by simp)]
          simp [hsame] at hids

theorem mem_samples {id : Text} {row : PublicHistoryObservation}
    (hrow : row ∈ archive.samplesOf id) : row ∈ archive.samples := by
  obtain ⟨sample, hsample, hmem⟩ := List.mem_flatMap.mp hrow
  obtain ⟨-, -, rfl⟩ := List.mem_map.mp hmem
  exact hsample

/-- The rows of a period are in order too. -/
theorem samplesOf_order (h : archive.Validated) (id : Text) :
    (archive.samplesOf id).Pairwise Precedes := by
  rw [HistoryArchive.samplesOf, List.pairwise_flatMap]
  constructor
  · intro sample _
    have hone : ((archive.periodsOf id).filter (archive.holdsSample · sample)).length ≤ 1 := by
      refine (List.length_filter_le _ _).trans ?_
      cases hperiods : archive.periodsOf id with
      | nil => simp
      | cons head rest =>
          rw [← hperiods, h.periodsOf_eq (hperiods ▸ List.mem_cons_self)]
          simp
    match hheld : (archive.periodsOf id).filter (archive.holdsSample · sample) with
    | [] => exact .nil
    | [_] => exact List.pairwise_singleton _ _
    | _ :: _ :: _ => simp [hheld] at hone
  · refine h.order.imp ?_
    intro a b hab x hx y hy
    obtain ⟨-, -, rfl⟩ := List.mem_map.mp hx
    obtain ⟨-, -, rfl⟩ := List.mem_map.mp hy
    exact hab

end HistoryArchive.Validated

/-! ### The search for a row -/

/-- The search finds a row of an ordered index: it keeps the row between its two bounds. -/
theorem search_eq_some {samples : List PublicHistoryObservation} {row : PublicHistoryObservation}
    {position : Nat} (horder : samples.Pairwise Precedes) (hrow : samples[position]? = some row)
    {fuel low high : Nat} (hlow : low ≤ position) (hhigh : position < high)
    (hlength : high ≤ samples.length) (hfuel : high - low < fuel) :
    PeriodIndex.search samples (row.resetAt, row.timestamp) fuel low high = some position := by
  induction fuel generalizing low high with
  | zero => omega
  | succ fuel ih =>
      rw [PeriodIndex.search, if_pos (by omega)]
      dsimp only
      have hmid : low + (high - low) / 2 < high := by omega
      have hmid' := List.getElem?_eq_getElem (hmid.trans_le hlength)
      obtain ⟨hposition, hrow'⟩ := List.getElem?_eq_some_iff.mp hrow
      rw [hmid']
      dsimp only
      rcases Nat.lt_trichotomy (low + (high - low) / 2) position with hlt | heq | hgt
      · -- The row in the middle comes before the one searched for.
        have hbefore := List.pairwise_iff_getElem.mp horder _ _ (hmid.trans_le hlength) hposition hlt
        rw [hrow'] at hbefore
        simp only [Precedes] at hbefore
        rw [if_neg (by rw [Prod.mk.injEq]; omega), if_pos hbefore]
        exact ih (by omega) hhigh hlength (by omega)
      · have hsame : samples[low + (high - low) / 2] = row := by
          rw [← hrow']
          simp only [heq]
        rw [hsame, if_pos rfl, heq]
      · have hafter := List.pairwise_iff_getElem.mp horder _ _ hposition (hmid.trans_le hlength) hgt
        rw [hrow'] at hafter
        simp only [Precedes] at hafter
        rw [if_neg (by rw [Prod.mk.injEq]; omega), if_neg (by omega)]
        exact ih hlow hgt (by omega) (by omega)

/-! ### The text of a cursor -/

/-- The text of a valid time is read back. -/
theorem parseI64_showI64 {value : Int} (h : validTime value = true) :
    parseI64 (showI64 value) = some value := by
  rw [validTime_iff] at h
  have hlast : CodexInfo.Writer.maxPublicUnixSeconds = 253402300799 := rfl
  have hshow : showI64 value = decimal value.natAbs := by rw [showI64, if_neg (by omega)]
  have hparse : parseU64 (decimal value.natAbs) = some value.natAbs := by
    refine parseU64_decimal ?_
    have hmax : u64Max = 18446744073709551615 := rfl
    omega
  have hsign : ∀ digits, decimal value.natAbs ≠ '-' :: digits := by
    intro digits hdigits
    have hc : '-' ∈ decimal value.natAbs := by rw [hdigits]; exact List.mem_cons_self
    have := Nat.isDigit_of_mem_toDigits (by decide) (by decide) hc
    exact absurd this (by decide)
  rw [hshow]
  unfold parseI64
  split
  · rename_i heq
    exact absurd heq (hsign _)
  · rename_i heq
    exact absurd heq (hsign _)
  · rw [hparse, Option.filter_some, if_pos (by simp only [decide_eq_true_eq]; omega)]
    show some ((value.natAbs : Nat) : Int) = some value
    congr 1
    omega

theorem isLowerHexDigit_hexDigit :
    ∀ value < 16, isLowerHexDigit (hexDigit value) = true := by decide

theorem hex_length (bytes : List UInt8) : (hex bytes).length = 2 * bytes.length := by
  induction bytes with
  | nil => rfl
  | cons byte bytes ih =>
      rw [hex, List.flatMap_cons, List.length_append]
      show 2 + (hex bytes).length = _
      rw [ih, List.length_cons]
      omega

theorem hex_lowerHex (bytes : List UInt8) : (hex bytes).all isLowerHexDigit = true := by
  rw [List.all_eq_true]
  intro c hc
  obtain ⟨byte, -, hmem⟩ := List.mem_flatMap.mp hc
  have hlt := byte.toNat_lt
  simp only [List.mem_cons, List.not_mem_nil, or_false] at hmem
  obtain rfl | rfl := hmem
  · exact isLowerHexDigit_hexDigit _ (by omega)
  · exact isLowerHexDigit_hexDigit _ (by omega)

variable {coding : Coding} {id : Text} {index found : PeriodIndex}

/-- An ordered index accepts a cursor where it has the row and the fingerprint that the cursor was
issued for. -/
theorem startAfter_of_same {position : Nat} {cursor : Text}
    (hissued : index.resume position = some cursor)
    (horder : found.samples.Pairwise Precedes)
    (hrow : found.samples[position]? = index.samples[position]?)
    (hprint : found.fingerprints[position]? = index.fingerprints[position]?)
    (htimes : ∀ row ∈ index.samples, validTime row.resetAt = true ∧ validTime row.timestamp = true)
    (hlength : ∀ print, index.fingerprints[position]? = some print → print.length = 32) :
    found.startAfter cursor = some (position + 1) := by
  simp only [PeriodIndex.resume, Option.bind_eq_bind, Option.bind_eq_some_iff, Option.pure_def,
    Option.some.injEq] at hissued
  obtain ⟨row, hsample, print, hfingerprint, rfl⟩ := hissued
  rw [hsample] at hrow
  rw [hfingerprint] at hprint
  obtain ⟨hreset, htime⟩ := htimes row (List.mem_of_getElem? hsample)
  have hposition := (List.getElem?_eq_some_iff.mp hrow).1
  have hdots : (['.'].intercalate ["h1".toList, showI64 row.resetAt, showI64 row.timestamp,
      hex print]).splitOn '.' =
      ["h1".toList, showI64 row.resetAt, showI64 row.timestamp, hex print] := by
    refine List.splitOn_intercalate '.' ?_ (List.cons_ne_nil _ _)
    intro part hpart
    simp only [List.mem_cons, List.not_mem_nil, or_false] at hpart
    obtain rfl | rfl | rfl | rfl := hpart
    · decide
    · exact dot_notMem_showI64 _
    · exact dot_notMem_showI64 _
    · exact dot_notMem_hex _
  have hhex : ¬((hex print).length ≠ 64 ∨ (!(hex print).all isLowerHexDigit) = true) := by
    rw [hex_length, hlength print hfingerprint, hex_lowerHex]
    simp
  have hsearch := search_eq_some horder hrow (Nat.zero_le position) hposition le_rfl
    (show found.samples.length - 0 < found.samples.length + 1 by omega)
  rw [PeriodIndex.startAfter, hdots]
  dsimp only
  rw [if_neg (by simp), if_neg hhex, parseI64_showI64 hreset, parseI64_showI64 htime]
  dsimp only
  rw [if_neg (by simp), hsearch]
  simp [hprint]

/-! ### Cursors of an earlier frame -/

variable {frames : Set HistoryFrame} {first second : HistoryFrame}
  {period period' : PublicHistoryPeriod} {cursor : Text}

theorem HistoryFrame.Validated.head (h : first.Validated id)
    (hperiod : period ∈ first.periodsOf id) : (first.periodsOf id).head? = some period := by
  have hone := HistoryArchive.Validated.periodsOf_eq h hperiod
  rw [HistoryFrame.periodsOf, hone]
  rfl

/-- A frame has an index of every period it lists. -/
theorem indexed_of_mem (coding : Coding) (hperiod : period ∈ second.periodsOf id) :
    ∃ index, second.indexed coding id = some index := by
  have hne : ¬((second.selectedHistoryArchive id).1.periodsOf id).isEmpty := by
    intro hempty
    rw [List.isEmpty_iff] at hempty
    rw [HistoryFrame.periodsOf, hempty] at hperiod
    cases hperiod
  simp only [HistoryFrame.indexed, buildArchive, if_neg hne]
  exact ⟨_, rfl⟩

/-- A stream tells no more of its blocks than their entries. -/
theorem stream_eq_of_shown {source : HistorySource} {epoch : Nat} {gaps : List PublicHistoryGap}
    {left right : List (PublicHistoryObservation × LocalEvidence)} (hid : period.id = period'.id)
    (hreset : period.resetAt = period'.resetAt) (h : left.map shown = right.map shown) :
    stream coding source epoch period gaps left = stream coding source epoch period' gaps right := by
  have hentries : ∀ blocks : List (PublicHistoryObservation × LocalEvidence),
      blocks.flatMap blockEntries =
        (blocks.map shown).flatMap fun block => .observation block.1 :: block.2 := by
    intro blocks
    rw [List.flatMap_map]
    rfl
  rw [stream, stream, hentries left, hentries right, h, streamHead, streamHead, hid, hreset]

theorem source_eq (first second : HistoryFrame) (id : Text) :
    (first.selectedHistoryArchive id).2 = (second.selectedHistoryArchive id).2 := by
  simp only [HistoryFrame.selectedHistoryArchive]
  split <;> rfl

/-- The minutes with local evidence from the row at `position` to the next one, or to the end of
the period, each with its flag. -/
def HistoryFrame.evidenceOf (frame : HistoryFrame) (id : Text) (period : PublicHistoryPeriod)
    (position : Nat) : List StreamEntry :=
  (evidenceAt period (frame.rowsOf id) frame.recordings position).entries

/-- The blocks up to a row are the rows up to it, each with its evidence. -/
theorem blocksUpTo_shown_iff {position : Nat}
    (hrows : (first.rowsOf id).take (position + 1) = (second.rowsOf id).take (position + 1))
    (hposition : position < (first.rowsOf id).length) :
    (first.blocksUpTo id period position).map shown =
        (second.blocksUpTo id period' position).map shown ↔
      ∀ p ≤ position, first.evidenceOf id period p = second.evidenceOf id period' p := by
  have hsame : ∀ p ≤ position, (second.rowsOf id)[p]? = (first.rowsOf id)[p]? := by
    intro p hp
    have hat := congrArg (·[p]?) hrows
    simp only [List.getElem?_take, if_pos (Nat.lt_succ_of_le hp)] at hat
    exact hat.symm
  constructor
  · intro h p hp
    have hat := congrArg (·[p]?) h
    have hrow := List.getElem?_eq_getElem (show p < (first.rowsOf id).length by omega)
    simp only [HistoryFrame.blocksUpTo, List.getElem?_map, List.getElem?_take,
      if_pos (Nat.lt_succ_of_le hp), blocks_getElem?, hsame p hp, hrow, Option.map_some, shown,
      Option.some.injEq, Prod.mk.injEq, true_and] at hat
    exact hat
  · intro h
    apply List.ext_getElem?
    intro p
    simp only [HistoryFrame.blocksUpTo, List.getElem?_map, List.getElem?_take]
    by_cases hp : p < position + 1
    · have hrow := List.getElem?_eq_getElem (show p < (first.rowsOf id).length by omega)
      have hentries := h p (by omega)
      simp only [HistoryFrame.evidenceOf] at hentries
      simp only [if_pos hp, blocks_getElem?, hsame p (by omega), hrow, Option.map_some, shown,
        hentries]
    · simp only [if_neg hp]

/-- A later frame accepts a cursor exactly where it keeps the identity of the period and the
evidence of every row up to that of the cursor. -/
theorem accepts_iff (hsound : coding.Sound frames id)
    (hlength : ∀ bytes, (coding.digest bytes).length = 32) (hfirst : first ∈ frames)
    (hsecond : second ∈ frames) (hvalid : first.Validated id) (hvalid' : second.Validated id)
    (hperiod : period ∈ first.periodsOf id) (hperiod' : period' ∈ second.periodsOf id)
    {position : Nat}
    (hrows : (first.rowsOf id).take (position + 1) = (second.rowsOf id).take (position + 1))
    (hposition : position < (first.rowsOf id).length)
    (hissued : first.Issues coding id position cursor) :
    (∃ start, second.Accepts coding id cursor start) ↔
      first.identityOf id period = second.identityOf id period' ∧
        ∀ p ≤ position, first.evidenceOf id period p = second.evidenceOf id period' p := by
  rw [← blocksUpTo_shown_iff hrows hposition]
  obtain ⟨index, hindex, hresume⟩ := hissued
  obtain ⟨hsamples, -, head, hhead, hdigests⟩ := indexed_spec hindex
  obtain rfl : period = head := Option.some.inj ((hvalid.head hperiod).symm.trans hhead)
  obtain ⟨found, hfound⟩ := indexed_of_mem coding hperiod'
  obtain ⟨hsamples', -, head', hhead', hdigests'⟩ := indexed_spec hfound
  obtain rfl : period' = head' := Option.some.inj ((hvalid'.head hperiod').symm.trans hhead')
  have hlt : position < (second.rowsOf id).length := by
    have hlengths := congrArg List.length hrows
    rw [List.length_take, List.length_take] at hlengths
    omega
  constructor
  · rintro ⟨start, found', hselected⟩
    obtain ⟨hfound', hstart⟩ := selection_eq_ok hselected
    obtain rfl : found = found' := Option.some.inj (hfound.symm.trans hfound')
    obtain ⟨-, mid, fingerprint, -, hmid, hprint, hprint'⟩ := startAfter_resume hresume hstart
    rw [hsamples'] at hmid
    rw [hdigests position hposition, Option.some.injEq] at hprint
    rw [hdigests' mid hmid, Option.some.injEq] at hprint'
    obtain ⟨hids, hblocks⟩ := blocks_eq_of_digest hsound hfirst hsecond hperiod hperiod' hposition
      hmid (hprint.trans hprint'.symm)
    obtain ⟨rfl, -⟩ := sameUpTo_of_blocks hhead hhead' hposition hmid hids hblocks
    exact ⟨hids, hblocks⟩
  · rintro ⟨hids, hblocks⟩
    simp only [HistoryFrame.identityOf, Prod.mk.injEq] at hids
    obtain ⟨hepoch, hid, hreset, hgaps⟩ := hids
    have hstreams : first.streamAt coding id period position =
        second.streamAt coding id period' position := by
      rw [HistoryFrame.streamAt, HistoryFrame.streamAt, source_eq first second, hepoch, hgaps]
      exact stream_eq_of_shown hid hreset hblocks
    have hrow : (second.rowsOf id)[position]? = (first.rowsOf id)[position]? := by
      have hat := congrArg (·[position]?) hrows
      simp only [List.getElem?_take, if_pos (Nat.lt_succ_self position)] at hat
      exact hat.symm
    refine ⟨position + 1, accepts_of_indexed hfound (startAfter_of_same hresume ?_ ?_ ?_ ?_ ?_)⟩
    · rw [hsamples']
      exact hvalid'.samplesOf_order id
    · rw [hsamples, hsamples', hrow]
    · rw [hdigests position hposition, hdigests' position hlt, hstreams]
    · intro row hmem
      rw [hsamples] at hmem
      exact hvalid.times row (HistoryArchive.Validated.mem_samples hmem)
    · intro print hprint
      rw [hdigests position hposition, Option.some.injEq] at hprint
      rw [← hprint]
      exact hlength _

instance (a b : PublicHistoryObservation) : Decidable (Precedes a b) :=
  inferInstanceAs (Decidable (_ ∨ _))

theorem sampleFirst_validated : sampleFirst.Validated sampleId where
  ids := by decide +kernel
  times := by decide +kernel
  order := by decide +kernel

/-- Seven more tokens two minutes later, after the end of the first frame. -/
def grownRecordings : RecordedArchive :=
  { sampleRecordings with
    prefixes := SortedMap.empty.insert "gpt-5".toList
      [(1800000010, ⟨1, 7, ⟨0, 1⟩, ⟨0, 1⟩, ⟨0, 1⟩, ⟨0, 1⟩⟩),
        (1800000130, ⟨2, 14, ⟨0, 2⟩, ⟨0, 2⟩, ⟨0, 2⟩, ⟨0, 2⟩⟩)] }

/-- The next row comes three minutes after the first one. -/
def grownSecond : HistoryFrame :=
  { sampleFrame 1800000180 [1800000000, 1800000180] with recordings := some grownRecordings }

/-- SHA-256 of the three streams of these frames, which have different lengths. -/
def grownDigest (bytes : List UInt8) : List UInt8 :=
  if bytes.length = 249 then
    [91, 26, 233, 166, 23, 172, 114, 75, 11, 52, 114, 107, 96, 37, 41, 159,
      156, 86, 250, 63, 32, 223, 118, 109, 146, 7, 135, 187, 107, 255, 15, 213]
  else if bytes.length = 258 then
    [252, 103, 224, 40, 102, 45, 207, 245, 113, 240, 52, 240, 31, 225, 154, 37,
      97, 244, 134, 53, 163, 10, 46, 107, 197, 175, 67, 44, 248, 206, 68, 105]
  else
    [22, 209, 106, 136, 114, 118, 222, 162, 236, 115, 65, 163, 189, 129, 149, 11,
      186, 165, 112, 139, 35, 8, 51, 229, 23, 232, 29, 31, 105, 21, 209, 181]

def grownCoding : Coding := ⟨sampleObservation, sampleIdentity, grownDigest⟩

end CodexInfo.Rest
