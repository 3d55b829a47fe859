import CodexInfo.Lib.PrefixCode
import CodexInfo.Lib.Run
import CodexInfo.Rest.HistoryIndex
import Mathlib.Data.Set.Function

/-!
# `CodexInfo.Proofs.Rest.HistoryCursor`: what an accepted cursor proves

A cursor carries the digest of a stream in which binary minutes, lines of JSON and textual markers
follow one another undelimited. The stream can be read back all the same.

* `streamCode`: the entries of a stream are a prefix code. A row starts with `{`, the first byte of
  a minute is a multiple of four, and the ninth byte tells a minute from a marker.
* `stream_inj`: a stream determines its identity, its rows and its evidence.
* `startAfter_sound`: an accepted cursor resumes where it was issued, over one prefix.
* `history_cursor_sound`: the same for two frames, and for a client that follows the pages.
-/

set_option autoImplicit false

namespace CodexInfo.Rest

open CodexInfo.Contract
open CodexInfo.Lib
open CodexInfo.Reader
open CodexInfo.Writer (decimal parseU64)
open HistoryFrame (HistoryPage maxHistoryPage)

/-! ### Bytes -/

theorem byte_inj {m n : Nat} (h : UInt8.ofNat m = UInt8.ofNat n) : m % 256 = n % 256 := by
  have := congrArg UInt8.toNat h
  simpa using this

@[simp] theorem leBytes_length (value : Int) : (leBytes value).length = 8 := by simp [leBytes]

/-- The digits of a number to the base 256 determine it. -/
theorem mod_pow_eq_of_digits {m n k : Nat} (h : ∀ j < k, m / 256 ^ j % 256 = n / 256 ^ j % 256) :
    m % 256 ^ k = n % 256 ^ k := by
  induction k with
  | zero => simp [Nat.mod_one]
  | succ k ih =>
      have hlow := ih fun j hj => h j (by omega)
      rw [Nat.mod_pow_succ, Nat.mod_pow_succ, hlow, h k (by omega)]

theorem leBytes_inj {a b : Int} (ha : 0 ≤ a ∧ a < 2 ^ 63) (hb : 0 ≤ b ∧ b < 2 ^ 63)
    (h : leBytes a = leBytes b) : a = b := by
  have hdigits : ∀ j < 8,
      (a % 2 ^ 64).toNat / 256 ^ j % 256 = (b % 2 ^ 64).toNat / 256 ^ j % 256 := by
    intro j hj
    have hat := congrArg (·[j]?) h
    simp only [leBytes, List.getElem?_map, List.getElem?_range hj, Option.map_some,
      Option.some.injEq] at hat
    exact byte_inj hat
  have hmod := mod_pow_eq_of_digits hdigits
  rw [show (256 : Nat) ^ 8 = 2 ^ 64 by decide] at hmod
  omega

/-- The first byte of a whole minute is a multiple of four. -/
theorem leBytes_head {value : Int} (h : 4 ∣ value) :
    ∃ rest, leBytes value = UInt8.ofNat (value % 2 ^ 64).toNat :: rest ∧
      (value % 2 ^ 64).toNat % 4 = 0 := by
  refine ⟨(leBytes value).tail, ?_, by omega⟩
  simp [leBytes, List.range_succ_eq_map]

/-! ### Entries -/

/-- The entries that the streams of some rows can have. -/
def StreamEntry.Fits (rows : Set PublicHistoryObservation) : StreamEntry → Prop
  | .observation row => row ∈ rows
  | .minute start _ => 0 ≤ start ∧ start < 2 ^ 63 ∧ 4 ∣ start
  | .localInvalid | .localUnavailable => True

/-- What is relied on of the JSON of a row: it is one line, it starts with a brace, and rows of the
set have different encodings. -/
structure RowEncoding (encode : PublicHistoryObservation → List UInt8)
    (rows : Set PublicHistoryObservation) : Prop where
  injOn : Set.InjOn encode rows
  brace : ∀ row ∈ rows, (encode row).head? = some 123
  oneLine : ∀ row ∈ rows, 10 ∉ encode row

variable {coding : Coding} {rows : Set PublicHistoryObservation}

/-- The ninth byte of an entry that is no row. -/
def StreamEntry.ninth : StreamEntry → UInt8
  | .observation _ => 0
  | .minute _ used => if used then 1 else 0
  | .localInvalid => 118
  | .localUnavailable => 97

theorem head_of_prefix {l m : List UInt8} (h : l <+: m) (hl : l ≠ []) : l.head? = m.head? := by
  obtain ⟨t, rfl⟩ := h
  cases l with
  | nil => exact absurd rfl hl
  | cons a l => rfl

theorem StreamEntry.bytes_ne_nil (entry : StreamEntry) : entry.bytes coding ≠ [] := by
  cases entry <;> simp [StreamEntry.bytes, ascii]

/-- Only a row starts with a brace. -/
theorem head_eq_brace_iff (h : RowEncoding coding.observation rows) {entry : StreamEntry}
    (hfits : entry.Fits rows) :
    (entry.bytes coding).head? = some 123 ↔ ∃ row, entry = .observation row := by
  cases entry with
  | observation row =>
      have hbrace := h.brace row hfits
      simp [StreamEntry.bytes, hbrace]
  | minute start used =>
      obtain ⟨rest, hbytes, hfour⟩ := leBytes_head hfits.2.2
      constructor
      · intro hhead
        simp only [StreamEntry.bytes, hbytes, List.cons_append, List.head?_cons,
          Option.some.injEq] at hhead
        have hval : (start % 2 ^ 64).toNat % 256 = 123 := by
          simpa using congrArg UInt8.toNat hhead
        omega
      · rintro ⟨row, hrow⟩
        cases hrow
  | localInvalid => simp [StreamEntry.bytes, ascii]
  | localUnavailable => simp [StreamEntry.bytes, ascii]

variable (coding) in
theorem bytes_ninth {entry : StreamEntry} (h : ∀ row, entry ≠ .observation row) :
    (entry.bytes coding)[8]? = some entry.ninth := by
  cases entry with
  | observation row => exact absurd rfl (h row)
  | minute start used => simp [StreamEntry.bytes, StreamEntry.ninth]
  | localInvalid => rfl
  | localUnavailable => rfl

/-- An entry that is no row is known by its bytes. -/
theorem eq_of_ninth {a b : StreamEntry} (ha : a.Fits rows) (hb : b.Fits rows)
    (hrow : ∀ row, a ≠ .observation row) (hrow' : ∀ row, b ≠ .observation row)
    (hninth : a.ninth = b.ninth) (hstarts : a.bytes coding <+: b.bytes coding) : a = b := by
  cases a with
  | observation row => exact absurd rfl (hrow row)
  | minute start used =>
      cases b with
      | observation row => exact absurd rfl (hrow' row)
      | minute start' used' =>
          have hbytes := hstarts.eq_of_length (by simp [StreamEntry.bytes])
          obtain ⟨hstart, -⟩ := List.append_inj hbytes (by simp)
          have hused : used = used' := by
            cases used <;> cases used' <;> simp_all [StreamEntry.ninth]
          rw [leBytes_inj ⟨ha.1, ha.2.1⟩ ⟨hb.1, hb.2.1⟩ hstart, hused]
      | localInvalid => cases used <;> simp [StreamEntry.ninth] at hninth
      | localUnavailable => cases used <;> simp [StreamEntry.ninth] at hninth
  | localInvalid =>
      cases b with
      | observation row => exact absurd rfl (hrow' row)
      | minute start used => cases used <;> simp [StreamEntry.ninth] at hninth
      | localInvalid => rfl
      | localUnavailable => simp [StreamEntry.ninth] at hninth
  | localUnavailable =>
      cases b with
      | observation row => exact absurd rfl (hrow' row)
      | minute start used => cases used <;> simp [StreamEntry.ninth] at hninth
      | localInvalid => simp [StreamEntry.ninth] at hninth
      | localUnavailable => rfl

/-- The entries of a stream can be told apart. -/
theorem streamCode (h : RowEncoding coding.observation rows) :
    PrefixCode (StreamEntry.bytes coding) (StreamEntry.Fits rows) where
  ne_nil entry _ := entry.bytes_ne_nil
  eq_of_prefix a b ha hb hab := by
    have hhead := head_of_prefix hab a.bytes_ne_nil
    by_cases hbrace : (a.bytes coding).head? = some 123
    · obtain ⟨row, rfl⟩ := (head_eq_brace_iff h ha).mp hbrace
      obtain ⟨row', rfl⟩ := (head_eq_brace_iff h hb).mp (hhead ▸ hbrace)
      have hline := line_prefix (h.oneLine row ha) (h.oneLine row' hb) hab
      rw [h.injOn ha hb hline]
    · have hrow : ∀ row, a ≠ .observation row := fun row hr =>
        hbrace ((head_eq_brace_iff h ha).mpr ⟨row, hr⟩)
      have hrow' : ∀ row, b ≠ .observation row := fun row hr =>
        hbrace (hhead ▸ (head_eq_brace_iff h hb).mpr ⟨row, hr⟩)
      -- Both have a ninth byte, and it is the same byte.
      have hninth : a.ninth = b.ninth := by
        have hat := bytes_ninth coding hrow
        have hlt := (List.getElem?_eq_some_iff.mp hat).1
        have hat' := bytes_ninth coding hrow'
        obtain ⟨t, ht⟩ := hab
        rw [← ht, List.getElem?_append_left hlt, hat] at hat'
        exact Option.some.inj hat'
      exact eq_of_ninth ha hb hrow hrow' hninth hab

/-! ### Local evidence -/

theorem contiguous_bounds {endAt cursor : Int} {intervals : List LocalUsageInterval}
    (h : LocalUsage.contiguous endAt cursor intervals = true) :
    ∀ interval ∈ intervals, cursor ≤ interval.startAt ∧ interval.endAt ≤ endAt := by
  induction intervals generalizing cursor with
  | nil => simp
  | cons first rest ih =>
      simp only [LocalUsage.contiguous, Bool.and_eq_true, decide_eq_true_eq] at h
      intro interval hmem
      cases hmem with
      | head => omega
      | tail _ hmem =>
          have := ih h.2 interval hmem
          omega

theorem of_guard_eq_some {p : Prop} [Decidable p] {u : Unit} (h : guard p = some u) : p := by
  by_contra hp
  simp [guard, hp] at h

theorem localUsage_valid {recordings : RecordedArchive} {startAt endAt : Int} {usage : LocalUsage}
    (h : recordings.localUsage startAt endAt = some usage) : usage.valid = true := by
  simp only [RecordedArchive.localUsage, Option.bind_eq_bind, Option.bind_eq_some_iff,
    Option.pure_def, Option.some.injEq] at h
  obtain ⟨_, _, counted, _, _, hvalid, rfl⟩ := h
  exact of_guard_eq_some hvalid

theorem mem_minutes {interval : LocalUsageInterval} {minute : Int}
    (h : minute ∈ interval.minutes) :
    60 ∣ minute ∧ minuteOf interval.startAt ≤ minute ∧ minute < interval.endAt := by
  obtain ⟨k, hk, rfl⟩ := List.mem_map.mp h
  rw [List.mem_range] at hk
  unfold minuteOf at *
  omega

/-- The evidence of a row has no row, and its minutes fit. -/
theorem read_entries_fit {recordings : Option RecordedArchive} {startAt endAt : Int} :
    ∀ entry ∈ (LocalEvidence.read recordings startAt endAt).entries,
      entry.Fits rows ∧ ∀ row, entry ≠ .observation row := by
  intro entry hentry
  cases recordings with
  | none => simp_all [LocalEvidence.read, LocalEvidence.entries, StreamEntry.Fits]
  | some recordings =>
      cases hshown : recordings.localUsage startAt endAt with
      | none => simp_all [LocalEvidence.read, LocalEvidence.entries, StreamEntry.Fits]
      | some shown =>
          simp only [LocalEvidence.read, hshown, LocalEvidence.entries, List.mem_flatMap,
            List.mem_map, List.mem_filter] at hentry
          obtain ⟨interval, ⟨hinterval, -⟩, minute, hminute, rfl⟩ := hentry
          have hvalid := localUsage_valid hshown
          simp only [LocalUsage.valid, Bool.and_eq_true, decide_eq_true_eq] at hvalid
          have hlast : maxEndExclusive = 253402300800 := rfl
          obtain ⟨hstart, hend⟩ := contiguous_bounds hvalid.2 interval hinterval
          obtain ⟨hsixty, hlow, hhigh⟩ := mem_minutes hminute
          simp only [minuteOf] at hlow
          refine ⟨⟨by omega, by omega, by omega⟩, by simp⟩

def StreamEntry.isMinute (minute : Int) : StreamEntry → Bool
  | .minute start _ => decide (start = minute)
  | _ => false

/-- The state of a minute as the entries of a stream show it. -/
def stateIn (entries : List StreamEntry) (minute : Int) : LocalUsageState :=
  if .localUnavailable ∈ entries ∨ .localInvalid ∈ entries then .unavailable
  else
    match entries.find? (·.isMinute minute) with
    | some (.minute _ used) => if used then .used else .unavailable
    | _ => .unused

theorem find_minutes (minutes : List Int) (used : Bool) (minute : Int) :
    (minutes.map fun m => StreamEntry.minute m used).find? (·.isMinute minute) =
      if minute ∈ minutes then some (.minute minute used) else none := by
  induction minutes with
  | nil => rfl
  | cons first rest ih =>
      by_cases h : first = minute
      · subst h
        simp [StreamEntry.isMinute]
      · have h' : ¬minute = first := fun hm => h hm.symm
        simp only [List.map_cons, List.find?_cons, StreamEntry.isMinute, h, decide_false,
          List.mem_cons, h', false_or]
        exact ih

theorem find_intervals (intervals : List LocalUsageInterval) (minute : Int) :
    ((intervals.filter (·.state ≠ .unused)).flatMap fun interval =>
        interval.minutes.map fun m => StreamEntry.minute m (interval.state = .used)).find?
        (·.isMinute minute) =
      (intervals.find? fun interval =>
        interval.state ≠ .unused && decide (minute ∈ interval.minutes)).map
        fun interval => .minute minute (interval.state = .used) := by
  induction intervals with
  | nil => rfl
  | cons first rest ih =>
      by_cases hstate : first.state = .unused
      · simp only [hstate, ne_eq, not_true_eq_false, decide_false, Bool.false_eq_true,
          not_false_eq_true, List.filter_cons_of_neg, Bool.false_and, List.find?_cons_of_neg]
        exact ih
      · simp only [ne_eq, hstate, not_false_eq_true, decide_true, List.filter_cons_of_pos,
          List.flatMap_cons, List.find?_append, find_minutes, List.find?_cons]
        by_cases hmem : minute ∈ first.minutes
        · simp [hmem]
        · simp only [hmem, if_false, Option.none_or, decide_false, Bool.and_false]
          exact ih

/-- The entries of some evidence determine the state of every minute. -/
theorem minuteState_eq_stateIn (evidence : LocalEvidence) (minute : Int) :
    evidence.minuteState minute = stateIn evidence.entries minute := by
  cases evidence with
  | unavailable => simp [LocalEvidence.minuteState, LocalEvidence.entries, stateIn]
  | invalid => simp [LocalEvidence.minuteState, LocalEvidence.entries, stateIn]
  | usage shown =>
      have hnone : ¬(.localUnavailable ∈ (LocalEvidence.usage shown).entries ∨
          .localInvalid ∈ (LocalEvidence.usage shown).entries) := by
        simp [LocalEvidence.entries]
      rw [stateIn, if_neg hnone]
      simp only [LocalEvidence.minuteState, LocalEvidence.entries, LocalUsage.minuteState,
        find_intervals]
      cases hfound : shown.intervals.find? fun interval =>
          interval.state ≠ .unused && decide (minute ∈ interval.minutes) with
      | none => rfl
      | some interval =>
          have hstate := List.find?_some hfound
          simp only [Option.map_some, Option.getD_some]
          cases hs : interval.state <;> simp_all

/-! ### Streams -/

/-- What the digest of a period is about, beyond its rows. -/
abbrev PeriodIdentity := Nat × Text × Int × List PublicHistoryGap

/-- What is relied on of the JSON of an identity. -/
structure IdentityEncoding (encode : PeriodIdentity → List UInt8) (identities : Set PeriodIdentity) :
    Prop where
  injOn : Set.InjOn encode identities
  oneLine : ∀ identity ∈ identities, 10 ∉ encode identity

def Coding.identityOf (coding : Coding) (identity : PeriodIdentity) : List UInt8 :=
  coding.identity identity.1 identity.2.1 identity.2.2.1 identity.2.2.2

variable {identities : Set PeriodIdentity}

/-- What a stream tells of a block. -/
def shown (block : PublicHistoryObservation × LocalEvidence) :
    PublicHistoryObservation × List StreamEntry := (block.1, block.2.entries)

/-- The blocks have rows of the set, and evidence that was read. -/
def BlocksFit (rows : Set PublicHistoryObservation)
    (blocks : List (PublicHistoryObservation × LocalEvidence)) : Prop :=
  ∀ block ∈ blocks, block.1 ∈ rows ∧
    ∀ entry ∈ block.2.entries, entry.Fits rows ∧ ∀ row, entry ≠ .observation row

theorem BlocksFit.entries {blocks : List (PublicHistoryObservation × LocalEvidence)}
    (h : BlocksFit rows blocks) : ∀ entry ∈ blocks.flatMap blockEntries, entry.Fits rows := by
  intro entry hentry
  obtain ⟨block, hblock, hmem⟩ := List.mem_flatMap.mp hentry
  cases hmem with
  | head => exact (h block hblock).1
  | tail _ hmem => exact ((h block hblock).2 entry hmem).1

def StreamEntry.isRow : StreamEntry → Bool
  | .observation _ => true
  | _ => false

theorem isRow_eq_false {entry : StreamEntry} (h : ∀ row, entry ≠ .observation row) :
    entry.isRow = false := by
  cases entry with
  | observation row => exact absurd rfl (h row)
  | minute _ _ | localInvalid | localUnavailable => rfl

/-- Blocks with the same entries show the same rows with the same evidence. -/
theorem shown_inj {left right : List (PublicHistoryObservation × LocalEvidence)}
    (hleft : BlocksFit rows left) (hright : BlocksFit rows right)
    (h : left.flatMap blockEntries = right.flatMap blockEntries) :
    left.map shown = right.map shown := by
  have hjoin : ∀ blocks : List (PublicHistoryObservation × LocalEvidence),
      blocks.flatMap blockEntries =
        joinBlocks (fun block => StreamEntry.observation block.1) Prod.snd (blocks.map shown) := by
    intro blocks
    rw [joinBlocks, List.flatMap_map]
    rfl
  rw [hjoin, hjoin] at h
  have htail : ∀ {blocks : List (PublicHistoryObservation × LocalEvidence)}, BlocksFit rows blocks →
      ∀ block ∈ blocks.map shown, ∀ entry ∈ block.2, entry.isRow = false := by
    intro blocks hfit block hblock entry hentry
    obtain ⟨original, horiginal, rfl⟩ := List.mem_map.mp hblock
    exact isRow_eq_false ((hfit original horiginal).2 entry hentry).2
  refine blocks_inj ?_ ?_ (htail hleft) (htail hright) h
  · intro block
    rfl
  · intro a b hrow hentries
    exact Prod.ext (StreamEntry.observation.inj hrow) hentries

/-- A stream determines its identity, its rows and its evidence. -/
theorem stream_inj (hrows : RowEncoding coding.observation rows)
    (hids : IdentityEncoding coding.identityOf identities) {origin : HistorySource}
    {epoch epoch' : Nat} {period period' : PublicHistoryPeriod} {gaps gaps' : List PublicHistoryGap}
    {left right : List (PublicHistoryObservation × LocalEvidence)}
    (hid : (epoch, period.id, period.resetAt, gaps) ∈ identities)
    (hid' : (epoch', period'.id, period'.resetAt, gaps') ∈ identities)
    (hleft : BlocksFit rows left) (hright : BlocksFit rows right)
    (h : stream coding origin epoch period gaps left =
      stream coding origin epoch' period' gaps' right) :
    (epoch, period.id, period.resetAt, gaps) = (epoch', period'.id, period'.resetAt, gaps') ∧
      left.map shown = right.map shown := by
  simp only [stream, streamHead, List.append_assoc, List.append_cancel_left_eq] at h
  have hstarts : coding.identityOf (epoch, period.id, period.resetAt, gaps) ++ [10] <+:
      coding.identityOf (epoch', period'.id, period'.resetAt, gaps') ++
        10 :: (right.flatMap blockEntries).flatMap (StreamEntry.bytes coding) := by
    refine ⟨(left.flatMap blockEntries).flatMap (StreamEntry.bytes coding), ?_⟩
    rw [List.append_assoc]
    exact h
  have hline := line_prefix (hids.oneLine _ hid) (hids.oneLine _ hid') hstarts
  have hsame := hids.injOn hid hid' hline
  refine ⟨hsame, shown_inj hleft hright ?_⟩
  refine (streamCode hrows).flatMap_injOn hleft.entries hright.entries ?_
  simp only [Coding.identityOf] at hline
  rw [hline] at h
  simpa using h

/-! ### Indices -/

namespace HistoryFrame

def periodsOf (frame : HistoryFrame) (id : Text) : List PublicHistoryPeriod :=
  (frame.selectedHistoryArchive id).1.periodsOf id

/-- The rows of a period in a frame. -/
def rowsOf (frame : HistoryFrame) (id : Text) : List PublicHistoryObservation :=
  (frame.selectedHistoryArchive id).1.samplesOf id

/-- The gaps of a period in a frame. -/
def gapsOf (frame : HistoryFrame) (id : Text) : List PublicHistoryGap :=
  (frame.selectedHistoryArchive id).1.gapsOf id

/-- The rows of a period with their evidence, up to one of them. -/
def blocksUpTo (frame : HistoryFrame) (id : Text) (period : PublicHistoryPeriod) (position : Nat) :
    List (PublicHistoryObservation × LocalEvidence) :=
  (blocks period (frame.rowsOf id) frame.recordings).take (position + 1)

/-- The stream that a fingerprint is the digest of. -/
def streamAt (coding : Coding) (frame : HistoryFrame) (id : Text) (period : PublicHistoryPeriod)
    (position : Nat) : List UInt8 :=
  stream coding (frame.selectedHistoryArchive id).2 frame.storageEpoch period (frame.gapsOf id)
    (frame.blocksUpTo id period position)

def identityOf (frame : HistoryFrame) (id : Text) (period : PublicHistoryPeriod) : PeriodIdentity :=
  (frame.storageEpoch, period.id, period.resetAt, frame.gapsOf id)

end HistoryFrame

/-- What is relied on of the encodings and the digest, for the streams of one period in some frames:
the encodings can be told apart and the digest has no collision. -/
structure Coding.Sound (coding : Coding) (frames : Set HistoryFrame) (id : Text) : Prop where
  rows : RowEncoding coding.observation {row | ∃ frame ∈ frames, row ∈ frame.rowsOf id}
  identities : IdentityEncoding coding.identityOf
    {identity | ∃ frame ∈ frames, ∃ period ∈ frame.periodsOf id,
      identity = frame.identityOf id period}
  digest : Set.InjOn coding.digest
    {bytes | ∃ frame ∈ frames, ∃ period ∈ frame.periodsOf id,
      ∃ position < (frame.rowsOf id).length, bytes = frame.streamAt coding id period position}

variable {frame : HistoryFrame} {id : Text} {index found : PeriodIndex}

@[simp] theorem blocks_length (period : PublicHistoryPeriod) (rows : List PublicHistoryObservation)
    (recordings : Option RecordedArchive) :
    (blocks period rows recordings).length = rows.length := by
  simp [blocks]

theorem blocks_getElem? (period : PublicHistoryPeriod) (rows : List PublicHistoryObservation)
    (recordings : Option RecordedArchive) (position : Nat) :
    (blocks period rows recordings)[position]? =
      rows[position]?.map fun row => (row, evidenceAt period rows recordings position) := by
  simp only [blocks, List.getElem?_map, List.getElem?_zipIdx, Option.map_map]
  simp [Function.comp_def]

theorem blocksUpTo_fit (frame : HistoryFrame) (id : Text) (period : PublicHistoryPeriod)
    (position : Nat) (hrows : ∀ row ∈ frame.rowsOf id, row ∈ rows) :
    BlocksFit rows (frame.blocksUpTo id period position) := by
  intro block hblock
  obtain ⟨k, hk⟩ := List.mem_iff_getElem?.mp (List.mem_of_mem_take hblock)
  rw [blocks_getElem?, Option.map_eq_some_iff] at hk
  obtain ⟨row, hrow, rfl⟩ := hk
  exact ⟨hrows row (List.mem_of_getElem? hrow), read_entries_fit⟩

/-- The index of a period: its rows, its gaps, and the digests of its first period. -/
theorem indexed_spec (h : frame.indexed coding id = some index) :
    index.samples = frame.rowsOf id ∧ index.gaps = frame.gapsOf id ∧
      ∃ period, (frame.periodsOf id).head? = some period ∧
        ∀ position < (frame.rowsOf id).length,
          index.fingerprints[position]? =
            some (coding.digest (frame.streamAt coding id period position)) := by
  simp only [HistoryFrame.indexed, buildArchive] at h
  split at h
  · cases h
  · rename_i hne
    rw [Option.some.injEq] at h
    subst h
    refine ⟨rfl, rfl, ?_⟩
    cases hperiods : frame.periodsOf id with
    | nil =>
        simp only [HistoryFrame.periodsOf] at hperiods
        simp [hperiods] at hne
    | cons period rest =>
        refine ⟨period, rfl, fun position hposition => ?_⟩
        simp only [HistoryFrame.periodsOf] at hperiods
        simp only [HistoryFrame.rowsOf] at hposition
        rw [hperiods, List.flatMap_cons, List.getElem?_append_left]
        · simp only [fingerprintsOf, List.getElem?_map]
          rw [List.getElem?_range hposition]
          rfl
        · simpa [fingerprintsOf] using hposition

/-! ### Cursors -/

theorem hexDigit_ne_dot : ∀ value < 16, hexDigit value ≠ '.' := by decide

theorem hexDigit_inj : ∀ a < 16, ∀ b < 16, hexDigit a = hexDigit b → a = b := by decide

/-- The two digits of a byte. -/
theorem hexCode : PrefixCode
    (fun byte : UInt8 => [hexDigit (byte.toNat / 16), hexDigit (byte.toNat % 16)])
    fun _ => True where
  ne_nil _ _ := List.cons_ne_nil _ _
  eq_of_prefix a b _ _ h := by
    have hsame := h.eq_of_length rfl
    simp only [List.cons.injEq, and_true] at hsame
    have ha := a.toNat_lt
    have hb := b.toNat_lt
    have hhigh := hexDigit_inj _ (by omega) _ (by omega) hsame.1
    have hlow := hexDigit_inj _ (by omega) _ (by omega) hsame.2
    exact UInt8.toNat_inj.mp (by omega)

theorem hex_inj {a b : List UInt8} (h : hex a = hex b) : a = b :=
  hexCode.flatMap_injOn (fun _ _ => trivial) (fun _ _ => trivial) h

theorem dot_notMem_hex (bytes : List UInt8) : '.' ∉ hex bytes := by
  intro h
  obtain ⟨byte, -, hmem⟩ := List.mem_flatMap.mp h
  have hlt := byte.toNat_lt
  have hhigh := hexDigit_ne_dot (byte.toNat / 16) (by omega)
  have hlow := hexDigit_ne_dot (byte.toNat % 16) (by omega)
  simp [hhigh.symm, hlow.symm] at hmem

theorem dot_notMem_showI64 (value : Int) : '.' ∉ showI64 value := by
  have hdigits : '.' ∉ decimal value.natAbs := by
    intro h
    have := Nat.isDigit_of_mem_toDigits (by decide) (by decide) h
    exact absurd this (by decide)
  unfold showI64
  split
  · simp [hdigits]
  · exact hdigits

theorem search_lt {samples : List PublicHistoryObservation} {key : Int × Int}
    {fuel low high mid : Nat} (h : PeriodIndex.search samples key fuel low high = some mid) :
    mid < high := by
  induction fuel generalizing low high with
  | zero => simp [PeriodIndex.search] at h
  | succ fuel ih =>
      rw [PeriodIndex.search] at h
      split at h
      · rename_i hlow
        dsimp only at h
        split at h
        · cases h
        · split at h
          · rw [Option.some.injEq] at h
            omega
          · split at h
            · exact ih h
            · have := ih h
              omega
      · cases h

/-- An accepted cursor has four fields, and the last one is the fingerprint of the row it resumes
after. -/
theorem startAfter_spec {start : Nat} {cursor : Text} (h : found.startAfter cursor = some start) :
    ∃ version reset timestamp fingerprint mid digest,
      cursor.splitOn '.' = [version, reset, timestamp, fingerprint] ∧ start = mid + 1 ∧
        mid < found.samples.length ∧ found.fingerprints[mid]? = some digest ∧
        fingerprint = hex digest := by
  rw [PeriodIndex.startAfter] at h
  split at h
  · rename_i version reset timestamp fingerprint hfields
    split at h
    · cases h
    split at h
    · cases h
    split at h
    · split at h
      · cases h
      · simp only [Option.bind_eq_bind, Option.bind_eq_some_iff] at h
        obtain ⟨mid, hmid, digest, hdigest, hsame⟩ := h
        split at hsame
        · rename_i hhex
          rw [Option.some.injEq] at hsame
          exact ⟨version, reset, timestamp, fingerprint, mid, digest, hfields, hsame.symm,
            search_lt hmid, hdigest, hhex⟩
        · cases hsame
    · cases h
  · cases h

/-- A cursor that one index issued and another one accepts carries one fingerprint of both. -/
theorem startAfter_resume {i start : Nat} {cursor : Text} (hissued : index.resume i = some cursor)
    (haccepted : found.startAfter cursor = some start) :
    i < index.samples.length ∧ ∃ mid fingerprint, start = mid + 1 ∧ mid < found.samples.length ∧
      index.fingerprints[i]? = some fingerprint ∧ found.fingerprints[mid]? = some fingerprint := by
  simp only [PeriodIndex.resume, Option.bind_eq_bind, Option.bind_eq_some_iff, Option.pure_def,
    Option.some.injEq] at hissued
  obtain ⟨sample, hsample, fingerprint, hfingerprint, rfl⟩ := hissued
  obtain ⟨_, _, _, _, mid, digest, hfields, hstart, hmid, hdigest, rfl⟩ := startAfter_spec haccepted
  rw [List.splitOn_intercalate '.' ?dots (List.cons_ne_nil _ _)] at hfields
  case dots =>
    intro part hpart
    simp only [List.mem_cons, List.not_mem_nil, or_false] at hpart
    obtain rfl | rfl | rfl | rfl := hpart
    · decide
    · exact dot_notMem_showI64 _
    · exact dot_notMem_showI64 _
    · exact dot_notMem_hex _
  simp only [List.cons.injEq, and_true] at hfields
  refine ⟨(List.getElem?_eq_some_iff.mp hsample).1, mid, fingerprint, hstart, hmid, hfingerprint, ?_⟩
  rw [hex_inj hfields.2.2.2, hdigest]

/-! ### Accepted cursors -/

/-- The state that the evidence at a row shows for a minute. -/
def HistoryFrame.minuteState (frame : HistoryFrame) (id : Text) (position : Nat) (minute : Int) :
    LocalUsageState :=
  match (frame.periodsOf id).head? with
  | none => .unavailable
  | some period =>
      (evidenceAt period (frame.rowsOf id) frame.recordings position).minuteState minute

/-- A cursor that a frame issues for a period: that of the row at `position`. -/
def HistoryFrame.Issues (coding : Coding) (frame : HistoryFrame) (id : Text) (position : Nat)
    (cursor : Text) : Prop :=
  ∃ index, frame.indexed coding id = some index ∧ index.resume position = some cursor

/-- A frame accepts a cursor and resumes at `start`. -/
def HistoryFrame.Accepts (coding : Coding) (frame : HistoryFrame) (id : Text) (cursor : Text)
    (start : Nat) : Prop :=
  ∃ index, frame.historySelection coding (some id) (some cursor) = .ok (index, start)

/-- The same history of a period up to the row at `position`: the rows, all the gaps, and the
state of every minute of the local evidence. -/
structure SameUpTo (first second : HistoryFrame) (id : Text) (position : Nat) : Prop where
  epoch : first.storageEpoch = second.storageEpoch
  lt_first : position < (first.rowsOf id).length
  lt_second : position < (second.rowsOf id).length
  rows : (first.rowsOf id).take (position + 1) = (second.rowsOf id).take (position + 1)
  gaps : first.gapsOf id = second.gapsOf id
  minutes : ∀ p ≤ position, ∀ minute,
    first.minuteState id p minute = second.minuteState id p minute

theorem selection_eq_ok {cursor : Text} {start : Nat}
    (h : frame.historySelection coding (some id) (some cursor) = .ok (index, start)) :
    frame.indexed coding id = some index ∧ index.startAfter cursor = some start := by
  simp only [HistoryFrame.historySelection] at h
  split at h
  · cases h
  · rename_i built hbuilt
    split at h
    · cases h
    · rename_i k hk
      simp only [Except.ok.injEq, Prod.mk.injEq] at h
      obtain ⟨rfl, rfl⟩ := h
      exact ⟨hbuilt, hk⟩

theorem accepts_of_indexed {cursor : Text} {start : Nat}
    (h : frame.indexed coding id = some index) (hstart : index.startAfter cursor = some start) :
    frame.Accepts coding id cursor start :=
  ⟨index, by simp only [HistoryFrame.historySelection, h, hstart]⟩

/-- The blocks of two streams with the same digest show the same. -/
theorem blocks_eq_of_digest {frames : Set HistoryFrame} (hsound : coding.Sound frames id)
    {first second : HistoryFrame} (hfirst : first ∈ frames) (hsecond : second ∈ frames)
    {period period' : PublicHistoryPeriod} (hperiod : period ∈ first.periodsOf id)
    (hperiod' : period' ∈ second.periodsOf id) {i k : Nat} (hi : i < (first.rowsOf id).length)
    (hk : k < (second.rowsOf id).length)
    (h : coding.digest (first.streamAt coding id period i) =
      coding.digest (second.streamAt coding id period' k)) :
    first.identityOf id period = second.identityOf id period' ∧
      (first.blocksUpTo id period i).map shown = (second.blocksUpTo id period' k).map shown := by
  have hstreams := hsound.digest ⟨first, hfirst, period, hperiod, i, hi, rfl⟩
    ⟨second, hsecond, period', hperiod', k, hk, rfl⟩ h
  -- Both streams name the index they are of: the id alone decides it.
  have horigin : (second.selectedHistoryArchive id).2 = (first.selectedHistoryArchive id).2 := by
    simp only [HistoryFrame.selectedHistoryArchive]
    split <;> rfl
  rw [HistoryFrame.streamAt, HistoryFrame.streamAt, horigin] at hstreams
  exact stream_inj hsound.rows hsound.identities ⟨first, hfirst, period, hperiod, rfl⟩
    ⟨second, hsecond, period', hperiod', rfl⟩
    (blocksUpTo_fit first id period i fun row hrow => ⟨first, hfirst, hrow⟩)
    (blocksUpTo_fit second id period' k fun row hrow => ⟨second, hsecond, hrow⟩) hstreams

/-- Frames whose blocks show the same up to a row have the same history up to it. -/
theorem sameUpTo_of_blocks {first second : HistoryFrame} {period period' : PublicHistoryPeriod}
    (hperiod : (first.periodsOf id).head? = some period)
    (hperiod' : (second.periodsOf id).head? = some period') {i k : Nat}
    (hi : i < (first.rowsOf id).length) (hk : k < (second.rowsOf id).length)
    (hids : first.identityOf id period = second.identityOf id period')
    (h : (first.blocksUpTo id period i).map shown = (second.blocksUpTo id period' k).map shown) :
    k = i ∧ SameUpTo first second id i := by
  have hlength := congrArg List.length h
  simp only [HistoryFrame.blocksUpTo, List.length_map, List.length_take, blocks_length] at hlength
  obtain rfl : k = i := by omega
  have hat : ∀ p ≤ k, ∀ row, (first.rowsOf id)[p]? = some row →
      (second.rowsOf id)[p]? = some row ∧
        (evidenceAt period (first.rowsOf id) first.recordings p).entries =
          (evidenceAt period' (second.rowsOf id) second.recordings p).entries := by
    intro p hp row hrow
    have hget := congrArg (·[p]?) h
    simp only [HistoryFrame.blocksUpTo, List.getElem?_map, List.getElem?_take,
      if_pos (Nat.lt_succ_of_le hp), blocks_getElem?, Option.map_map, hrow, Option.map_some] at hget
    obtain ⟨other, hother, hsame⟩ := Option.map_eq_some_iff.mp hget.symm
    simp only [Function.comp_apply, shown, Prod.mk.injEq] at hsame
    exact ⟨by rw [hother, hsame.1], hsame.2.symm⟩
  refine ⟨rfl, ?_⟩
  exact
    { epoch := congrArg Prod.fst hids
      lt_first := hi
      lt_second := hk
      gaps := congrArg (fun identity => identity.2.2.2) hids
      rows := by
        apply List.ext_getElem?
        intro p
        rw [List.getElem?_take, List.getElem?_take]
        split
        · have hrow := List.getElem?_eq_getElem (show p < (first.rowsOf id).length by omega)
          rw [hrow, (hat p (by omega) _ hrow).1]
        · rfl
      minutes := by
        intro p hp minute
        have hrow := List.getElem?_eq_getElem (show p < (first.rowsOf id).length by omega)
        simp only [HistoryFrame.minuteState, hperiod, hperiod', minuteState_eq_stateIn,
          (hat p hp _ hrow).2] }

/-- An accepted cursor resumes after the row it was issued for, over one history. -/
theorem accepts_sameUpTo {frames : Set HistoryFrame} (hsound : coding.Sound frames id)
    {first second : HistoryFrame} (hfirst : first ∈ frames) (hsecond : second ∈ frames)
    {i start : Nat} {cursor : Text} (hissued : first.Issues coding id i cursor)
    (haccepted : second.Accepts coding id cursor start) :
    start = i + 1 ∧ SameUpTo first second id i := by
  obtain ⟨index, hindex, hresume⟩ := hissued
  obtain ⟨found, hselected⟩ := haccepted
  obtain ⟨hfound, hstart⟩ := selection_eq_ok hselected
  obtain ⟨hi, k, fingerprint, rfl, hk, hprint, hprint'⟩ := startAfter_resume hresume hstart
  obtain ⟨hrows, -, period, hperiod, hdigests⟩ := indexed_spec hindex
  obtain ⟨hrows', -, period', hperiod', hdigests'⟩ := indexed_spec hfound
  rw [hrows] at hi
  rw [hrows'] at hk
  rw [hdigests i hi, Option.some.injEq] at hprint
  rw [hdigests' k hk, Option.some.injEq] at hprint'
  obtain ⟨hids, hblocks⟩ := blocks_eq_of_digest hsound hfirst hsecond
    (List.mem_of_mem_head? hperiod) (List.mem_of_mem_head? hperiod') hi hk (hprint.trans hprint'.symm)
  obtain ⟨rfl, hsame⟩ := sameUpTo_of_blocks hperiod hperiod' hi hk hids hblocks
  exact ⟨rfl, hsame⟩

/-! ### Pages -/

theorem resume_of_lt (h : frame.indexed coding id = some index) {position : Nat}
    (hposition : position < (frame.rowsOf id).length) :
    ∃ cursor, index.resume position = some cursor := by
  obtain ⟨hrows, -, period, -, hdigests⟩ := indexed_spec h
  have hsample := List.getElem?_eq_getElem hposition
  simp [PeriodIndex.resume, hrows, hsample, hdigests position hposition]

/-- One page: its request starts at `start`, and its rows go up to `last`. -/
structure PageOf (coding : Coding) (frame : HistoryFrame) (id : Text) (cursor : Option Text)
    (page : HistoryPage) (start last : Nat) : Prop where
  start_eq : ∀ c, cursor = some c → frame.Accepts coding id c start
  start_zero : cursor = none → start = 0
  last_eq : last = min (start + maxHistoryPage) (frame.rowsOf id).length
  rows : page.historySamples = ((frame.rowsOf id).take last).drop start
  gaps : page.historyGaps = if cursor.isNone then frame.gapsOf id else []
  resumed : page.resumeCursor = none ∧ last = 0 ∨
    ∃ position c, last = position + 1 ∧ page.resumeCursor = some c ∧ frame.Issues coding id position c
  next : page.nextCursor = if last < (frame.rowsOf id).length then page.resumeCursor else none

/-- The index and the start of a request. -/
theorem selection_start {cursor : Option Text} {start : Nat}
    (h : frame.historySelection coding (some id) cursor = .ok (index, start)) :
    frame.indexed coding id = some index ∧
      (cursor = none ∧ start = 0 ∨
        ∃ c, cursor = some c ∧ frame.Accepts coding id c start ∧ 0 < start ∧
          start ≤ index.samples.length) := by
  cases cursor with
  | none =>
      simp only [HistoryFrame.historySelection] at h
      split at h
      · cases h
      · rename_i built hbuilt
        simp only [Except.ok.injEq, Prod.mk.injEq] at h
        obtain ⟨rfl, rfl⟩ := h
        exact ⟨hbuilt, .inl ⟨rfl, rfl⟩⟩
  | some c =>
      obtain ⟨hindex, hstart⟩ := selection_eq_ok h
      obtain ⟨_, _, _, _, mid, _, -, rfl, hmid, -, -⟩ := startAfter_spec hstart
      exact ⟨hindex, .inr ⟨c, rfl, ⟨index, h⟩, by omega, by omega⟩⟩

theorem historyDocument_spec {cursor : Option Text} {page : HistoryPage}
    (h : frame.historyDocument coding (some id) cursor = .ok page) :
    ∃ start last, PageOf coding frame id cursor page start last := by
  simp only [HistoryFrame.historyDocument, bind_eq_ok_iff] at h
  obtain ⟨⟨index, start⟩, hselected, hpage⟩ := h
  obtain ⟨hindex, hstart⟩ := selection_start hselected
  obtain ⟨hrows, hgaps, -⟩ := indexed_spec hindex
  obtain rfl := Except.ok.inj hpage
  refine ⟨start, min (start + maxHistoryPage) (frame.rowsOf id).length, ?_⟩
  exact
    { start_eq := by
        rintro c rfl
        exact ⟨index, hselected⟩
      start_zero := by
        rintro rfl
        obtain ⟨-, hzero⟩ | ⟨c, hc, -⟩ := hstart
        · exact hzero
        · cases hc
      last_eq := rfl
      rows := by rw [hrows]
      gaps := by rw [hgaps]
      resumed := by
        rw [hrows]
        by_cases hpos : 0 < min (start + maxHistoryPage) (frame.rowsOf id).length
        · have hlt : min (start + maxHistoryPage) (frame.rowsOf id).length - 1 <
              (frame.rowsOf id).length := by omega
          obtain ⟨c, hc⟩ := resume_of_lt hindex hlt
          exact .inr ⟨_, c, by omega, by rw [if_pos hpos, hc], index, hindex, hc⟩
        · left
          rw [if_neg hpos]
          obtain ⟨hnone, -⟩ | ⟨c, -, -, hpos', hle⟩ := hstart
          · exact ⟨hnone, by omega⟩
          · rw [hrows] at hle
            omega
      next := by rw [hrows] }

/-! ### Clients -/

/-- What a client holds of a period. -/
structure ClientHistory where
  rows : List PublicHistoryObservation
  gaps : List PublicHistoryGap
  cursor : Option Text
  /-- The last page had no next one. -/
  complete : Bool

namespace ClientHistory

def empty : ClientHistory := ⟨[], [], none, false⟩

/-- A first page starts over, a continuation is appended to what the client holds. -/
def accept (client : ClientHistory) (page : HistoryPage) : ClientHistory :=
  { rows := if client.cursor.isNone then page.historySamples
      else client.rows ++ page.historySamples
    gaps := if client.cursor.isNone then page.historyGaps else client.gaps
    cursor := page.resumeCursor
    complete := page.nextCursor.isNone }

/-- The client asks a frame for the page at its cursor. -/
def follow (coding : Coding) (id : Text) (client : ClientHistory) (frame : HistoryFrame) :
    Except RouteError ClientHistory := do
  let page ← frame.historyDocument coding (some id) client.cursor
  return client.accept page

/-- The client holds the first rows of a frame, and all its gaps. -/
structure Holds (coding : Coding) (client : ClientHistory) (frame : HistoryFrame) (id : Text) :
    Prop where
  rows : client.rows = (frame.rowsOf id).take client.rows.length
  gaps : client.gaps = frame.gapsOf id
  cursor : ∀ c, client.cursor = some c →
    ∃ position, client.rows.length = position + 1 ∧ frame.Issues coding id position c
  complete : client.complete = true → client.rows = frame.rowsOf id

/-- One page: the client now holds the history of the frame that answered. -/
theorem follow_holds {frames : Set HistoryFrame} (hsound : coding.Sound frames id)
    {client after : ClientHistory} (hbefore : client.cursor = none ∨
      ∃ first ∈ frames, client.Holds coding first id)
    (hframe : frame ∈ frames) (h : client.follow coding id frame = .ok after) :
    after.Holds coding frame id := by
  simp only [follow, bind_eq_ok_iff] at h
  obtain ⟨page, hdocument, hafter⟩ := h
  obtain rfl := Except.ok.inj hafter
  obtain ⟨start, last, hpage⟩ := historyDocument_spec hdocument
  have hlast : last ≤ (frame.rowsOf id).length := by
    rw [hpage.last_eq]
    omega
  -- Both kinds of page leave the rows up to `last` and all the gaps.
  have hkept : (client.accept page).rows = (frame.rowsOf id).take last ∧
      (client.accept page).gaps = frame.gapsOf id := by
    cases hcursor : client.cursor with
    | none =>
        simp only [accept, hcursor, Option.isNone_none, if_true]
        rw [hpage.rows, hpage.gaps, hpage.start_zero hcursor, hcursor]
        simp
    | some c =>
        obtain hnone | ⟨first, hfirst, hholds⟩ := hbefore
        · rw [hcursor] at hnone
          cases hnone
        obtain ⟨position, hlength, hissued⟩ := hholds.cursor c hcursor
        obtain ⟨hstart, hsame⟩ := accepts_sameUpTo hsound hfirst hframe hissued
          (hpage.start_eq c hcursor)
        have hle : position + 1 ≤ last := by
          have := hsame.lt_second
          rw [hpage.last_eq, hstart]
          omega
        have hrows : client.rows = (frame.rowsOf id).take (position + 1) := by
          rw [hholds.rows, hlength, hsame.rows]
        simp only [accept, hcursor, Option.isNone_some, Bool.false_eq_true, if_false]
        refine ⟨?_, hholds.gaps.trans hsame.gaps⟩
        calc client.rows ++ page.historySamples
            = ((frame.rowsOf id).take last).take (position + 1) ++
                ((frame.rowsOf id).take last).drop (position + 1) := by
              rw [hpage.rows, hstart, hrows, List.take_take, Nat.min_eq_left hle]
          _ = (frame.rowsOf id).take last := List.take_append_drop _ _
  have hlength : (client.accept page).rows.length = last := by
    rw [hkept.1, List.length_take]
    omega
  exact
    { rows := by rw [hlength, hkept.1]
      gaps := hkept.2
      cursor := by
        intro c hc
        obtain ⟨hnone, -⟩ | ⟨position, c', hposition, hsome, hissued⟩ := hpage.resumed
        · exact absurd (hnone.symm.trans hc) (by simp)
        · obtain rfl : c' = c := Option.some.inj (hsome.symm.trans hc)
          exact ⟨position, hlength.trans hposition, hissued⟩
      complete := by
        intro hcomplete
        rw [hkept.1, List.take_of_length_le]
        have hnext : page.nextCursor = none := Option.isNone_iff_eq_none.mp hcomplete
        rw [hpage.next] at hnext
        by_contra hlt
        rw [if_pos (by omega)] at hnext
        obtain ⟨-, hzero⟩ | ⟨position, c, -, hsome, -⟩ := hpage.resumed
        · have := hpage.last_eq
          simp only [maxHistoryPage] at this
          omega
        · rw [hsome] at hnext
          cases hnext }

/-- A client that follows the pages holds the history of the frame that answered last. -/
theorem foldlM_follow_holds {frames : Set HistoryFrame} (hsound : coding.Sound frames id)
    {reads : List HistoryFrame} (hreads : ∀ frame ∈ reads, frame ∈ frames) {client : ClientHistory}
    (h : reads.foldlM (follow coding id) empty = .ok client) :
    client = empty ∧ reads = [] ∨ ∃ last ∈ reads.getLast?, client.Holds coding last id := by
  induction reads using List.reverseRecOn generalizing client with
  | nil =>
      obtain rfl := Except.ok.inj h
      exact .inl ⟨rfl, rfl⟩
  | append_singleton reads last ih =>
      rw [List.foldlM_append, bind_eq_ok_iff] at h
      obtain ⟨before, hbefore, hlast⟩ := h
      rw [List.foldlM_cons, bind_eq_ok_iff] at hlast
      obtain ⟨after, hfollow, hafter⟩ := hlast
      obtain rfl := Except.ok.inj hafter
      have hmem : ∀ frame ∈ reads, frame ∈ frames := fun frame hframe =>
        hreads frame (List.mem_append_left _ hframe)
      refine .inr ⟨last, by simp, ?_⟩
      refine follow_holds hsound ?_ (hreads last (by simp)) hfollow
      obtain ⟨rfl, -⟩ | ⟨previous, hprevious, hholds⟩ := ih hmem hbefore
      · exact .inl rfl
      · exact .inr ⟨previous, hmem _ (List.mem_of_getLast? hprevious), hholds⟩

end ClientHistory

/-- Cursors are sound. A cursor on a page is issued for the last row of the page. Where any frame
accepts it, that frame resumes after the same position, and both frames have one history up to it.
So a client that follows the pages of any frames holds the history of the last one. -/
theorem history_cursor_sound (coding : Coding) (frames : Set HistoryFrame) (id : Text)
    (hsound : coding.Sound frames id) :
    (∀ first ∈ frames, ∀ request page cursor,
      first.historyDocument coding (some id) request = .ok page →
        (page.resumeCursor = some cursor ∨ page.nextCursor = some cursor) →
          ∃ position, first.Issues coding id position cursor) ∧
    (∀ first ∈ frames, ∀ second ∈ frames, ∀ position cursor start,
      first.Issues coding id position cursor → second.Accepts coding id cursor start →
        start = position + 1 ∧ SameUpTo first second id position) ∧
    (∀ reads last client, (∀ frame ∈ reads ++ [last], frame ∈ frames) →
      (reads ++ [last]).foldlM (ClientHistory.follow coding id) .empty = .ok client →
        client.rows = (last.rowsOf id).take client.rows.length ∧
          client.gaps = last.gapsOf id ∧
          (client.complete = true → client.rows = last.rowsOf id)) := by
  refine ⟨?_, ?_, ?_⟩
  · intro first _ request page cursor hdocument hcursor
    obtain ⟨start, stop, hpage⟩ := historyDocument_spec hdocument
    have hresume : page.resumeCursor = some cursor := by
      obtain hresume | hnext := hcursor
      · exact hresume
      · rw [hpage.next] at hnext
        split at hnext
        · exact hnext
        · cases hnext
    obtain ⟨hnone, -⟩ | ⟨position, c, -, hsome, hissued⟩ := hpage.resumed
    · rw [hnone] at hresume
      cases hresume
    · obtain rfl : c = cursor := Option.some.inj (hsome.symm.trans hresume)
      exact ⟨position, hissued⟩
  · intro first hfirst second hsecond position cursor start hissued haccepted
    exact accepts_sameUpTo hsound hfirst hsecond hissued haccepted
  · intro reads last client hreads h
    obtain ⟨-, hnil⟩ | ⟨final, hfinal, hholds⟩ := ClientHistory.foldlM_follow_holds hsound hreads h
    · simp at hnil
    · rw [List.getLast?_append_of_ne_nil _ (List.cons_ne_nil _ _)] at hfinal
      obtain rfl : last = final := by simpa using hfinal
      exact ⟨hholds.rows, hholds.gaps, hholds.complete⟩

/-! ### Two generations of one period -/

/-- The JSON of a row without numbers and models. -/
def sampleObservation (row : PublicHistoryObservation) : List UInt8 :=
  ascii ("\x7b\"timestamp\":".toList ++ showI64 row.timestamp ++ ",\"reset_at\":".toList ++
    showI64 row.resetAt ++ ",\"remaining_percent\":null,\"task_active_since_previous\":null".toList ++
    ",\"models\":null,\"models_complete\":false,\"model_source\":\"".toList ++ row.modelSource ++
    "\"\x7d".toList)

/-- The JSON of an identity without gaps. -/
def sampleIdentity (epoch : Nat) (id : Text) (resetAt : Int) (_ : List PublicHistoryGap) :
    List UInt8 :=
  ascii ("[".toList ++ decimal epoch ++ ",\"".toList ++ id ++ "\",".toList ++ showI64 resetAt ++
    ",[]]".toList)

/-- SHA-256 of the two streams of the sample, which have different lengths. -/
def sampleDigest (bytes : List UInt8) : List UInt8 :=
  if bytes.length < 300 then
    [91, 26, 233, 166, 23, 172, 114, 75, 11, 52, 114, 107, 96, 37, 41, 159,
      156, 86, 250, 63, 32, 223, 118, 109, 146, 7, 135, 187, 107, 255, 15, 213]
  else
    [33, 59, 65, 239, 28, 54, 4, 221, 115, 82, 119, 199, 214, 149, 34, 244,
      54, 47, 71, 102, 133, 105, 159, 86, 197, 237, 145, 176, 245, 146, 250, 77]

def sampleCoding : Coding := ⟨sampleObservation, sampleIdentity, sampleDigest⟩

def sampleId : Text := "1800604800".toList

def samplePeriod (endAt : Int) : PublicHistoryPeriod :=
  { id := sampleId, startAt := 1800000000, endAt := endAt, resetAt := 1800604800
    label := "".toList, current := true }

def sampleRow (timestamp : Int) : PublicHistoryObservation :=
  { timestamp := timestamp, resetAt := 1800604800, remainingPercent := none
    taskActiveSincePrevious := none, models := none, modelsComplete := false
    modelSource := "unavailable".toList }

/-- Seven tokens ten seconds into the period. -/
def sampleRecordings : RecordedArchive :=
  { prefixes := SortedMap.empty.insert "gpt-5".toList
      [(1800000010, ⟨1, 7, ⟨0, 1⟩, ⟨0, 1⟩, ⟨0, 1⟩, ⟨0, 1⟩⟩)]
    localIndexInitialized := true
    pendingNumericTimes := [] }

def sampleFrame (endAt : Int) (times : List Int) : HistoryFrame :=
  { storageEpoch := 1
    retainedHistory := ⟨[samplePeriod endAt], times.map sampleRow, []⟩
    raw := none
    recordings := some sampleRecordings }

def sampleFirst : HistoryFrame := sampleFrame 1800000060 [1800000000]

/-- The next generation has one more row. -/
def sampleSecond : HistoryFrame := sampleFrame 1800000120 [1800000000, 1800000060]

def sampleCursor : Text :=
  ("h1.1800604800.1800000000." ++
    "5b1ae9a617ac724b0b34726b6025299f9c56fa3f20df766d920787bb6bff0fd5").toList

def sampleFrames : Set HistoryFrame := {sampleFirst, sampleSecond}

theorem injOn_of_list {σ β : Type} {f : σ → β} {s : Set σ} (l : List σ) (hs : ∀ a ∈ s, a ∈ l)
    (hl : (l.map f).Nodup) : Set.InjOn f s := fun _ ha _ hb h =>
  List.inj_on_of_nodup_map hl (hs _ ha) (hs _ hb) h

theorem sample_rows {row : PublicHistoryObservation}
    (h : ∃ frame ∈ sampleFrames, row ∈ frame.rowsOf sampleId) :
    row ∈ [sampleRow 1800000000, sampleRow 1800000060] := by
  obtain ⟨frame, rfl | rfl, hrow⟩ := h
  · have : sampleFirst.rowsOf sampleId = [sampleRow 1800000000] := by decide +kernel
    simp_all
  · have : sampleSecond.rowsOf sampleId = [sampleRow 1800000000, sampleRow 1800000060] := by
      decide +kernel
    simp_all

theorem sample_identities {identity : PeriodIdentity}
    (h : ∃ frame ∈ sampleFrames, ∃ period ∈ frame.periodsOf sampleId,
      identity = frame.identityOf sampleId period) :
    identity ∈ [(1, sampleId, 1800604800, ([] : List PublicHistoryGap))] := by
  obtain ⟨frame, rfl | rfl, period, hperiod, rfl⟩ := h
  · have : sampleFirst.periodsOf sampleId = [samplePeriod 1800000060] := by decide +kernel
    obtain rfl : period = samplePeriod 1800000060 := by simpa [this] using hperiod
    decide +kernel
  · have : sampleSecond.periodsOf sampleId = [samplePeriod 1800000120] := by decide +kernel
    obtain rfl : period = samplePeriod 1800000120 := by simpa [this] using hperiod
    decide +kernel

theorem sample_streams {bytes : List UInt8}
    (h : ∃ frame ∈ sampleFrames, ∃ period ∈ frame.periodsOf sampleId,
      ∃ position < (frame.rowsOf sampleId).length,
        bytes = frame.streamAt sampleCoding sampleId period position) :
    bytes ∈ (List.range 2).map
      (sampleSecond.streamAt sampleCoding sampleId (samplePeriod 1800000120)) := by
  obtain ⟨frame, rfl | rfl, period, hperiod, position, hposition, rfl⟩ := h
  · have : sampleFirst.periodsOf sampleId = [samplePeriod 1800000060] := by decide +kernel
    obtain rfl : period = samplePeriod 1800000060 := by simpa [this] using hperiod
    have : (sampleFirst.rowsOf sampleId).length = 1 := by decide +kernel
    obtain rfl : position = 0 := by omega
    decide +kernel
  · have : sampleSecond.periodsOf sampleId = [samplePeriod 1800000120] := by decide +kernel
    obtain rfl : period = samplePeriod 1800000120 := by simpa [this] using hperiod
    have : (sampleSecond.rowsOf sampleId).length = 2 := by decide +kernel
    exact List.mem_map.mpr ⟨position, List.mem_range.mpr (by omega), rfl⟩

theorem sample_sound : sampleCoding.Sound sampleFrames sampleId where
  rows :=
    { injOn := injOn_of_list _ (fun _ h => sample_rows h) (by decide +kernel)
      brace := fun row h => by
        have hall : ∀ row ∈ [sampleRow 1800000000, sampleRow 1800000060],
            (sampleObservation row).head? = some 123 := by decide +kernel
        exact hall row (sample_rows h)
      oneLine := fun row h => by
        have hall : ∀ row ∈ [sampleRow 1800000000, sampleRow 1800000060],
            10 ∉ sampleObservation row := by decide +kernel
        exact hall row (sample_rows h) }
  identities :=
    { injOn := injOn_of_list _ (fun _ h => sample_identities h) (by decide +kernel)
      oneLine := fun identity h => by
        obtain rfl := List.mem_singleton.mp (sample_identities h)
        decide +kernel }
  digest := injOn_of_list _ (fun _ h => sample_streams h) (by decide +kernel)

/-- The second generation accepts the cursor of the first one and resumes after its row. -/
theorem history_cursor_sound_sample :
    sampleFirst.Issues sampleCoding sampleId 0 sampleCursor ∧
      sampleSecond.Accepts sampleCoding sampleId sampleCursor 1 ∧
      SameUpTo sampleFirst sampleSecond sampleId 0 := by
  have hissued : sampleFirst.Issues sampleCoding sampleId 0 sampleCursor :=
    ⟨(sampleFirst.indexed sampleCoding sampleId).get (by decide +kernel), by simp,
      by decide +kernel⟩
  have haccepted : sampleSecond.Accepts sampleCoding sampleId sampleCursor 1 :=
    accepts_of_indexed (Option.some_get (by decide +kernel)).symm (by decide +kernel)
  have hsound := history_cursor_sound sampleCoding sampleFrames sampleId sample_sound
  exact ⟨hissued, haccepted,
    (hsound.2.1 sampleFirst (.inl rfl) sampleSecond (.inr rfl) 0 sampleCursor 1 hissued
      haccepted).2⟩

end CodexInfo.Rest
