import CodexInfo.Lib.PrefixCode
import CodexInfo.Proofs.Reader.CivilDate
import CodexInfo.Proofs.Writer.StoredText

/-!
# `CodexInfo.Proofs.Reader.PeriodLabels`: the labels tell the periods apart

The text of a timestamp can be read back: its numbers are separated by what is no digit. Two
periods of one base label carry their resets, and a label with a reset has another ending than one
without.

* `formatJstTimestamp_injective`: the text determines a public timestamp.
* `labels_nodup`: periods with distinct resets have distinct labels.
* `period_labels_identify`: both, with the dates of the days.
-/

set_option autoImplicit false

namespace CodexInfo.Reader.PeriodLabels

open CodexInfo.Contract (Text i64Max)
open CodexInfo.Lib (SortedMap line_cons_inj)
open CodexInfo.Lib.Calendar
open CodexInfo.Writer (decimal validTime validTime_iff maxPublicUnixSeconds)

/-! ### Padded numbers -/

theorem showPadded_of_nonneg {width : Nat} {value : Int} (h : 0 ≤ value) :
    showPadded width value =
      List.replicate (width - (decimal value.natAbs).length) '0' ++ decimal value.natAbs := by
  rw [showPadded, if_neg (by omega)]
  rfl

theorem isDigit_of_mem_showPadded {width : Nat} {value : Int} (h : 0 ≤ value) {c : Char}
    (hc : c ∈ showPadded width value) : c.isDigit = true := by
  rw [showPadded_of_nonneg h] at hc
  rcases List.mem_append.mp hc with hzero | hdigit
  · rw [List.eq_of_mem_replicate hzero]
    decide
  · exact Nat.isDigit_of_mem_toDigits (by decide) (by decide) hdigit

theorem showPadded_injective {width : Nat} {a b : Int} (ha : 0 ≤ a) (hb : 0 ≤ b)
    (h : showPadded width a = showPadded width b) : a = b := by
  have hvalue : ∀ {value : Int}, 0 ≤ value →
      Nat.ofDigitChars 10 (showPadded width value) 0 = value.natAbs := by
    intro value hpos
    rw [showPadded_of_nonneg hpos, Nat.ofDigitChars_append, Nat.ofDigitChars_replicate_zero,
      Nat.mul_zero]
    exact Nat.ofDigitChars_ten_toDigits
  have habs : a.natAbs = b.natAbs := by rw [← hvalue ha, h, hvalue hb]
  omega

/-! ### Timestamps -/

/-- What a timestamp's text consists of. -/
structure Stamp where
  year : Int
  month : Int
  day : Int
  hour : Int
  minute : Int
  second : Int

def Stamp.text (stamp : Stamp) : Text :=
  showPadded 4 stamp.year ++ '/' :: (showPadded 2 stamp.month ++ '/' :: (showPadded 2 stamp.day ++
    ' ' :: (showPadded 2 stamp.hour ++ ':' :: (showPadded 2 stamp.minute ++
      ':' :: (showPadded 2 stamp.second ++ ' ' :: ['+', '0', '9', ':', '0', '0'])))))

def Stamp.Nonneg (stamp : Stamp) : Prop :=
  0 ≤ stamp.year ∧ 0 ≤ stamp.month ∧ 0 ≤ stamp.day ∧ 0 ≤ stamp.hour ∧ 0 ≤ stamp.minute ∧
    0 ≤ stamp.second

theorem notMem_showPadded {width : Nat} {value : Int} (h : 0 ≤ value) {c : Char}
    (hc : c.isDigit = false) : c ∉ showPadded width value :=
  fun hmem => Bool.false_ne_true (hc.symm.trans (isDigit_of_mem_showPadded h hmem))

/-- The text is read back up to one separator after the other. -/
theorem Stamp.text_injective {a b : Stamp} (ha : a.Nonneg) (hb : b.Nonneg)
    (h : a.text = b.text) : a = b := by
  obtain ⟨ha1, ha2, ha3, ha4, ha5, ha6⟩ := ha
  obtain ⟨hb1, hb2, hb3, hb4, hb5, hb6⟩ := hb
  have hslash : '/'.isDigit = false := by decide
  have hspace : ' '.isDigit = false := by decide
  have hcolon : ':'.isDigit = false := by decide
  obtain ⟨hyear, h⟩ := line_cons_inj (notMem_showPadded ha1 hslash) (notMem_showPadded hb1 hslash) h
  obtain ⟨hmonth, h⟩ := line_cons_inj (notMem_showPadded ha2 hslash) (notMem_showPadded hb2 hslash) h
  obtain ⟨hday, h⟩ := line_cons_inj (notMem_showPadded ha3 hspace) (notMem_showPadded hb3 hspace) h
  obtain ⟨hhour, h⟩ := line_cons_inj (notMem_showPadded ha4 hcolon) (notMem_showPadded hb4 hcolon) h
  obtain ⟨hminute, h⟩ := line_cons_inj (notMem_showPadded ha5 hcolon)
    (notMem_showPadded hb5 hcolon) h
  obtain ⟨hsecond, -⟩ := line_cons_inj (notMem_showPadded ha6 hspace) (notMem_showPadded hb6 hspace) h
  obtain ⟨_, _, _, _, _, _⟩ := a
  obtain ⟨_, _, _, _, _, _⟩ := b
  rw [Stamp.mk.injEq]
  exact ⟨showPadded_injective ha1 hb1 hyear, showPadded_injective ha2 hb2 hmonth,
    showPadded_injective ha3 hb3 hday, showPadded_injective ha4 hb4 hhour,
    showPadded_injective ha5 hb5 hminute, showPadded_injective ha6 hb6 hsecond⟩

/-- Nothing but digits and separators stands in the text. -/
theorem Stamp.notMem_text {stamp : Stamp} (h : stamp.Nonneg) {c : Char}
    (hdigit : c.isDigit = false) (hsep : c ∉ ['/', ' ', ':', '+', '0', '9']) : c ∉ stamp.text := by
  obtain ⟨h1, h2, h3, h4, h5, h6⟩ := h
  simp only [List.mem_cons, List.not_mem_nil, or_false, not_or] at hsep
  simp [text, hsep, notMem_showPadded h1 hdigit, notMem_showPadded h2 hdigit,
    notMem_showPadded h3 hdigit, notMem_showPadded h4 hdigit, notMem_showPadded h5 hdigit,
    notMem_showPadded h6 hdigit]

/-- The parts of a timestamp at nine hours east. -/
def stampOf (timestamp : Int) : Stamp :=
  let shifted := timestamp + 9 * 60 * 60
  let date := civilDateFromDays (shifted / 86400)
  { year := date.1, month := date.2.1, day := date.2.2
    hour := shifted % 86400 / 3600
    minute := shifted % 86400 % 3600 / 60
    second := shifted % 86400 % 60 }

theorem formatJstTimestamp_def (timestamp : Int) : formatJstTimestamp timestamp =
    if timestamp + 9 * 60 * 60 ≤ i64Max then some (stampOf timestamp).text else none := by
  unfold formatJstTimestamp
  dsimp only
  refine if_congr Iff.rfl ?_ rfl
  simp [Stamp.text, stampOf]

theorem exists_stamp_of_format {timestamp : Int} {text : Text}
    (h : formatJstTimestamp timestamp = some text) : ∃ stamp : Stamp, text = stamp.text := by
  rw [formatJstTimestamp_def] at h
  split at h
  · exact ⟨_, (Option.some.inj h).symm⟩
  · cases h

theorem formatJstTimestamp_eq {timestamp : Int} (h : timestamp ≤ maxPublicUnixSeconds) :
    formatJstTimestamp timestamp = some (stampOf timestamp).text := by
  have hmax : (maxPublicUnixSeconds : Int) + 9 * 60 * 60 ≤ i64Max := by decide
  rw [formatJstTimestamp_def, if_pos (by omega)]

/-- The days of a public timestamp, shifted to its time zone, are a date from 1970 on. -/
theorem exists_date_of_validTime {timestamp : Int} (h : validTime timestamp = true) :
    ∃ date : Date, civilDateFromDays ((timestamp + 9 * 60 * 60) / 86400) =
        (date.year, date.month, date.day) ∧ 0 ≤ date.year ∧
      date.dayNumber = 719163 + (timestamp + 9 * 60 * 60) / 86400 := by
  obtain ⟨hpos, hle⟩ := (validTime_iff timestamp).mp h
  have hmax : (maxPublicUnixSeconds : Int) + 9 * 60 * 60 + 719468 ≤ i64Max := by decide
  have hlow : -719468 ≤ (timestamp + 9 * 60 * 60) / 86400 := by omega
  obtain ⟨date, heq, hafter⟩ := civilDateFromDays_spec hlow (by omega)
  have hstart : unixEpoch.dayNumber = 719163 := by decide
  rw [Date.isDaysAfter_iff, hstart] at hafter
  refine ⟨date, heq, ?_, hafter⟩
  have hbounds := date.dayNumber_bounds
  have hfirst : daysBeforeYear 0 = -366 := rfl
  by_contra hneg
  have hnext : date.year + 1 ≤ 0 := by omega
  have hyear := daysBeforeYear_le hnext
  omega

theorem stampOf_nonneg {timestamp : Int} (h : validTime timestamp = true) :
    (stampOf timestamp).Nonneg := by
  obtain ⟨date, heq, hyear, -⟩ := exists_date_of_validTime h
  have hmonth := date.month_pos
  have hday := date.day_pos
  unfold stampOf Stamp.Nonneg
  dsimp only
  rw [heq]
  dsimp only
  exact ⟨hyear, by omega, by omega, by omega, by omega, by omega⟩

/-- The date gives the days and the time of day the seconds. -/
theorem stampOf_injective {a b : Int} (ha : validTime a = true) (hb : validTime b = true)
    (h : stampOf a = stampOf b) : a = b := by
  obtain ⟨dateA, heqA, -, hnumberA⟩ := exists_date_of_validTime ha
  obtain ⟨dateB, heqB, -, hnumberB⟩ := exists_date_of_validTime hb
  unfold stampOf at h
  dsimp only at h
  rw [heqA, heqB, Stamp.mk.injEq] at h
  obtain ⟨hyear, hmonth, hday, hhour, hminute, hsecond⟩ := h
  have hdate : dateA = dateB := Date.ext hyear hmonth hday
  rw [hdate] at hnumberA
  omega

theorem formatJstTimestamp_injective {a b : Int} (ha : validTime a = true)
    (hb : validTime b = true) (h : formatJstTimestamp a = formatJstTimestamp b) : a = b := by
  rw [formatJstTimestamp_eq ((validTime_iff a).mp ha).2,
    formatJstTimestamp_eq ((validTime_iff b).mp hb).2] at h
  exact stampOf_injective ha hb
    (Stamp.text_injective (stampOf_nonneg ha) (stampOf_nonneg hb) (Option.some.inj h))

/-! ### Labels -/

theorem resetSuffix_eq {resetAt : Int} (h : validTime resetAt = true) :
    resetSuffix resetAt =
      ['（', '期', '限', ' '] ++ ((stampOf resetAt).text ++ ['）']) := by
  rw [resetSuffix, formatJstTimestamp_eq ((validTime_iff resetAt).mp h).2]
  simp

/-- Labels with resets end with the texts of these resets. -/
theorem reset_eq_of_append {first second : Text} {a b : Int} (ha : validTime a = true)
    (hb : validTime b = true) (h : first ++ resetSuffix a = second ++ resetSuffix b) : a = b := by
  have hmark : ∀ {t : Int}, validTime t = true →
      '限' ∉ (' ' :: ((stampOf t).text ++ ['）'])).reverse := by
    intro t ht
    have hstamp := Stamp.notMem_text (stampOf_nonneg ht) (c := '限') (by decide) (by decide)
    simp [hstamp]
  rw [resetSuffix_eq ha, resetSuffix_eq hb] at h
  have hreverse := congrArg List.reverse h
  have hsplit : ∀ (label : Text) (t : Int),
      (label ++ (['（', '期', '限', ' '] ++ ((stampOf t).text ++ ['）']))).reverse =
        (' ' :: ((stampOf t).text ++ ['）'])).reverse ++ '限' :: (label ++ ['（', '期']).reverse := by
    intro label t
    simp
  rw [hsplit, hsplit] at hreverse
  have hstamps := List.reverse_injective (line_cons_inj (hmark ha) (hmark hb) hreverse).1
  have htexts := List.append_cancel_right (List.cons.inj hstamps).2
  exact stampOf_injective ha hb
    (Stamp.text_injective (stampOf_nonneg ha) (stampOf_nonneg hb) htexts)

theorem stamp_suffix (stamp : Stamp) : ['0', '0'] <:+ stamp.text :=
  ⟨showPadded 4 stamp.year ++ '/' :: (showPadded 2 stamp.month ++ '/' ::
    (showPadded 2 stamp.day ++ ' ' :: (showPadded 2 stamp.hour ++ ':' ::
      (showPadded 2 stamp.minute ++ ':' :: (showPadded 2 stamp.second ++
        ' ' :: ['+', '0', '9', ':'])))) ), by simp [Stamp.text]⟩

/-- The last two characters of a label without a reset. -/
theorem baseLabel_suffix (current : Option Int) (period : PublicHistoryPeriod) :
    ∃ ending ∈ [['0', '0'], ['在', '）'], ['不', '明']], ending <:+ baseLabel current period := by
  have hunknown : ['不', '明'] <:+ ['期', '間', '不', '明'] := ⟨['期', '間'], rfl⟩
  unfold baseLabel formatJstPeriodLabel
  split
  · next start finish hstart hfinish =>
      obtain ⟨stamp, rfl⟩ := exists_stamp_of_format hfinish
      by_cases hcurrent : period.current = true
      · refine ⟨['在', '）'], by decide, ?_⟩
        rw [if_pos hcurrent]
        exact List.IsSuffix.trans ⟨['（', '現'], by simp⟩ (List.suffix_append _ _)
      · refine ⟨['0', '0'], by decide, ?_⟩
        rw [if_neg hcurrent, List.append_nil]
        exact (stamp_suffix stamp).trans (List.suffix_append _ _)
  · exact ⟨['不', '明'], by decide, by simpa using hunknown⟩

/-- No label without a reset is one with a reset. -/
theorem append_ne_baseLabel (label : Text) {resetAt : Int} (h : validTime resetAt = true)
    (current : Option Int) (period : PublicHistoryPeriod) :
    label ++ resetSuffix resetAt ≠ baseLabel current period := by
  intro heq
  obtain ⟨ending, hmem, hending⟩ := baseLabel_suffix current period
  have hreset : ['0', '）'] <:+ label ++ resetSuffix resetAt := by
    obtain ⟨text, htext⟩ := stamp_suffix (stampOf resetAt)
    rw [resetSuffix_eq h, ← htext]
    exact ⟨label ++ ['（', '期', '限', ' '] ++ text ++ ['0'], by simp⟩
  have hlengths : ∀ ending ∈ [['0', '0'], ['在', '）'], ['不', '明']], 2 = ending.length := by
    decide
  have hlength : ['0', '）'].length = ending.length := hlengths ending hmem
  have hsame : ['0', '）'] = ending :=
    (List.suffix_of_suffix_length_le hreset (heq ▸ hending) hlength.le).eq_of_length hlength
  rw [← hsame] at hmem
  revert hmem
  decide

/-- The counts of the source are the counts of the base labels. -/
theorem labelCounts_any (labels : List Text) (label : Text) :
    ((labels.foldl (fun counts label => counts.deposit label 1)
      (SortedMap.empty : SortedMap Text Nat)).get? label).any (fun count => decide (1 < count)) =
        decide (1 < labels.count label) := by
  have hfold : labels.foldl (fun counts label => counts.deposit label 1)
      (SortedMap.empty : SortedMap Text Nat) =
        SortedMap.empty.depositAll (labels.map fun label => (label, 1)) := by
    rw [SortedMap.depositAll, List.foldl_map]
  have hshare : ∀ labels : List Text,
      SortedMap.share (labels.map fun label => (label, 1)) label = labels.count label := by
    intro labels
    induction labels with
    | nil => rfl
    | cons first rest ih =>
        rw [List.map_cons, SortedMap.share_cons, ih, List.count_cons]
        simp only [beq_iff_eq]
        omega
  have hamount := SortedMap.amount_depositAll (SortedMap.empty : SortedMap Text Nat)
    (labels.map fun label => (label, 1)) label
  rw [hshare, SortedMap.amount_empty, Nat.zero_add, SortedMap.amount] at hamount
  rw [hfold, ← hamount]
  cases SortedMap.get? _ label <;> rfl

/-- The label of a period in the list of labels. -/
def finalLabel (labels : List Text) (current : Option Int) (period : PublicHistoryPeriod) : Text :=
  if 1 < labels.count (baseLabel current period) then
    baseLabel current period ++ resetSuffix period.resetAt
  else baseLabel current period

theorem labels_eq (periods : List PublicHistoryPeriod) (current : Option Int) :
    (assignHistoryPeriodLabels periods current).map (·.label) =
      periods.map (finalLabel (periods.map (baseLabel current)) current) := by
  unfold assignHistoryPeriodLabels
  dsimp only
  simp only [List.map_map, labelCounts_any]
  refine List.map_congr_left fun period _ => ?_
  simp only [Function.comp_apply, finalLabel, decide_eq_true_eq]
  have hbase : periods.map ((fun period => period.label) ∘
      fun period => { period with label := baseLabel current period }) =
        periods.map (baseLabel current) := rfl
  rw [hbase]
  split <;> rfl

/-- Periods with distinct public resets have distinct labels. Two periods of one base label count
for each other, and so both carry their resets. -/
theorem labels_nodup {periods : List PublicHistoryPeriod} (current : Option Int)
    (hresets : (periods.map (·.resetAt)).Nodup)
    (hpublic : ∀ period ∈ periods, validTime period.resetAt = true) :
    ((assignHistoryPeriodLabels periods current).map (·.label)).Nodup := by
  rw [labels_eq, List.Nodup, List.pairwise_map, List.pairwise_iff_forall_sublist]
  rw [List.Nodup, List.pairwise_map, List.pairwise_iff_forall_sublist] at hresets
  intro a b hsub heq
  have hne := hresets hsub
  have ha := hpublic a (hsub.subset (by simp))
  have hb := hpublic b (hsub.subset (by simp))
  unfold finalLabel at heq
  split at heq
  · split at heq
    · exact hne (reset_eq_of_append ha hb heq)
    · exact append_ne_baseLabel _ ha current b heq
  · next hsingle =>
      split at heq
      · exact append_ne_baseLabel _ hb current a heq.symm
      · have hcount := (hsub.map (baseLabel current)).count_le (baseLabel current a)
        have htwice : ([a, b].map (baseLabel current)).count (baseLabel current a) = 2 := by
          simp [heq]
        omega

/-- Day counts are dates, and the labels of periods with distinct resets are distinct. -/
theorem period_labels_identify :
    (∀ days : Int, -719468 ≤ days → days + 719468 ≤ i64Max →
      ∃ date : Date, civilDateFromDays days = (date.year, date.month, date.day) ∧
        unixEpoch.IsDaysAfter days date) ∧
    (∀ a b : Int, validTime a = true → validTime b = true →
      formatJstTimestamp a = formatJstTimestamp b → a = b) ∧
    ∀ (periods : List PublicHistoryPeriod) (current : Option Int),
      (periods.map (·.resetAt)).Nodup →
      (∀ period ∈ periods, validTime period.startAt = true ∧ validTime period.endAt = true ∧
        validTime period.resetAt = true) →
      ((assignHistoryPeriodLabels periods current).map (·.label)).Nodup :=
  ⟨fun _ hlow hhigh => civilDateFromDays_spec hlow hhigh,
    fun _ _ ha hb h => formatJstTimestamp_injective ha hb h,
    fun _ current hresets hpublic =>
      labels_nodup current hresets fun period hmem => (hpublic period hmem).2.2⟩

end CodexInfo.Reader.PeriodLabels
