import CodexInfo.Lib.Run
import CodexInfo.Reader.StoredObservation
import CodexInfo.Writer.ObservationDocument

/-!
# `CodexInfo.Proofs.Reader.StoredObservation`: the two checks of one document

The writer lets a fixed value be absent beside an empty set of models that is not complete. The
reader asks for a zero there.

* `checkMembers_ok`: what the writer has checked of a document.
* `parseEmptyModelSet_iff`: when the reader takes the flag of a checked document.
* `parseStoredHistoryObservation_keeps_iff`: exactly which checked documents the reader keeps.
-/

set_option autoImplicit false

namespace CodexInfo.Reader.StoredObservation

open CodexInfo.Contract
open CodexInfo.Lib
open CodexInfo.Writer (validTime)
open CodexInfo.Writer.ObservationDocument

/-! ### Statement -/

/-- The text of the model source of a document. -/
def sourceText (members : Members) : Option Text :=
  (JsonValue.member members "model_source".toList).bind JsonValue.asStr

/-- The flag of the empty set of models of a document. -/
def emptyFlag (members : Members) : Option Bool :=
  (JsonValue.member members emptyModelSetCompleteKey).bind JsonValue.asBool

/-- The document has public times, and a percentage that is absent or from 0 to 100. -/
structure PublicDocument (members : Members) (timestamp resetAt : Int)
    (remaining : Option ℚ) : Prop where
  time : (JsonValue.member members "timestamp".toList).bind JsonValue.asI64 = some timestamp
  reset : (JsonValue.member members "reset_at".toList).bind JsonValue.asI64 = some resetAt
  validTimestamp : validTime timestamp = true
  validReset : validTime resetAt = true
  remaining : ∃ value, JsonValue.member members "remaining_percent".toList = some value ∧
    (value.isNull = true ∧ remaining = none ∨
      ∃ percent, value.asF64 = some percent ∧ (0 ≤ percent ∧ percent ≤ 100) ∧
        remaining = some percent)

/-- The reader takes the observation, with everything the document says of it. -/
def Keeps (parse : Text → Option JsonValue) (snapshotJson : Text) (members : Members)
    (timestamp resetAt : Int) (remaining : Option ℚ) : Prop :=
  ∃ observation, parseStoredHistoryObservation parse timestamp snapshotJson = some observation ∧
    observation.timestamp = timestamp ∧ observation.resetAt = resetAt ∧
    observation.remainingPercent = remaining ∧
    sourceText members = some observation.modelSource.asStr ∧
    observation.emptyModelSetComplete = emptyFlag members

/-- The condition on the document: a named model source, and no absent fixed value beside a set of
models that is empty and not complete. -/
structure Readable (members : Members) : Prop where
  source : ∃ source : HistoryModelSource, sourceText members = some source.asStr
  fixed : emptyFlag members = some false →
    ∀ key ∈ fixedKeys, ∀ value ∈ JsonValue.member members key, value.isNull = false

/-! ### Model sources -/

theorem parse_asStr (source : HistoryModelSource) :
    HistoryModelSource.parse source.asStr = some source := by
  cases source <;> decide

theorem asStr_of_parse {name : Text} {source : HistoryModelSource}
    (h : HistoryModelSource.parse name = some source) : name = source.asStr := by
  have hfound := List.find?_some h
  exact (of_decide_eq_true hfound).symm

/-! ### What the writer checks -/

/-- What the checks leave known of a document with a flag. -/
structure CheckedFlag (members : Members) (complete : Bool) : Prop where
  source : sourceText members ≠ some "unavailable".toList
  zero : fixedValuesAreZero members complete = true

theorem checkEmptyModelSet_ok {members : Members} (h : checkEmptyModelSet members = .ok ()) :
    JsonValue.member members emptyModelSetCompleteKey = none ∨
      ∃ flag complete, JsonValue.member members emptyModelSetCompleteKey = some flag ∧
        flag.asBool = some complete ∧ CheckedFlag members complete := by
  unfold checkEmptyModelSet at h
  split at h
  · next hnone => exact Or.inl hnone
  · next flag hflag =>
      split at h
      · cases h
      · next complete hcomplete =>
          split at h
          · cases h
          · next hsource =>
              split at h
              · cases h
              · next hzero =>
                  exact Or.inr ⟨flag, complete, hflag, hcomplete, hsource, not_not.mp hzero⟩

theorem checkMembers_ok {members : Members} (h : checkMembers members = .ok ()) :
    (JsonValue.member members "kind".toList).bind JsonValue.asStr = some observationJsonKind ∧
      checkEmptyModelSet members = .ok () := by
  unfold checkMembers at h
  split at h
  · cases h
  · split at h
    · cases h
    · split at h
      · cases h
      · next hkind =>
          split at h
          · cases h
          · exact ⟨not_not.mp hkind, h⟩

theorem validateObservationJson_ok {parse : Text → Option JsonValue} {snapshotJson : Text}
    {members : Members} (h : validateObservationJson parse snapshotJson = .ok members) :
    ∃ document, parse snapshotJson = some document ∧ document.asObject = some members ∧
      checkMembers members = .ok () := by
  unfold validateObservationJson at h
  split at h
  · cases h
  · split at h
    · cases h
    · next document hparse =>
        split at h
        · cases h
        · next found hobject =>
            obtain ⟨hchecked, hresult⟩ := check_bind_eq_ok_iff.mp h
            cases hresult
            exact ⟨document, hparse, hobject, hchecked⟩

/-! ### The fixed values -/

/-- A fixed value that the writer allows is zero or absent, the latter beside a set that is not
complete. -/
theorem fixedValueZero_cases {members : Members} {complete : Bool} {zero : JsonValue → Bool}
    {key : Text} (h : fixedValueZero members complete zero key = true) :
    ∃ value, JsonValue.member members key = some value ∧
      (value.isNull = true ∧ complete = false ∨ zero value = true) := by
  unfold fixedValueZero at h
  split at h
  · cases h
  · next value hvalue =>
      refine ⟨value, hvalue, ?_⟩
      split at h
      · next hnull =>
          simp only [Bool.and_eq_true, Bool.not_eq_true'] at hnull
          exact Or.inl hnull
      · exact Or.inr h

theorem fixedValuesAreZero_cases {members : Members} {complete : Bool}
    (h : fixedValuesAreZero members complete = true) {key : Text} (hkey : key ∈ fixedKeys) :
    ∃ value, JsonValue.member members key = some value ∧
      (value.isNull = true ∧ complete = false ∨ value.asF64 = some 0) := by
  simp only [fixedValuesAreZero, Bool.and_eq_true, List.all_eq_true] at h
  obtain ⟨hdollars, htokens⟩ := h
  have hsplit : key ∈ dollarKeys ∨ key ∈ tokenKeys := by
    have hkeys : fixedKeys = dollarKeys ++ tokenKeys := rfl
    exact List.mem_append.mp (hkeys ▸ hkey)
  rcases hsplit with hdollar | htoken
  · obtain ⟨value, hvalue, hcases⟩ := fixedValueZero_cases (hdollars key hdollar)
    exact ⟨value, hvalue, hcases.imp_right of_decide_eq_true⟩
  · obtain ⟨value, hvalue, hcases⟩ := fixedValueZero_cases (htokens key htoken)
    exact ⟨value, hvalue, hcases.imp_right fun hzero =>
      JsonValue.asF64_of_asU64 (of_decide_eq_true hzero)⟩

/-- The reader's test of the fixed values. -/
def allZero (members : Members) : Prop :=
  ∀ key ∈ fixedKeys, (JsonValue.member members key).bind JsonValue.asF64 = some 0

/-- The reader refuses a value that is not zero. -/
theorem any_ne_zero_iff (members : Members) :
    (fixedKeys.any fun key =>
      decide ((JsonValue.member members key).bind JsonValue.asF64 ≠ some 0)) = true ↔
      ¬ allZero members := by
  unfold allZero
  rw [List.any_eq_true]
  constructor
  · rintro ⟨key, hkey, hne⟩ hzero
    exact of_decide_eq_true hne (hzero key hkey)
  · intro hzero
    push Not at hzero
    obtain ⟨key, hkey, hne⟩ := hzero
    exact ⟨key, hkey, decide_eq_true hne⟩

/-- On a checked document only an absent value beside a set that is not complete fails the test. -/
theorem allZero_iff {members : Members} {complete : Bool}
    (h : fixedValuesAreZero members complete = true) :
    allZero members ↔ (complete = false →
      ∀ key ∈ fixedKeys, ∀ value ∈ JsonValue.member members key, value.isNull = false) := by
  constructor
  · intro hzero hcomplete key hkey value hvalue
    have hnumber := hzero key hkey
    rw [Option.mem_def.mp hvalue, Option.bind_some] at hnumber
    cases hnull : value.isNull with
    | false => rfl
    | true =>
        rw [JsonValue.asF64_of_isNull hnull] at hnumber
        cases hnumber
  · intro hpresent key hkey
    obtain ⟨value, hvalue, hcases⟩ := fixedValuesAreZero_cases h hkey
    rw [hvalue, Option.bind_some]
    rcases hcases with ⟨hnull, hcomplete⟩ | hzero
    · have hfalse := hpresent hcomplete key hkey value hvalue
      rw [hnull] at hfalse
      cases hfalse
    · exact hzero

/-! ### What the reader checks -/

theorem parseRemaining_of_public {value : JsonValue} {remaining : Option ℚ}
    (h : value.isNull = true ∧ remaining = none ∨
      ∃ percent, value.asF64 = some percent ∧ (0 ≤ percent ∧ percent ≤ 100) ∧
        remaining = some percent) :
    parseRemaining value = some remaining := by
  rcases h with ⟨hnull, rfl⟩ | ⟨percent, hnumber, hrange, rfl⟩
  · unfold parseRemaining
    rw [if_pos hnull]
  · have hpresent : ¬ value.isNull = true := by
      intro hnull
      rw [JsonValue.asF64_of_isNull hnull] at hnumber
      cases hnumber
    unfold parseRemaining
    rw [if_neg hpresent, hnumber]
    simp [hrange]

/-- The reader takes the flag of a checked document exactly when the fixed values are zero. -/
theorem parseEmptyModelSet_iff {members : Members} (hchecked : checkEmptyModelSet members = .ok ())
    {source : HistoryModelSource} (hsource : sourceText members = some source.asStr)
    (flag : Option Bool) :
    parseEmptyModelSet members source = some flag ↔
      flag = emptyFlag members ∧ (emptyFlag members = some false →
        ∀ key ∈ fixedKeys, ∀ value ∈ JsonValue.member members key, value.isNull = false) := by
  have hkey : ("empty_model_set_complete".toList : Text) = emptyModelSetCompleteKey := rfl
  unfold parseEmptyModelSet emptyFlag
  rw [hkey]
  rcases checkEmptyModelSet_ok hchecked with hnone | ⟨value, complete, hvalue, hcomplete, hflag⟩
  · rw [hnone]
    constructor
    · intro h
      exact ⟨(Option.some.inj h).symm, fun hfalse => nomatch hfalse⟩
    · rintro ⟨rfl, -⟩
      rfl
  · have hnamed : source ≠ .unavailable := by
      rintro rfl
      exact hflag.source hsource
    have hrefuses : (source = .unavailable ∨ (fixedKeys.any fun key =>
        decide ((JsonValue.member members key).bind JsonValue.asF64 ≠ some 0)) = true) ↔
        ¬ (complete = false → ∀ key ∈ fixedKeys, ∀ value ∈ JsonValue.member members key,
          value.isNull = false) := by
      rw [any_ne_zero_iff, allZero_iff hflag.zero]
      simp only [hnamed, false_or]
    rw [hvalue, Option.bind_some, hcomplete]
    show (value.asBool >>= fun complete => _) = some flag ↔ _
    rw [hcomplete]
    show (if _ then none else some (some complete)) = some flag ↔ _
    rw [if_congr hrefuses rfl rfl]
    cases complete with
    | true =>
        rw [if_neg (not_not.mpr fun htrue => nomatch htrue)]
        constructor
        · intro h
          exact ⟨(Option.some.inj h).symm, fun htrue => nomatch htrue⟩
        · rintro ⟨rfl, -⟩
          rfl
    | false =>
        by_cases hpresent : ∀ key ∈ fixedKeys, ∀ value ∈ JsonValue.member members key,
            value.isNull = false
        · rw [if_neg (not_not.mpr fun _ => hpresent)]
          constructor
          · intro h
            exact ⟨(Option.some.inj h).symm, fun _ => hpresent⟩
          · rintro ⟨rfl, -⟩
            rfl
        · rw [if_pos fun h => hpresent (h rfl)]
          constructor
          · intro h
            cases h
          · rintro ⟨-, h⟩
            exact absurd (h rfl) hpresent

/-- The reader's checks on a checked document with public times. -/
theorem parseMembers_eq_some_iff {members : Members} {timestamp resetAt : Int}
    {remaining : Option ℚ} (hchecked : checkMembers members = .ok ())
    (hdocument : PublicDocument members timestamp resetAt remaining)
    (observation : StoredHistoryObservation) :
    parseMembers timestamp members = some observation ↔
      ∃ source, sourceText members = some source.asStr ∧
        ∃ flag, parseEmptyModelSet members source = some flag ∧
        observation = {
          timestamp
          resetAt
          remainingPercent := remaining
          modelSource := source
          emptyModelSetComplete := flag
          quotaOnly := decide (source = .unavailable) && remaining.isSome &&
            fixedKeys.all fun key => (JsonValue.member members key).any JsonValue.isNull } := by
  obtain ⟨hkind, -⟩ := checkMembers_ok hchecked
  obtain ⟨value, hvalue, hpercent⟩ := hdocument.remaining
  have hremaining := parseRemaining_of_public hpercent
  have hpublic : ¬ (timestamp ≠ timestamp ∨ ¬ validTime timestamp = true ∨
      ¬ validTime resetAt = true) := by
    have hreset := hdocument.validReset
    rw [hdocument.validTimestamp, hreset]
    exact fun h => h.elim (fun hne => hne rfl) fun hfalse => hfalse.elim (· rfl) (· rfl)
  have hkind' : ¬ (JsonValue.member members "kind".toList).bind JsonValue.asStr
      ≠ some "codex-info-usage-observation-v1".toList := not_not.mpr hkind
  unfold parseMembers
  rw [if_neg hkind', hdocument.time, hdocument.reset]
  simp only [Option.bind_eq_bind, Option.bind_some]
  rw [if_neg hpublic, hvalue, Option.bind_some, hremaining, Option.bind_some]
  show ((sourceText members).bind _ = _) ↔ _
  simp only [Option.bind_eq_some_iff, Option.pure_def, Option.some.injEq]
  constructor
  · rintro ⟨name, hname, source, hsource, flag, hflag, hresult⟩
    rw [asStr_of_parse hsource] at hname
    exact ⟨source, hname, flag, hflag, hresult.symm⟩
  · rintro ⟨source, hname, flag, hflag, rfl⟩
    exact ⟨source.asStr, hname, source, parse_asStr source, flag, hflag, rfl⟩

/-! ### The main result -/

/-- A document that the writer accepts is kept by the reader exactly when its model source is one
of the four names and it has no absent fixed value beside a flag that says `false`. -/
theorem parseStoredHistoryObservation_keeps_iff (parse : Text → Option JsonValue)
    (snapshotJson : Text) (members : Members)
    (haccepted : validateObservationJson parse snapshotJson = .ok members)
    (timestamp resetAt : Int) (remaining : Option ℚ)
    (hdocument : PublicDocument members timestamp resetAt remaining) :
    Keeps parse snapshotJson members timestamp resetAt remaining ↔ Readable members := by
  obtain ⟨document, hparse, hobject, hchecked⟩ := validateObservationJson_ok haccepted
  obtain ⟨-, hflag⟩ := checkMembers_ok hchecked
  have hread : parseStoredHistoryObservation parse timestamp snapshotJson
      = parseMembers timestamp members := by
    unfold parseStoredHistoryObservation
    rw [hparse]
    simp [hobject]
  unfold Keeps
  rw [hread]
  constructor
  · rintro ⟨observation, hsome, -⟩
    obtain ⟨source, hsource, flag, hempty, -⟩ :=
      (parseMembers_eq_some_iff hchecked hdocument observation).mp hsome
    exact ⟨⟨source, hsource⟩, ((parseEmptyModelSet_iff hflag hsource flag).mp hempty).2⟩
  · rintro ⟨⟨source, hsource⟩, hfixed⟩
    have hempty := (parseEmptyModelSet_iff hflag hsource _).mpr ⟨rfl, hfixed⟩
    exact ⟨_, (parseMembers_eq_some_iff hchecked hdocument _).mpr
      ⟨source, hsource, _, hempty, rfl⟩, rfl, rfl, rfl, hsource, rfl⟩

/-! ### Absent and zero amounts -/

/-- An observation without models, whose amounts are `amount`. -/
def emptyObservation (amount : JsonValue) : Members :=
  [("kind".toList, .string observationJsonKind),
    ("timestamp".toList, .number (.posInt 1791871200)),
    ("reset_at".toList, .number (.posInt 1791900000)),
    ("remaining_percent".toList, .number (.float 50)),
    ("sol_dollars".toList, amount), ("terra_dollars".toList, amount),
    ("luna_dollars".toList, amount), ("sol_tokens".toList, amount),
    ("terra_tokens".toList, amount), ("luna_tokens".toList, amount),
    ("model_source".toList, .string "confirmed".toList),
    (emptyModelSetCompleteKey, .bool false)]

/-- A decoder that reads one document. -/
def readsOnly (members : Members) : Text → Option JsonValue := fun _ => some (.object members)

theorem publicDocument_emptyObservation (amount : JsonValue) :
    PublicDocument (emptyObservation amount) 1791871200 1791900000 (some 50) where
  time := rfl
  reset := rfl
  validTimestamp := rfl
  validReset := rfl
  remaining := ⟨.number (.float 50), rfl, Or.inr ⟨50, rfl, by decide +kernel, rfl⟩⟩

theorem accepted_of_checkMembers {members : Members} (h : checkMembers members = .ok ()) :
    validateObservationJson (readsOnly members) ['x'] = .ok members := by
  unfold validateObservationJson readsOnly
  rw [if_neg (by decide)]
  show (checkMembers members >>= fun _ => _) = _
  rw [h]
  rfl

theorem checkMembers_emptyObservation_zero :
    checkMembers (emptyObservation (.number (.posInt 0))) = .ok () := by
  decide +kernel

theorem checkMembers_emptyObservation_null :
    checkMembers (emptyObservation .null) = .ok () := by
  decide +kernel

/-- With zeros the reader keeps the observation. -/
theorem keeps_zero : Keeps (readsOnly (emptyObservation (.number (.posInt 0)))) ['x']
    (emptyObservation (.number (.posInt 0))) 1791871200 1791900000 (some 50) := by
  refine (parseStoredHistoryObservation_keeps_iff _ _ _
    (accepted_of_checkMembers checkMembers_emptyObservation_zero) _ _ _
    (publicDocument_emptyObservation _)).mpr ⟨⟨.confirmed, rfl⟩, fun _ => ?_⟩
  decide +kernel

/-- With absent values the writer accepts the observation and the reader skips it. -/
theorem not_keeps_null :
    validateObservationJson (readsOnly (emptyObservation .null)) ['x']
        = .ok (emptyObservation .null) ∧
      PublicDocument (emptyObservation .null) 1791871200 1791900000 (some 50) ∧
      ¬ Keeps (readsOnly (emptyObservation .null)) ['x'] (emptyObservation .null)
        1791871200 1791900000 (some 50) := by
  refine ⟨accepted_of_checkMembers checkMembers_emptyObservation_null,
    publicDocument_emptyObservation _, ?_⟩
  rintro ⟨observation, hsome, -⟩
  have hnone : parseStoredHistoryObservation (readsOnly (emptyObservation .null)) 1791871200 ['x']
      = none := by decide +kernel
  rw [hnone] at hsome
  cases hsome

end CodexInfo.Reader.StoredObservation
