import CodexInfo.Proofs.SessionInput.Values
import Mathlib.Data.List.Find

/-!
# `CodexInfo.Proofs.SessionInput.Summaries`: the parser summarizes the tree

The readers of the members follow the functions of `Summarize`, and so do the reader of an object
and that of a whole line.

* `parseKey_follows`: keys.
* `parseObjectValue_reads`: the value of a member, whatever its object and its key.
* `parseObject_follows`: an object, by induction on the depth that is left.
* `parseRecord_follows`: a line.
-/

set_option autoImplicit false

namespace CodexInfo.SessionInput

open CodexInfo.Contract CodexInfo.Writer
open CodexInfo.Lib (ByteProgram Json)
open CodexInfo.Lib.Json
open CodexInfo.Lib.ByteProgram

/-! ### Keys -/

/-- `pushKey` keeps the entries that the scalars so far are the start of. -/
def matchesKey (read : List Char) (entry : Text × SessionJsonKey) : Bool :=
  decide (read <+: entry.1) && read.all fun c => decide (c.toNat < 128)

theorem matchesKey_iff {read : List Char} {entry : Text × SessionJsonKey} :
    matchesKey read entry = true ↔ read <+: entry.1 ∧ ∀ c ∈ read, c.toNat < 128 := by
  simp [matchesKey]

theorem concat_prefix_iff {α : Type} {read l : List α} {c : α} :
    read ++ [c] <+: l ↔ read <+: l ∧ l[read.length]? = some c := by
  constructor
  · rintro ⟨tail, rfl⟩
    exact ⟨⟨c :: tail, by simp⟩, by simp⟩
  · rintro ⟨⟨tail, rfl⟩, hget⟩
    rw [List.getElem?_append_right (Nat.le_refl _), Nat.sub_self] at hget
    cases tail with
    | nil => cases hget
    | cons d tail =>
        obtain rfl := Option.some.inj hget
        exact ⟨tail, by simp⟩

theorem matchesKey_concat (read : List Char) (c : Char) (entry : Text × SessionJsonKey) :
    matchesKey (read ++ [c]) entry
      = (matchesKey read entry && decide (c.toNat < 128 ∧ entry.1[read.length]? = some c)) := by
  rw [Bool.eq_iff_iff, matchesKey_iff, Bool.and_eq_true, matchesKey_iff, decide_eq_true_eq,
    concat_prefix_iff]
  simp only [List.forall_mem_append, List.forall_mem_singleton]
  tauto

theorem foldl_pushKey (entries : List (Text × SessionJsonKey)) (read cs : List Char) :
    cs.foldl pushKey (entries.filter (matchesKey read), read.length)
      = (entries.filter (matchesKey (read ++ cs)), (read ++ cs).length) := by
  induction cs generalizing read with
  | nil => simp
  | cons c cs ih =>
      have hstep : pushKey (entries.filter (matchesKey read), read.length) c
          = (entries.filter (matchesKey (read ++ [c])), (read ++ [c]).length) := by
        simp only [pushKey, List.filter_filter, List.length_append, List.length_singleton]
        congr 1
        refine List.filter_congr fun entry _ => ?_
        rw [matchesKey_concat, Bool.and_comm]
      rw [List.foldl_cons, hstep, ih]
      simp

/-- The names of the keys are ASCII. -/
theorem sessionJsonKeys_ascii :
    ∀ entry ∈ sessionJsonKeys, ∀ c ∈ entry.1, c.toNat < 128 := by
  have hall : (sessionJsonKeys.all fun entry => entry.1.all fun c => c.toNat.blt 128) = true := by
    rfl
  intro entry hentry c hc
  have hscalars := List.all_eq_true.mp hall entry hentry
  exact Nat.lt_of_succ_le (Nat.le_of_ble_eq_true (List.all_eq_true.mp hscalars c hc))

theorem keyOf_eq (cs : List Char) :
    ((((cs.foldl pushKey (sessionJsonKeys, 0)).1.find? fun candidate =>
      decide (candidate.1.length = (cs.foldl pushKey (sessionJsonKeys, 0)).2)).map (·.2)).getD
        .other) = keyOf cs := by
  have hstart : sessionJsonKeys.filter (matchesKey []) = sessionJsonKeys := by
    rw [List.filter_eq_self]
    intro entry _
    simp [matchesKey]
  have hfold := foldl_pushKey sessionJsonKeys [] cs
  rw [hstart, List.length_nil, List.nil_append] at hfold
  rw [hfold, keyOf, List.find?_filter]
  refine congrArg
    (fun found : Option (Text × SessionJsonKey) => (found.map fun entry => entry.2).getD .other) ?_
  refine List.find?_congr fun entry hentry => ?_
  rw [Bool.eq_iff_iff]
  simp only [matchesKey_iff, decide_eq_true_eq]
  constructor
  · rintro ⟨⟨hstart, -⟩, hlength⟩
    exact (hstart.eq_of_length hlength.symm).symm
  · rintro rfl
    exact ⟨⟨List.prefix_refl _, sessionJsonKeys_ascii entry hentry⟩, rfl⟩

theorem parseKey_follows {limit turns : Nat} (line : List UInt8) :
    Follows limit keyOf (parseKey turns) (stringTree turns) line := by
  refine .bind_same fun _ rest _ => ?_
  have hrest : Follows limit (fun cs => cs.foldl pushKey (sessionJsonKeys, 0))
      (readString turns pushKey (sessionJsonKeys, 0))
      (readString turns (fun cs c => cs ++ [c]) []) rest := .of_eq (readString_map pushKey _ _ _)
  refine (hrest.bind_pure fun state => ((state.1.find? fun candidate =>
    decide (candidate.1.length = state.2)).map (·.2)).getD .other).congr fun cs _ _ => ?_
  exact keyOf_eq cs

/-! ### Members -/

section
variable {turns room : Nat}

theorem parseGoalValue_reads (hturns : 0 < turns) (key : SessionJsonKey) (goal : GoalShape) :
    Reads u64Max turns room (parseGoalValue turns room key goal) (storeGoalValue key goal) := by
  have hsigned : ∀ nullable, Reads u64Max turns room
      (parseSignedShape turns room nullable >>= fun valid => pure (goal, valid))
      fun t => (goal, signedShape nullable t) := fun nullable =>
    (parseSignedShape_reads hturns nullable).bind_pure fun valid => (goal, valid)
  cases key with
  | threadIdCamel =>
      exact (parseIdentifierValue_reads hturns).bind_pure fun result =>
        ({ goal with threadId := result.1 }, !result.2 && result.1.isSome)
  | objective =>
      exact (parseStringScalarShape_reads hturns 1 4000).bind_pure fun valid => (goal, valid)
  | status =>
      exact (parseTextValue_reads hturns).bind_pure fun result =>
        (goal, !result.2 && result.1.any goalStatuses.contains)
  | tokenBudget => exact hsigned true
  | _ => exact hsigned false

theorem skipValue_pure (hturns : 0 < turns) {α : Type} (a : α) :
    Reads u64Max turns room (skipValue turns room >>= fun _ => pure a) fun _ => a :=
  (skipValue_reads hturns).bind_pure fun _ => a

theorem parseGoalField_reads (hturns : 0 < turns) (key : SessionJsonKey)
    (summary : SessionRecordSummary) :
    Reads u64Max turns room (parseGoalField turns room key summary)
      (storeGoalField key summary) := by
  unfold parseGoalField storeGoalField
  split
  · exact skipValue_pure hturns summary
  · exact (parseGoalValue_reads hturns key summary.payload.noop.goal).bind_pure fun result =>
      summary.withPayload fun payload => { payload with noop.goal := { result.1 with
        seen := insert key result.1.seen
        malformed := if result.2 then result.1.malformed else insert key result.1.malformed } }

theorem parseNoopIdentifier_reads (hturns : 0 < turns) (key : SessionJsonKey)
    (summary : SessionRecordSummary) :
    Reads u64Max turns room (parseNoopIdentifier turns room key summary)
      (storeNoopIdentifier key summary) :=
  (parseIdentifierValue_reads hturns).bind_pure fun result =>
    (if key = .threadIdCamel then summary.withNoop fun noop => { noop with threadId := result.1 }
      else summary,
    !result.2 && (decide (key = .turnIdCamel) || result.1.isSome))

theorem parseNoopTime_reads (hturns : 0 < turns) (key : SessionJsonKey)
    (summary : SessionRecordSummary) :
    Reads u64Max turns room (parseNoopTime turns room key summary) (storeNoopTime key summary) :=
  (parseU64Value_reads hturns).bind_pure fun result =>
    (summary, !result.2 && result.1.all (fun value => decide ((value : Int) ≤ i64Max)) &&
      (decide (key = .startedAtMs) || result.1.isSome))

theorem parseNoopWindow_reads (hturns : 0 < turns) (summary : SessionRecordSummary) :
    Reads u64Max turns room (parseNoopWindow turns room summary) (storeNoopWindow summary) := by
  intro line hline
  have hkind : ∀ t rest, (valueTree turns room).runOn line = some (t, rest) →
      (line.head? = some 0x22 ↔ isString t = true) := fun t rest hrun =>
    (kind_of_value (valueTree_sound hrun).1).2.1
  refine .peek (.ite_left (fun hhead => ?_) fun hhead => ?_)
  · refine ((parseIdentifierValue_reads hturns line hline).bind_pure fun result =>
      (summary, !result.2)).congr fun t rest hrun => ?_
    simp only [storeNoopWindow, (hkind t rest hrun).mp hhead, if_true, Function.comp_apply]
  · refine ((parseU64Value_reads hturns line hline).bind_pure fun result =>
      (summary, !result.2)).congr fun t rest hrun => ?_
    have hstring : isString t = false := Bool.eq_false_iff.mpr (mt (hkind t rest hrun).mpr hhead)
    simp only [storeNoopWindow, hstring, Bool.false_eq_true, if_false, Function.comp_apply]

theorem parseNoopHistory_reads (hturns : 0 < turns) (key : SessionJsonKey)
    (summary : SessionRecordSummary) :
    Reads u64Max turns room (parseNoopHistory turns room key summary)
      (storeNoopHistory key summary) :=
  (parseObjectArrayShape_reads hturns).bind_pure fun result =>
    (if key = .replacementHistory then
        summary.withNoop fun noop => { noop with replacementHistory := result.1 }
      else summary.withNoop fun noop => { noop with replacementMetadata := result.1 }, result.2)

theorem parseResponseId_reads (hturns : 0 < turns) (key : SessionJsonKey) (snapshot : Bool)
    (summary : SessionRecordSummary) :
    Reads u64Max turns room (parseResponseId turns room key snapshot summary)
      (storeResponseIdField key snapshot summary) :=
  (parseIdentifierValue_reads hturns).bind_pure fun result =>
    summary.withPayload fun payload => payload.withResponse snapshot fun response =>
      storeResponseId key result.1
        (if result.2 then
          { response with malformedIdentifiers := insert key response.malformedIdentifiers }
        else response)

theorem parseUsageField_reads (hturns : 0 < turns) (object : SessionJsonObject)
    (key : SessionJsonKey) (summary : SessionRecordSummary) :
    Reads u64Max turns room (parseUsageField turns room object key summary)
      (storeUsageField object key summary) := by
  unfold parseUsageField storeUsageField
  split
  · exact (parseU64Value_reads hturns).bind_pure fun result =>
      summary.withPayload fun payload =>
        payload.withUsage object (storeUsage key result.1 result.2)
  · exact skipValue_pure hturns summary

theorem parseThreadSettingsField_reads (hturns : 0 < turns) (key : SessionJsonKey)
    (summary : SessionRecordSummary) :
    Reads u64Max turns room (parseThreadSettingsField turns room key summary)
      (storeThreadSettingsField key summary) := by
  unfold parseThreadSettingsField storeThreadSettingsField
  split
  · exact (parseModelValue_reads hturns).bind_pure fun result =>
      summary.withPayload fun payload =>
        { payload with
          threadSettingsModelSeen := true
          threadSettingsModel := result.1
          threadSettingsModelMalformed := result.2 }
  · exact skipValue_pure hturns summary

/-! ### Members that are objects -/

/-- A reader of objects that does what `store` says. -/
def ReadsObjects (turns room : Nat) (parseObject : ObjectReader) (store : ObjectStore) : Prop :=
  ∀ object summary line, Follows u64Max (fun members => store object members summary)
    (parseObject object summary) (objectTree turns room) line

section
variable {parseObject : ObjectReader} {store : ObjectStore}

/-- A reader that has a case of its own for objects. -/
theorem reads_of_object {α : Type} {object other : ByteProgram α} {f : Fields → α} {g : Json → α}
    (hobject : ∀ line, Follows u64Max f object (objectTree turns room) line)
    (hother : Reads u64Max turns room other g) :
    Reads u64Max turns room (peekByte >>= fun byte => if byte = some 0x7b then object else other)
      fun t => match t with
        | .object members => f members
        | t => g t := by
  intro line hline
  refine .peek (.ite_left (fun hhead => ?_) fun hhead => ?_)
  · exact ((hobject line).map_right (g := Json.object)).of_runOn_eq rfl (valueTree_object hhead)
  · refine (hother line hline).congr fun t rest hrun => ?_
    have hkind := (kind_of_value (valueTree_sound hrun).1).2.2.1
    cases t with
    | object members => exact absurd (hkind.mpr rfl) hhead
    | _ => rfl

theorem parseObjectOr_reads (hobjects : ReadsObjects turns room parseObject store)
    (hturns : 0 < turns) (object : SessionJsonObject) (isObject other : SessionRecordSummary) :
    Reads u64Max turns room (parseObjectOr turns room parseObject object isObject other)
      (storeObjectOr store object isObject other) := by
  have h := reads_of_object (hobjects object isObject) (skipValue_pure hturns other)
  refine fun line hline => (h line hline).congr fun t _ _ => ?_
  cases t <;> rfl

theorem parseCounter_reads (hobjects : ReadsObjects turns room parseObject store)
    (hturns : 0 < turns) (object : SessionJsonObject) (isObject other : SessionRecordSummary) :
    Reads u64Max turns room (parseCounter turns room parseObject object isObject other)
      (storeCounter store object isObject other) := by
  have h := reads_of_object
    (fun line => (hobjects object isObject line).bind_pure fun summary =>
      summary.withPayload fun payload => payload.withUsage object closeUsage)
    (skipValue_pure hturns (other.withPayload fun payload =>
      payload.withUsage object fun usage => { usage with malformed := true }))
  refine fun line hline => (h line hline).congr fun t _ _ => ?_
  cases t <;> rfl

theorem parseNoopGoal_reads (hobjects : ReadsObjects turns room parseObject store)
    (hturns : 0 < turns) (summary : SessionRecordSummary) :
    Reads u64Max turns room (parseNoopGoal turns room parseObject summary)
      (storeNoopGoal store summary) := by
  have h := reads_of_object
    (fun line => (hobjects .goal (summary.withNoop fun noop => { noop with goal := {} })
      line).bind_pure fun summary => (summary, true))
    (skipValue_pure hturns (summary.withNoop fun noop => { noop with goal := {} }, false))
  refine fun line hline => ((h line hline).of_runOn_eq ?_ rfl).congr fun t _ _ => ?_
  · simp only [parseNoopGoal, runOn_bind, runOn_peekByte, Option.bind_some, decide_eq_true_eq]
  · cases t <;> rfl

theorem parseNoopValue_reads (hobjects : ReadsObjects turns room parseObject store)
    (hturns : 0 < turns) (key : SessionJsonKey) (summary : SessionRecordSummary) :
    Reads u64Max turns room (parseNoopValue turns room parseObject key summary)
      (storeNoopValue store key summary) := by
  have hstart : ∀ {starts : List UInt8} {f : Json → Bool},
      Reads u64Max turns room (skipStartingWith turns room starts) f →
        Reads u64Max turns room (skipStartingWith turns room starts >>= fun valid =>
          pure (summary, valid)) fun t => (summary, f t) := fun h =>
    h.bind_pure fun valid => (summary, valid)
  have hidentifier : Reads u64Max turns room (parseIdentifierValue turns room >>= fun result =>
      pure (summary, !result.2)) fun t => (summary, !(identifierValue t).2) :=
    (parseIdentifierValue_reads hturns).bind_pure fun result => (summary, !result.2)
  have hwindow : Reads u64Max turns room (parseU64Value turns room >>= fun result =>
      pure (summary, !result.2)) fun t => (summary, !(u64Value t).2) :=
    (parseU64Value_reads hturns).bind_pure fun result => (summary, !result.2)
  cases key with
  | message => exact hstart (skipStartingWith_string hturns)
  | text => exact hstart (skipStartingWith_string hturns)
  | itemId => exact hstart (skipStartingWith_string hturns)
  | full => exact hstart (skipStartingWith_bool hturns)
  | triggerTurn => exact hstart (skipStartingWith_bool hturns)
  | state => exact skipValue_pure hturns (summary, true)
  | item => exact hstart (skipStartingWith_object hturns)
  | threadIdCamel => exact parseNoopIdentifier_reads hturns _ summary
  | turnIdCamel => exact parseNoopIdentifier_reads hturns _ summary
  | goal => exact parseNoopGoal_reads hobjects hturns summary
  | summaryIndex =>
      exact (parseSignedShape_reads hturns false).bind_pure fun valid => (summary, valid)
  | startedAtMs => exact parseNoopTime_reads hturns _ summary
  | completedAtMs => exact parseNoopTime_reads hturns _ summary
  | windowNumber => exact hwindow
  | firstWindowId => exact hidentifier
  | previousWindowId => exact hidentifier
  | windowId => exact parseNoopWindow_reads hturns summary
  | _ => exact parseNoopHistory_reads hturns _ summary

theorem parseNoopField_reads (hobjects : ReadsObjects turns room parseObject store)
    (hturns : 0 < turns) (key : SessionJsonKey) (summary : SessionRecordSummary) :
    Reads u64Max turns room (parseNoopField turns room parseObject key summary)
      (storeNoopField store key summary) :=
  (parseNoopValue_reads hobjects hturns key summary).bind_pure fun result =>
    result.1.withNoop fun noop => noop.field key result.2

theorem parseResponseUsage_reads (hobjects : ReadsObjects turns room parseObject store)
    (hturns : 0 < turns) (key : SessionJsonKey) (snapshot : Bool)
    (summary : SessionRecordSummary) :
    Reads u64Max turns room (parseResponseUsage turns room parseObject key snapshot summary)
      (storeResponseUsage store key snapshot summary) :=
  parseObjectOr_reads hobjects hturns (usageObject key snapshot) _ _

theorem parseResponseField_reads (hobjects : ReadsObjects turns room parseObject store)
    (hturns : 0 < turns) (key : SessionJsonKey) (snapshot : Bool)
    (summary : SessionRecordSummary) :
    Reads u64Max turns room (parseResponseField turns room parseObject key snapshot summary)
      (storeResponseField store key snapshot summary) := by
  cases key with
  | threadId => exact parseResponseId_reads hturns _ snapshot summary
  | sessionId => exact parseResponseId_reads hturns _ snapshot summary
  | turnId => exact parseResponseId_reads hturns _ snapshot summary
  | rootTurnId => exact parseResponseId_reads hturns _ snapshot summary
  | responseId => exact parseResponseId_reads hturns _ snapshot summary
  | usage => exact parseResponseUsage_reads hobjects hturns _ snapshot summary
  | turnTokenUsage => exact parseResponseUsage_reads hobjects hturns _ snapshot summary
  | threadTokenUsage => exact parseResponseUsage_reads hobjects hturns _ snapshot summary
  | _ => exact skipValue_pure hturns summary

/-- A reader that looks whether the value is `null`. -/
theorem reads_of_null {α : Type} {p : Bool → ByteProgram α} {f : Bool → Json → α}
    (h : ∀ null, Reads u64Max turns room (p null) (f null)) :
    Reads u64Max turns room (peekByte >>= fun byte => p (decide (byte = some 0x6e)))
      fun t => f (isNull t) t := by
  intro line hline
  refine .peek ((h _ line hline).congr fun t rest hrun => ?_)
  have hkind : decide (line.head? = some 0x6e) = isNull t := by
    rw [Bool.eq_iff_iff, decide_eq_true_iff]
    exact (kind_of_value (valueTree_sound hrun).1).1
  rw [hkind]

theorem parseRootField_reads (hobjects : ReadsObjects turns room parseObject store)
    (hturns : 0 < turns) (key : SessionJsonKey) (summary : SessionRecordSummary) :
    Reads u64Max turns room (parseRootField turns room parseObject key summary)
      (storeRootField store key summary) := by
  cases key with
  | type =>
      exact (parseTextValue_reads hturns).bind_pure fun result =>
        { summary with outerType := result.1 }
  | metadata =>
      refine skipValue_by (g := fun byte => { summary with
        responseMetadataSeen := true
        responseMetadataNull := decide (byte = some 0x6e)
        responseMetadataObject := decide (byte = some 0x7b) }) hturns ?_
      intro line t rest hvalue
      obtain ⟨hnull, -, hobject, -⟩ := kind_of_value hvalue
      simp only [storeRootField, hnull, hobject, Bool.decide_eq_true]
  | ordinal =>
      exact (parseU64Value_reads hturns).bind_pure fun result =>
        { summary with
          ordinalSeen := true
          ordinalMalformed := summary.ordinalMalformed || result.2 }
  | timestamp =>
      exact (parseTextValue_reads hturns).bind_pure fun result =>
        { summary with
          timestampSeen := true, timestamp := result.1, timestampMalformed := result.2 }
  | model =>
      exact (parseModelValue_reads hturns).bind_pure fun result =>
        { summary with
          rootModelSeen := true, rootModel := result.1, rootModelMalformed := result.2 }
  | payload => exact parseObjectOr_reads hobjects hturns .payload _ _
  | _ => exact skipValue_pure hturns { summary with unknownEnvelopeField := true }

theorem parsePayloadValue_reads (sha256 : Text → Text)
    (hobjects : ReadsObjects turns room parseObject store) (hturns : 0 < turns)
    (key : SessionJsonKey) (summary : SessionRecordSummary) :
    Reads u64Max turns room (parsePayloadValue turns room sha256 parseObject key summary)
      (storePayloadValue sha256 store key summary) := by
  cases key with
  | role =>
      exact (parseTextValue_reads hturns).bind_pure fun result =>
        summary.withNoop fun noop =>
          { noop with
            roleSeen := true
            roleIsString := result.1.isSome
            roleIsUser := !result.2 && decide (result.1 = some "user".toList) }
  | id =>
      exact (parseIdentifierValue_reads hturns).bind_pure fun result =>
        summary.withPayload fun payload =>
          { payload with metadataId := result.1, metadataIdMalformed := result.2 }
  | creatorAccountId =>
      exact (parseIdentifierValue_reads hturns).bind_pure fun result =>
        summary.withPayload fun payload =>
          { payload with
            creatorAccountSha256 :=
              (result.1.filter fun _ => !result.2).map fun value => sha256 value.val }
  | forkedFromId =>
      exact (parseIdentifierValue_reads hturns).bind_pure fun result =>
        summary.withPayload fun payload =>
          { payload with forkedFromId := result.1, forkedFromIdMalformed := result.2 }
  | latestTokenUsageRecord =>
      refine fun line hline => ((reads_of_null (fun null => parseObjectOr_reads hobjects hturns
        .responseSnapshot
        (summary.withPayload fun payload =>
          { payload with snapshotNonNull := !null, snapshot := {} })
        (summary.withPayload fun payload =>
          { payload with snapshotNonNull := !null, snapshot := {} })) line hline).of_runOn_eq ?_ rfl)
      simp only [parsePayloadValue, runOn_bind, runOn_peekByte, Option.bind_some, ne_eq,
        decide_not]
  | type =>
      exact (parseTextValue_reads hturns).bind_pure fun result =>
        summary.withPayload fun payload =>
          { payload with
            eventTypeSeen := true, eventType := result.1, eventTypeMalformed := result.2 }
  | model =>
      exact (parseModelValue_reads hturns).bind_pure fun result =>
        summary.withPayload fun payload =>
          { payload with modelSeen := true, model := result.1, modelMalformed := result.2 }
  | threadSettings => exact parseObjectOr_reads hobjects hturns .threadSettings _ _
  | historyBase =>
      refine skipValue_by (g := fun byte => summary.withPayload fun payload =>
        { payload with
          historyBaseSeen := true, historyBaseNonNull := decide (byte ≠ some 0x6e) }) hturns ?_
      intro line t rest hvalue
      have hnull := (kind_of_value hvalue).1
      simp only [storePayloadValue, ne_eq, decide_not, hnull, Bool.decide_eq_true]
  | info =>
      exact reads_of_null fun null => parseObjectOr_reads hobjects hturns .info
        (summary.withPayload (resetInfo · null true)) (summary.withPayload (resetInfo · null false))
  | _ => exact skipValue_pure hturns summary

theorem parsePayloadField_reads (sha256 : Text → Text)
    (hobjects : ReadsObjects turns room parseObject store) (hturns : 0 < turns)
    (key : SessionJsonKey) (summary : SessionRecordSummary) :
    Reads u64Max turns room (parsePayloadField turns room sha256 parseObject key summary)
      (storePayloadField sha256 store key summary) := by
  unfold parsePayloadField storePayloadField
  split
  · exact parseNoopField_reads hobjects hturns key summary
  · split
    · exact parseResponseField_reads hobjects hturns key false summary
    · exact parsePayloadValue_reads sha256 hobjects hturns key summary

theorem parseInfoField_reads (hobjects : ReadsObjects turns room parseObject store)
    (hturns : 0 < turns) (key : SessionJsonKey) (summary : SessionRecordSummary) :
    Reads u64Max turns room (parseInfoField turns room parseObject key summary)
      (storeInfoField store key summary) := by
  cases key with
  | totalTokenUsage => exact parseCounter_reads hobjects hturns .tokenUsage _ _
  | lastTokenUsage =>
      exact reads_of_null fun null => parseCounter_reads hobjects hturns .lastTokenUsage
        (summary.withPayload fun payload =>
          { payload with
            lastTokenUsageSeen := true
            lastTokenUsageNull := null
            lastTokenUsageObject := true
            lastTokenUsage := {} })
        (summary.withPayload fun payload =>
          { payload with
            lastTokenUsageSeen := true
            lastTokenUsageNull := null
            lastTokenUsageObject := false
            lastTokenUsage := {} })
  | modelContextWindow =>
      exact (parseU64Value_reads hturns).bind_pure fun result =>
        summary.withPayload fun payload =>
          { payload with
            contextWindowSeen := true
            contextWindow := result.1
            contextWindowMalformed := result.2 }
  | _ => exact skipValue_pure hturns summary

/-- The value of every member of every object is summarized. -/
theorem parseObjectValue_reads (sha256 : Text → Text)
    (hobjects : ReadsObjects turns room parseObject store) (hturns : 0 < turns)
    (object : SessionJsonObject) (key : SessionJsonKey) (summary : SessionRecordSummary) :
    Reads u64Max turns room (parseObjectValue turns room sha256 parseObject object key summary)
      (storeObjectValue sha256 store object key summary) := by
  cases object with
  | root => exact parseRootField_reads hobjects hturns key summary
  | payload => exact parsePayloadField_reads sha256 hobjects hturns key summary
  | threadSettings => exact parseThreadSettingsField_reads hturns key summary
  | info => exact parseInfoField_reads hobjects hturns key summary
  | goal => exact parseGoalField_reads hturns key summary
  | responseSnapshot => exact parseResponseField_reads hobjects hturns key true summary
  | _ => exact parseUsageField_reads hturns _ key summary

end

end

/-! ### Objects and records -/

section
variable {turns : Nat} (sha256 : Text → Text)

/-- A member of an object: its key, then its value. -/
theorem parseMember_follows {room : Nat} {object : SessionJsonObject}
    {value : SessionJsonKey → SessionRecordSummary → ByteProgram SessionRecordSummary}
    {store : SessionJsonKey → SessionRecordSummary → Json → SessionRecordSummary}
    (hvalue : ∀ key summary, Reads u64Max turns room (value key summary) (store key summary))
    (state : ObjectState) (line : List UInt8) :
    Follows u64Max (storeMember object store state) (parseMember turns object value state)
      (memberTree turns (valueTree turns room)) line := by
  refine (parseKey_follows line).bind fun name rest _ => ?_
  refine .bind_same fun _ _ _ => .bind_same fun _ rest _ => ?_
  refine .bind_same fun _ after hspace => ?_
  have hstop : NoSpace after := (skipWhitespace_sound hspace).2
  refine Follows.map_right (g := fun t => (name, t)) ?_
  exact (hvalue _ _ after hstop).bind_pure fun summary =>
    (summary, (observeKey object (keyOf name) state).2)

/-- An object with its members is summarized member by member. -/
theorem parseObject_follows (hturns : 0 < turns) (room : Nat) :
    ReadsObjects turns room (parseObject turns sha256 room) (storeObject sha256 room) := by
  induction room with
  | zero => exact fun _ _ _ => .fail
  | succ room ih =>
      intro object summary line
      have hvalue := parseObjectValue_reads sha256 ih hturns object
      refine .bind_same fun _ rest _ => ?_
      have hitems : Follows u64Max
          (fun members : Fields => members.foldl
            (storeMember object (storeObjectValue sha256 (storeObject sha256 room) object))
            (summary, ∅))
          (readItems turns 0x7d (parseMember turns object
            (parseObjectValue turns room sha256 (parseObject turns sha256 room) object))
            (summary, ∅))
          (readItems turns 0x7d (fun members => memberTree turns (valueTree turns room) >>=
            fun member => pure (members ++ [member])) []) rest := by
        refine readItems_follows (f := fun members : Fields => members.foldl
          (storeMember object (storeObjectValue sha256 (storeObject sha256 room) object))
          (summary, ∅)) ?_ [] rest
        intro members line _
        refine Follows.map_right (g := fun member => members ++ [member]) ?_
        refine (parseMember_follows hvalue _ line).congr fun member _ _ => ?_
        simp
      exact hitems.bind_pure (·.1)

theorem skipArray_follows (hturns : 0 < turns) (room : Nat) (line : List UInt8) :
    Follows u64Max (fun _ => ()) (skipArray turns room) (arrayTree turns room) line := by
  cases room with
  | zero => exact .fail
  | succ room => exact skipArrayWith_follows (skipValue_follows hturns) hturns line

/-- The value of a record: an object is summarized, any other value says nothing. -/
theorem recordValue_reads (hturns : 0 < turns) (room : Nat) :
    Reads u64Max turns room (peekByte >>= fun byte =>
      if byte = some 0x7b then parseObject turns sha256 room .root {}
      else if byte = some 0x5b then skipArray turns room >>= fun _ => pure {}
      else if byte.isSome then skipValue turns room >>= fun _ => pure {}
      else fail) (storeObjectOr (storeObject sha256 room) .root {} {}) := by
  intro line hline
  refine .peek (.ite_left (fun hhead => ?_) fun hobject => .ite_left (fun hhead => ?_) fun harray =>
    .ite_left (fun _ => ?_) fun hnone => ?_)
  · exact ((parseObject_follows sha256 hturns room .root {} line).map_right
      (g := Json.object)).of_runOn_eq rfl (valueTree_object hhead)
  · have harray : Follows u64Max (storeObjectOr (storeObject sha256 room) .root {} {} ∘ Json.array)
        (skipArray turns room >>= fun _ => pure {}) (arrayTree turns room) line :=
      (skipArray_follows hturns room line).bind_pure fun _ => ({} : SessionRecordSummary)
    exact harray.map_right.of_runOn_eq rfl (valueTree_array hhead)
  · refine (skipValue_pure hturns ({} : SessionRecordSummary) line hline).congr fun t rest hrun => ?_
    have hkind := (kind_of_value (valueTree_sound hrun).1).2.2.1
    cases t with
    | object members => exact absurd (hkind.mpr rfl) hobject
    | _ => rfl
  · cases line with
    | nil =>
        refine .of_eq ?_
        rw [valueTree_eq]
        rfl
    | cons b line => exact absurd rfl hnone

/-- A line is summarized as its document. Over a line longer than 64 bits it may fail. -/
theorem parseRecord_follows (hturns : 0 < turns) (line : List UInt8) :
    Follows u64Max (summarize sha256) (parseRecord turns sha256) (documentTree turns maxDepth)
      line := by
  have hfollows : Follows u64Max (summarize sha256)
      (skipWhitespace turns >>= fun _ => (peekByte >>= fun byte =>
        if byte = some 0x7b then parseObject turns sha256 maxDepth .root {}
        else if byte = some 0x5b then skipArray turns maxDepth >>= fun _ => pure {}
        else if byte.isSome then skipValue turns maxDepth >>= fun _ => pure {}
        else fail) >>= fun summary => skipWhitespace turns >>= fun _ => peekByte >>= fun byte =>
          if byte.isSome then fail else pure (closeRecord summary))
      (documentTree turns maxDepth) line := by
    refine .bind_same fun _ rest hspace => ?_
    have hstop : NoSpace rest := (skipWhitespace_sound hspace).2
    refine (recordValue_reads sha256 hturns maxDepth rest hstop).bind fun t after _ => ?_
    exact .bind_same fun _ after _ => .peek (.ite Iff.rfl (fun _ => .fail) fun _ => .pure t)
  refine hfollows.of_runOn_eq ?_ rfl
  simp only [parseRecord, runOn_bind]
  congr 1
  funext start
  simp only [runOn_peekByte, Option.bind_some]
  split_ifs
  all_goals simp only [runOn_bind, runOn_peekByte, runOn_pure, runOn_fail, Option.bind_assoc,
    Option.bind_some, Option.bind_none]

end

end CodexInfo.SessionInput
