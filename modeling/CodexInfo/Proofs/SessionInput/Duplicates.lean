import CodexInfo.Proofs.SessionInput.Admission

/-!
# `CodexInfo.Proofs.SessionInput.Duplicates`: no counter from a repeated field

The last member of a name wins, and a mark remembers that a name was repeated. A mark is never
taken back, so a record without marks at its end had each name at most once, and what it says is
what that one member says.

* `storeObject_related`: what every member keeps, an object keeps.
* `Single`, `Single.once`: a name that is not marked, and its value.
* `counter_not_duplicated`: the counter of a record that is used.
-/

set_option autoImplicit false

namespace CodexInfo.SessionInput

open CodexInfo.Contract CodexInfo.Writer
open CodexInfo.Lib (Json)
open CodexInfo.Lib.Json

/-! ### Names and keys -/

/-- The values of the members of this name. -/
def membersNamed (name : String) (members : Fields) : List Json :=
  (members.filter fun member => decide (member.1 = name.toList)).map (·.2)

/-- The values of the members of a known key. -/
def valuesAt (key : SessionJsonKey) (members : Fields) : List Json :=
  (members.filter fun member => decide (keyOf member.1 = key)).map (·.2)

theorem nodup_keys : (sessionJsonKeys.map (·.2)).Nodup := by decide

theorem nodup_names : (sessionJsonKeys.map (·.1)).Nodup := by decide +kernel

theorem ne_other_of_mem {entry : Text × SessionJsonKey} (h : entry ∈ sessionJsonKeys) :
    entry.2 ≠ .other := by
  have hall : ∀ key ∈ sessionJsonKeys.map (·.2), key ≠ .other := by decide
  exact hall _ (List.mem_map_of_mem h)

/-- A known key has one name. -/
theorem keyOf_eq_iff {name : Text} {key : SessionJsonKey} (h : (name, key) ∈ sessionJsonKeys)
    (cs : List Char) : keyOf cs = key ↔ cs = name := by
  have hfst := List.inj_on_of_nodup_map nodup_names
  have hsnd := List.inj_on_of_nodup_map nodup_keys
  unfold keyOf
  cases hfind : sessionJsonKeys.find? fun entry => decide (entry.1 = cs) with
  | none =>
      have hnone := List.find?_eq_none.mp hfind _ h
      refine iff_of_false (fun hother => ne_other_of_mem h hother.symm) fun hcs => ?_
      exact hnone (decide_eq_true hcs.symm)
  | some entry =>
      have hmem := List.mem_of_find?_eq_some hfind
      have hcs : entry.1 = cs := by simpa using List.find?_some hfind
      constructor
      · intro hkey
        exact hcs.symm.trans (congrArg Prod.fst (hsnd hmem h hkey))
      · intro hname
        exact congrArg Prod.snd (hfst hmem h (hcs.trans hname))

theorem valuesAt_eq (name : String) {key : SessionJsonKey}
    (h : (name.toList, key) ∈ sessionJsonKeys) (members : Fields) :
    valuesAt key members = membersNamed name members := by
  unfold valuesAt membersNamed
  simp only [keyOf_eq_iff h]

/-! ### Relations that objects keep -/

section
variable {sha256 : Text → Text} {R : SessionRecordSummary → SessionRecordSummary → Prop}

/-- A relation kept by the marks and the values of some kinds of objects is kept by them. -/
theorem storeObject_related (hrefl : ∀ s, R s s) (htrans : ∀ {s s' s''}, R s s' → R s' s'' → R s s'')
    (objects : SessionJsonObject → Prop)
    (hobserve : ∀ object key s, objects object → R s (s.observeDuplicate object key))
    (hvalue : ∀ store : ObjectStore, (∀ object members s, objects object →
        R s (store object members s)) → ∀ object key s t, objects object →
      R s (storeObjectValue sha256 store object key s t)) (room : Nat) :
    ∀ object members s, objects object → R s (storeObject sha256 room object members s) := by
  induction room with
  | zero => exact fun _ _ s _ => hrefl s
  | succ room ih =>
      intro object members s hobject
      suffices h : ∀ state : ObjectState, R state.1 (members.foldl (storeMember object
          (storeObjectValue sha256 (storeObject sha256 room) object)) state).1 from h (s, ∅)
      induction members with
      | nil => exact fun state => hrefl state.1
      | cons member members hmembers =>
          intro state
          refine htrans ?_ (hmembers _)
          have hkey : R state.1 (observeKey object (keyOf member.1) state).1 := by
            unfold observeKey
            split
            · exact hrefl _
            · dsimp only
              split
              · exact hobserve _ _ _ hobject
              · exact hrefl _
          exact htrans hkey (hvalue _ ih object _ _ _ hobject)

end

/-! ### What a member keeps -/

section
variable {R : SessionRecordSummary → SessionRecordSummary → Prop} {store : ObjectStore}

theorem storeObjectOr_related (htrans : ∀ {s s' s''}, R s s' → R s' s'' → R s s'')
    {object : SessionJsonObject} (hstore : ∀ members s, R s (store object members s))
    {s isObject other : SessionRecordSummary} (hobject : R s isObject) (hother : R s other)
    (t : Json) : R s (storeObjectOr store object isObject other t) := by
  cases t with
  | object members => exact htrans hobject (hstore members _)
  | _ => exact hother

variable (hrefl : ∀ s, R s s) (htrans : ∀ {s s' s''}, R s s' → R s' s'' → R s s'')

include htrans hrefl in
theorem storeNoopField_related (hnoop : ∀ (s : SessionRecordSummary) f, R s (s.withNoop f))
    (hstore : ∀ members s, R s (store .goal members s)) (key : SessionJsonKey)
    (s : SessionRecordSummary) (t : Json) : R s (storeNoopField store key s t) := by
  have hidentifier : R s (storeNoopIdentifier key s t).1 := by
    unfold storeNoopIdentifier
    dsimp only
    split
    · exact hnoop s _
    · exact hrefl s
  have hgoal : R s (storeNoopGoal store s t).1 := by
    have hempty := hnoop s fun noop => { noop with goal := {} }
    unfold storeNoopGoal
    exact storeObjectOr_related (R := R) htrans hstore hempty hempty t
  have hwindow : R s (storeNoopWindow s t).1 := hrefl s
  have hhistory : R s (storeNoopHistory key s t).1 := by
    unfold storeNoopHistory
    dsimp only
    split
    · exact hnoop s _
    · exact hnoop s _
  have hvalue : R s (storeNoopValue store key s t).1 := by
    unfold storeNoopValue
    split
    all_goals first | exact hrefl s | exact hidentifier | exact hgoal | exact hhistory
  unfold storeNoopField
  exact htrans hvalue (hnoop _ _)

include htrans hrefl in
theorem storeResponseField_related {snapshot : Bool}
    (hresponse : ∀ (s : SessionRecordSummary) f, R s (s.withPayload (·.withResponse snapshot f)))
    (hstore : ∀ key members s, R s (store (usageObject key snapshot) members s))
    (key : SessionJsonKey) (s : SessionRecordSummary) (t : Json) :
    R s (storeResponseField store key snapshot s t) := by
  have hid : R s (storeResponseIdField key snapshot s t) := by
    unfold storeResponseIdField
    exact hresponse s _
  have husage : ∀ (s : SessionRecordSummary) f,
      R s (s.withPayload (·.withUsage (usageObject key snapshot) f)) := by
    intro s f
    unfold usageObject
    split
    · exact hresponse s fun response => { response with usage := f response.usage }
    · exact hresponse s fun response => { response with turnUsage := f response.turnUsage }
    · exact hresponse s fun response => { response with threadUsage := f response.threadUsage }
  have hobject : R s (storeResponseUsage store key snapshot s t) := by
    have hempty := husage s fun _ => {}
    unfold storeResponseUsage
    exact storeObjectOr_related (R := R) htrans (hstore key) hempty (htrans hempty (husage _ _)) t
  unfold storeResponseField
  split
  all_goals first | exact hid | exact hobject | exact hrefl s

include hrefl htrans in
/-- What the fields of a record without effect and those of a response keep, and what the member
with a field of its own keeps, a member of the payload keeps. -/
theorem storePayloadField_related {sha256 : Text → Text} {key : SessionJsonKey}
    {s : SessionRecordSummary} {t : Json}
    (hnoop : ∀ (s : SessionRecordSummary) f, R s (s.withNoop f))
    (hresponse : ∀ (s : SessionRecordSummary) f, R s (s.withPayload (·.withResponse false f)))
    (hstore : ∀ object members s, object ≠ .root → object ≠ .payload → object ≠ .info →
      object ≠ .tokenUsage → R s (store object members s))
    (hvalue : R s (storePayloadValue sha256 store key s t)) :
    R s (storePayloadField sha256 store key s t) := by
  unfold storePayloadField
  split
  · exact storeNoopField_related hrefl htrans hnoop
      (fun members s => hstore _ members s (by decide) (by decide) (by decide) (by decide)) key s t
  · split
    · refine storeResponseField_related hrefl htrans hresponse (fun key members s => ?_) key s t
      unfold usageObject
      split
      all_goals exact hstore _ members s nofun nofun nofun nofun
    · exact hvalue

include hrefl htrans in
/-- What every update of a payload keeps, a member below the record keeps. -/
theorem storeObjectValue_related (sha256 : Text → Text)
    (hpayload : ∀ (s : SessionRecordSummary) f, R s (s.withPayload f))
    (hstore : ∀ object members s, object ≠ .root → R s (store object members s))
    {object : SessionJsonObject} (hobject : object ≠ .root) (key : SessionJsonKey)
    (s : SessionRecordSummary) (t : Json) :
    R s (storeObjectValue sha256 store object key s t) := by
  have hor : ∀ object isObject other, object ≠ .root → R s isObject → R s other →
      R s (storeObjectOr store object isObject other t) := fun object _ _ hobject h h' =>
    storeObjectOr_related (R := R) htrans (fun members s => hstore object members s hobject) h h' t
  have hvalue : R s (storePayloadValue sha256 store key s t) := by
    unfold storePayloadValue
    split
    case h_5 => exact hor _ _ _ (by decide) (hpayload s _) (hpayload s _)
    case h_8 => exact hor _ _ _ (by decide) (hpayload s _) (hpayload s _)
    case h_10 => exact hor _ _ _ (by decide) (hpayload s _) (hpayload s _)
    case h_11 => exact hrefl s
    all_goals exact hpayload s _
  have hcounter : ∀ object isObject other, object ≠ .root → R s isObject → R s other →
      R s (storeCounter store object isObject other t) := by
    intro object isObject other hobject h h'
    unfold storeCounter
    split
    · exact htrans (htrans h (hstore object _ _ hobject)) (hpayload _ _)
    · exact htrans h' (hpayload _ _)
  have hinfo : R s (storeInfoField store key s t) := by
    unfold storeInfoField
    split
    · exact hcounter _ _ _ (by decide) (hpayload s _) (hpayload s _)
    · exact hcounter _ _ _ (by decide) (hpayload s _) (hpayload s _)
    · exact hpayload s _
    · exact hrefl s
  have hgoal : R s (storeGoalField key s t) := by
    unfold storeGoalField
    split
    · exact hrefl s
    · exact hpayload s _
  have hsettings : R s (storeThreadSettingsField key s t) := by
    unfold storeThreadSettingsField
    split
    · exact hpayload s _
    · exact hrefl s
  have husage : ∀ object, R s (storeUsageField object key s t) := by
    intro object
    unfold storeUsageField
    split
    · exact hpayload s _
    · exact hrefl s
  have husageObject : ∀ key snapshot, usageObject key snapshot ≠ .root := by
    intro key snapshot
    unfold usageObject
    split
    all_goals exact nofun
  unfold storeObjectValue
  cases object with
  | root => exact absurd rfl hobject
  | payload =>
      exact storePayloadField_related hrefl htrans (fun s f => hpayload s _) (fun s f => hpayload s _)
        (fun object members s h _ _ _ => hstore object members s h) hvalue
  | threadSettings => exact hsettings
  | info => exact hinfo
  | goal => exact hgoal
  | responseSnapshot =>
      exact storeResponseField_related hrefl htrans (fun s f => hpayload s _)
        (fun key members s => hstore _ members s (husageObject key true)) key s t
  | tokenUsage | lastTokenUsage => exact husage _
  | responseUsage snapshot | responseTurnUsage snapshot | responseThreadUsage snapshot =>
      exact husage _

end

/-! ### Marks -/

/-- No mark of a repeated name is taken back. -/
structure Grows (s s' : SessionRecordSummary) : Prop where
  root : s.rootDuplicates ⊆ s'.rootDuplicates
  payload : s.payloadDuplicates ⊆ s'.payloadDuplicates
  info : s.infoDuplicates = true → s'.infoDuplicates = true
  counter : s.counterDuplicates = true → s'.counterDuplicates = true

namespace Grows

theorem refl (s : SessionRecordSummary) : Grows s s :=
  ⟨subset_rfl, subset_rfl, fun h => h, fun h => h⟩

theorem trans {s s' s'' : SessionRecordSummary} (h : Grows s s') (h' : Grows s' s'') :
    Grows s s'' :=
  ⟨h.root.trans h'.root, h.payload.trans h'.payload, fun hs => h'.info (h.info hs),
    fun hs => h'.counter (h.counter hs)⟩

theorem withPayload (s : SessionRecordSummary) (f : PayloadSummary → PayloadSummary) :
    Grows s (s.withPayload f) :=
  ⟨subset_rfl, subset_rfl, fun h => h, fun h => h⟩

theorem observe (object : SessionJsonObject) (key : SessionJsonKey) (s : SessionRecordSummary) :
    Grows s (s.observeDuplicate object key) := by
  have hcounter : ∀ object, Grows s (observeCounterDuplicate s object key) := by
    intro object
    have hmark : Grows s
        { s with counterDuplicates := s.counterDuplicates || key.tokenComponent } :=
      ⟨subset_rfl, subset_rfl, fun h => h, fun h => by simp [h]⟩
    unfold observeCounterDuplicate
    dsimp only
    split
    · exact hmark.trans (withPayload _ _)
    · exact hmark
  have husage : ∀ snapshot, Grows s (observeUsageDuplicate s key snapshot) := by
    intro snapshot
    unfold observeUsageDuplicate
    split
    · split
      · exact ⟨subset_rfl, subset_rfl, fun h => h, fun h => h⟩
      · exact ⟨subset_rfl, subset_rfl, fun h => h, fun h => h⟩
    · exact refl s
  unfold SessionRecordSummary.observeDuplicate
  cases object with
  | root => exact ⟨Finset.subset_insert _ _, subset_rfl, fun h => h, fun h => h⟩
  | payload => exact ⟨subset_rfl, Finset.subset_insert _ _, fun h => h, fun h => h⟩
  | info => exact ⟨subset_rfl, subset_rfl, fun h => by simp [h], fun h => h⟩
  | threadSettings | responseSnapshot => exact ⟨subset_rfl, subset_rfl, fun h => h, fun h => h⟩
  | goal => exact withPayload s _
  | tokenUsage | lastTokenUsage => exact hcounter _
  | responseUsage snapshot | responseTurnUsage snapshot | responseThreadUsage snapshot =>
      exact husage snapshot

theorem storeObjectValue {sha256 : Text → Text} {store : ObjectStore}
    (hstore : ∀ object members s, Grows s (store object members s)) (object : SessionJsonObject)
    (key : SessionJsonKey) (s : SessionRecordSummary) (t : Json) :
    Grows s (storeObjectValue sha256 store object key s t) := by
  by_cases hobject : object = .root
  · subst hobject
    have hsame : ∀ s', s'.rootDuplicates = s.rootDuplicates →
        s'.payloadDuplicates = s.payloadDuplicates → s'.infoDuplicates = s.infoDuplicates →
        s'.counterDuplicates = s.counterDuplicates → Grows s s' := fun s' h h' h'' h''' =>
      ⟨h.ge, h'.ge, fun hs => h''.trans hs, fun hs => h'''.trans hs⟩
    have hroot : Grows s (storeRootField store key s t) := by
      unfold storeRootField
      split
      case h_6 =>
        refine storeObjectOr_related (R := Grows) trans
          (fun members s => hstore .payload members s) ?_ ?_ t
        · exact hsame _ rfl rfl rfl rfl
        · exact hsame _ rfl rfl rfl rfl
      all_goals exact hsame _ rfl rfl rfl rfl
    exact hroot
  · exact storeObjectValue_related refl trans sha256 withPayload
      (fun object members s _ => hstore object members s) hobject key s t

theorem storeObject (sha256 : Text → Text) (room : Nat) (object : SessionJsonObject)
    (members : Fields) (s : SessionRecordSummary) :
    Grows s (storeObject sha256 room object members s) :=
  storeObject_related refl trans (fun _ => True)
    (fun object key s _ => observe object key s)
    (fun _ hstore object key s t _ =>
      storeObjectValue (fun object members s => hstore object members s trivial) object key s t)
    room object members s trivial

end Grows

/-! ### Parts that a member leaves alone -/

/-- The parts of the record itself that a counter needs. -/
def rootOf (s : SessionRecordSummary) : Option Text × (Bool × Option Text × Bool) × Bool × Bool :=
  (s.outerType, (s.timestampSeen, s.timestamp, s.timestampMalformed), s.payloadSeen,
    s.payloadObject)

/-- The type of the payload, and the marks of its info. -/
def payloadMarksOf (s : SessionRecordSummary) :
    (Option Text × Bool × Bool) × Bool × Bool × Bool :=
  ((s.payload.eventType, s.payload.eventTypeSeen, s.payload.eventTypeMalformed),
    s.payload.infoSeen, s.payload.infoNull, s.payload.infoObject)

/-- The counter of an info. -/
def counterOf (s : SessionRecordSummary) : Bool × Bool × TokenUsageSummary :=
  (s.payload.tokenUsageSeen, s.payload.tokenUsageObject, s.payload.tokenUsage)

/-- A mark changes no part that `π` sees, unless it is the one of the reasoning tokens. -/
theorem observeDuplicate_eq {V : Type} {π : SessionRecordSummary → V}
    (hpayload : ∀ s s' : SessionRecordSummary, rootOf s = rootOf s' → s.payload = s'.payload →
      π s = π s') {object : SessionJsonObject}
    (hnoop : ∀ (s : SessionRecordSummary) f, π (s.withNoop f) = π s)
    (husage : ∀ s : SessionRecordSummary, π (s.withPayload fun payload =>
      payload.withUsage object fun usage => { usage with reasoningMalformed := true }) = π s)
    (key : SessionJsonKey) (s : SessionRecordSummary) :
    π (s.observeDuplicate object key) = π s := by
  have hcounter : π (observeCounterDuplicate s object key) = π s := by
    unfold observeCounterDuplicate
    dsimp only
    split
    · exact (husage _).trans (hpayload _ _ rfl rfl)
    · exact hpayload _ _ rfl rfl
  have hresponse : ∀ snapshot, π (observeUsageDuplicate s key snapshot) = π s := by
    intro snapshot
    unfold observeUsageDuplicate
    split
    · split
      · exact hpayload _ _ rfl rfl
      · exact hpayload _ _ rfl rfl
    · rfl
  unfold SessionRecordSummary.observeDuplicate
  cases object with
  | root | payload | info | threadSettings | responseSnapshot => exact hpayload _ _ rfl rfl
  | goal =>
      exact hnoop s fun noop =>
        { noop with goal.duplicates := noop.goal.duplicates || GoalShape.keys.contains key }
  | tokenUsage | lastTokenUsage => exact hcounter
  | responseUsage snapshot | responseTurnUsage snapshot | responseThreadUsage snapshot =>
      exact hresponse snapshot

/-- The type of the payload and the marks of its info are no part of a counter. -/
theorem payloadMarksOf_withUsage (s : SessionRecordSummary) (object : SessionJsonObject)
    (f : TokenUsageSummary → TokenUsageSummary) :
    payloadMarksOf (s.withPayload (·.withUsage object f)) = payloadMarksOf s := by
  have hresponse : ∀ snapshot f,
      payloadMarksOf (s.withPayload (·.withResponse snapshot f)) = payloadMarksOf s := by
    intro snapshot f
    cases snapshot with
    | false => rfl
    | true => rfl
  cases object with
  | responseUsage snapshot =>
      exact hresponse snapshot fun response => { response with usage := f response.usage }
  | responseTurnUsage snapshot =>
      exact hresponse snapshot fun response => { response with turnUsage := f response.turnUsage }
  | responseThreadUsage snapshot =>
      exact hresponse snapshot fun response =>
        { response with threadUsage := f response.threadUsage }
  | _ => rfl

theorem counterOf_withUsage (s : SessionRecordSummary) {object : SessionJsonObject}
    (hobject : object ≠ .tokenUsage) (f : TokenUsageSummary → TokenUsageSummary) :
    counterOf (s.withPayload (·.withUsage object f)) = counterOf s := by
  have hresponse : ∀ snapshot f,
      counterOf (s.withPayload (·.withResponse snapshot f)) = counterOf s := by
    intro snapshot f
    cases snapshot with
    | false => rfl
    | true => rfl
  cases object with
  | tokenUsage => exact absurd rfl hobject
  | responseUsage snapshot =>
      exact hresponse snapshot fun response => { response with usage := f response.usage }
  | responseTurnUsage snapshot =>
      exact hresponse snapshot fun response => { response with turnUsage := f response.turnUsage }
  | responseThreadUsage snapshot =>
      exact hresponse snapshot fun response =>
        { response with threadUsage := f response.threadUsage }
  | _ => rfl

section
variable {V : Type} {π : SessionRecordSummary → V} {sha256 : Text → Text} {store : ObjectStore}

/-- A part that no object below an info but its counter writes, and that an info leaves alone. -/
theorem storeObjectValue_eq_of_info (objects : SessionJsonObject → Prop)
    (hnoop : ∀ (s : SessionRecordSummary) f, π (s.withNoop f) = π s)
    (hresponse : ∀ (s : SessionRecordSummary) snapshot f,
      π (s.withPayload (·.withResponse snapshot f)) = π s)
    (hsettings : ∀ (s : SessionRecordSummary) model seen malformed,
      π (s.withPayload fun payload => { payload with
        threadSettingsModel := model
        threadSettingsModelSeen := seen
        threadSettingsModelMalformed := malformed }) = π s)
    (husage : ∀ (s : SessionRecordSummary) object f, objects object →
      π (s.withPayload (·.withUsage object f)) = π s)
    (hinfo : ∀ key s t, objects .info → π (storeInfoField store key s t) = π s)
    (hobjects : ∀ key, objects (usageObject key true))
    (hstore : ∀ object members s, objects object → π (store object members s) = π s)
    {object : SessionJsonObject} (hobject : objects object) (hroot : object ≠ .root)
    (hpayload : object ≠ .payload) (key : SessionJsonKey) (s : SessionRecordSummary) (t : Json) :
    π (storeObjectValue sha256 store object key s t) = π s := by
  have husage' : objects object → π (storeUsageField object key s t) = π s := by
    intro hobject
    unfold storeUsageField
    split
    · exact husage s object _ hobject
    · rfl
  unfold storeObjectValue
  cases object with
  | root => exact absurd rfl hroot
  | payload => exact absurd rfl hpayload
  | threadSettings =>
      unfold storeThreadSettingsField
      dsimp only
      split
      · exact hsettings s _ _ _
      · rfl
  | info => exact hinfo key s t hobject
  | goal =>
      unfold storeGoalField
      dsimp only
      split
      · rfl
      · exact hnoop s fun noop => { noop with goal := { (storeGoalValue key s.payload.noop.goal t).1 with
          seen := insert key (storeGoalValue key s.payload.noop.goal t).1.seen
          malformed := if (storeGoalValue key s.payload.noop.goal t).2 then
              (storeGoalValue key s.payload.noop.goal t).1.malformed
            else insert key (storeGoalValue key s.payload.noop.goal t).1.malformed } }
  | responseSnapshot =>
      exact storeResponseField_related (R := fun s s' => π s' = π s) (fun _ => rfl)
        (fun h h' => h'.trans h) (fun s f => hresponse s true f)
        (fun key members s => hstore _ members s (hobjects key)) key s t
  | tokenUsage | lastTokenUsage => exact husage' hobject
  | responseUsage snapshot | responseTurnUsage snapshot | responseThreadUsage snapshot =>
      exact husage' hobject

/-- What a counter keeps, by its object and the state before it. -/
theorem storeCounter_eq {object : SessionJsonObject}
    (hstore : ∀ members s, π (store object members s) = π s)
    (husage : ∀ (s : SessionRecordSummary) f, π (s.withPayload (·.withUsage object f)) = π s)
    {s isObject other : SessionRecordSummary} (hobject : π isObject = π s) (hother : π other = π s)
    (t : Json) : π (storeCounter store object isObject other t) = π s := by
  unfold storeCounter
  split
  · exact (husage _ _).trans ((hstore _ _).trans hobject)
  · exact (husage _ _).trans hother

end

/-- What an object keeps, by the values of its members. -/
theorem storeObject_eq {V : Type} {π : SessionRecordSummary → V} {sha256 : Text → Text}
    (objects : SessionJsonObject → Prop)
    (hobserve : ∀ object key s, objects object → π (s.observeDuplicate object key) = π s)
    (hvalue : ∀ store : ObjectStore, (∀ object members s, objects object →
        π (store object members s) = π s) → ∀ object key s t, objects object →
      π (storeObjectValue sha256 store object key s t) = π s) (room : Nat)
    {object : SessionJsonObject} (hobject : objects object) (members : Fields)
    (s : SessionRecordSummary) : π (storeObject sha256 room object members s) = π s :=
  storeObject_related (R := fun s s' => π s' = π s) (fun _ => rfl) (fun h h' => h'.trans h)
    objects hobserve hvalue room object members s hobject

section
variable (sha256 : Text → Text) (room : Nat) {object : SessionJsonObject} (members : Fields)
  (s : SessionRecordSummary)

theorem storeObject_rootOf (hobject : object ≠ .root) :
    rootOf (storeObject sha256 room object members s) = rootOf s :=
  storeObject_eq (· ≠ .root)
    (fun _ key s _ => observeDuplicate_eq (fun _ _ h _ => h) (fun _ _ => rfl) (fun _ => rfl) key s)
    (fun _ hstore _ key s t hobject =>
      storeObjectValue_related (R := fun s s' => rootOf s' = rootOf s) (fun _ => rfl)
        (fun h h' => h'.trans h) sha256 (fun _ _ => rfl) hstore hobject key s t)
    room hobject members s

/-- The objects below a payload. -/
def BelowPayload (object : SessionJsonObject) : Prop := object ≠ .root ∧ object ≠ .payload

/-- The objects below a payload that are no part of its counter. -/
def BesideCounter (object : SessionJsonObject) : Prop :=
  BelowPayload object ∧ object ≠ .info ∧ object ≠ .tokenUsage

theorem besideCounter_usageObject (key : SessionJsonKey) (snapshot : Bool) :
    BesideCounter (usageObject key snapshot) := by
  unfold usageObject
  split
  all_goals exact ⟨⟨nofun, nofun⟩, nofun, nofun⟩

theorem storeObject_payloadMarksOf (hobject : BelowPayload object) :
    payloadMarksOf (storeObject sha256 room object members s) = payloadMarksOf s := by
  refine storeObject_eq BelowPayload
    (fun object key s _ => observeDuplicate_eq (fun s s' _ h => ?_) (fun _ _ => rfl)
      (fun s => payloadMarksOf_withUsage s object _) key s) ?_ room hobject members s
  · unfold payloadMarksOf
    rw [h]
  · intro store hstore object key s t hobject
    refine storeObjectValue_eq_of_info BelowPayload (fun _ _ => rfl) ?_
      (fun _ _ _ _ => rfl) (fun s object f _ => payloadMarksOf_withUsage s object f) ?_
      (fun key => (besideCounter_usageObject key true).1) hstore hobject hobject.1 hobject.2 key s t
    · intro s snapshot f
      cases snapshot with
      | false => rfl
      | true => rfl
    · intro key s t _
      have hcounter : ∀ object, BelowPayload object → ∀ isObject other : SessionRecordSummary,
          payloadMarksOf isObject = payloadMarksOf s → payloadMarksOf other = payloadMarksOf s →
          payloadMarksOf (storeCounter store object isObject other t) = payloadMarksOf s :=
        fun object hobject isObject other h h' =>
          storeCounter_eq (fun members s => hstore object members s hobject)
            (fun s f => payloadMarksOf_withUsage s object f) h h' t
      unfold storeInfoField
      split
      · exact hcounter .tokenUsage ⟨by decide, by decide⟩ _ _ rfl rfl
      · exact hcounter .lastTokenUsage ⟨by decide, by decide⟩ _ _ rfl rfl
      · rfl
      · rfl

theorem storeObject_counterOf (hobject : BesideCounter object) :
    counterOf (storeObject sha256 room object members s) = counterOf s := by
  refine storeObject_eq BesideCounter
    (fun object key s hobject => observeDuplicate_eq (fun s s' _ h => ?_) (fun _ _ => rfl)
      (fun s => counterOf_withUsage s hobject.2.2 _) key s) ?_ room hobject members s
  · unfold counterOf
    rw [h]
  · intro store hstore object key s t hobject
    refine storeObjectValue_eq_of_info BesideCounter (fun _ _ => rfl) ?_
      (fun _ _ _ _ => rfl) (fun s object f hobject => counterOf_withUsage s hobject.2.2 f)
      (fun _ _ _ hinfo => absurd rfl hinfo.2.1) (fun key => besideCounter_usageObject key true)
      hstore hobject hobject.1.1 hobject.1.2 key s t
    intro s snapshot f
    cases snapshot with
    | false => rfl
    | true => rfl

end

/-! ### Names that are not repeated -/

/-- The part `π` that one key of an object writes. The mark of the key is never taken back. -/
structure Single {V : Type} (R : SessionRecordSummary → SessionRecordSummary → Prop)
    (π : SessionRecordSummary → V) (repeated : SessionRecordSummary → Prop)
    (object : SessionJsonObject) (key : SessionJsonKey)
    (value : SessionJsonKey → SessionRecordSummary → Json → SessionRecordSummary) : Prop where
  refl : ∀ s, R s s
  trans : ∀ {s s' s''}, R s s' → R s' s'' → R s s''
  observe_grows : ∀ key' s, R s (s.observeDuplicate object key')
  observe_eq : ∀ key' s, π (s.observeDuplicate object key') = π s
  value_grows : ∀ key' s t, R s (value key' s t)
  value_eq : ∀ key' s t, key' ≠ key → π (value key' s t) = π s
  stays : ∀ {s s'}, R s s' → repeated s → repeated s'
  marks : ∀ s : SessionRecordSummary, repeated (s.observeDuplicate object key)

namespace Single

variable {V : Type} {R : SessionRecordSummary → SessionRecordSummary → Prop}
  {π : SessionRecordSummary → V} {repeated : SessionRecordSummary → Prop}
  {object : SessionJsonObject} {key : SessionJsonKey}
  {value : SessionJsonKey → SessionRecordSummary → Json → SessionRecordSummary}

theorem observe (h : Single R π repeated object key value) (key' : SessionJsonKey)
    (state : ObjectState) :
    R state.1 (observeKey object key' state).1 ∧ π (observeKey object key' state).1 = π state.1 ∧
      state.2 ⊆ (observeKey object key' state).2 := by
  unfold observeKey
  split
  · exact ⟨h.refl _, rfl, subset_rfl⟩
  · dsimp only
    split
    · exact ⟨h.observe_grows _ _, h.observe_eq _ _, Finset.subset_insert _ _⟩
    · exact ⟨h.refl _, rfl, Finset.subset_insert _ _⟩

theorem member_grows (h : Single R π repeated object key value) (state : ObjectState)
    (member : List Char × Json) : R state.1 (storeMember object value state member).1 :=
  h.trans (h.observe (keyOf member.1) state).1 (h.value_grows _ _ _)

theorem members_grow (h : Single R π repeated object key value) (members : Fields) :
    ∀ state : ObjectState, R state.1 (members.foldl (storeMember object value) state).1 := by
  induction members with
  | nil => exact fun state => h.refl _
  | cons member members ih => exact fun state => h.trans (h.member_grows state member) (ih _)

/-- A name that is not marked at the end was there once or not at all. -/
theorem once (h : Single R π repeated object key value) (hkey : key ≠ .other) (members : Fields) :
    ∀ state : ObjectState, ¬ repeated (members.foldl (storeMember object value) state).1 →
      (valuesAt key members = [] ∧
          π (members.foldl (storeMember object value) state).1 = π state.1) ∨
        ∃ s t, valuesAt key members = [t] ∧ key ∉ state.2 ∧
          π (members.foldl (storeMember object value) state).1 = π (value key s t) ∧
          R (value key s t) (members.foldl (storeMember object value) state).1 := by
  induction members with
  | nil => exact fun state _ => Or.inl ⟨rfl, rfl⟩
  | cons member members ih =>
      intro state hfinal
      obtain ⟨-, hpart, hseen⟩ := h.observe (keyOf member.1) state
      have hgrow := h.members_grow members (storeMember object value state member)
      by_cases hmember : keyOf member.1 = key
      · have hvalues : valuesAt key (member :: members) = member.2 :: valuesAt key members := by
          unfold valuesAt
          rw [List.filter_cons_of_pos (by simpa using hmember), List.map_cons]
        have hnew : key ∉ state.2 := by
          intro hold
          have hobserved : (observeKey object key state).1 = state.1.observeDuplicate object key := by
            unfold observeKey
            rw [if_neg hkey, if_pos hold]
          have hmarked : repeated (observeKey object key state).1 := hobserved ▸ h.marks state.1
          have hvalue : R (observeKey object key state).1
              (storeMember object value state member).1 := by
            rw [← hmember]
            exact h.value_grows _ _ _
          exact hfinal (h.stays hgrow (h.stays hvalue hmarked))
        have hkept : key ∈ (storeMember object value state member).2 := by
          have hinsert : (observeKey object key state).2 = insert key state.2 := by
            unfold observeKey
            rw [if_neg hkey]
          show key ∈ (observeKey object (keyOf member.1) state).2
          rw [hmember, hinsert]
          exact Finset.mem_insert_self _ _
        obtain ⟨hnone, hstays⟩ | ⟨_, _, _, habsent, _⟩ := ih _ hfinal
        · refine Or.inr ⟨(observeKey object (keyOf member.1) state).1, member.2, ?_, hnew, ?_, ?_⟩
          · rw [hvalues, hnone]
          · rw [← hmember]
            exact hstays
          · rw [← hmember]
            exact hgrow
        · exact absurd hkept habsent
      · have hvalues : valuesAt key (member :: members) = valuesAt key members := by
          unfold valuesAt
          rw [List.filter_cons_of_neg (by simpa using hmember)]
        have hsame : π (storeMember object value state member).1 = π state.1 :=
          (h.value_eq _ _ _ hmember).trans hpart
        obtain ⟨hnone, hstays⟩ | ⟨s, t, hone, habsent, hstored, hgrown⟩ := ih _ hfinal
        · exact Or.inl ⟨hvalues.trans hnone, hstays.trans hsame⟩
        · exact Or.inr ⟨s, t, hvalues.trans hone, fun hmem => habsent (hseen hmem), hstored, hgrown⟩

end Single

/-- A part that an object has changed was written by the one member of its key. -/
theorem storeObject_once {V : Type} {sha256 : Text → Text}
    {R : SessionRecordSummary → SessionRecordSummary → Prop} {π : SessionRecordSummary → V}
    {repeated : SessionRecordSummary → Prop} {object : SessionJsonObject} {key : SessionJsonKey}
    (h : ∀ room, Single R π repeated object key
      (storeObjectValue sha256 (storeObject sha256 room) object)) (hkey : key ≠ .other) {room : Nat}
    {members : Fields} {s : SessionRecordSummary}
    (hfinal : ¬ repeated (storeObject sha256 room object members s))
    (hchanged : π (storeObject sha256 room object members s) ≠ π s) :
    ∃ room' s' t, valuesAt key members = [t] ∧
      π (storeObject sha256 room object members s) =
        π (storeObjectValue sha256 (storeObject sha256 room') object key s' t) ∧
      R (storeObjectValue sha256 (storeObject sha256 room') object key s' t)
        (storeObject sha256 room object members s) := by
  cases room with
  | zero => exact absurd rfl hchanged
  | succ room =>
      obtain ⟨-, hsame⟩ | ⟨s', t, hone, -, hstored, hgrown⟩ :=
        (h room).once hkey members (s, ∅) hfinal
      · exact absurd hsame hchanged
      · exact ⟨room, s', t, hone, hstored, hgrown⟩

/-! ### The members of a counter -/

/-- What a counter says at a name: nothing, or a literal of 64 bits. -/
inductive CounterMember (name : String) (members : Fields) : Option Nat → Prop
  | absent (h : membersNamed name members = []) : CounterMember name members none
  | null (h : membersNamed name members = [.null]) : CounterMember name members none
  | number {lexeme : List UInt8} {value : Nat} (h : membersNamed name members = [.number lexeme])
      (hvalue : numberValue lexeme = some value) : CounterMember name members (some value)

namespace TokenUsageSummary

/-- The value of a counter at this key. -/
def component (usage : TokenUsageSummary) : SessionJsonKey → Option Nat
  | .totalTokens => usage.total
  | .inputTokens => usage.input
  | .cachedInputTokens => usage.cachedInput
  | .cacheWriteInputTokens => usage.cacheWriteInput
  | .outputTokens => usage.output
  | _ => none

end TokenUsageSummary

/-- The value at a key of the counter, and whether the counter has had a total. -/
def componentOf (key : SessionJsonKey) (s : SessionRecordSummary) : Option Nat × Bool :=
  (s.payload.tokenUsage.component key,
    decide (key = .totalTokens) && s.payload.tokenUsage.totalSeen)

/-- No mark is taken back, and a malformed counter stays one. -/
structure CounterGrows (s s' : SessionRecordSummary) : Prop where
  marks : Grows s s'
  malformed : s.payload.tokenUsage.malformed = true → s'.payload.tokenUsage.malformed = true

theorem storeUsage_malformed (key : SessionJsonKey) (value : Option Nat) (malformed : Bool)
    (usage : TokenUsageSummary) (h : usage.malformed = true) :
    (storeUsage key value malformed usage).malformed = true := by
  unfold storeUsage
  split
  all_goals simp [h]

theorem storeUsage_component {key key' : SessionJsonKey} (hkey : key' ≠ key) (value : Option Nat)
    (malformed : Bool) (usage : TokenUsageSummary) :
    (storeUsage key' value malformed usage).component key = usage.component key := by
  unfold storeUsage
  split
  case h_7 => rfl
  all_goals
    unfold TokenUsageSummary.component
    split
    all_goals first | rfl | exact absurd rfl hkey

theorem storeUsage_totalSeen {key : SessionJsonKey} (hkey : key ≠ .totalTokens) (value : Option Nat)
    (malformed : Bool) (usage : TokenUsageSummary) :
    (storeUsage key value malformed usage).totalSeen = usage.totalSeen := by
  unfold storeUsage
  split
  all_goals first | rfl | exact absurd rfl hkey

/-- The value of a component, unless the counter is malformed. -/
theorem storeUsage_self {key : SessionJsonKey} (hkey : key.tokenComponent = true)
    (value : Option Nat) (malformed : Bool) (usage : TokenUsageSummary)
    (h : (storeUsage key value malformed usage).malformed = false) :
    (storeUsage key value malformed usage).component key = value ∧ malformed = false ∧
      (key = .totalTokens → value.isSome = true) := by
  unfold SessionJsonKey.tokenComponent at hkey
  simp only [List.contains_cons, List.contains_nil, Bool.or_false, Bool.or_eq_true,
    beq_iff_eq] at hkey
  obtain rfl | rfl | rfl | rfl | rfl := hkey
  all_goals
    simp only [storeUsage, Bool.or_eq_false_iff] at h
    refine ⟨rfl, ?_, ?_⟩
  · exact h.1.2
  · intro _
    cases value with
    | none => exact absurd h.2 (by decide)
    | some value => rfl
  all_goals first | exact h.2 | exact nofun

/-- A component of a counter is written by its key. -/
theorem single_component (sha256 : Text → Text) (store : ObjectStore) {key : SessionJsonKey}
    (hkey : key.tokenComponent = true) :
    Single CounterGrows (componentOf key) (fun s => s.counterDuplicates = true) .tokenUsage key
      (storeObjectValue sha256 store .tokenUsage) where
  refl s := ⟨Grows.refl s, fun h => h⟩
  trans h h' := ⟨h.marks.trans h'.marks, fun hs => h'.malformed (h.malformed hs)⟩
  observe_grows key' s := by
    have hmalformed : (s.observeDuplicate .tokenUsage key').payload.tokenUsage.malformed =
        s.payload.tokenUsage.malformed :=
      observeDuplicate_eq (π := fun s => s.payload.tokenUsage.malformed)
        (fun _ _ _ h => by rw [h]) (fun _ _ => rfl) (fun _ => rfl) key' s
    exact ⟨Grows.observe _ _ _, fun h => hmalformed.trans h⟩
  observe_eq key' s := by
    refine observeDuplicate_eq (fun _ _ _ h => ?_) (fun _ _ => rfl) (fun s => ?_) key' s
    · unfold componentOf
      rw [h]
    · unfold componentOf TokenUsageSummary.component
      split
      all_goals rfl
  value_grows key' s t := by
    refine ⟨?_, fun h => ?_⟩
    · -- The members of a counter open no object.
      have hstore : ∀ (object : SessionJsonObject) (members : Fields) (s : SessionRecordSummary),
          object ≠ .root → Grows s ((fun _ _ s => s : ObjectStore) object members s) :=
        fun _ _ s _ => Grows.refl s
      exact storeObjectValue_related Grows.refl Grows.trans sha256 Grows.withPayload
        hstore (show SessionJsonObject.tokenUsage ≠ .root by decide) key' s t
    · unfold storeObjectValue storeUsageField
      dsimp only
      split
      · exact storeUsage_malformed _ _ _ _ h
      · exact h
  value_eq key' s t hne := by
    unfold storeObjectValue storeUsageField
    dsimp only
    split
    · refine Prod.ext (storeUsage_component hne _ _ _) ?_
      by_cases htotal : key = .totalTokens
      · subst htotal
        exact congrArg (decide (SessionJsonKey.totalTokens = .totalTokens) && ·)
          (storeUsage_totalSeen hne _ _ _)
      · unfold componentOf
        rw [decide_eq_false htotal, Bool.false_and, Bool.false_and]
    · rfl
  stays h hs := h.marks.counter hs
  marks s := by
    have hreasoning : key ≠ .reasoningOutputTokens := by
      rintro rfl
      cases hkey
    show (observeCounterDuplicate s .tokenUsage key).counterDuplicates = true
    unfold observeCounterDuplicate
    dsimp only
    rw [if_neg hreasoning, hkey, Bool.or_true]

theorem component_empty (key : SessionJsonKey) : ({} : TokenUsageSummary).component key = none := by
  unfold TokenUsageSummary.component
  split
  all_goals rfl

/-- A value that a counter reads, and that is not malformed. -/
theorem counterMember_of_u64Value {name : String} {members : Fields} {t : Json}
    (h : membersNamed name members = [t]) (hvalid : (u64Value t).2 = false) :
    CounterMember name members (u64Value t).1 := by
  cases t with
  | null => exact CounterMember.null h
  | number lexeme =>
      have hsome : (numberValue lexeme).isNone = false := hvalid
      show CounterMember name members (numberValue lexeme)
      cases hvalue : numberValue lexeme with
      | none =>
          rw [hvalue] at hsome
          cases hsome
      | some value => exact CounterMember.number h hvalue
  | bool | string | array | object => cases hvalid

/-- A component of a counter that is neither malformed nor marked, and the total of one that has
had a total. -/
theorem counterMember_of_storeObject {sha256 : Text → Text} {room : Nat} {members : Fields}
    {s final : SessionRecordSummary} (hempty : s.payload.tokenUsage = {})
    (hstore : storeObject sha256 (room + 1) .tokenUsage members s = final)
    (hmarks : final.counterDuplicates = false)
    (hvalid : final.payload.tokenUsage.malformed = false) {name : String} {key : SessionJsonKey}
    (hname : (name.toList, key) ∈ sessionJsonKeys) (hkey : key.tokenComponent = true) :
    CounterMember name members (final.payload.tokenUsage.component key) ∧
      (key = .totalTokens → final.payload.tokenUsage.totalSeen = true →
        (final.payload.tokenUsage.component key).isSome = true) := by
  have hunmarked : ¬ final.counterDuplicates = true := by
    rw [hmarks]
    exact Bool.false_ne_true
  have honce := (single_component sha256 (storeObject sha256 room) hkey).once
    (ne_other_of_mem hname) members (s, ∅)
  have hfold : (members.foldl (storeMember .tokenUsage (storeObjectValue sha256
      (storeObject sha256 room) .tokenUsage)) (s, ∅)).1 = final := hstore
  rw [hfold] at honce
  obtain ⟨hnone, hsame⟩ | ⟨s', t, hone, -, hstored, hgrown⟩ := honce hunmarked
  · rw [valuesAt_eq name hname] at hnone
    have hfinal : componentOf key final = componentOf key s := hsame
    have hcomponent : final.payload.tokenUsage.component key = none := by
      have hs : final.payload.tokenUsage.component key = s.payload.tokenUsage.component key :=
        congrArg Prod.fst hfinal
      rw [hs, hempty, component_empty]
    refine ⟨hcomponent ▸ CounterMember.absent hnone, ?_⟩
    rintro rfl hseen
    have hs : final.payload.tokenUsage.totalSeen = s.payload.tokenUsage.totalSeen := by
      simpa [componentOf] using congrArg Prod.snd hfinal
    rw [hs, hempty] at hseen
    cases hseen
  · rw [valuesAt_eq name hname] at hone
    have husage : (storeObjectValue sha256 (storeObject sha256 room) .tokenUsage key s'
          t).payload.tokenUsage =
        storeUsage key (u64Value t).1 (u64Value t).2 s'.payload.tokenUsage := by
      unfold storeObjectValue storeUsageField
      dsimp only
      rw [hkey, Bool.true_or, if_pos rfl]
      rfl
    have hnot : (storeUsage key (u64Value t).1 (u64Value t).2 s'.payload.tokenUsage).malformed =
        false := by
      rw [← husage]
      refine Bool.eq_false_of_not_eq_true fun h => ?_
      have hmalformed := hgrown.malformed h
      rw [hvalid] at hmalformed
      cases hmalformed
    obtain ⟨hself, hread, hsome⟩ := storeUsage_self hkey _ _ _ hnot
    have hcomponent : final.payload.tokenUsage.component key = (u64Value t).1 := by
      have hs := congrArg Prod.fst hstored
      unfold componentOf at hs
      rw [husage, hself] at hs
      exact hs
    rw [hcomponent]
    exact ⟨counterMember_of_u64Value hone hread, fun htotal _ => hsome htotal⟩

/-! ### The members of an info, a payload and a record -/

section
variable {V : Type} {π : SessionRecordSummary → V} {sha256 : Text → Text} {room : Nat}

theorem Single.of_grows {repeated : SessionRecordSummary → Prop} {object : SessionJsonObject}
    {key : SessionJsonKey}
    (hobserve : ∀ (key' : SessionJsonKey) (s : SessionRecordSummary),
      π (s.observeDuplicate object key') = π s)
    (hvalue : ∀ key' s t, key' ≠ key →
      π (storeObjectValue sha256 (storeObject sha256 room) object key' s t) = π s)
    (hstays : ∀ {s s' : SessionRecordSummary}, Grows s s' → repeated s → repeated s')
    (hmarks : ∀ s : SessionRecordSummary, repeated (s.observeDuplicate object key)) :
    Single Grows π repeated object key
      (storeObjectValue sha256 (storeObject sha256 room) object) where
  refl := Grows.refl
  trans := Grows.trans
  observe_grows := Grows.observe object
  observe_eq := hobserve
  value_grows := Grows.storeObjectValue (Grows.storeObject sha256 room) object
  value_eq := hvalue
  stays := hstays
  marks := hmarks

/-- The counter of an info is written by its key. -/
theorem single_totalTokenUsage (sha256 : Text → Text) (room : Nat) :
    Single Grows counterOf (fun s => s.infoDuplicates = true) .info .totalTokenUsage
      (storeObjectValue sha256 (storeObject sha256 room) .info) := by
  refine Single.of_grows (fun _ _ => rfl) (fun key s t hkey => ?_) (fun h hs => h.info hs)
    (fun s => ?_)
  · have hinfo : counterOf (storeInfoField (storeObject sha256 room) key s t) = counterOf s := by
      unfold storeInfoField
      split
      · exact absurd rfl hkey
      · have hlast : BesideCounter .lastTokenUsage :=
          ⟨⟨by decide, by decide⟩, by decide, by decide⟩
        refine storeCounter_eq (fun members s => storeObject_counterOf sha256 room members s hlast)
          (fun s f => counterOf_withUsage s hlast.2.2 f) ?_ ?_ t
        · rfl
        · rfl
      · rfl
      · rfl
    exact hinfo
  · show (s.infoDuplicates || _) = true
    exact Bool.or_true _

/-- The type of a payload. -/
def eventOf (s : SessionRecordSummary) : Option Text × Bool × Bool :=
  (s.payload.eventType, s.payload.eventTypeSeen, s.payload.eventTypeMalformed)

/-- The info of a payload. -/
def infoOf (s : SessionRecordSummary) : (Bool × Bool × Bool) × Bool × Bool × TokenUsageSummary :=
  ((s.payload.infoSeen, s.payload.infoNull, s.payload.infoObject), counterOf s)

theorem eventOf_storeObject {object : SessionJsonObject} (hobject : BelowPayload object)
    (members : Fields) (s : SessionRecordSummary) :
    eventOf (storeObject sha256 room object members s) = eventOf s :=
  congrArg Prod.fst (storeObject_payloadMarksOf sha256 room members s hobject)

theorem infoOf_storeObject {object : SessionJsonObject} (hobject : BesideCounter object)
    (members : Fields) (s : SessionRecordSummary) :
    infoOf (storeObject sha256 room object members s) = infoOf s :=
  Prod.ext (congrArg Prod.snd (storeObject_payloadMarksOf sha256 room members s hobject.1))
    (storeObject_counterOf sha256 room members s hobject)

/-- An object in its place or any other value, by the states before it. -/
theorem storeObjectOr_eq {store : ObjectStore} {object : SessionJsonObject}
    (hstore : ∀ members s, π (store object members s) = π s)
    {s isObject other : SessionRecordSummary} (hobject : π isObject = π s) (hother : π other = π s)
    (t : Json) : π (storeObjectOr store object isObject other t) = π s :=
  storeObjectOr_related (R := fun s s' => π s' = π s) (fun h h' => h'.trans h) hstore hobject
    hother t

/-- The type of a payload is written by its key. -/
theorem single_payloadType (sha256 : Text → Text) (room : Nat) :
    Single Grows eventOf (fun s => .type ∈ s.payloadDuplicates) .payload .type
      (storeObjectValue sha256 (storeObject sha256 room) .payload) := by
  refine Single.of_grows (fun _ _ => rfl) (fun key s t hkey => ?_) (fun h hs => h.payload hs)
    (fun s => Finset.mem_insert_self _ _)
  have hor : ∀ object, BelowPayload object → ∀ isObject other : SessionRecordSummary,
      eventOf isObject = eventOf s → eventOf other = eventOf s →
        eventOf (storeObjectOr (storeObject sha256 room) object isObject other t) = eventOf s :=
    fun object hobject _ _ h h' => storeObjectOr_eq (eventOf_storeObject hobject) h h' t
  have hvalue : eventOf (storePayloadValue sha256 (storeObject sha256 room) key s t) = eventOf s := by
    unfold storePayloadValue
    split
    case h_5 => exact hor .responseSnapshot ⟨by decide, by decide⟩ _ _ rfl rfl
    case h_6 => exact absurd rfl hkey
    case h_8 => exact hor .threadSettings ⟨by decide, by decide⟩ _ _ rfl rfl
    case h_10 => exact hor .info ⟨by decide, by decide⟩ _ _ rfl rfl
    all_goals rfl
  exact storePayloadField_related (R := fun s s' => eventOf s' = eventOf s) (fun _ => rfl)
    (fun h h' => h'.trans h) (fun _ _ => rfl) (fun _ _ => rfl)
    (fun object members s hroot hpayload _ _ => eventOf_storeObject ⟨hroot, hpayload⟩ members s)
    hvalue

/-- The info of a payload is written by its key. -/
theorem single_info (sha256 : Text → Text) (room : Nat) :
    Single Grows infoOf (fun s => .info ∈ s.payloadDuplicates) .payload .info
      (storeObjectValue sha256 (storeObject sha256 room) .payload) := by
  refine Single.of_grows (fun _ _ => rfl) (fun key s t hkey => ?_) (fun h hs => h.payload hs)
    (fun s => Finset.mem_insert_self _ _)
  have hor : ∀ object, BesideCounter object → ∀ isObject other : SessionRecordSummary,
      infoOf isObject = infoOf s → infoOf other = infoOf s →
        infoOf (storeObjectOr (storeObject sha256 room) object isObject other t) = infoOf s :=
    fun object hobject _ _ h h' => storeObjectOr_eq (infoOf_storeObject hobject) h h' t
  have hvalue : infoOf (storePayloadValue sha256 (storeObject sha256 room) key s t) = infoOf s := by
    unfold storePayloadValue
    split
    case h_5 =>
      exact hor .responseSnapshot ⟨⟨by decide, by decide⟩, by decide, by decide⟩ _ _ rfl rfl
    case h_8 =>
      exact hor .threadSettings ⟨⟨by decide, by decide⟩, by decide, by decide⟩ _ _ rfl rfl
    case h_10 => exact absurd rfl hkey
    all_goals rfl
  exact storePayloadField_related (R := fun s s' => infoOf s' = infoOf s) (fun _ => rfl)
    (fun h h' => h'.trans h) (fun _ _ => rfl) (fun _ _ => rfl)
    (fun object members s hroot hpayload hinfo husage =>
      infoOf_storeObject ⟨⟨hroot, hpayload⟩, hinfo, husage⟩ members s) hvalue

/-- A part of the record itself that a payload leaves alone. -/
theorem single_root {key : SessionJsonKey} (hroot : ∀ s s', rootOf s = rootOf s' → π s = π s')
    (hpayload : ∀ (s : SessionRecordSummary) seen object payload, π { s with
      payloadSeen := seen, payloadObject := object, payload := payload } = π s)
    (hvalue : ∀ key' s t, key' ≠ key → key' ≠ .payload →
      π (storeRootField (storeObject sha256 room) key' s t) = π s) :
    Single Grows π (fun s => key ∈ s.rootDuplicates) .root key
      (storeObjectValue sha256 (storeObject sha256 room) .root) := by
  refine Single.of_grows (fun _ _ => hroot _ _ rfl) (fun key' s t hkey => ?_) (fun h hs => h.root hs)
    (fun s => Finset.mem_insert_self _ _)
  by_cases hpay : key' = .payload
  · subst hpay
    refine storeObjectOr_eq (fun members s => hroot _ _ ?_) ?_ ?_ t
    · exact storeObject_rootOf sha256 room members s (by decide)
    · exact hpayload s true true {}
    · exact hpayload s true false {}
  · exact hvalue key' s t hkey hpay

theorem single_rootType (sha256 : Text → Text) (room : Nat) :
    Single Grows (fun s => s.outerType) (fun s => .type ∈ s.rootDuplicates) .root .type
      (storeObjectValue sha256 (storeObject sha256 room) .root) := by
  refine single_root (fun s s' h => congrArg Prod.fst h) (fun _ _ _ _ => rfl)
    (fun key s t hkey hpay => ?_)
  unfold storeRootField
  split
  case h_1 => exact absurd rfl hkey
  case h_6 => exact absurd rfl hpay
  all_goals rfl

theorem single_timestamp (sha256 : Text → Text) (room : Nat) :
    Single Grows (fun s => (s.timestampSeen, s.timestamp, s.timestampMalformed))
      (fun s => .timestamp ∈ s.rootDuplicates) .root .timestamp
      (storeObjectValue sha256 (storeObject sha256 room) .root) := by
  refine single_root (fun s s' h => congrArg (fun parts => parts.2.1) h) (fun _ _ _ _ => rfl)
    (fun key s t hkey hpay => ?_)
  unfold storeRootField
  split
  case h_4 => exact absurd rfl hkey
  case h_6 => exact absurd rfl hpay
  all_goals rfl

/-- The payload of a record is written by its key. -/
theorem single_payload (sha256 : Text → Text) (room : Nat) :
    Single Grows (fun s => (s.payloadSeen, s.payloadObject, s.payload))
      (fun s => .payload ∈ s.rootDuplicates) .root .payload
      (storeObjectValue sha256 (storeObject sha256 room) .root) := by
  refine Single.of_grows (fun _ _ => rfl) (fun key s t hkey => ?_) (fun h hs => h.root hs)
    (fun s => Finset.mem_insert_self _ _)
  have hroot : (fun s : SessionRecordSummary => (s.payloadSeen, s.payloadObject, s.payload))
      (storeRootField (storeObject sha256 room) key s t) =
        (s.payloadSeen, s.payloadObject, s.payload) := by
    unfold storeRootField
    split
    case h_6 => exact absurd rfl hkey
    all_goals rfl
  exact hroot

end

/-! ### Records with a counter -/

/-- A record with a counter is one by its own type or by that of its message. -/
theorem outerType_of_counterEvent {s : SessionRecordSummary} (h : s.counterEvent = true) :
    s.eventType = some "token_count".toList ∧ (s.outerType = some "token_count".toList ∨
      s.outerType = some "event_msg".toList) := by
  have hevent : s.eventType = some "token_count".toList := by
    unfold SessionRecordSummary.counterEvent SessionRecordSummary.eventIn at h
    cases htype : s.eventType with
    | none =>
        rw [htype] at h
        cases h
    | some name =>
        rw [htype] at h
        have hname : name = "token_count".toList := by simpa using h
        rw [hname]
  refine ⟨hevent, ?_⟩
  unfold SessionRecordSummary.eventType at hevent
  split at hevent
  · exact Or.inl hevent
  · split at hevent
    case isTrue _ houter => exact Or.inr (of_decide_eq_true houter)
    case isFalse => cases hevent

/-- The marks that a record with a counter must not have. -/
theorem marks_of_counterEvent {s : SessionRecordSummary} (hevent : s.counterEvent = true)
    (h : s.importantDuplicates = false) :
    (.type ∉ s.rootDuplicates ∧ .timestamp ∉ s.rootDuplicates ∧ .payload ∉ s.rootDuplicates) ∧
      (.type ∉ s.payloadDuplicates ∧ .info ∉ s.payloadDuplicates) ∧
        s.infoDuplicates = false ∧ s.counterDuplicates = false := by
  obtain ⟨htype, houter⟩ := outerType_of_counterEvent hevent
  have hin : ∀ names : List String,
      s.eventIn names = (names.map String.toList).contains "token_count".toList := fun names => by
    unfold SessionRecordSummary.eventIn
    rw [htype]
    rfl
  have hnoop : s.noopKind = none := by
    obtain houter | houter := houter
    all_goals
      unfold SessionRecordSummary.noopKind SessionRecordSummary.outerIs
      simp only [houter, hin]
      decide
  have hkinds : s.outerIs "session_meta" = false ∧ s.outerIs "token_usage_record" = false ∧
      s.outerIs "compacted" = false := by
    obtain houter | houter := houter
    all_goals
      unfold SessionRecordSummary.outerIs
      simp only [houter]
      decide
  unfold SessionRecordSummary.importantDuplicates at h
  rw [hnoop] at h
  split at h
  · cases h
  case isFalse hmarks =>
    dsimp only at h
    rw [hkinds.1, hkinds.2.1, hkinds.2.2] at h
    unfold SessionRecordSummary.eventDuplicates at h
    rw [hevent] at h
    simp only [SessionRecordSummary.rootHas, SessionRecordSummary.payloadHas, List.any_cons,
      List.any_nil, Bool.or_false, Bool.or_eq_true, decide_eq_true_eq, not_or] at hmarks
    simp [SessionRecordSummary.payloadHas] at h
    exact ⟨⟨hmarks.1.1, hmarks.1.2.1, hmarks.1.2.2.1⟩, ⟨hmarks.2, h.1.1⟩, h.1.2, h.2⟩

/-- One member at each place on the way to a counter, and at most one for each component that may
be unknown. -/
structure CounterPath (root payload info usage : Fields) (snapshot : TokenSnapshot) : Prop where
  type_once : (membersNamed "type" root).length = 1
  timestamp_once : (membersNamed "timestamp" root).length = 1
  payload_once : membersNamed "payload" root = [.object payload]
  payloadType_once : membersNamed "type" root = [.string "event_msg".toList] →
    (membersNamed "type" payload).length = 1
  info_once : membersNamed "info" payload = [.object info]
  usage_once : membersNamed "total_token_usage" info = [.object usage]
  total : CounterMember "total_tokens" usage (some snapshot.total)
  input : CounterMember "input_tokens" usage snapshot.input
  cachedInput : CounterMember "cached_input_tokens" usage snapshot.cachedInput
  cacheWriteInput : CounterMember "cache_write_input_tokens" usage snapshot.cacheWriteInput
  output : CounterMember "output_tokens" usage snapshot.output

theorem closeUsage_valid {usage : TokenUsageSummary} (h : (closeUsage usage).malformed = false) :
    closeUsage usage = usage ∧ usage.totalSeen = true := by
  unfold closeUsage at h ⊢
  split at h
  · exact ⟨if_pos ‹_›, ‹_›⟩
  · cases h

section
variable {sha256 : Text → Text} {room : Nat} {s final : SessionRecordSummary}

/-- The counter of an info that is valid and not marked. -/
theorem usage_of_info {info : Fields} (hstore : storeObject sha256 room .info info s = final)
    (hempty : s.payload.tokenUsageSeen = false) (hinfo : final.infoDuplicates = false)
    (hcounter : final.counterDuplicates = false) (hseen : final.payload.tokenUsageSeen = true)
    (hobject : final.payload.tokenUsageObject = true)
    (hvalid : final.payload.tokenUsage.malformed = false) :
    ∃ usage, membersNamed "total_token_usage" info = [.object usage] ∧
      (∀ name key, (String.toList name, key) ∈ sessionJsonKeys → key.tokenComponent = true →
        CounterMember name usage (final.payload.tokenUsage.component key)) ∧
      final.payload.tokenUsage.total.isSome = true := by
  subst hstore
  have hchanged : counterOf (storeObject sha256 room .info info s) ≠ counterOf s := fun h => by
    have hmark : (storeObject sha256 room .info info s).payload.tokenUsageSeen =
        s.payload.tokenUsageSeen := congrArg Prod.fst h
    rw [hseen, hempty] at hmark
    cases hmark
  obtain ⟨room', s', t, hone, hstored, hgrown⟩ :=
    storeObject_once (single_totalTokenUsage sha256) (by decide)
      (by rw [hinfo]; exact Bool.false_ne_true) hchanged
  rw [valuesAt_eq "total_token_usage" (by decide)] at hone
  generalize storeObject sha256 room .info info s = final at *
  cases t with
  | object usage =>
      have hclosed : final.payload.tokenUsage = closeUsage (storeObject sha256 room' .tokenUsage usage
          (s'.withPayload fun payload => { payload with
            tokenUsageSeen := true, tokenUsageObject := true, tokenUsage := {} })).payload.tokenUsage :=
        congrArg (fun parts => parts.2.2) hstored
      have hmarks := Bool.eq_false_of_not_eq_true fun h =>
        Bool.false_ne_true (hcounter.symm.trans (hgrown.counter h))
      rw [hclosed] at hvalid ⊢
      obtain ⟨hsame, htotal⟩ := closeUsage_valid hvalid
      rw [hsame] at hvalid ⊢
      cases room' with
      | zero => cases htotal
      | succ room' =>
          refine ⟨usage, hone, fun name key hname hkey =>
            (counterMember_of_storeObject rfl rfl hmarks hvalid hname hkey).1, ?_⟩
          have hname : ("total_tokens".toList, .totalTokens) ∈ sessionJsonKeys := by decide
          exact (counterMember_of_storeObject rfl rfl hmarks hvalid hname rfl).2 rfl htotal
  | _ =>
      have hmark : final.payload.tokenUsageObject = false :=
        congrArg (fun parts => parts.2.1) hstored
      rw [hobject] at hmark
      cases hmark

theorem not_of_eq_false {b : Bool} (h : b = false) : ¬ b = true := by
  rw [h]
  exact Bool.false_ne_true

/-- The info of a payload that has one, down to its counter. -/
theorem usage_of_payload {payload : Fields} (hstore : storeObject sha256 room .payload payload s = final)
    (hempty : s.payload = {}) (hrepeated : .info ∉ final.payloadDuplicates)
    (hinfo : final.infoDuplicates = false) (hcounter : final.counterDuplicates = false)
    (hseen : final.payload.infoSeen = true) (hobject : final.payload.infoObject = true)
    (husage : final.payload.tokenUsageSeen = true)
    (husageObject : final.payload.tokenUsageObject = true)
    (hvalid : final.payload.tokenUsage.malformed = false) :
    ∃ info usage, membersNamed "info" payload = [.object info] ∧
      membersNamed "total_token_usage" info = [.object usage] ∧
      (∀ name key, (String.toList name, key) ∈ sessionJsonKeys → key.tokenComponent = true →
        CounterMember name usage (final.payload.tokenUsage.component key)) ∧
      final.payload.tokenUsage.total.isSome = true := by
  subst hstore
  have hchanged : infoOf (storeObject sha256 room .payload payload s) ≠ infoOf s := fun h => by
    have hmark : (storeObject sha256 room .payload payload s).payload.infoSeen =
        s.payload.infoSeen := congrArg (fun parts => parts.1.1) h
    rw [hseen, hempty] at hmark
    cases hmark
  obtain ⟨room', s', t, hone, hstored, hgrown⟩ :=
    storeObject_once (single_info sha256) (by decide) hrepeated hchanged
  rw [valuesAt_eq "info" (by decide)] at hone
  generalize storeObject sha256 room .payload payload s = final at *
  cases t with
  | object info =>
      obtain ⟨inner, hinner⟩ : ∃ inner, storeObject sha256 room' .info info
          (s'.withPayload (resetInfo · false true)) = inner := ⟨_, rfl⟩
      have hgrown' : Grows inner final := hinner ▸ hgrown
      have hcounterOf : counterOf final = counterOf inner :=
        hinner ▸ congrArg Prod.snd hstored
      have hseen' : final.payload.tokenUsageSeen = inner.payload.tokenUsageSeen :=
        congrArg Prod.fst hcounterOf
      have hobject' : final.payload.tokenUsageObject = inner.payload.tokenUsageObject :=
        congrArg (fun parts => parts.2.1) hcounterOf
      have husage' : final.payload.tokenUsage = inner.payload.tokenUsage :=
        congrArg (fun parts => parts.2.2) hcounterOf
      obtain ⟨usage, hmember, hcomponents, htotal⟩ := usage_of_info hinner rfl
        (Bool.eq_false_of_not_eq_true fun h => not_of_eq_false hinfo (hgrown'.info h))
        (Bool.eq_false_of_not_eq_true fun h => not_of_eq_false hcounter (hgrown'.counter h))
        (hseen' ▸ husage) (hobject' ▸ husageObject) (husage' ▸ hvalid)
      rw [husage']
      exact ⟨info, usage, hone, hmember, hcomponents, htotal⟩
  | _ =>
      have hmark : final.payload.infoObject = false := congrArg (fun parts => parts.1.2.2) hstored
      rw [hobject] at hmark
      cases hmark

/-- The type of a payload that has one. -/
theorem type_of_payload {payload : Fields} (hstore : storeObject sha256 room .payload payload s = final)
    (hempty : s.payload = {}) (hrepeated : .type ∉ final.payloadDuplicates)
    (hseen : final.payload.eventTypeSeen = true) : (membersNamed "type" payload).length = 1 := by
  subst hstore
  have hchanged : eventOf (storeObject sha256 room .payload payload s) ≠ eventOf s := fun h => by
    have hmark : (storeObject sha256 room .payload payload s).payload.eventTypeSeen =
        s.payload.eventTypeSeen := congrArg (fun parts => parts.2.1) h
    rw [hseen, hempty] at hmark
    cases hmark
  obtain ⟨-, -, t, hone, -⟩ :=
    storeObject_once (single_payloadType sha256) (by decide) hrepeated hchanged
  rw [valuesAt_eq "type" (by decide)] at hone
  rw [hone]
  rfl

theorem payloadSeen_of_counterEvent (hevent : s.counterEvent = true) (h : s.payloadValid = true) :
    s.payloadSeen = true ∧ s.payloadObject = true ∧
      (s.outerIs "event_msg" = true → s.payload.eventTypeSeen = true) := by
  obtain ⟨-, houter⟩ := outerType_of_counterEvent hevent
  unfold SessionRecordSummary.payloadValid at h
  split at h
  case isTrue hseen =>
    simp only [Bool.and_eq_true] at h
    refine ⟨hseen, h.1.1, fun hmessage => ?_⟩
    have htype := h.2
    rw [if_pos hmessage, Bool.and_eq_true] at htype
    exact htype.1
  case isFalse =>
    have hbare : s.outerType.any SessionRecordSummary.bareTypes.contains = false := by
      obtain houter | houter := houter
      all_goals
        rw [houter]
        decide
    rw [hbare] at h
    cases h

/-- A record whose counter is valid and not marked. -/
theorem counterPath_of_storeObject {root : Fields} (hstore : storeObject sha256 room .root root {} = final)
    (hevent : final.counterEvent = true) (hduplicates : final.importantDuplicates = false)
    (htime : final.timestampSeen = true) (hpayload : final.payloadValid = true)
    (hseen : final.payload.infoSeen = true) (hobject : final.payload.infoObject = true)
    (husage : final.payload.tokenUsageSeen = true)
    (husageObject : final.payload.tokenUsageObject = true)
    (hvalid : final.payload.tokenUsage.malformed = false) :
    ∃ payload info usage snapshot, CounterPath root payload info usage snapshot ∧
      final.payload.tokenUsage.validSnapshot = some snapshot := by
  obtain ⟨-, houter⟩ := outerType_of_counterEvent hevent
  obtain ⟨hroot, hpayloadMarks, hinfo, hcounter⟩ := marks_of_counterEvent hevent hduplicates
  obtain ⟨hpayloadSeen, hpayloadObject, htypeSeen⟩ := payloadSeen_of_counterEvent hevent hpayload
  have htypeChanged : final.outerType ≠ ({} : SessionRecordSummary).outerType := by
    obtain houter | houter := houter
    all_goals
      rw [houter]
      exact nofun
  have htimeChanged : (final.timestampSeen, final.timestamp, final.timestampMalformed) ≠
      (false, none, false) := fun h => by
    rw [htime] at h
    cases congrArg Prod.fst h
  have hpayloadChanged : (final.payloadSeen, final.payloadObject, final.payload) ≠
      (false, false, {}) := fun h => by
    rw [hpayloadSeen] at h
    cases congrArg Prod.fst h
  subst hstore
  obtain ⟨_, _, ty, htype, htypeStored, -⟩ :=
    storeObject_once (single_rootType sha256) (by decide) hroot.1 htypeChanged
  obtain ⟨-, -, time, htimestamp, -⟩ :=
    storeObject_once (single_timestamp sha256) (by decide) hroot.2.1 htimeChanged
  obtain ⟨room', s', t, hone, hstored, hgrown⟩ :=
    storeObject_once (single_payload sha256) (by decide) hroot.2.2 hpayloadChanged
  rw [valuesAt_eq "type" (by decide)] at htype
  rw [valuesAt_eq "timestamp" (by decide)] at htimestamp
  rw [valuesAt_eq "payload" (by decide)] at hone
  generalize storeObject sha256 room .root root {} = final at *
  cases t with
  | object payload =>
      obtain ⟨inner, hinner⟩ : ∃ inner, storeObject sha256 room' .payload payload
          { s' with payloadSeen := true, payload := {}, payloadObject := true } = inner := ⟨_, rfl⟩
      have hgrown' : Grows inner final := hinner ▸ hgrown
      have hsame : final.payload = inner.payload := hinner ▸ congrArg (fun parts => parts.2.2) hstored
      rw [hsame] at hseen hobject husage husageObject hvalid htypeSeen ⊢
      obtain ⟨info, usage, hinfoOnce, husageOnce, hcomponents, htotal⟩ := usage_of_payload hinner rfl
        (fun h => hpayloadMarks.2 (hgrown'.payload h))
        (Bool.eq_false_of_not_eq_true fun h => not_of_eq_false hinfo (hgrown'.info h))
        (Bool.eq_false_of_not_eq_true fun h => not_of_eq_false hcounter (hgrown'.counter h))
        hseen hobject husage husageObject hvalid
      obtain ⟨total, htotal⟩ := Option.isSome_iff_exists.mp htotal
      have hmessage : membersNamed "type" root = [.string "event_msg".toList] →
          (membersNamed "type" payload).length = 1 := by
        intro hmember
        obtain rfl : ty = .string "event_msg".toList := by
          rw [htype] at hmember
          exact (List.cons.inj hmember).1
        have hout : final.outerType = some "event_msg".toList := htypeStored
        refine type_of_payload hinner rfl (fun h => hpayloadMarks.1 (hgrown'.payload h)) ?_
        exact htypeSeen (decide_eq_true hout)
      have htotalMember := hcomponents "total_tokens" .totalTokens (by decide) rfl
      rw [show inner.payload.tokenUsage.component .totalTokens = some total from htotal]
        at htotalMember
      refine ⟨payload, info, usage, ⟨total, inner.payload.tokenUsage.input,
        inner.payload.tokenUsage.cachedInput, inner.payload.tokenUsage.cacheWriteInput,
        inner.payload.tokenUsage.output⟩, ?_, ?_⟩
      · exact {
          type_once := by rw [htype]; rfl
          timestamp_once := by rw [htimestamp]; rfl
          payload_once := hone
          payloadType_once := hmessage
          info_once := hinfoOnce
          usage_once := husageOnce
          total := htotalMember
          input := hcomponents "input_tokens" .inputTokens (by decide) rfl
          cachedInput := hcomponents "cached_input_tokens" .cachedInputTokens (by decide) rfl
          cacheWriteInput :=
            hcomponents "cache_write_input_tokens" .cacheWriteInputTokens (by decide) rfl
          output := hcomponents "output_tokens" .outputTokens (by decide) rfl }
      · unfold TokenUsageSummary.validSnapshot TokenUsageSummary.snapshot
        rw [hvalid, htotal]
        rfl
  | _ =>
      have hmark : final.payloadObject = false := congrArg (fun parts => parts.2.1) hstored
      rw [hpayloadObject] at hmark
      cases hmark

end

/-- A record whose counter is used has one member at each place on the way to it, and the counter
says what these members say. -/
theorem counter_not_duplicated (sha256 : Text → Text) (rfc3339 : Rfc3339) {reader : BufReader}
    {line rest : List UInt8} {summary : SessionRecordSummary} {count : Nat}
    (hreader : reader.bytes = line ++ lineFeed :: rest) (hlf : lineFeed ∉ line)
    (hpresent : (readSessionRecord sha256 reader).1 = .present summary count)
    (hcounter : summary.counterEvent = true) (hparsed : summary.usageUnparsed rfc3339 = false)
    (hinfo : summary.payload.infoNull = false) :
    ∃ root payload info usage snapshot, Document line (.object root) ∧
      summary.tokenSnapshot = some snapshot ∧ CounterPath root payload info usage snapshot := by
  obtain ⟨t, hdocument, -, rfl⟩ := document_of_present sha256 hreader hlf hpresent
  clear hpresent
  obtain ⟨final, hfinal⟩ : ∃ final,
      storeObjectOr (storeObject sha256 maxDepth) .root {} {} t = final := ⟨_, rfl⟩
  have hclose : summarize sha256 t = closeRecord final := by
    unfold summarize
    rw [hfinal]
  rw [hclose] at hcounter hparsed hinfo ⊢
  have hparts : closeRecord final =
      { final with
        duplicateFields := final.importantDuplicates
        unknownEnvelopeField := (closeRecord final).unknownEnvelopeField } := by
    unfold closeRecord
    dsimp only
    split
    · rfl
    · rfl
  rw [hparts] at hcounter hparsed hinfo ⊢
  have hevent : final.counterEvent = true := hcounter
  unfold SessionRecordSummary.usageUnparsed at hparsed
  rw [if_pos hcounter] at hparsed
  split at hparsed
  · cases hparsed
  case isFalse hnot =>
    simp only [not_or, not_not, Bool.not_eq_false] at hnot
    obtain ⟨henvelope, hseen⟩ := hnot
    rw [hinfo] at hparsed
    simp only [Bool.false_eq_true, if_false, Bool.or_eq_false_iff, Bool.not_eq_false'] at hparsed
    obtain ⟨⟨⟨⟨hobject, husage⟩, husageObject⟩, -⟩, hvalid⟩ := hparsed
    simp only [SessionRecordSummary.contextEnvelopeValid, SessionRecordSummary.timestampValid,
      Bool.and_eq_true, Bool.not_eq_true'] at henvelope
    obtain ⟨⟨hduplicates, ⟨-, htime⟩, -⟩, hpayload⟩ := henvelope
    cases t with
    | object root =>
        obtain ⟨payload, info, usage, snapshot, hpath, hsnapshot⟩ := counterPath_of_storeObject hfinal
          hevent hduplicates htime hpayload hseen hobject husage husageObject hvalid
        refine ⟨root, payload, info, usage, snapshot, hdocument, ?_, hpath⟩
        have hpayloadObject : final.payloadObject = true :=
          (payloadSeen_of_counterEvent hevent hpayload).2.1
        unfold SessionRecordSummary.tokenSnapshot
        rw [hcounter]
        show (if true && final.payloadObject then final.payload.tokenUsage.validSnapshot else none) =
          some snapshot
        rw [hpayloadObject, hsnapshot]
        rfl
    | _ =>
        subst hfinal
        cases hevent

/-! ### A counter of its total alone -/

/-- A record with the total of its counter and no other component. -/
def totalOnlyLine : List UInt8 :=
  ("\x7b\"type\":\"token_count\",\"timestamp\":\"2026-01-01T00:00:00Z\",\"payload\":\x7b\"info\":" ++
    "\x7b\"total_token_usage\":\x7b\"total_tokens\":7\x7d\x7d\x7d\x7d").toList.map
      fun c => UInt8.ofNat c.toNat

def totalOnlyUsage : Fields := [("total_tokens".toList, .number [0x37])]

def totalOnlyInfo : Fields := [("total_token_usage".toList, .object totalOnlyUsage)]

def totalOnlyPayload : Fields := [("info".toList, .object totalOnlyInfo)]

def totalOnlyRecord : Fields :=
  [("type".toList, .string "token_count".toList),
    ("timestamp".toList, .string "2026-01-01T00:00:00Z".toList),
    ("payload".toList, .object totalOnlyPayload)]

/-- The second that the record names. -/
def totalOnlyTime : Rfc3339 := fun text =>
  if text = "2026-01-01T00:00:00Z".toList then some 1767225600 else none

set_option maxRecDepth 20000 in
theorem totalOnly_tree : (documentTree 119 maxDepth).runOn totalOnlyLine =
    some (.object totalOnlyRecord, []) := by
  rfl

theorem totalOnly_document : Document totalOnlyLine (.object totalOnlyRecord) :=
  (documentTree_sound totalOnly_tree).2.1

theorem totalOnly_present : (readSessionRecord id ⟨totalOnlyLine ++ [lineFeed], fun _ => 0⟩).1 =
    .present (summarize id (.object totalOnlyRecord)) 118 := by
  have hlf : lineFeed ∉ totalOnlyLine := by decide +kernel
  have hnesting : (Json.object totalOnlyRecord).nesting ≤ maxDepth := by decide +kernel
  have hlength : totalOnlyLine.length = 117 := by decide +kernel
  have hle : totalOnlyLine.length ≤ u64Max := by
    rw [hlength]
    decide
  have hreader : (⟨totalOnlyLine ++ [lineFeed], fun _ => 0⟩ : BufReader).bytes =
      totalOnlyLine ++ lineFeed :: [] := rfl
  have hpresent := present_of_document id hreader hlf totalOnly_document hnesting hle
  rw [hlength] at hpresent
  exact hpresent

/-- The counter of a record is used though it has no member at one of its components. -/
theorem totalOnly_counted :
    ∃ summary count,
      (readSessionRecord id ⟨totalOnlyLine ++ [lineFeed], fun _ => 0⟩).1 = .present summary count ∧
      summary.counterEvent = true ∧ summary.usageUnparsed totalOnlyTime = false ∧
      summary.payload.infoNull = false ∧
      ∀ root payload info usage, Document totalOnlyLine (.object root) →
        membersNamed "payload" root = [.object payload] →
        membersNamed "info" payload = [.object info] →
        membersNamed "total_token_usage" info = [.object usage] →
        (membersNamed "input_tokens" usage).length ≠ 1 := by
  refine ⟨_, _, totalOnly_present, by decide +kernel, by decide +kernel, by decide +kernel, ?_⟩
  intro root payload info usage hdocument hpayload hinfo husage
  obtain rfl : root = totalOnlyRecord :=
    Json.object.inj (document_unique hdocument totalOnly_document)
  have hpayload' : membersNamed "payload" totalOnlyRecord = [.object totalOnlyPayload] := by rfl
  obtain rfl : totalOnlyPayload = payload :=
    Json.object.inj (List.cons.inj (hpayload'.symm.trans hpayload)).1
  have hinfo' : membersNamed "info" totalOnlyPayload = [.object totalOnlyInfo] := by rfl
  obtain rfl : totalOnlyInfo = info :=
    Json.object.inj (List.cons.inj (hinfo'.symm.trans hinfo)).1
  have husage' : membersNamed "total_token_usage" totalOnlyInfo = [.object totalOnlyUsage] := by rfl
  obtain rfl : totalOnlyUsage = usage :=
    Json.object.inj (List.cons.inj (husage'.symm.trans husage)).1
  decide +kernel

theorem totalOnly_counter :
    ∃ root payload info usage snapshot, Document totalOnlyLine (.object root) ∧
      (summarize id (.object totalOnlyRecord)).tokenSnapshot = some snapshot ∧
      CounterPath root payload info usage snapshot := by
  have hreader : (⟨totalOnlyLine ++ [lineFeed], fun _ => 0⟩ : BufReader).bytes =
      totalOnlyLine ++ lineFeed :: [] := rfl
  exact counter_not_duplicated id totalOnlyTime hreader (by decide +kernel) totalOnly_present
    (by decide +kernel) (by decide +kernel) (by decide +kernel)

end CodexInfo.SessionInput
