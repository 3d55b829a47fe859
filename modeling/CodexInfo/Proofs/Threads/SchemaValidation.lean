import CodexInfo.Threads.Draft07
import Mathlib.Data.Int.Cast.Lemmas

/-!
# `CodexInfo.Proofs.Threads.SchemaValidation`: the walk decides what the schema asks for

* `resolveLocalReference_eq`: a reference leads where the draft has it.
* `settles_keywords`: the keywords of a schema, one after another, decide its clauses.
* `judges_validateNode`: the walk, by induction on the levels that are left.
* `enlarges_validateNode`: a walk with larger limits.
* `schema_verdict`: the result.
-/

set_option autoImplicit false

namespace CodexInfo.Threads

open CodexInfo.Lib (Checker Clause JsonNumber JsonValue)
open CodexInfo.Lib.Checker (Decides Extends Judges)
open CodexInfo.Lib.JsonValue (Canonical Ordered member Same)
open CodexInfo.Contract (Text)
open Draft07 (IntegerLiteral KeywordShapes Node Reaches WellFormed clauses keyword keywordClauses
  subschemas)

/-! ### Pointers -/

theorem replacePair_pair (first second new : Char) (rest : Text) :
    replacePair first second new (first :: second :: rest)
      = new :: replacePair first second new rest := by
  rw [replacePair, if_pos ⟨rfl, rfl⟩]

theorem replacePair_cons {first second : Char} (new : Char) {c : Char} {text : Text}
    (h : c = first → text.head? ≠ some second) :
    replacePair first second new (c :: text) = c :: replacePair first second new text := by
  cases text with
  | nil => rfl
  | cons d rest =>
      rw [replacePair, if_neg]
      rintro ⟨hc, hd⟩
      exact h hc (congrArg some hd)

theorem replacePair_head (first second new : Char) (text : Text) :
    (replacePair first second new text).head? = text.head? ∨
      (replacePair first second new text).head? = some new := by
  fun_cases replacePair first second new text with
  | case1 => exact Or.inr rfl
  | case2 => exact Or.inl rfl
  | case3 => exact Or.inl rfl

/-- The two replacements of the walk read a token as the draft does. No replaced character takes
part in the second one. -/
theorem decodeToken_eq (encoded : Text) : decodeToken encoded = Draft07.unescape encoded := by
  unfold decodeToken
  induction encoded using Draft07.unescape.induct with
  | case1 rest ih =>
      rw [Draft07.unescape, ← ih, replacePair_cons '/' (fun _ => by simp),
        replacePair_cons '/' (fun h => absurd h (by decide)), replacePair_pair]
  | case2 rest ih =>
      rw [Draft07.unescape, ← ih, replacePair_pair,
        replacePair_cons '~' (fun h => absurd h (by decide))]
  | case3 c rest h0 h1 ih =>
      have hzero : c = '~' → rest.head? ≠ some '0' := by
        rintro rfl hhead
        obtain ⟨rest', rfl⟩ := List.head?_eq_some_iff.mp hhead
        exact h0 rest' rfl rfl
      have hone : c = '~' → rest.head? ≠ some '1' := by
        rintro rfl hhead
        obtain ⟨rest', rfl⟩ := List.head?_eq_some_iff.mp hhead
        exact h1 rest' rfl rfl
      have hkept : c = '~' → (replacePair '~' '1' '/' rest).head? ≠ some '0' := by
        intro hc hhead
        -- What stands behind the character is what stood there, or a new one.
        obtain h | h := replacePair_head '~' '1' '/' rest
        · exact hzero hc (h.symm.trans hhead)
        · exact absurd (h.symm.trans hhead) (by decide)
      rw [replacePair_cons '/' hone, replacePair_cons '~' hkept, ih, Draft07.unescape]
      · exact fun rest' hc hrest => h0 rest' hc hrest
      · exact fun rest' hc hrest => h1 rest' hc hrest
  | case4 => rfl

theorem follow_eq (names : List Text) (value : JsonValue) :
    names.foldlM (fun current encoded => getMember current (decodeToken encoded)) value
      = Draft07.follow value (names.map Draft07.unescape) := by
  induction names generalizing value with
  | nil =>
      cases value <;> rfl
  | cons name names ih =>
      rw [List.foldlM_cons, List.map_cons, decodeToken_eq]
      cases value with
      | object members =>
          show (member members (Draft07.unescape name)).bind _ = _
          rw [Draft07.follow]
          exact congrArg _ (funext fun value => ih value)
      | null | bool | number | string | array => rfl

theorem resolveLocalReference_eq (root : JsonValue) (reference : Text) :
    resolveLocalReference root reference = Draft07.target root reference := by
  unfold resolveLocalReference
  by_cases hroot : reference = "#".toList
  · rw [if_pos hroot, hroot]
    rfl
  · rw [if_neg hroot]
    unfold Draft07.target
    split
    · exact follow_eq _ root
    · rename_i hlocal
      split
      · exact absurd rfl hroot
      · exact absurd rfl (hlocal _)
      · rfl

/-! ### Types -/

theorem matchesSingleType_eq {value : JsonValue} {typeName : Text}
    (hvalue : Canonical IntegerLiteral value) (hknown : typeName ∈ knownTypeNames) :
    ∃ matched, matchesSingleType value typeName = pure matched ∧
      (matched = true ↔ Draft07.HasType value typeName) := by
  have hinteger : isIntegerInstance value = true ↔
      ∃ n, value = .number n ∧ ∃ z : ℤ, n.value = z := by
    cases value with
    | number n =>
        cases n with
        | posInt n => exact ⟨fun _ => ⟨_, rfl, n, rfl⟩, fun _ => by simp [isIntegerInstance, JsonValue.asU64]⟩
        | negInt z => exact ⟨fun _ => ⟨_, rfl, z, rfl⟩, fun _ => by simp [isIntegerInstance, JsonValue.asI64]⟩
        | float q => exact absurd hvalue id
    | null | bool | string | array | object => simp [isIntegerInstance, JsonValue.asI64, JsonValue.asU64]
  simp only [knownTypeNames, List.map_cons, List.map_nil, List.mem_cons, List.not_mem_nil,
    or_false] at hknown
  rcases hknown with rfl | rfl | rfl | rfl | rfl | rfl | rfl
  · refine ⟨value.isNull, rfl, ?_⟩
    cases value <;> simp [JsonValue.isNull, Draft07.HasType]
  · refine ⟨value.asBool.isSome, rfl, ?_⟩
    cases value <;> simp [JsonValue.asBool, Draft07.HasType]
  · refine ⟨value.asObject.isSome, rfl, ?_⟩
    cases value <;> simp [JsonValue.asObject, Draft07.HasType]
  · refine ⟨value.asArray.isSome, rfl, ?_⟩
    cases value <;> simp [JsonValue.asArray, Draft07.HasType]
  · refine ⟨value.asStr.isSome, rfl, ?_⟩
    cases value <;> simp [JsonValue.asStr, Draft07.HasType]
  · refine ⟨value.asNumber.isSome, rfl, ?_⟩
    cases value <;> simp [JsonValue.asNumber, Draft07.HasType]
  · exact ⟨isIntegerInstance value, rfl, hinteger.trans (by simp [Draft07.HasType])⟩

/-- All names are looked at, and one that the instance has is enough. -/
theorem matchesAnyType_eq {value : JsonValue} (hvalue : Canonical IntegerLiteral value)
    {names : List Text} (hknown : ∀ name ∈ names, name ∈ knownTypeNames) (matched : Bool) :
    ∃ matched', matchesAnyType value (names.map .string) matched = pure matched' ∧
      (matched' = true ↔ matched = true ∨ ∃ name ∈ names, Draft07.HasType value name) := by
  induction names generalizing matched with
  | nil => exact ⟨matched, rfl, by simp⟩
  | cons name names ih =>
      obtain ⟨hname, hnames⟩ := List.forall_mem_cons.mp hknown
      obtain ⟨single, hsingle, hiff⟩ := matchesSingleType_eq hvalue hname
      obtain ⟨matched', hrest, hiff'⟩ := ih hnames (matched || single)
      refine ⟨matched', ?_, ?_⟩
      · show (do
          let single ← matchesSingleType value name
          matchesAnyType value (names.map .string) (matched || single)) = pure matched'
        rw [hsingle, pure_bind, hrest]
      · rw [hiff', Bool.or_eq_true, hiff]
        simp only [List.mem_cons, exists_eq_or_imp, or_assoc]

theorem matchesType_eq {value typeValue : JsonValue} (hvalue : Canonical IntegerLiteral value)
    (hshape : (∃ name ∈ knownTypeNames, typeValue = .string name) ∨
      ∃ names : List Text, names ≠ [] ∧ typeValue = .array (names.map .string) ∧
        ∀ name ∈ names, name ∈ knownTypeNames) :
    ∃ matched, matchesType value typeValue = pure matched ∧
      (matched = true ↔ Draft07.typeFact value typeValue) := by
  obtain ⟨name, hname, rfl⟩ | ⟨names, -, rfl, hnames⟩ := hshape
  · obtain ⟨matched, hmatched, hiff⟩ := matchesSingleType_eq hvalue hname
    exact ⟨matched, hmatched, by simp [hiff, Draft07.typeFact, Draft07.typeNames]⟩
  · obtain ⟨matched, hmatched, hiff⟩ := matchesAnyType_eq hvalue hnames false
    refine ⟨matched, hmatched, hiff.trans ?_⟩
    have hstr : (names.map JsonValue.string).filterMap JsonValue.asStr = names := by
      rw [List.filterMap_map]
      exact List.filterMap_some
    simp [Draft07.typeFact, Draft07.typeNames, hstr]

/-! ### Numbers -/

theorem roundCount_eq {n : Nat} (h : n ≤ 2 ^ 53) : roundCount n = n := by
  obtain hlt | rfl := Nat.lt_or_eq_of_le h
  · rw [roundCount, if_pos hlt]
  · decide +kernel

theorem f64Of_eq {n : JsonNumber} (h : IntegerLiteral n) : f64Of n = n.value := by
  cases n with
  | posInt n =>
      show ((roundCount n : Nat) : ℚ) = (n : ℚ)
      rw [roundCount_eq h]
  | negInt z =>
      obtain ⟨hlow, hneg⟩ := h
      have hround : roundCount z.natAbs = z.natAbs := roundCount_eq (by omega)
      have habs : z = -(z.natAbs : ℤ) := by omega
      show -((roundCount z.natAbs : Nat) : ℚ) = (z : ℚ)
      have hcast : (z : ℚ) = ((-(z.natAbs : ℤ) : ℤ) : ℚ) := congrArg _ habs
      rw [hround, hcast, Int.cast_neg, Int.cast_natCast]
  | float q => exact absurd h id

theorem oneForm_integerLiteral : CodexInfo.Lib.JsonValue.OneForm IntegerLiteral := by
  intro a b ha hb h
  cases a with
  | posInt n =>
      cases b with
      | posInt m => exact congrArg _ (Nat.cast_injective h)
      | negInt z =>
          have h : ((n : ℤ) : ℚ) = (z : ℚ) := h
          have hz := hb.2
          have := Int.cast_injective h
          omega
      | float q => exact absurd hb id
  | negInt z =>
      cases b with
      | posInt m =>
          have h : (z : ℚ) = ((m : ℤ) : ℚ) := h
          have hz := ha.2
          have := Int.cast_injective h
          omega
      | negInt z' => exact congrArg _ (Int.cast_injective h)
      | float q => exact absurd hb id
  | float q => exact absurd ha id

/-! ### Keywords without subschemas -/

section
variable {valid invalid : Node → Prop} {value : JsonValue}

/-- Checks of the walk that decide some clauses. -/
abbrev Settles (valid invalid : Node → Prop) (p : Validation Unit) (asked : List (Clause Node)) :
    Prop :=
  Decides ThreadContractError.invalidItem .validationBudgetExceeded valid invalid p asked

theorem settles_itemRequires {condition : Bool} {fact : Prop} (h : condition = true ↔ fact) :
    Settles valid invalid (itemRequires condition) [.holds fact] :=
  Decides.fact h

theorem settles_onKeyword {members : List (Text × JsonValue)} {name : String}
    {check : JsonValue → Validation Unit} {asked : JsonValue → List (Clause Node)}
    (h : ∀ value, keyword members name = some value →
      Settles valid invalid (check value) (asked value)) :
    Settles valid invalid (onKeyword members name check) (Draft07.onKeyword members name asked) := by
  have hmember : keyword members name = member members name.toList := rfl
  unfold onKeyword Draft07.onKeyword
  cases hvalue : keyword members name with
  | none =>
      rw [← hmember, hvalue]
      exact Decides.nil
  | some value =>
      rw [← hmember, hvalue]
      exact h value hvalue

theorem settles_type {typeValue : JsonValue} (hvalue : Canonical IntegerLiteral value)
    (hshape : (∃ name ∈ knownTypeNames, typeValue = .string name) ∨
      ∃ names : List Text, names ≠ [] ∧ typeValue = .array (names.map .string) ∧
        ∀ name ∈ names, name ∈ knownTypeNames) :
    Settles valid invalid (do
        let matched ← matchesType value typeValue
        itemRequires matched) [.holds (Draft07.typeFact value typeValue)] := by
  obtain ⟨matched, hmatched, hiff⟩ := matchesType_eq hvalue hshape
  rw [hmatched, pure_bind]
  exact settles_itemRequires hiff

theorem settles_enum {items : List JsonValue} (hvalue : Canonical IntegerLiteral value)
    (hitems : Canonical IntegerLiteral (.array items)) :
    Settles valid invalid (do
        let values ← orSchema (JsonValue.array items).asArray
        itemRequires (values.any fun candidate => decide (candidate = value)))
      [.holds (Draft07.enumFact value (.array items))] := by
  refine settles_itemRequires ?_
  simp only [List.any_eq_true, decide_eq_true_eq]
  constructor
  · rintro ⟨candidate, hmem, rfl⟩
    exact ⟨items, rfl, candidate, hmem, CodexInfo.Lib.JsonValue.same_refl candidate⟩
  · rintro ⟨candidates, hcandidates, candidate, hmem, hsame⟩
    obtain rfl := JsonValue.array.inj hcandidates
    exact ⟨candidate, hmem,
      Canonical.eq_of_same oneForm_integerLiteral _ _ (hitems.items candidate hmem) hvalue hsame⟩

theorem settles_required {object : List (Text × JsonValue)} {names : List Text} :
    Settles valid invalid (validateRequired object (.array (names.map .string)))
      [.holds (Draft07.requiredFact (.object object) (.array (names.map .string)))] := by
  have heach : Settles valid invalid
      (validateRequired object (.array (names.map .string)))
      ((names.map JsonValue.string).flatMap fun name =>
        [.holds (∀ text, name = .string text → text ∈ object.map (·.1))]) := by
    refine Decides.forEach fun name hname => ?_
    obtain ⟨text, -, rfl⟩ := List.mem_map.mp hname
    refine settles_itemRequires ?_
    rw [Option.isSome_iff_ne_none, ne_eq, CodexInfo.Lib.JsonValue.member_eq_none_iff, not_not]
    exact ⟨fun hmem other hother => JsonValue.string.inj hother ▸ hmem, fun h => h text rfl⟩
  refine heach.gatherFacts.congr (fun hall => ?_) fun hsome => ?_
  · have hfact := List.forall_mem_singleton.mp hall
    refine List.forall_mem_singleton.mpr fun other texts hother htexts name hname => ?_
    rw [← JsonValue.object.inj hother]
    exact hfact _ (JsonValue.array.inj htexts ▸ hname) name rfl
  · obtain ⟨clause, hmem, hbroken⟩ := hsome
    obtain rfl := List.mem_singleton.mp hmem
    refine ⟨_, List.mem_singleton_self _, fun hfact => hbroken fun name hname text htext => ?_⟩
    exact hfact object _ rfl rfl text (htext ▸ hname)

theorem settles_minimum {minimum : JsonNumber} (hvalue : Canonical IntegerLiteral value)
    (hminimum : IntegerLiteral minimum) :
    Settles valid invalid (validateMinimum value (.number minimum))
      [.holds (Draft07.minimumFact value (.number minimum))] := by
  unfold validateMinimum Draft07.minimumFact
  cases value with
  | number n =>
      refine settles_itemRequires ?_
      rw [decide_eq_true_iff, f64Of_eq hminimum, f64Of_eq hvalue]
      refine ⟨fun h other m hother hm => ?_, fun h => h n minimum rfl rfl⟩
      rw [← JsonValue.number.inj hother, ← JsonValue.number.inj hm]
      exact h
  | null | bool | string | array | object =>
      intro _
      refine List.forall_mem_singleton.mpr fun _ _ hother => ?_
      cases hother

theorem settles_minLength {minimum : Nat} :
    Settles valid invalid (validateMinLength value (.number (.posInt minimum)))
      [.holds (Draft07.minLengthFact value (.number (.posInt minimum)))] := by
  unfold validateMinLength Draft07.minLengthFact
  cases value with
  | string s =>
      refine settles_itemRequires ?_
      rw [Bool.not_eq_true', decide_eq_false_iff_not, Nat.not_lt]
      constructor
      · rintro h other m hother hm
        rw [← JsonValue.string.inj hother, ← JsonValue.number.inj hm]
        exact Nat.cast_le.mpr h
      · exact fun h => Nat.cast_le.mp (h s (.posInt minimum) rfl rfl : ((minimum : ℚ)) ≤ _)
  | null | bool | number | array | object =>
      intro _
      refine List.forall_mem_singleton.mpr fun _ _ hother => ?_
      cases hother

theorem integer_of_value {n : JsonNumber} (h : IntegerLiteral n) {z : ℤ} (hz : n.value = z) :
    -2 ^ 53 ≤ z ∧ z ≤ 2 ^ 53 ∧ (JsonValue.number n).asI64 = some z ∧
      (JsonValue.number n).asU64 = if 0 ≤ z then some z.toNat else none := by
  cases n with
  | posInt m =>
      have hcast : ((m : ℤ) : ℚ) = (z : ℚ) := hz
      obtain rfl := Int.cast_injective hcast
      have hm : m ≤ 2 ^ 53 := h
      refine ⟨by omega, by omega, if_pos (by omega), ?_⟩
      rw [if_pos (Int.natCast_nonneg m), Int.toNat_natCast]
      rfl
  | negInt m =>
      obtain rfl := Int.cast_injective hz
      obtain ⟨hlow, hneg⟩ := h
      exact ⟨hlow, by omega, rfl, (if_neg (by omega)).symm⟩
  | float q => exact absurd h id

/-- The range of each format, where the number is a literal. -/
theorem matchesIntegerFormat_iff {n : JsonNumber} (h : IntegerLiteral n) {z : ℤ} (hz : n.value = z)
    (format : Text) :
    matchesIntegerFormat (.number n) format = true ↔ Draft07.InFormat format z := by
  obtain ⟨hlow, hhigh, hsigned, hunsigned⟩ := integer_of_value h hz
  have hchain : matchesIntegerFormat (.number n) format =
      if format = "int32".toList then
        (JsonValue.number n).asI64.any fun n => decide (-2147483648 ≤ n ∧ n ≤ 2147483647)
      else if format = "int64".toList then (JsonValue.number n).asI64.isSome
      else if format = "uint".toList ∨ format = "uint64".toList then
        (JsonValue.number n).asU64.isSome
      else if format = "uint16".toList then
        (JsonValue.number n).asU64.any fun n => decide (n ≤ 65535)
      else if format = "uint32".toList then
        (JsonValue.number n).asU64.any fun n => decide (n ≤ 4294967295)
      else true := by
    cases n with
    | posInt m => rfl
    | negInt m => rfl
    | float q => exact absurd h id
  rw [hchain, hsigned, hunsigned]
  unfold Draft07.InFormat
  -- One format after another. Each other name in the list is a different one.
  by_cases h32 : format = "int32".toList
  · subst h32
    simp
    omega
  by_cases h64 : format = "int64".toList
  · subst h64
    simp
    omega
  by_cases hu : format = "uint".toList
  · subst hu
    by_cases hnonneg : 0 ≤ z
    all_goals simp [hnonneg]
    omega
  by_cases hu64 : format = "uint64".toList
  · subst hu64
    by_cases hnonneg : 0 ≤ z
    all_goals simp [hnonneg]
    omega
  by_cases hu16 : format = "uint16".toList
  · subst hu16
    by_cases hnonneg : 0 ≤ z
    all_goals simp [hnonneg]
    omega
  by_cases hu32 : format = "uint32".toList
  · subst hu32
    by_cases hnonneg : 0 ≤ z
    all_goals simp [hnonneg]
    omega
  · simp only [h32, h64, hu, hu64, hu16, hu32, if_false, or_self, false_implies, and_true]

/-- A format without a range says nothing. -/
theorem inFormat_of_not_mem {format : Text} (h : format ∉ integerFormats) (z : ℤ) :
    Draft07.InFormat format z := by
  simp only [integerFormats, List.map_cons, List.map_nil, List.mem_cons, List.not_mem_nil, or_false,
    not_or] at h
  obtain ⟨h32, h64, hu, hu16, hu32, hu64⟩ := h
  exact ⟨(absurd · h32), (absurd · h64), (absurd · hu), (absurd · hu16), (absurd · hu32),
    (absurd · hu64)⟩

theorem settles_format {format : Text} (hvalue : Canonical IntegerLiteral value) :
    Settles valid invalid (validateFormat value (.string format))
      [.holds (Draft07.formatFact value (.string format))] := by
  refine settles_itemRequires ?_
  rw [Bool.not_eq_true', ← Bool.not_eq_true, Bool.and_eq_true, Bool.and_eq_true, Bool.not_eq_true',
    decide_eq_true_iff]
  cases value with
  | number n =>
      obtain ⟨z, hz⟩ : ∃ z : ℤ, n.value = z := by
        cases n with
        | posInt m => exact ⟨m, rfl⟩
        | negInt m => exact ⟨m, rfl⟩
        | float q => exact absurd hvalue id
      have hinteger : isIntegerInstance (.number n) = true := by
        rw [isIntegerInstance, (integer_of_value hvalue hz).2.2.1]
        rfl
      have hmatches := matchesIntegerFormat_iff hvalue hz format
      constructor
      · intro h other z' name hother hz' hname
        obtain rfl := JsonValue.number.inj hother
        obtain rfl := JsonValue.string.inj hname
        obtain rfl := Int.cast_injective (hz.symm.trans hz')
        by_cases hmem : format ∈ integerFormats
        · refine hmatches.mp ?_
          by_contra hnot
          exact h ⟨⟨hinteger, hmem⟩, Bool.eq_false_iff.mpr hnot⟩
        · exact inFormat_of_not_mem hmem z
      · rintro h ⟨-, hnot⟩
        have hholds := hmatches.mpr (h n z format rfl hz rfl)
        rw [hnot] at hholds
        cases hholds
  | null | bool | string | array | object =>
      refine iff_of_true (fun h => ?_) fun _ _ _ hother => ?_
      · cases h.1.1
      · cases hother

end

/-! ### Keywords with subschemas -/

section
variable {root : JsonValue} {valid invalid : Node → Prop}
  {check : JsonValue → JsonValue → Validation Unit}

/-- A check that judges instances under some schemas. -/
abbrev JudgesUnder (valid invalid : Node → Prop) (check : JsonValue → JsonValue → Validation Unit)
    (schemas : List JsonValue) : Prop :=
  ∀ value schema, Canonical IntegerLiteral value → schema ∈ schemas →
    Judges ThreadContractError.invalidItem .validationBudgetExceeded valid invalid
      (check value schema) (schema, value)

theorem judges_true (hclosed : CodexInfo.Lib.Closed (clauses root) valid invalid)
    (value : JsonValue) : valid (.bool true, value) :=
  hclosed.valid_of_met _ fun _ hmem => absurd hmem List.not_mem_nil

theorem judges_false (hclosed : CodexInfo.Lib.Closed (clauses root) valid invalid)
    (value : JsonValue) : invalid (.bool false, value) :=
  hclosed.invalid_of_broken _ ⟨_, List.mem_singleton_self _, id⟩

theorem settles_additional (hclosed : CodexInfo.Lib.Closed (clauses root) valid invalid)
    {additional property : JsonValue} (hcheck : JudgesUnder valid invalid check [additional])
    (hproperty : Canonical IntegerLiteral property) (hschema : Draft07.IsSchema additional) :
    Settles valid invalid (validateAdditional check additional property)
      [.all [(additional, property)]] := by
  obtain ⟨b, rfl⟩ | ⟨members, rfl⟩ := hschema
  · cases b with
    | true =>
        intro _
        exact List.forall_mem_singleton.mpr
          (List.forall_mem_singleton.mpr (judges_true hclosed property))
    | false =>
        intro _
        exact Or.inr ⟨rfl, _, List.mem_singleton_self _, _, List.mem_singleton_self _,
          judges_false hclosed property⟩
  · exact (hcheck property _ hproperty (List.mem_singleton_self _)).decides

/-- The other members are those of the object without the ones that the schema names. -/
theorem additionalNodes_eq (members object : List (Text × JsonValue)) (additional : JsonValue) :
    Draft07.additionalNodes members object additional
      = object.flatMap fun entry =>
          if (member (Draft07.propertiesOf members) entry.1).isSome then []
          else [(additional, entry.2)] := by
  unfold Draft07.additionalNodes
  induction object with
  | nil => rfl
  | cons entry object ih =>
      rw [List.flatMap_cons, ← ih, List.filter_cons]
      cases member (Draft07.propertiesOf members) entry.1 with
      | none => rfl
      | some value => rfl

theorem settles_properties (hclosed : CodexInfo.Lib.Closed (clauses root) valid invalid)
    {members object : List (Text × JsonValue)} (hshapes : KeywordShapes members)
    (hcheck : JudgesUnder valid invalid check ((Draft07.propertiesOf members).map (·.2)
      ++ (keyword members "additionalProperties").toList))
    (hobject : Canonical IntegerLiteral (.object object)) :
    Settles valid invalid (validateProperties check object members)
      ([.all (Draft07.propertyNodes members object)]
        ++ Draft07.onKeyword members "additionalProperties"
          (fun additional => [.all (Draft07.additionalNodes members object additional)])) := by
  have hadditional : ∀ additional, keyword members "additionalProperties" = some additional →
      ∀ entry ∈ object, Settles valid invalid (validateAdditional check additional entry.2)
        [.all [(additional, entry.2)]] := by
    intro additional hkeyword entry hentry
    refine settles_additional hclosed (fun value schema hvalue hmem => ?_)
      (hobject.members entry hentry) (hshapes.additionalProperties additional hkeyword)
    obtain rfl := List.mem_singleton.mp hmem
    refine hcheck value _ hvalue (List.mem_append_right _ ?_)
    rw [hkeyword]
    exact List.mem_singleton_self _
  have hmember : member members "properties".toList = keyword members "properties" := rfl
  unfold validateProperties
  rw [hmember]
  cases hkeyword : keyword members "properties" with
  | none =>
      have hproperties : Draft07.propertiesOf members = [] := by
        rw [Draft07.propertiesOf, hkeyword]
        rfl
      rw [Draft07.propertyNodes, hproperties]
      refine Decides.append (p := pure ()) Decides.none (settles_onKeyword fun additional hsome => ?_)
      rw [additionalNodes_eq, hproperties]
      exact (Decides.forEach (hadditional additional hsome)).gatherAll
  | some properties =>
      obtain ⟨properties, rfl, hschemas⟩ := hshapes.properties properties hkeyword
      have hproperties : Draft07.propertiesOf members = properties := by
        rw [Draft07.propertiesOf, hkeyword]
        rfl
      rw [hproperties] at hcheck
      refine Decides.append ?_ (settles_onKeyword fun additional hsome => ?_)
      · rw [Draft07.propertyNodes, hproperties]
        refine (Decides.forEach fun entry hentry => ?_).gatherAll
        cases hproperty : member object entry.1 with
        | none => exact Decides.none
        | some property =>
            refine (hcheck property entry.2 (hobject.member hproperty) ?_).decides
            exact List.mem_append_left _ (List.mem_map_of_mem hentry)
      · rw [additionalNodes_eq, hproperties]
        refine (Decides.forEach fun entry hentry => ?_).gatherAll
        cases (member properties entry.1).isSome with
        | true => exact Decides.none
        | false => exact hadditional additional hsome entry hentry

/-- Each item with the schema at its place. -/
theorem zip_eq (tupleSchemas array : List JsonValue) (start : Nat) :
    ((array.zipIdx start).flatMap fun entry =>
        (tupleSchemas[entry.2]?).toList.map fun schema => (schema, entry.1))
      = (tupleSchemas.drop start).zip array := by
  induction array generalizing start with
  | nil => simp
  | cons item array ih =>
      rw [List.zipIdx_cons, List.flatMap_cons, ih (start + 1)]
      by_cases hstart : start < tupleSchemas.length
      · rw [List.drop_eq_getElem_cons hstart, List.getElem?_eq_getElem hstart]
        rfl
      · have hlength : tupleSchemas.length ≤ start := Nat.not_lt.mp hstart
        rw [List.drop_eq_nil_of_le hlength, List.drop_eq_nil_of_le (by omega),
          List.getElem?_eq_none hlength]
        simp

theorem settles_items {items : JsonValue} {array : List JsonValue}
    (hshape : Draft07.IsSchema items ∨ Draft07.AreSchemas items)
    (hcheck : JudgesUnder valid invalid check (Draft07.itemSchemas items))
    (harray : Canonical IntegerLiteral (.array array)) :
    Settles valid invalid (validateItems check array items)
      [.all (Draft07.itemNodes items array)] := by
  have hone : Draft07.itemSchemas items = [items] →
      Settles valid invalid (Checker.forEach (fun item => check item items) array)
        [.all (array.map fun item => (items, item))] := by
    intro hschemas
    rw [hschemas] at hcheck
    have hall : Settles valid invalid (Checker.forEach (fun item => check item items) array)
        [.all (array.flatMap fun item => [(items, item)])] :=
      (Decides.forEach fun item hitem =>
        (hcheck item items (harray.items item hitem) (List.mem_singleton_self _)).decides).gatherAll
    rwa [← List.map_eq_flatMap] at hall
  obtain (⟨b, rfl⟩ | ⟨members, rfl⟩) | ⟨schemas, rfl, -⟩ := hshape
  · exact hone rfl
  · exact hone rfl
  · have hzip := zip_eq schemas array 0
    rw [List.drop_zero] at hzip
    show Settles valid invalid _ [.all (schemas.zip array)]
    rw [← hzip]
    refine (Decides.forEach fun entry hentry => ?_).gatherAll
    have hitem : entry.1 ∈ array := List.fst_mem_of_mem_zipIdx hentry
    cases hschema : schemas[entry.2]? with
    | none => exact Decides.none
    | some schema =>
        exact (hcheck entry.1 schema (harray.items _ hitem) (List.mem_of_getElem? hschema)).decides

section
variable {value : JsonValue} {schemas : List JsonValue}
  (hcheck : JudgesUnder valid invalid check schemas) (hvalue : Canonical IntegerLiteral value)
include hcheck hvalue

theorem counts_branches :
    CodexInfo.Lib.Checker.Counts ThreadContractError.validationBudgetExceeded valid invalid
      (matchingBranches check value (.array schemas)) (Draft07.branchNodes value (.array schemas)) :=
  Judges.countSuccesses (by decide) fun branch hbranch => hcheck value branch hvalue hbranch

theorem settles_oneOf :
    Settles valid invalid (validateOneOf check value (.array schemas))
      [.one (Draft07.branchNodes value (.array schemas))] :=
  (counts_branches hcheck hvalue).one

theorem settles_anyOf :
    Settles valid invalid (validateAnyOf check value (.array schemas))
      [.any (Draft07.branchNodes value (.array schemas))] :=
  (counts_branches hcheck hvalue).any

theorem settles_allOf :
    Settles valid invalid (validateAllOf check value (.array schemas))
      [.all (Draft07.branchNodes value (.array schemas))] := by
  have hall : Settles valid invalid (validateAllOf check value (.array schemas))
      [.all (schemas.flatMap fun branch => [(branch, value)])] :=
    (Decides.forEach fun branch hbranch => (hcheck value branch hvalue hbranch).decides).gatherAll
  rwa [← List.map_eq_flatMap] at hall

end

/-! ### All keywords -/

theorem validateSchemaKeywordShapes_eq {members : List (Text × JsonValue)}
    (h : KeywordShapes members) : validateSchemaKeywordShapes members = true := by
  have hensure : ∀ {value}, Draft07.IsSchema value → ensureSchemaValue value = true := by
    rintro value (⟨b, rfl⟩ | ⟨entries, rfl⟩) <;> rfl
  have hall : ∀ {schemas : List JsonValue}, (∀ schema ∈ schemas, Draft07.IsSchema schema) →
      schemas.all ensureSchemaValue = true :=
    fun hschemas => List.all_eq_true.mpr fun schema hmem => hensure (hschemas schema hmem)
  have hshaped : ∀ (name : String) (shape : JsonValue → Bool),
      (∀ value, keyword members name = some value → shape value = true) →
      shaped members name shape = true := by
    intro name shape hshape
    rw [shaped, Option.all_eq_true]
    exact hshape
  have hbranches : ∀ name ∈ ["oneOf", "anyOf", "allOf"],
      shaped members name shapedBranches = true := by
    intro name hname
    refine hshaped name _ fun value hvalue => ?_
    obtain ⟨schemas, rfl, hschemas⟩ := h.branches name hname value hvalue
    exact hall hschemas
  simp only [validateSchemaKeywordShapes, Bool.and_eq_true]
  refine ⟨⟨⟨⟨⟨⟨⟨⟨⟨?_, ?_⟩, ?_⟩, ?_⟩, ?_⟩, ?_⟩, ?_⟩, ?_⟩, ?_⟩, ?_⟩
  · refine hshaped _ _ fun value hvalue => ?_
    obtain ⟨name, hname, rfl⟩ | ⟨names, hne, rfl, hnames⟩ := h.typeNames value hvalue
    · exact decide_eq_true hname
    · rw [shapedType, Bool.and_eq_true, List.all_map, List.all_eq_true]
      refine ⟨?_, fun name hname => decide_eq_true (hnames name hname)⟩
      cases names with
      | nil => exact absurd rfl hne
      | cons name names => rfl
  · refine hshaped _ _ fun value hvalue => ?_
    obtain ⟨items, rfl⟩ := h.enum value hvalue
    rfl
  · refine hshaped _ _ fun value hvalue => ?_
    obtain ⟨names, rfl⟩ := h.required value hvalue
    show (names.map JsonValue.string).all _ = true
    rw [List.all_map, List.all_eq_true]
    exact fun _ _ => rfl
  · refine hshaped _ _ fun value hvalue => ?_
    obtain ⟨properties, rfl, hschemas⟩ := h.properties value hvalue
    exact List.all_eq_true.mpr fun entry hmem => hensure (hschemas entry hmem)
  · exact hshaped _ _ fun value hvalue => hensure (h.additionalProperties value hvalue)
  · refine hshaped _ _ fun value hvalue => ?_
    obtain (⟨b, rfl⟩ | ⟨entries, rfl⟩) | ⟨schemas, rfl, hschemas⟩ := h.items value hvalue
    · rfl
    · rfl
    · exact hall hschemas
  · exact List.all_eq_true.mpr hbranches
  · refine hshaped _ _ fun value hvalue => ?_
    obtain ⟨n, rfl⟩ := h.minimum value hvalue
    rfl
  · refine hshaped _ _ fun value hvalue => ?_
    obtain ⟨n, rfl⟩ := h.minLength value hvalue
    rfl
  · refine hshaped _ _ fun value hvalue => ?_
    obtain ⟨name, rfl⟩ := h.format value hvalue
    rfl

theorem mem_subschemas_branches {members : List (Text × JsonValue)} {name : String}
    {schemas : List JsonValue} (hreference : keyword members "$ref" = none)
    (hname : name ∈ ["oneOf", "anyOf", "allOf"])
    (hkeyword : keyword members name = some (.array schemas)) {schema : JsonValue}
    (hmem : schema ∈ schemas) : schema ∈ subschemas root (.object members) := by
  rw [subschemas, hreference]
  refine List.mem_append_right _ (List.mem_flatMap.mpr ⟨name, hname, ?_⟩)
  rw [hkeyword]
  exact List.mem_flatMap.mpr ⟨_, List.mem_singleton_self _, hmem⟩

theorem settles_keywords (hclosed : CodexInfo.Lib.Closed (clauses root) valid invalid)
    {members : List (Text × JsonValue)} (hreference : keyword members "$ref" = none)
    (hshapes : KeywordShapes members) (hschema : Canonical IntegerLiteral (.object members))
    (hcheck : JudgesUnder valid invalid check (subschemas root (.object members)))
    {value : JsonValue} (hvalue : Canonical IntegerLiteral value) :
    Settles valid invalid (validateKeywords check members value) (keywordClauses members value) := by
  have hmembers : ∀ {name value}, keyword members name = some value →
      Canonical IntegerLiteral value := fun hkeyword => hschema.member hkeyword
  have hsub : subschemas root (.object members) =
      (Draft07.propertiesOf members).map (·.2)
        ++ (keyword members "additionalProperties").toList
        ++ (keyword members "items").toList.flatMap Draft07.itemSchemas
        ++ ["oneOf", "anyOf", "allOf"].flatMap fun name =>
          (keyword members name).toList.flatMap Draft07.branchesOf := by
    rw [subschemas, hreference]
  have hobject : Settles valid invalid (validateObject check members value)
      (Draft07.objectClauses members value) := by
    unfold validateObject Draft07.objectClauses
    cases value with
    | object object =>
        simp only [JsonValue.asObject, List.append_assoc]
        refine Decides.append (settles_onKeyword fun required hrequired => ?_)
          (settles_properties hclosed hshapes (fun value schema hvalue hmem => ?_) hvalue)
        · obtain ⟨names, rfl⟩ := hshapes.required required hrequired
          exact settles_required
        · refine hcheck value schema hvalue ?_
          rw [hsub]
          exact List.mem_append_left _ (List.mem_append_left _ hmem)
    | null | bool | number | string | array => exact Decides.nil
  have harray : Settles valid invalid (validateArray check members value)
      (Draft07.arrayClauses members value) := by
    unfold validateArray Draft07.arrayClauses
    cases value with
    | array array =>
        refine settles_onKeyword fun items hitems => settles_items (hshapes.items items hitems)
          (fun value schema hvalue hmem => hcheck value schema hvalue ?_) hvalue
        rw [hsub, hitems]
        exact List.mem_append_left _ (List.mem_append_right _
          (List.mem_flatMap.mpr ⟨items, List.mem_singleton_self _, hmem⟩))
    | null | bool | number | string | object => exact Decides.nil
  -- The schemas of a list of branches.
  have hbranch : ∀ {name : String} {p : JsonValue → Validation Unit}
      {asked : JsonValue → List (Clause Node)}, name ∈ ["oneOf", "anyOf", "allOf"] →
      (∀ schemas, JudgesUnder valid invalid check schemas →
        Settles valid invalid (p (.array schemas)) (asked (.array schemas))) →
      Settles valid invalid (onKeyword members name p) (Draft07.onKeyword members name asked) := by
    intro name p asked hname hsettles
    refine settles_onKeyword fun branches hkeyword => ?_
    obtain ⟨schemas, rfl, -⟩ := hshapes.branches name hname branches hkeyword
    exact hsettles schemas fun value schema hvalue hmem =>
      hcheck value schema hvalue (mem_subschemas_branches hreference hname hkeyword hmem)
  unfold validateKeywords keywordClauses
  rw [validateSchemaKeywordShapes_eq hshapes, schemaRequires, if_pos rfl, pure_bind]
  simp only [List.append_assoc]
  refine Decides.append (settles_onKeyword fun typeValue hkeyword =>
    settles_type hvalue (hshapes.typeNames typeValue hkeyword)) ?_
  refine Decides.append (settles_onKeyword fun enumValue hkeyword => ?_) ?_
  · obtain ⟨items, rfl⟩ := hshapes.enum enumValue hkeyword
    exact settles_enum hvalue (hmembers hkeyword)
  refine Decides.append hobject (Decides.append harray ?_)
  refine Decides.append (hbranch (by simp) fun schemas hjudges => settles_oneOf hjudges hvalue) ?_
  refine Decides.append (hbranch (by simp) fun schemas hjudges => settles_anyOf hjudges hvalue) ?_
  refine Decides.append (hbranch (by simp) fun schemas hjudges => settles_allOf hjudges hvalue) ?_
  refine Decides.append (settles_onKeyword fun minimum hkeyword => ?_)
    (Decides.append (settles_onKeyword fun minLength hkeyword => ?_)
      (settles_onKeyword fun format hkeyword => ?_))
  · obtain ⟨n, rfl⟩ := hshapes.minimum minimum hkeyword
    exact settles_minimum hvalue (hmembers hkeyword)
  · obtain ⟨n, rfl⟩ := hshapes.minLength minLength hkeyword
    exact settles_minLength
  · obtain ⟨name, rfl⟩ := hshapes.format format hkeyword
    exact settles_format hvalue

end

/-! ### The schemas of a walk -/

theorem follow_canonical {numbers : JsonNumber → Prop} {names : List Text} {value found : JsonValue}
    (hvalue : Canonical numbers value) (h : Draft07.follow value names = some found) :
    Canonical numbers found := by
  induction names generalizing value with
  | nil =>
      have hsame : Draft07.follow value [] = some value := by cases value <;> rfl
      rw [hsame] at h
      rwa [← Option.some.inj h]
  | cons name names ih =>
      cases value with
      | object members =>
          obtain ⟨next, hnext, hfound⟩ := Option.bind_eq_some_iff.mp h
          exact ih (hvalue.member hnext) hfound
      | null | bool | number | string | array => cases h

theorem target_canonical {numbers : JsonNumber → Prop} {root found : JsonValue} {pointer : Text}
    (hroot : Canonical numbers root) (h : Draft07.target root pointer = some found) :
    Canonical numbers found := by
  unfold Draft07.target at h
  split at h
  · rwa [← Option.some.inj h]
  · exact follow_canonical hroot h
  · cases h

theorem canonical_subschema {numbers : JsonNumber → Prop} {root schema schema' : JsonValue}
    (hroot : Canonical numbers root) (hschema : Canonical numbers schema)
    (hmem : schema' ∈ subschemas root schema) : Canonical numbers schema' := by
  cases schema with
  | object members =>
      have hmembers : ∀ {name value}, keyword members name = some value →
          Canonical numbers value := fun hkeyword => hschema.member hkeyword
      -- A list of schemas is canonical with all its members.
      have hbranches : ∀ {value}, Canonical numbers value →
          ∀ branch ∈ Draft07.branchesOf value, Canonical numbers branch := by
        intro value hvalue branch hbranch
        cases value with
        | array items => exact hvalue.items branch hbranch
        | null | bool | number | string | object => exact absurd hbranch List.not_mem_nil
      rw [subschemas] at hmem
      split at hmem
      · rename_i reference hreference
        obtain ⟨pointer, -, htarget⟩ := Option.bind_eq_some_iff.mp (Option.mem_toList.mp hmem)
        exact target_canonical hroot htarget
      · simp only [List.mem_append, List.mem_map, List.mem_flatMap, Option.mem_toList] at hmem
        obtain ((⟨entry, hentry, rfl⟩ | hadditional) | ⟨items, hitems, hmem⟩) |
          ⟨name, -, branches, hkeyword, hmem⟩ := hmem
        · rw [Draft07.propertiesOf] at hentry
          cases hkeyword : keyword members "properties" with
          | none =>
              rw [hkeyword] at hentry
              exact absurd hentry List.not_mem_nil
          | some properties =>
              have hproperties := hmembers hkeyword
              rw [hkeyword] at hentry
              cases properties with
              | object properties => exact hproperties.members entry hentry
              | null | bool | number | string | array => exact absurd hentry List.not_mem_nil
        · exact hmembers hadditional
        · have hcanonical := hmembers hitems
          cases items with
          | array schemas => exact hcanonical.items schema' hmem
          | null | bool | number | string | object =>
              obtain rfl := List.mem_singleton.mp hmem
              exact hcanonical
        · exact hbranches (hmembers hkeyword) schema' hmem
  | null | bool | number | string | array => exact absurd hmem List.not_mem_nil

theorem canonical_reaches {numbers : JsonNumber → Prop} {root schema : JsonValue}
    (hroot : Canonical numbers root) (h : Reaches root schema) : Canonical numbers schema := by
  induction h with
  | refl => exact hroot
  | tail _ hmem ih => exact canonical_subschema hroot ih hmem

/-! ### The walk -/

/-- A node is counted, or the walk gives up. -/
theorem outcome_spendWork (maxWork work : Nat) :
    (spendWork maxWork).outcome work = (.ok (), work + 1) ∨
      (spendWork maxWork).outcome work = (.error .validationBudgetExceeded, work + 1) := by
  have hspend : (spendWork maxWork).outcome work =
      (if maxWork < work + 1 then throw .validationBudgetExceeded else pure () :
        Validation Unit).outcome (work + 1) := rfl
  rw [hspend]
  by_cases hwork : maxWork < work + 1
  · rw [if_pos hwork]
    exact Or.inr rfl
  · rw [if_neg hwork]
    exact Or.inl rfl

theorem Judges.afterWork {valid invalid : Node → Prop} {maxWork : Nat} {p : Validation Unit}
    {node : Node}
    (h : Judges ThreadContractError.invalidItem .validationBudgetExceeded valid invalid p node) :
    Judges ThreadContractError.invalidItem .validationBudgetExceeded valid invalid
      (spendWork maxWork >>= fun _ => p) node := by
  intro work
  rw [CodexInfo.Lib.Checker.outcome_bind]
  obtain hspend | hspend := outcome_spendWork maxWork work
  · rw [hspend]
    exact h (work + 1)
  · rw [hspend]
    exact Or.inl rfl

/-- By induction on the levels that are left. -/
theorem judges_validateNode {root : JsonValue} (hformed : WellFormed root)
    (hroot : Canonical IntegerLiteral root) (maxWork room : Nat) {schema value : JsonValue}
    (hreach : Reaches root schema) (hvalue : Canonical IntegerLiteral value) :
    Judges ThreadContractError.invalidItem .validationBudgetExceeded
      (CodexInfo.Lib.Valid (clauses root)) (CodexInfo.Lib.Invalid (clauses root))
      (validateNode maxWork root room value schema) (schema, value) := by
  induction room generalizing schema value with
  | zero => exact fun _ => Or.inl rfl
  | succ room ih =>
      have hshaped := hformed schema hreach
      have hclosed : CodexInfo.Lib.Closed (clauses root) _ _ := CodexInfo.Lib.closed_least
      refine Judges.afterWork ?_
      cases schema with
      | bool b =>
          cases b with
          | true => exact fun _ => judges_true hclosed value
          | false => exact fun _ => Or.inr ⟨rfl, judges_false hclosed value⟩
      | object members =>
          refine Decides.judges ?_
          have hmember : keyword members "$ref" = member members "$ref".toList := rfl
          cases hreference : keyword members "$ref" with
          | none =>
              rw [Draft07.ShapedSchema, hreference] at hshaped
              simp only [← hmember, hreference, clauses]
              refine settles_keywords hclosed hreference hshaped (canonical_reaches hroot hreach)
                (fun value schema hvalue hmem => ih (hreach.tail hmem) hvalue) hvalue
          | some reference =>
              rw [Draft07.ShapedSchema, hreference] at hshaped
              obtain ⟨pointer, rfl, hresolves⟩ := hshaped
              obtain ⟨target, htarget⟩ := Option.isSome_iff_exists.mp hresolves
              have hbind : (JsonValue.string pointer).asStr.bind (Draft07.target root) =
                  some target := htarget
              have hmem : target ∈ subschemas root (.object members) := by
                rw [subschemas, hreference]
                exact Option.mem_toList.mpr hbind
              simp only [← hmember, hreference, clauses, hbind]
              have htarget : resolveLocalReference root pointer = some target :=
                (resolveLocalReference_eq root pointer).trans htarget
              show Decides _ _ _ _ (orSchema (resolveLocalReference root pointer) >>= _) _
              rw [htarget]
              exact (ih (hreach.tail hmem) hvalue).decides
      | null | number | string | array => exact absurd hshaped id

/-! ### Larger limits -/

section
variable {check check' : JsonValue → JsonValue → Validation Unit}

/-- Checks that do the same, unless those of the first one give up. -/
abbrev Enlarges (p p' : Validation Unit) : Prop :=
  Extends ThreadContractError.validationBudgetExceeded p p'

theorem enlarges_onKeyword {members : List (Text × JsonValue)} {name : String}
    {p p' : JsonValue → Validation Unit} (h : ∀ value, Enlarges (p value) (p' value)) :
    Enlarges (onKeyword members name p) (onKeyword members name p') := by
  unfold onKeyword
  cases member members name.toList with
  | none => exact Extends.refl _ _
  | some value => exact h value

variable (h : ∀ value schema, Enlarges (check value schema) (check' value schema))
include h

theorem enlarges_additional (additional property : JsonValue) :
    Enlarges (validateAdditional check additional property)
      (validateAdditional check' additional property) := by
  cases additional with
  | bool b => cases b <;> exact Extends.refl _ _
  | object members => exact h property _
  | null | number | string | array => exact Extends.refl _ _

theorem enlarges_properties (object members : List (Text × JsonValue)) :
    Enlarges (validateProperties check object members) (validateProperties check' object members) := by
  unfold validateProperties
  cases member members "properties".toList with
  | none =>
      exact enlarges_onKeyword fun additional =>
        Extends.forEach fun entry => enlarges_additional h additional entry.2
  | some properties =>
      refine (Extends.refl _ _).bind fun properties => Extends.bind ?_ fun _ => ?_
      · refine Extends.forEach fun entry => ?_
        cases member object entry.1 with
        | none => exact Extends.refl _ _
        | some property => exact h property entry.2
      · refine enlarges_onKeyword fun additional => Extends.forEach fun entry => ?_
        cases (member properties entry.1).isSome with
        | true => exact Extends.refl _ _
        | false => exact enlarges_additional h additional entry.2

theorem enlarges_items (array : List JsonValue) (items : JsonValue) :
    Enlarges (validateItems check array items) (validateItems check' array items) := by
  cases items with
  | bool b => exact Extends.forEach fun item => h item _
  | object members => exact Extends.forEach fun item => h item _
  | array schemas =>
      refine Extends.forEach fun entry => ?_
      cases schemas[entry.2]? with
      | none => exact Extends.refl _ _
      | some schema => exact h entry.1 schema
  | null | number | string => exact Extends.refl _ _

/-- A branch that gives up ends the count, so a count that does not give up has all its answers. -/
theorem enlarges_branches (value branches : JsonValue) :
    Extends ThreadContractError.validationBudgetExceeded (matchingBranches check value branches)
      (matchingBranches check' value branches) :=
  (Extends.refl _ _).bind fun _ => Extends.countSuccesses (by decide) fun branch => h value branch

theorem enlarges_keywords (members : List (Text × JsonValue)) (value : JsonValue) :
    Enlarges (validateKeywords check members value) (validateKeywords check' members value) := by
  unfold validateKeywords
  refine (Extends.refl _ _).bind fun _ => (Extends.refl _ _).bind fun _ =>
    (Extends.refl _ _).bind fun _ => Extends.bind ?_ fun _ => Extends.bind ?_ fun _ =>
    (enlarges_onKeyword fun branches => ?_).bind fun _ =>
    (enlarges_onKeyword fun branches => ?_).bind fun _ =>
    (enlarges_onKeyword fun branches => ?_).bind fun _ => Extends.refl _ _
  · unfold validateObject
    cases value.asObject with
    | none => exact Extends.refl _ _
    | some object => exact (Extends.refl _ _).bind fun _ => enlarges_properties h object members
  · unfold validateArray
    cases value.asArray with
    | none => exact Extends.refl _ _
    | some array => exact enlarges_onKeyword fun items => enlarges_items h array items
  · exact (enlarges_branches h value branches).bind fun _ => Extends.refl _ _
  · exact (enlarges_branches h value branches).bind fun _ => Extends.refl _ _
  · exact (Extends.refl _ _).bind fun _ => Extends.forEach fun branch => h value branch

end

theorem enlarges_spendWork {maxWork maxWork' : Nat} (h : maxWork ≤ maxWork') :
    Enlarges (spendWork maxWork) (spendWork maxWork') := by
  intro work hgave
  obtain hspend | hspend := outcome_spendWork maxWork work
  · have hwork : ¬ maxWork < work + 1 := by
      intro hwork
      have hthrow : (spendWork maxWork).outcome work = (.error .validationBudgetExceeded, work + 1) := by
        show (if maxWork < work + 1 then throw .validationBudgetExceeded else pure () :
          Validation Unit).outcome (work + 1) = _
        rw [if_pos hwork]
        rfl
      rw [hspend] at hthrow
      cases hthrow
    rw [hspend]
    show (if maxWork' < work + 1 then throw .validationBudgetExceeded else pure () :
      Validation Unit).outcome (work + 1) = _
    rw [if_neg (by omega)]
    rfl
  · rw [hspend] at hgave
    exact absurd rfl hgave

/-- By induction on the levels of the smaller walk. -/
theorem enlarges_validateNode (root : JsonValue) {maxWork maxWork' room room' : Nat}
    (hwork : maxWork ≤ maxWork') (hroom : room ≤ room') (value schema : JsonValue) :
    Enlarges (validateNode maxWork root room value schema)
      (validateNode maxWork' root room' value schema) := by
  induction room generalizing room' value schema with
  | zero => exact fun _ hgave => absurd rfl hgave
  | succ room ih =>
      obtain ⟨room', rfl⟩ : ∃ n, room' = n + 1 := ⟨room' - 1, by omega⟩
      have hinner : ∀ value schema, Enlarges (validateNode maxWork root room value schema)
          (validateNode maxWork' root room' value schema) :=
        fun value schema => ih (Nat.le_of_succ_le_succ hroom) value schema
      refine (enlarges_spendWork hwork).bind fun _ => ?_
      cases schema with
      | bool b => cases b <;> exact Extends.refl _ _
      | object members =>
          dsimp only
          cases member members "$ref".toList with
          | none => exact enlarges_keywords hinner members value
          | some reference =>
              exact (Extends.refl _ _).bind fun reference => (Extends.refl _ _).bind fun target =>
                hinner value target
      | null | number | string | array => exact Extends.refl _ _

/-! ### The verdict -/

/-- The walk decides what the schema asks for, or it gives up. It only gives up where a limit was
reached: no larger limits change a verdict. -/
theorem schema_verdict {root value : JsonValue} (hformed : WellFormed root)
    (hroot : Canonical IntegerLiteral root) (hvalue : Canonical IntegerLiteral value) :
    (validateInstanceAgainstSchema value root = .ok () ∧ Draft07.Valid root value ∨
      validateInstanceAgainstSchema value root = .error .invalidItem ∧ Draft07.Invalid root value ∨
      validateInstanceAgainstSchema value root = .error .validationBudgetExceeded) ∧
    ∀ maxWork maxDepth, maxValidationWork ≤ maxWork → maxValidationDepth ≤ maxDepth →
      validateInstanceAgainstSchema value root ≠ .error .validationBudgetExceeded →
      validateWithLimits maxWork maxDepth value root = validateInstanceAgainstSchema value root := by
  constructor
  · have hjudges := judges_validateNode hformed hroot maxValidationWork (maxValidationDepth + 1)
      Relation.ReflTransGen.refl hvalue 0
    unfold validateInstanceAgainstSchema validateWithLimits
    cases hresult : ((validateNode maxValidationWork root (maxValidationDepth + 1) value root).outcome
        0).1 with
    | ok a =>
        rw [hresult] at hjudges
        exact Or.inl ⟨rfl, hjudges⟩
    | error failure =>
        rw [hresult] at hjudges
        obtain rfl | ⟨rfl, hinvalid⟩ := hjudges
        · exact Or.inr (Or.inr rfl)
        · exact Or.inr (Or.inl ⟨rfl, hinvalid⟩)
  · intro maxWork maxDepth hwork hdepth hgave
    exact congrArg Prod.fst (enlarges_validateNode root hwork (Nat.succ_le_succ hdepth) value root 0
      hgave)

/-! ### A schema that refers to itself -/

/-- `{"properties": {"next": {"$ref": "#"}}, "type": "object"}` -/
def linkedMembers : List (Text × JsonValue) :=
  [("properties".toList,
      .object [("next".toList, .object [("$ref".toList, .string "#".toList)])]),
    ("type".toList, .string "object".toList)]

def linkedSchema : JsonValue := .object linkedMembers

/-- `{"next": {}}` -/
def linkedValue : JsonValue := .object [("next".toList, .object [])]

theorem linkedMembers_shapes : KeywordShapes linkedMembers where
  typeNames := by
    intro value hvalue
    obtain rfl := Option.some.inj (hvalue : some _ = some value)
    exact Or.inl ⟨"object".toList, by decide, rfl⟩
  properties := by
    intro value hvalue
    obtain rfl := Option.some.inj (hvalue : some _ = some value)
    exact ⟨_, rfl, List.forall_mem_singleton.mpr (Or.inr ⟨_, rfl⟩)⟩
  branches := by
    intro name hname value hvalue
    simp only [List.mem_cons, List.not_mem_nil, or_false] at hname
    rcases hname with rfl | rfl | rfl <;> cases (show none = some value from hvalue)
  enum := fun value hvalue => by cases (show none = some value from hvalue)
  required := fun value hvalue => by cases (show none = some value from hvalue)
  additionalProperties := fun value hvalue => by cases (show none = some value from hvalue)
  items := fun value hvalue => by cases (show none = some value from hvalue)
  minimum := fun value hvalue => by cases (show none = some value from hvalue)
  minLength := fun value hvalue => by cases (show none = some value from hvalue)
  format := fun value hvalue => by cases (show none = some value from hvalue)

theorem linkedSchema_wellFormed : WellFormed linkedSchema := by
  intro schema hreach
  have hschema : schema = linkedSchema ∨
      schema = .object [("$ref".toList, .string "#".toList)] := by
    induction hreach with
    | refl => exact Or.inl rfl
    | tail _ hmem ih =>
        obtain rfl | rfl := ih
        · exact Or.inr (List.mem_singleton.mp hmem)
        · exact Or.inl (List.mem_singleton.mp hmem)
  obtain rfl | rfl := hschema
  · exact linkedMembers_shapes
  · exact ⟨"#".toList, rfl, rfl⟩

theorem schema_verdict_linked :
    validateInstanceAgainstSchema linkedValue linkedSchema = .ok () ∧
      Draft07.Valid linkedSchema linkedValue := by
  have hroot : Canonical IntegerLiteral linkedSchema := by
    refine ⟨?_, ⟨⟨?_, ⟨?_, trivial, trivial⟩, trivial⟩, trivial, trivial⟩⟩
    · exact List.pairwise_pair.mpr (by decide)
    · exact List.pairwise_singleton _ _
    · exact List.pairwise_singleton _ _
  have hvalue : Canonical IntegerLiteral linkedValue :=
    ⟨List.pairwise_singleton _ _, ⟨List.Pairwise.nil, trivial⟩, trivial⟩
  have hok : validateInstanceAgainstSchema linkedValue linkedSchema = .ok () := by decide +kernel
  obtain ⟨-, hvalid⟩ | ⟨hinvalid, -⟩ | hgave :=
    (schema_verdict linkedSchema_wellFormed hroot hvalue).1
  · exact ⟨hok, hvalid⟩
  · rw [hok] at hinvalid
    cases hinvalid
  · rw [hok] at hgave
    cases hgave

/-- `-0` is decoded as a float, and a float is no integer here, although its value is one. -/
theorem negativeZero_rejected :
    validateInstanceAgainstSchema (.number (.float 0))
        (.object [("type".toList, .string "integer".toList)]) = .error .invalidItem ∧
      Draft07.Valid (.object [("type".toList, .string "integer".toList)]) (.number (.float 0)) := by
  refine ⟨by decide +kernel, CodexInfo.Lib.valid_iff.mpr (List.forall_mem_singleton.mpr ?_)⟩
  refine ⟨"integer".toList, List.mem_singleton_self _, ?_⟩
  exact Or.inr (Or.inr (Or.inr (Or.inr (Or.inr (Or.inr ⟨rfl, .float 0, rfl, 0, rfl⟩)))))

end CodexInfo.Threads
