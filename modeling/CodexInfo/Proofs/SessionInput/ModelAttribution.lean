import CodexInfo.SessionInput.ModelAttribution

/-!
# `CodexInfo.Proofs.SessionInput.ModelAttribution`: normal names of adopted models

A normalized name is its own normal form, so every model that a context adopts is normal,
and a scan keeps the context in the form that a saved cursor needs (`ModelAttributionState.Normal`).
-/

set_option autoImplicit false

namespace CodexInfo.SessionInput

open CodexInfo.Contract CodexInfo.Writer

/-! ### Normal names -/

theorem dropWhile_trim (value : Text) : (trim value).dropWhile whiteSpace = trim value := by
  cases h : value.dropWhile whiteSpace with
  | nil => simp [trim, h]
  | cons c rest =>
      have hc : whiteSpace c = false := by
        have hhead := List.head?_dropWhile_not whiteSpace value
        rw [h] at hhead
        simpa using hhead
      cases ht : trim value with
      | nil => rfl
      | cons d tail =>
          have hprefix : trim value <+: c :: rest := by
            show (value.dropWhile whiteSpace).rdropWhile whiteSpace <+: c :: rest
            rw [h]
            exact List.rdropWhile_prefix whiteSpace _
          rw [ht] at hprefix
          have hd : d = c := (List.cons_prefix_cons.mp hprefix).1
          rw [List.dropWhile_cons_of_neg (by rw [hd, hc]; exact Bool.false_ne_true)]

theorem trim_trim (value : Text) : trim (trim value) = trim value := by
  show ((trim value).dropWhile whiteSpace).rdropWhile whiteSpace = trim value
  rw [dropWhile_trim]
  exact List.rdropWhile_idempotent whiteSpace _

theorem trim_sublist (value : Text) : (trim value).Sublist value :=
  (List.rdropWhile_prefix whiteSpace _).sublist.trans (List.dropWhile_sublist whiteSpace)

theorem normalizeModelName_some {original normalized : Text}
    (h : normalizeModelName original = some normalized) :
    original.any forbidden = false ∧ normalized = trim original ∧ normalized ≠ [] ∧
      normalized.length ≤ maxPublicModelScalars := by
  unfold normalizeModelName at h
  split at h
  · cases h
  · next hallowed =>
      dsimp only at h
      split at h
      · next hbounds =>
          cases h
          exact ⟨by simpa using hallowed, rfl, hbounds⟩
      · cases h

theorem normalizeModelName_normal {original normalized : Text}
    (h : normalizeModelName original = some normalized) :
    normalizeModelName normalized = some normalized := by
  obtain ⟨hallowed, rfl, hbounds⟩ := normalizeModelName_some h
  have hany : (trim original).any forbidden = false := by
    rw [List.any_eq_false] at hallowed ⊢
    exact fun c hc => hallowed c ((trim_sublist original).mem hc)
  unfold normalizeModelName
  rw [if_neg (by rw [hany]; exact Bool.false_ne_true), trim_trim, if_pos hbounds]

theorem checkpointModel_normal {model normalized : Text}
    (h : checkpointModel model = some normalized) :
    normalizeModelName normalized = some normalized :=
  normalizeModelName_normal (Option.filter_eq_some_iff.mp h).1

/-- At most four bytes for each scalar. -/
theorem byteLength_le (value : Text) : byteLength value ≤ 4 * value.length := by
  induction value with
  | nil => simp [byteLength]
  | cons c rest ih =>
      have hc : c.utf8Size ≤ 4 := Char.utf8Size_le_four c
      simp only [byteLength, List.map_cons, List.sum_cons, List.length_cons] at ih ⊢
      omega

theorem validSessionModel_of_normal {model : Text} (h : normalizeModelName model = some model) :
    validSessionModel model = true := by
  obtain ⟨hallowed, htrim, hne, hlength⟩ := normalizeModelName_some h
  have hbytes : byteLength model ≤ maxSessionModelBytes := by
    have hle := byteLength_le model
    have hmax : 4 * maxPublicModelScalars = maxSessionModelBytes := rfl
    omega
  have hcontrol : model.any isControl = false := by
    rw [List.any_eq_false] at hallowed ⊢
    intro c hc hcontrol
    exact hallowed c hc (by simp [forbidden, hcontrol])
  simp only [validSessionModel, Bool.and_eq_true, decide_eq_true_eq, Bool.not_eq_true']
  exact ⟨⟨⟨hne, hbytes⟩, htrim.symm⟩, hcontrol⟩

/-! ### Contexts -/

namespace ModelAttributionState

theorem valid_iff {state : ModelAttributionState} :
    state.valid = true ↔
      (∀ model, state.model = some model → validSessionModel model = true) ∧
        (state.kind = .none → state.model = none) ∧
        (state.kind = .initialSettings ∨ state.kind = .turn →
          ∃ model, state.model = some model ∧ normalizeModelName model = some model) ∧
        (∀ model, state.interval = .model model → normalizeModelName model = some model ∧
          state.model = some model ∧ (state.kind = .initialSettings ∨ state.kind = .turn)) := by
  obtain ⟨model, kind, interval⟩ := state
  cases kind <;> cases interval <;> cases model <;> simp [valid, and_assoc]

theorem valid_new : new.valid = true := by decide

theorem valid_invalidate {state : ModelAttributionState} (h : state.valid = true) :
    state.invalidate.valid = true := by
  rw [valid_iff] at h ⊢
  refine ⟨h.1, ?_, ?_, ?_⟩
  · intro hkind
    cases hkind
  · rintro (hkind | hkind) <;> cases hkind
  · intro model hinterval
    cases hinterval

theorem valid_startInterval {state : ModelAttributionState} (h : state.valid = true) :
    state.startInterval.valid = true := by
  rw [valid_iff] at h ⊢
  refine ⟨h.1, h.2.1, h.2.2.1, ?_⟩
  intro model hinterval
  cases hinterval

theorem valid_adopt {state : ModelAttributionState} {weak : Bool} {model : Text}
    (hmodel : normalizeModelName model = some model) : (state.adopt weak model).valid = true := by
  rw [valid_iff]
  refine ⟨?_, ?_, ?_, ?_⟩
  · rintro saved ⟨⟩
    exact validSessionModel_of_normal hmodel
  · cases weak <;> exact fun h => (nomatch h)
  · exact fun _ => ⟨model, rfl, hmodel⟩
  · intro saved hinterval
    have hsaved : saved = model := by
      simp only [adopt, extendInterval] at hinterval
      split at hinterval
      · cases hinterval
        rfl
      · split at hinterval
        · cases hinterval
          rfl
        · cases hinterval
      · cases hinterval
      · cases hinterval
    subst hsaved
    refine ⟨hmodel, rfl, ?_⟩
    cases weak
    · exact Or.inr rfl
    · exact Or.inl rfl

theorem valid_observeContext {rfc3339 : Rfc3339} {state : ModelAttributionState}
    {record : SessionRecordSummary} (h : state.valid = true) :
    (state.observeContext rfc3339 record).1.valid = true := by
  unfold observeContext
  split
  · exact h
  · dsimp only
    split
    · split
      · exact valid_invalidate h
      · exact h
    · next model hmodel =>
        split
        · exact h
        · obtain ⟨original, -, horiginal⟩ := Option.bind_eq_some_iff.mp hmodel
          exact valid_adopt (checkpointModel_normal horiginal)

end ModelAttributionState

end CodexInfo.SessionInput
