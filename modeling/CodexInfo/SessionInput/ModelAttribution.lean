import CodexInfo.SessionInput.Record
import CodexInfo.Writer.EventAdmission

/-!
# `CodexInfo.SessionInput.ModelAttribution`: the model context of a scan

Model of `ModelAttributionState` of `session_input.rs`: the adopted model, how it was
adopted, and the models adopted since the last accepted counter.
-/

set_option autoImplicit false

namespace CodexInfo.SessionInput

open CodexInfo.Contract CodexInfo.Writer

/-- `checkpoint_model` of `session_input.rs`. -/
def checkpointModel (model : Text) : Option Text :=
  (normalizeModelName model).filter fun model => decide (model ≠ unattributed)

structure ModelAttributionState where
  model : Option Text
  kind : SessionModelContextKind
  interval : SessionModelInterval
  deriving DecidableEq, Repr

namespace ModelAttributionState

def new : ModelAttributionState := ⟨none, .none, .none⟩

def invalidate (state : ModelAttributionState) : ModelAttributionState :=
  { state with kind := .unknown, interval := .unknown }

/-- The interval after `model` is adopted in it. -/
def extendInterval (interval : SessionModelInterval) (model : Text) : SessionModelInterval :=
  match interval with
  | .none => .model model
  | .model previous => if previous = model then .model model else .mixed
  | .mixed => .mixed
  | .unknown => .unknown

def adopt (state : ModelAttributionState) (weak : Bool) (model : Text) : ModelAttributionState where
  model := some model
  kind := if weak then .initialSettings else .turn
  interval := extendInterval state.interval model

/-- `observe_context`, with whether a recognized context was malformed. -/
def observeContext (rfc3339 : Rfc3339) (state : ModelAttributionState)
    (record : SessionRecordSummary) : ModelAttributionState × Bool :=
  if ¬ (record.strongEvent || record.weakEvent) then (state, false)
  else
    let weak := record.weakEvent
    match (record.qualifiedContextModel rfc3339).bind checkpointModel with
    | none =>
        if weak = false ∨ state.kind ≠ .turn then (state.invalidate, true) else (state, true)
    | some model =>
        if weak = true ∧ state.kind ≠ .none then (state, false)
        else (state.adopt weak model, false)

def intervalModel (state : ModelAttributionState) : Option Text :=
  match state.interval with
  | .none =>
      if state.kind = .initialSettings ∨ state.kind = .turn then state.model else none
  | .model model => some model
  | .mixed | .unknown => none

def startInterval (state : ModelAttributionState) : ModelAttributionState :=
  { state with interval := .none }

/-- What `validate_session_checkpoint` asks of a saved context. -/
def valid (state : ModelAttributionState) : Bool :=
  state.model.all validSessionModel &&
    (match state.kind with
      | .none => state.model.isNone
      | .initialSettings | .turn =>
          state.model.any fun model => decide (normalizeModelName model = some model)
      | .unknown => true) &&
    match state.interval with
    | .model model =>
        decide (normalizeModelName model = some model) && decide (state.model = some model) &&
          decide (state.kind = .initialSettings ∨ state.kind = .turn)
    | _ => true

end ModelAttributionState

end CodexInfo.SessionInput
