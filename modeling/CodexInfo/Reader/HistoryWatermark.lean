import CodexInfo.Contract.ModelNames
import CodexInfo.Lib.Absorb
import CodexInfo.Lib.SortedMap
import CodexInfo.Lib.Watermark
import Mathlib.Data.Char
import Mathlib.Data.Finset.Insert
import Mathlib.Data.List.Lex
import Mathlib.Data.Prod.Lex

/-!
# `CodexInfo.Reader.HistoryWatermark`: model values that fall behind are taken out

Model of `suppress_regressing_history_models`. Each model of a reset has a watermark of its last
known values. A confirmed and complete row with a model below its watermark loses this model and
its confirmation, and moves no watermark.

* `historyModelDominates`, `advanceHistoryModelWatermark`: one model.
* `suppressRow`, `suppressRows`: one row, and the rows in the order of their keys.
* `completeHistoryModels`: the models of a confirmed and complete row, as they are read.

The dollar values are of any type with a decidable order.
-/

set_option autoImplicit false

namespace CodexInfo.Reader

open CodexInfo.Contract (Text)
open CodexInfo.Lib
open CodexInfo.Lib.Watermark (Passes)

structure PublicHistoryModelUsage (Dollars : Type) where
  model : Text
  totalTokens : Nat
  inputTokens : Option Nat
  cachedInputTokens : Option Nat
  cacheWriteInputTokens : Option Nat
  outputTokens : Option Nat
  totalDollars : Option Dollars

structure PublicHistoryObservation (Dollars : Type) where
  timestamp : Int
  resetAt : Int
  remainingPercent : Option Dollars
  taskActiveSincePrevious : Option Bool
  models : Option (List (PublicHistoryModelUsage Dollars))
  modelsComplete : Bool
  modelSource : Text

variable {Dollars : Type}

/-- The reset and the timestamp of a row. -/
abbrev HistoryKey : Type := Int ×ₗ Int

abbrev HistoryMap (Dollars : Type) : Type :=
  SortedMap HistoryKey (PublicHistoryObservation Dollars)

/-- The watermarks by reset and model. -/
abbrev Watermarks (Dollars : Type) : Type :=
  SortedMap (Int ×ₗ Text) (PublicHistoryModelUsage Dollars)

def confirmed : Text := "confirmed".toList

def legacyUnknown : Text := "legacy-unknown".toList

/-- A row with numeric authority. -/
def PublicHistoryObservation.direct (observation : PublicHistoryObservation Dollars) : Bool :=
  decide (observation.modelSource = confirmed) && observation.modelsComplete

section Models

variable [LE Dollars] [DecidableLE Dollars]

def historyModelDominates (candidate watermark : PublicHistoryModelUsage Dollars) : Bool :=
  decide (watermark.totalTokens ≤ candidate.totalTokens) &&
    decide (Passes candidate.inputTokens watermark.inputTokens) &&
    decide (Passes candidate.cachedInputTokens watermark.cachedInputTokens) &&
    decide (Passes candidate.cacheWriteInputTokens watermark.cacheWriteInputTokens) &&
    decide (Passes candidate.outputTokens watermark.outputTokens) &&
    decide (Passes candidate.totalDollars watermark.totalDollars)

omit [LE Dollars] [DecidableLE Dollars] in
def advanceHistoryModelWatermark (watermark candidate : PublicHistoryModelUsage Dollars) :
    PublicHistoryModelUsage Dollars where
  model := watermark.model
  totalTokens := candidate.totalTokens
  inputTokens := Watermark.advance watermark.inputTokens candidate.inputTokens
  cachedInputTokens := Watermark.advance watermark.cachedInputTokens candidate.cachedInputTokens
  cacheWriteInputTokens :=
    Watermark.advance watermark.cacheWriteInputTokens candidate.cacheWriteInputTokens
  outputTokens := Watermark.advance watermark.outputTokens candidate.outputTokens
  totalDollars := Watermark.advance watermark.totalDollars candidate.totalDollars

def watermarkKey (resetAt : Int) (model : Text) : Int ×ₗ Text := toLex (resetAt, model)

/-- The candidate is below its watermark. -/
def regresses (watermarks : Watermarks Dollars) (resetAt : Int)
    (candidate : PublicHistoryModelUsage Dollars) : Bool :=
  (watermarks.get? (watermarkKey resetAt candidate.model)).any fun watermark =>
    !historyModelDominates candidate watermark

omit [LE Dollars] [DecidableLE Dollars] in
/-- The watermark of a candidate, which starts at the candidate itself. -/
def advanceWatermarks (resetAt : Int) (watermarks : Watermarks Dollars)
    (candidate : PublicHistoryModelUsage Dollars) : Watermarks Dollars :=
  let key := watermarkKey resetAt candidate.model
  match watermarks.get? key with
  | some watermark =>
      watermarks.insert key (advanceHistoryModelWatermark watermark candidate)
  | none => watermarks.insert key candidate

def suppressRow (watermarks : Watermarks Dollars) (resetAt : Int)
    (observation : PublicHistoryObservation Dollars) :
    Watermarks Dollars × PublicHistoryObservation Dollars :=
  if !observation.direct then (watermarks, observation)
  else
    match observation.models with
    | none => (watermarks, observation)
    | some models =>
        let suppressed := ((models.filter (regresses watermarks resetAt)).map (·.model)).toFinset
        if suppressed = ∅ then
          (models.foldl (advanceWatermarks resetAt) watermarks,
            { observation with models := some (sortOn (·.model) models) })
        else
          let kept := sortOn (·.model) (models.filter (·.model ∉ suppressed))
          (watermarks, { observation with
            models := if kept.isEmpty then none else some kept
            modelsComplete := false
            modelSource := legacyUnknown })

def suppressRows (watermarks : Watermarks Dollars) :
    List (HistoryKey × PublicHistoryObservation Dollars) →
      List (HistoryKey × PublicHistoryObservation Dollars)
  | [] => []
  | (key, observation) :: rest =>
      let step := suppressRow watermarks (ofLex key).1 observation
      (key, step.2) :: suppressRows step.1 rest

theorem keys_suppressRows (watermarks : Watermarks Dollars)
    (rows : List (HistoryKey × PublicHistoryObservation Dollars)) :
    (suppressRows watermarks rows).map (·.1) = rows.map (·.1) := by
  induction rows generalizing watermarks with
  | nil => rfl
  | cons row rest ih =>
      obtain ⟨key, observation⟩ := row
      rw [suppressRows, List.map_cons, List.map_cons, ih]

/-- The keys stay in order. -/
def suppressRegressingHistoryModels (history : HistoryMap Dollars) : HistoryMap Dollars where
  entries := suppressRows .empty history.entries
  sorted := by
    have hsorted := List.pairwise_map.mpr history.sorted
    rw [← keys_suppressRows] at hsorted
    exact List.pairwise_map.mp hsorted

end Models

/-- `history_models_v3` of a confirmed and complete row: one entry for each total. -/
def completeHistoryModels
    (totals : SortedMap Text (PublicHistoryModelUsage Dollars))
    (familyFallback : PublicHistoryModelUsage Dollars → Option Dollars) :
    List (PublicHistoryModelUsage Dollars) :=
  sortOn (·.model) (totals.values.map fun total =>
    { total with totalDollars := total.totalDollars.or (familyFallback total) })

end CodexInfo.Reader
