import Mathlib.Data.List.Chain
import Mathlib.Data.List.Pairwise
import Mathlib.Order.Lattice

/-!
# `CodexInfo.Lib.Spans`: half-open spans and their owners

A span runs from an inclusive start to an exclusive end, and a missing bound is no bound. A
timeline lists spans with their owners, one owner with any number of spans.

* `Span.Holds`, `Span.Apart`: the times of a span, and spans without a common time.
* `closeAll`: every open span ends. It keeps a timeline singly owned and the owners before the end.
* `singlyOwned_cons`, `SinglyOwned.unique`: a span that is added, and the one owner of a time.

Nothing here names a component of the repository.
-/

set_option autoImplicit false

namespace CodexInfo.Lib

structure Span (τ : Type) where
  startAt : Option τ
  endAt : Option τ
  deriving DecidableEq, Repr

namespace Span

variable {τ : Type} [LinearOrder τ]

def Holds (span : Span τ) (t : τ) : Prop :=
  (∀ start ∈ span.startAt, start ≤ t) ∧ ∀ stop ∈ span.endAt, t < stop

instance (span : Span τ) (t : τ) : Decidable (span.Holds t) := inferInstanceAs (Decidable (_ ∧ _))

/-- No time is in both spans. -/
def Apart (span other : Span τ) : Prop := ∀ t, span.Holds t → ¬ other.Holds t

theorem Apart.symm {span other : Span τ} (h : span.Apart other) : other.Apart span :=
  fun t hother hspan => h t hspan hother

/-- An open span gets an end. -/
def close (stop : τ) (span : Span τ) : Span τ :=
  match span.endAt with
  | none => { span with endAt := some stop }
  | some _ => span

theorem holds_of_holds_close {span : Span τ} {stop t : τ} (h : (span.close stop).Holds t) :
    span.Holds t := by
  unfold close at h
  split at h
  · next hopen => exact ⟨h.1, by simp [hopen]⟩
  · exact h

theorem holds_close {span : Span τ} {stop t : τ} (h : span.Holds t) (hlt : t < stop) :
    (span.close stop).Holds t := by
  unfold close
  split
  · exact ⟨h.1, by simpa using hlt⟩
  · exact h

omit [LinearOrder τ] in
theorem close_startAt (span : Span τ) (stop : τ) : (span.close stop).startAt = span.startAt := by
  unfold close
  split <;> rfl

/-- Both bounds of the span, where it has them, are at most `t`. -/
def Within (t : τ) (span : Span τ) : Prop :=
  (∀ start ∈ span.startAt, start ≤ t) ∧ ∀ stop ∈ span.endAt, stop ≤ t

theorem Within.close {span : Span τ} {t : τ} (h : span.Within t) :
    ∃ stop ∈ (span.close t).endAt, stop ≤ t := by
  unfold Span.close
  split
  · exact ⟨t, rfl, le_rfl⟩
  · next stop hstop => exact ⟨stop, hstop, h.2 stop hstop⟩

/-- A span that ends by `t` is apart from one that starts there. -/
theorem apart_of_ends {span other : Span τ} {t : τ} (hspan : ∃ stop ∈ span.endAt, stop ≤ t)
    (hother : ∃ start ∈ other.startAt, t ≤ start) : span.Apart other := by
  obtain ⟨stop, hstop, hle⟩ := hspan
  obtain ⟨start, hstart, hge⟩ := hother
  intro s hs hs'
  have hbefore : s < stop := hs.2 stop hstop
  have hafter : start ≤ s := hs'.1 start hstart
  exact absurd (hbefore.trans_le (hle.trans hge)) (not_lt.mpr hafter)

/-- The span ends no later than the other one starts. -/
def Before (span other : Span τ) : Prop :=
  ∃ stop ∈ span.endAt, ∃ start ∈ other.startAt, stop ≤ start

theorem Before.apart {span other : Span τ} (h : span.Before other) : span.Apart other := by
  obtain ⟨stop, hstop, start, hstart, hle⟩ := h
  exact apart_of_ends ⟨stop, hstop, hle⟩ ⟨start, hstart, le_rfl⟩

/-- A span that does not end before its start. -/
def Upright (span : Span τ) : Prop :=
  ∀ start ∈ span.startAt, ∀ stop ∈ span.endAt, start ≤ stop

theorem Before.trans {span middle other : Span τ} (hmiddle : middle.Upright)
    (h : span.Before middle) (h' : middle.Before other) : span.Before other := by
  obtain ⟨stop, hstop, start, hstart, hle⟩ := h
  obtain ⟨stop', hstop', start', hstart', hle'⟩ := h'
  exact ⟨stop, hstop, start', hstart', hle.trans ((hmiddle start hstart stop' hstop').trans hle')⟩

end Span

/-! ### Timelines -/

section
variable {τ ω : Type} [LinearOrder τ]

abbrev Timeline (ω τ : Type) := List (ω × Span τ)

def Owns (timeline : Timeline ω τ) (owner : ω) (t : τ) : Prop :=
  ∃ span, (owner, span) ∈ timeline ∧ span.Holds t

/-- No time is in two spans of the list. -/
def SinglyOwned (timeline : Timeline ω τ) : Prop :=
  timeline.Pairwise fun x y => x.2.Apart y.2

theorem singlyOwned_cons {x : ω × Span τ} {timeline : Timeline ω τ} :
    SinglyOwned (x :: timeline) ↔ (∀ y ∈ timeline, x.2.Apart y.2) ∧ SinglyOwned timeline :=
  List.pairwise_cons

theorem SinglyOwned.perm {timeline other : Timeline ω τ} (h : SinglyOwned timeline)
    (hperm : timeline.Perm other) : SinglyOwned other :=
  (hperm.pairwise_iff fun {_ _} hxy => hxy.symm).mp h

/-- A time of a singly owned timeline has one owner. -/
theorem SinglyOwned.unique {timeline : Timeline ω τ} (h : SinglyOwned timeline) {owner other : ω}
    {t : τ} (howner : Owns timeline owner t) (hother : Owns timeline other t) : owner = other := by
  obtain ⟨span, hmem, hholds⟩ := howner
  obtain ⟨span', hmem', hholds'⟩ := hother
  by_contra hne
  have hpair : (owner, span) ≠ (other, span') := fun heq => hne (Prod.mk.inj heq).1
  have hsymm : Std.Symm fun x y : ω × Span τ => x.2.Apart y.2 := ⟨fun _ _ hxy => hxy.symm⟩
  exact h.forall hmem hmem' hpair t hholds hholds'

theorem Owns.perm {timeline other : Timeline ω τ} (hperm : timeline.Perm other) {owner : ω} {t : τ} :
    Owns timeline owner t ↔ Owns other owner t := by
  simp only [Owns, hperm.mem_iff]

theorem owns_cons {x : ω × Span τ} {timeline : Timeline ω τ} {owner : ω} {t : τ} :
    Owns (x :: timeline) owner t ↔ (x.1 = owner ∧ x.2.Holds t) ∨ Owns timeline owner t := by
  constructor
  · rintro ⟨span, hmem, hholds⟩
    rcases List.mem_cons.mp hmem with rfl | hmem
    · exact Or.inl ⟨rfl, hholds⟩
    · exact Or.inr ⟨span, hmem, hholds⟩
  · rintro (⟨rfl, hholds⟩ | ⟨span, hmem, hholds⟩)
    · exact ⟨x.2, List.mem_cons_self, hholds⟩
    · exact ⟨span, List.mem_cons_of_mem _ hmem, hholds⟩

/-- A chain of spans, each ending before the next one starts, has no time twice. -/
theorem singlyOwned_of_isChain {timeline : Timeline ω τ}
    (hchain : timeline.IsChain fun x y => x.2.Before y.2)
    (hupright : ∀ x ∈ timeline, x.2.Upright) : SinglyOwned timeline := by
  let follows := fun x y : ω × Span τ => x.2.Before y.2 ∧ y.2.Upright
  have htrans : Trans follows follows follows :=
    ⟨fun h h' => ⟨h.1.trans h.2 h'.1, h'.2⟩⟩
  have hfollows : timeline.IsChain follows :=
    hchain.imp_of_mem_imp fun x y _ hy hxy => ⟨hxy, hupright y hy⟩
  exact (List.isChain_iff_pairwise.mp hfollows).imp fun hxy => hxy.1.apart

/-! ### Closing -/

def closeAll (stop : τ) (timeline : Timeline ω τ) : Timeline ω τ :=
  timeline.map fun x => (x.1, x.2.close stop)

theorem SinglyOwned.closeAll {timeline : Timeline ω τ} (h : SinglyOwned timeline) (stop : τ) :
    SinglyOwned (closeAll stop timeline) := by
  refine List.pairwise_map.mpr (h.imp fun hapart t hholds hholds' => ?_)
  exact hapart t (Span.holds_of_holds_close hholds) (Span.holds_of_holds_close hholds')

theorem owns_of_owns_closeAll {timeline : Timeline ω τ} {stop : τ} {owner : ω} {t : τ}
    (h : Owns (closeAll stop timeline) owner t) : Owns timeline owner t := by
  obtain ⟨span, hmem, hholds⟩ := h
  obtain ⟨x, hx, heq⟩ := List.mem_map.mp hmem
  cases heq
  exact ⟨x.2, hx, Span.holds_of_holds_close hholds⟩

/-- The owners before the end stay. -/
theorem owns_closeAll {timeline : Timeline ω τ} {stop : τ} {owner : ω} {t : τ}
    (h : Owns timeline owner t) (hlt : t < stop) : Owns (closeAll stop timeline) owner t := by
  obtain ⟨span, hmem, hholds⟩ := h
  exact ⟨span.close stop, List.mem_map.mpr ⟨(owner, span), hmem, rfl⟩,
    Span.holds_close hholds hlt⟩

theorem closeAll_ends {timeline : Timeline ω τ} {stop : τ}
    (h : ∀ x ∈ timeline, x.2.Within stop) {x : ω × Span τ} (hx : x ∈ closeAll stop timeline) :
    ∃ last ∈ x.2.endAt, last ≤ stop := by
  obtain ⟨y, hy, rfl⟩ := List.mem_map.mp hx
  exact (h y hy).close

end

end CodexInfo.Lib
