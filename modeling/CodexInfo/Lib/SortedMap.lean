import Mathlib.Data.List.Induction
import Mathlib.Data.List.Sort
import Mathlib.Data.List.Basic
import Mathlib.Order.Basic

/-!
# `CodexInfo.Lib.SortedMap`: ordered maps with unique keys

A `SortedMap κ α` is a list of entries in strictly increasing key order. The order is a
field, so a map with two entries for one key cannot be built, and the entry list of a map
is the iteration order of an ordered map.

* `get?_insert`, `get?_erase`, `get?_empty`: the lookup equations.
* `mem_entries_iff`: an entry is a successful lookup.
* `ext_get?`: two maps with the same lookups are equal.
* `ofEntries`, `mapValues`, `last?`: a map from a list, a map over the values, the last entry.
* `entries_filter_append`: a cut of the key order splits the entries.

Nothing here names a component of the repository.
-/

set_option autoImplicit false

namespace CodexInfo.Lib

/-- Entries in strictly increasing key order. -/
structure SortedMap (κ : Type) (α : Type) [LinearOrder κ] where
  entries : List (κ × α)
  sorted : entries.Pairwise (fun a b => a.1 < b.1)

namespace SortedMap

variable {κ α : Type} [LinearOrder κ]

instance [DecidableEq α] : DecidableEq (SortedMap κ α) := fun a b =>
  decidable_of_iff (a.entries = b.entries)
    ⟨fun h => by cases a; cases b; cases h; rfl, fun h => h ▸ rfl⟩

/-- The map without entries. -/
def empty : SortedMap κ α := ⟨[], List.Pairwise.nil⟩

/-- The first value stored at `k` in an entry list. -/
def lookupEntry (k : κ) : List (κ × α) → Option α
  | [] => none
  | (k', v) :: rest => if k' = k then some v else lookupEntry k rest

/-- Sorted insertion. An entry with the same key is replaced. -/
def insertEntry (k : κ) (v : α) : List (κ × α) → List (κ × α)
  | [] => [(k, v)]
  | (k', v') :: rest =>
      if k < k' then (k, v) :: (k', v') :: rest
      else if k = k' then (k, v) :: rest
      else (k', v') :: insertEntry k v rest

theorem mem_insertEntry {k : κ} {v : α} {e : κ × α} {l : List (κ × α)}
    (h : e ∈ insertEntry k v l) : e = (k, v) ∨ e ∈ l := by
  induction l with
  | nil => simpa [insertEntry] using h
  | cons head rest ih =>
      obtain ⟨k', v'⟩ := head
      simp only [insertEntry] at h
      split_ifs at h
      · simpa using h
      · rcases List.mem_cons.mp h with h | h
        · exact Or.inl h
        · exact Or.inr (List.mem_cons_of_mem _ h)
      · rcases List.mem_cons.mp h with h | h
        · exact Or.inr (by simp [h])
        · exact (ih h).imp_right (List.mem_cons_of_mem _)

theorem insertEntry_sorted (k : κ) (v : α) {l : List (κ × α)}
    (h : l.Pairwise (fun a b => a.1 < b.1)) :
    (insertEntry k v l).Pairwise (fun a b => a.1 < b.1) := by
  induction l with
  | nil => simp [insertEntry]
  | cons head rest ih =>
      obtain ⟨k', v'⟩ := head
      obtain ⟨hhead, hrest⟩ := List.pairwise_cons.mp h
      simp only [insertEntry]
      split_ifs with hlt heq
      · refine List.pairwise_cons.mpr ⟨fun e he => ?_, h⟩
        rcases List.mem_cons.mp he with rfl | he
        · exact hlt
        · exact lt_trans hlt (hhead e he)
      · subst heq
        exact List.pairwise_cons.mpr ⟨hhead, hrest⟩
      · have hk : k' < k := lt_of_le_of_ne (not_lt.mp hlt) (Ne.symm heq)
        refine List.pairwise_cons.mpr ⟨fun e he => ?_, ih hrest⟩
        rcases mem_insertEntry he with rfl | he
        · exact hk
        · exact hhead e he

theorem lookupEntry_insertEntry (k k' : κ) (v : α) (l : List (κ × α)) :
    lookupEntry k' (insertEntry k v l) = if k = k' then some v else lookupEntry k' l := by
  induction l with
  | nil => simp [insertEntry, lookupEntry]
  | cons head rest ih =>
      obtain ⟨j, u⟩ := head
      simp only [insertEntry]
      by_cases hkk : k = k'
      · subst hkk
        rw [if_pos rfl]
        split_ifs with hlt heq
        · simp [lookupEntry]
        · simp [lookupEntry]
        · simp [lookupEntry, Ne.symm heq, ih]
      · rw [if_neg hkk]
        split_ifs with hlt heq
        · simp [lookupEntry, hkk]
        · subst heq
          simp [lookupEntry, hkk]
        · simp [lookupEntry, ih, hkk]

/-- The value stored at a key. -/
def get? (m : SortedMap κ α) (k : κ) : Option α := lookupEntry k m.entries

/-- The map with `v` stored at `k`. -/
def insert (m : SortedMap κ α) (k : κ) (v : α) : SortedMap κ α :=
  ⟨insertEntry k v m.entries, insertEntry_sorted k v m.sorted⟩

/-- The map without an entry at `k`. -/
def erase (m : SortedMap κ α) (k : κ) : SortedMap κ α :=
  ⟨m.entries.filter (fun e => e.1 ≠ k), m.sorted.filter _⟩

/-- The entries that satisfy a predicate. -/
def filter (m : SortedMap κ α) (p : κ × α → Bool) : SortedMap κ α :=
  ⟨m.entries.filter p, m.sorted.filter _⟩

/-- The values in key order. -/
def values (m : SortedMap κ α) : List α := m.entries.map (·.2)

/-- The keys in increasing order. -/
def keys (m : SortedMap κ α) : List κ := m.entries.map (·.1)

@[simp] theorem get?_empty (k : κ) : (empty : SortedMap κ α).get? k = none := rfl

theorem get?_insert (m : SortedMap κ α) (k k' : κ) (v : α) :
    (m.insert k v).get? k' = if k = k' then some v else m.get? k' :=
  lookupEntry_insertEntry k k' v m.entries

@[simp] theorem get?_insert_self (m : SortedMap κ α) (k : κ) (v : α) :
    (m.insert k v).get? k = some v := by
  simp [get?_insert]

theorem get?_insert_ne (m : SortedMap κ α) {k k' : κ} (v : α) (h : k ≠ k') :
    (m.insert k v).get? k' = m.get? k' := by
  simp [get?_insert, h]

theorem mem_of_lookupEntry {k : κ} {v : α} {l : List (κ × α)}
    (h : lookupEntry k l = some v) : (k, v) ∈ l := by
  induction l with
  | nil => simp [lookupEntry] at h
  | cons head rest ih =>
      obtain ⟨k', v'⟩ := head
      simp only [lookupEntry] at h
      split_ifs at h with hk
      · simp only [Option.some.injEq] at h
        simp [hk, h]
      · exact List.mem_cons_of_mem _ (ih h)

theorem lookupEntry_of_mem {k : κ} {v : α} {l : List (κ × α)}
    (hs : l.Pairwise (fun a b => a.1 < b.1)) (h : (k, v) ∈ l) :
    lookupEntry k l = some v := by
  induction l with
  | nil => simp at h
  | cons head rest ih =>
      obtain ⟨k', v'⟩ := head
      obtain ⟨hhead, hrest⟩ := List.pairwise_cons.mp hs
      rcases List.mem_cons.mp h with heq | hmem
      · cases heq
        simp [lookupEntry]
      · have hne : k' ≠ k := ne_of_lt (hhead _ hmem)
        simp [lookupEntry, hne, ih hrest hmem]

/-- An entry of the map is a successful lookup. -/
theorem mem_entries_iff (m : SortedMap κ α) (k : κ) (v : α) :
    (k, v) ∈ m.entries ↔ m.get? k = some v :=
  ⟨lookupEntry_of_mem m.sorted, mem_of_lookupEntry⟩

/-- A value of the map is stored at some key. -/
theorem mem_values_iff (m : SortedMap κ α) (v : α) :
    v ∈ m.values ↔ ∃ k, m.get? k = some v := by
  simp only [values, List.mem_map, Prod.exists]
  constructor
  · rintro ⟨k, u, hmem, rfl⟩
    exact ⟨k, (m.mem_entries_iff k u).mp hmem⟩
  · rintro ⟨k, hk⟩
    exact ⟨k, v, (m.mem_entries_iff k v).mpr hk, rfl⟩

theorem mem_keys_iff (m : SortedMap κ α) (k : κ) :
    k ∈ m.keys ↔ ∃ v, m.get? k = some v := by
  simp only [keys, List.mem_map, Prod.exists]
  constructor
  · rintro ⟨k', v, hmem, rfl⟩
    exact ⟨v, (m.mem_entries_iff k' v).mp hmem⟩
  · rintro ⟨v, hv⟩
    exact ⟨k, v, (m.mem_entries_iff k v).mpr hv, rfl⟩

/-- When every entry is keyed by a function of its value, no two values share the key. -/
theorem nodup_map_values {m : SortedMap κ α} {f : α → κ} (h : ∀ k v, m.get? k = some v → f v = k) :
    (m.values.map f).Nodup := by
  have hkeys : m.values.map f = m.keys := by
    simp only [values, keys, List.map_map]
    exact List.map_congr_left fun e he => h e.1 e.2 ((m.mem_entries_iff e.1 e.2).mp he)
  rw [hkeys]
  exact List.Pairwise.map _ (fun _ _ hlt => ne_of_lt hlt) m.sorted

theorem get?_filter (m : SortedMap κ α) (p : κ × α → Bool) (k : κ) :
    (m.filter p).get? k = (m.get? k).filter (fun v => p (k, v)) := by
  cases hget : m.get? k with
  | none =>
      cases hf : (m.filter p).get? k with
      | none => rfl
      | some v =>
          have hmem := ((m.filter p).mem_entries_iff k v).mpr hf
          have hin := (m.mem_entries_iff k v).mp (List.mem_filter.mp hmem).1
          simp [hget] at hin
  | some v =>
      have hmem := (m.mem_entries_iff k v).mpr hget
      by_cases hp : p (k, v)
      · have hin : (k, v) ∈ (m.filter p).entries := List.mem_filter.mpr ⟨hmem, hp⟩
        rw [((m.filter p).mem_entries_iff k v).mp hin, Option.filter_some, if_pos hp]
      · cases hf : (m.filter p).get? k with
        | none => rw [Option.filter_some, if_neg hp]
        | some u =>
            have hin := List.mem_filter.mp (((m.filter p).mem_entries_iff k u).mpr hf)
            have hu := (m.mem_entries_iff k u).mp hin.1
            rw [hget, Option.some.injEq] at hu
            subst hu
            exact absurd hin.2 hp

theorem get?_erase (m : SortedMap κ α) (k k' : κ) :
    (m.erase k).get? k' = if k = k' then none else m.get? k' := by
  have h := get?_filter m (fun e => decide (e.1 ≠ k)) k'
  change (m.erase k).get? k' = _ at h
  rw [h]
  by_cases hk : k = k'
  · subst hk
    cases m.get? k <;> simp
  · cases m.get? k' <;> simp [hk, Ne.symm hk]

/-- A relation along the values, read at two keys in order. -/
theorem rel_of_pairwise_values {m : SortedMap κ α} {R : α → α → Prop}
    (h : m.values.Pairwise R) {k k' : κ} {v v' : α} (hlt : k < k')
    (hk : m.get? k = some v) (hk' : m.get? k' = some v') : R v v' := by
  have hpair : m.entries.Pairwise (fun a b => a.1 < b.1 ∧ R a.2 b.2) :=
    m.sorted.and (List.pairwise_map.mp h)
  have hmem := (m.mem_entries_iff k v).mpr hk
  have hmem' := (m.mem_entries_iff k' v').mpr hk'
  obtain ⟨before, after, hsplit⟩ := List.append_of_mem hmem
  rw [hsplit, List.pairwise_append, List.pairwise_cons] at hpair
  obtain ⟨-, ⟨hafter, -⟩, hbefore⟩ := hpair
  rw [hsplit, List.mem_append, List.mem_cons] at hmem'
  rcases hmem' with hmem' | heq | hmem'
  · have hgt : k' < k := (hbefore (k', v') hmem' (k, v) (by simp)).1
    exact absurd hgt (not_lt.mpr (le_of_lt hlt))
  · exact absurd (Prod.mk.inj heq).1 (ne_of_gt hlt)
  · exact (hafter _ hmem').2

/-- A map with one entry has one key. -/
theorem length_entries_eq_one_iff (m : SortedMap κ α) {k : κ} {v : α}
    (h : m.get? k = some v) :
    m.entries.length = 1 ↔ ∀ k', (∃ u, m.get? k' = some u) → k' = k := by
  have hmem := (m.mem_entries_iff k v).mpr h
  constructor
  · rintro hlen k' ⟨u, hu⟩
    obtain ⟨e, he⟩ := List.length_eq_one_iff.mp hlen
    have hmem' := (m.mem_entries_iff k' u).mpr hu
    rw [he, List.mem_singleton] at hmem hmem'
    rw [← hmem'] at hmem
    exact (Prod.mk.inj hmem).1.symm
  · intro huniq
    match hm : m.entries, m.sorted with
    | [], _ => simp [hm] at hmem
    | [_], _ => rfl
    | (k₁, v₁) :: (k₂, v₂) :: rest, hs =>
        exfalso
        have h₁ := huniq k₁ ⟨v₁, (m.mem_entries_iff k₁ v₁).mp (by simp [hm])⟩
        have h₂ := huniq k₂ ⟨v₂, (m.mem_entries_iff k₂ v₂).mp (by simp [hm])⟩
        have hlt := (List.pairwise_cons.mp hs).1 (k₂, v₂) (by simp)
        rw [h₁, h₂] at hlt
        exact lt_irrefl _ hlt

/-- Equal lookups force equal maps: both entry lists are sorted by a strict order. -/
theorem ext_get? {m n : SortedMap κ α} (h : ∀ k, m.get? k = n.get? k) : m = n := by
  have hperm : m.entries.Perm n.entries := by
    refine (List.perm_ext_iff_of_nodup ?_ ?_).mpr fun e => ?_
    · exact m.sorted.imp fun hlt heq => absurd (heq ▸ hlt) (lt_irrefl _)
    · exact n.sorted.imp fun hlt heq => absurd (heq ▸ hlt) (lt_irrefl _)
    · obtain ⟨k, v⟩ := e
      rw [m.mem_entries_iff, n.mem_entries_iff, h]
  have heq : m.entries = n.entries :=
    hperm.eq_of_pairwise
      (fun a b _ _ hab hba => absurd hab (not_lt.mpr (le_of_lt hba))) m.sorted n.sorted
  cases m; cases n; cases heq; rfl

/-- The entry of a key and the entries of the other keys. -/
theorem entries_perm_cons_erase {m : SortedMap κ α} {k : κ} {v : α} (h : m.get? k = some v) :
    m.entries.Perm ((k, v) :: (m.erase k).entries) := by
  have hnodup : ∀ n : SortedMap κ α, n.entries.Nodup := fun n =>
    n.sorted.imp fun hlt heq => absurd (heq ▸ hlt) (lt_irrefl _)
  have hout : (k, v) ∉ (m.erase k).entries := by
    rw [mem_entries_iff, get?_erase, if_pos rfl]
    exact nofun
  refine (List.perm_ext_iff_of_nodup (hnodup m) (List.nodup_cons.mpr ⟨hout, hnodup _⟩)).mpr ?_
  rintro ⟨k', v'⟩
  rw [List.mem_cons, mem_entries_iff, mem_entries_iff, get?_erase]
  by_cases hk : k = k'
  · subst hk
    simp [h, eq_comm]
  · simp [hk, Ne.symm hk]

theorem erase_insert (m : SortedMap κ α) (k : κ) (v : α) : (m.insert k v).erase k = m.erase k := by
  apply ext_get?
  intro k'
  rw [get?_erase, get?_erase]
  split_ifs with hk
  · rfl
  · exact get?_insert_ne m v hk

theorem erase_of_get?_none {m : SortedMap κ α} {k : κ} (h : m.get? k = none) : m.erase k = m := by
  apply ext_get?
  intro k'
  rw [get?_erase]
  split_ifs with hk
  · exact hk ▸ h.symm
  · rfl

/-- A new key joins the others. -/
theorem keys_insert_perm {m : SortedMap κ α} {k : κ} (h : m.get? k = none) (v : α) :
    (m.insert k v).keys.Perm (k :: m.keys) := by
  have hperm := (entries_perm_cons_erase (m.get?_insert_self k v)).map (·.1)
  rw [erase_insert, erase_of_get?_none h] at hperm
  exact hperm

/-! ### Maps from lists -/

/-- The map of a list of entries. A later entry replaces an earlier one of its key. -/
def ofEntries (l : List (κ × α)) : SortedMap κ α := l.foldl (fun m e => m.insert e.1 e.2) empty

theorem get?_foldl_insert (l : List (κ × α))
    (huniq : ∀ a ∈ l, ∀ b ∈ l, a.1 = b.1 → a.2 = b.2) (m : SortedMap κ α) (k : κ) (v : α) :
    (l.foldl (fun m e => m.insert e.1 e.2) m).get? k = some v ↔
      (k, v) ∈ l ∨ (k ∉ l.map (·.1) ∧ m.get? k = some v) := by
  induction l generalizing m with
  | nil => simp
  | cons e rest ih =>
      have hrest : ∀ a ∈ rest, ∀ b ∈ rest, a.1 = b.1 → a.2 = b.2 := fun a ha b hb =>
        huniq a (List.mem_cons_of_mem _ ha) b (List.mem_cons_of_mem _ hb)
      rw [List.foldl_cons, ih hrest, get?_insert]
      obtain ⟨k₀, v₀⟩ := e
      by_cases hk : k₀ = k
      · subst hk
        simp only [if_true, Option.some.injEq, List.mem_cons, Prod.mk.injEq, true_and,
          List.map_cons, true_or, not_true_eq_false, false_and, or_false]
        constructor
        · rintro (h | ⟨-, rfl⟩)
          · exact Or.inr h
          · exact Or.inl rfl
        · rintro (rfl | h)
          · by_cases hin : k₀ ∈ rest.map (·.1)
            · obtain ⟨⟨k₁, v₁⟩, hmem, heq⟩ := List.mem_map.mp hin
              cases heq
              -- The later entry of the key has the same value.
              have hv := huniq (k₁, v₁) (List.mem_cons_of_mem _ hmem) (k₁, v)
                List.mem_cons_self rfl
              cases hv
              exact Or.inl hmem
            · exact Or.inr ⟨hin, rfl⟩
          · exact Or.inl h
      · simp [hk, Ne.symm hk]

theorem get?_ofEntries {l : List (κ × α)} (huniq : ∀ a ∈ l, ∀ b ∈ l, a.1 = b.1 → a.2 = b.2)
    (k : κ) (v : α) : (ofEntries l).get? k = some v ↔ (k, v) ∈ l := by
  rw [ofEntries, get?_foldl_insert l huniq]
  simp

/-- The last entry of a key stays. The induction is over the list from its end. -/
theorem get?_ofEntries_iff_last (l : List (κ × α)) (k : κ) (v : α) :
    (ofEntries l).get? k = some v ↔
      ∃ before after, l = before ++ (k, v) :: after ∧ k ∉ after.map (·.1) := by
  induction l using List.reverseRecOn with
  | nil => simp [ofEntries, empty, get?, lookupEntry]
  | append_singleton l e ih =>
      have hinsert : ofEntries (l ++ [e]) = (ofEntries l).insert e.1 e.2 := by
        rw [ofEntries, List.foldl_append]
        rfl
      rw [hinsert, get?_insert]
      constructor
      · intro h
        split at h
        · next hk =>
            cases h
            exact ⟨l, [], by rw [← hk], List.not_mem_nil⟩
        · next hk =>
            obtain ⟨before, after, rfl, hafter⟩ := ih.mp h
            refine ⟨before, after ++ [e], by simp, ?_⟩
            rw [List.map_append, List.mem_append, not_or]
            exact ⟨hafter, fun hmem => hk (List.mem_singleton.mp hmem).symm⟩
      · rintro ⟨before, after, hsplit, hafter⟩
        rcases List.eq_nil_or_concat' after with rfl | ⟨init, last, rfl⟩
        · obtain ⟨-, rfl⟩ := List.append_inj' hsplit rfl |>.imp_right List.singleton_inj.mp
          exact if_pos rfl
        · rw [← List.cons_append, ← List.append_assoc] at hsplit
          obtain ⟨rfl, hlast⟩ := List.append_inj' hsplit rfl
          obtain rfl := List.singleton_inj.mp hlast
          rw [List.map_append, List.mem_append, not_or] at hafter
          rw [if_neg fun hk => hafter.2 (List.mem_singleton.mpr hk.symm)]
          exact ih.mpr ⟨before, init, rfl, hafter.1⟩

theorem isSome_get?_ofEntries (l : List (κ × α)) (k : κ) :
    ((ofEntries l).get? k).isSome = true ↔ k ∈ l.map (·.1) := by
  induction l using List.reverseRecOn with
  | nil => simp [ofEntries, empty, get?, lookupEntry]
  | append_singleton l e ih =>
      have hinsert : ofEntries (l ++ [e]) = (ofEntries l).insert e.1 e.2 := by
        rw [ofEntries, List.foldl_append]
        rfl
      rw [hinsert, get?_insert, List.map_append, List.mem_append]
      by_cases hk : e.1 = k
      · simp [hk]
      · rw [if_neg hk, ih]
        simp [Ne.symm hk]

theorem ofEntries_entries (m : SortedMap κ α) : ofEntries m.entries = m := by
  have huniq : ∀ a ∈ m.entries, ∀ b ∈ m.entries, a.1 = b.1 → a.2 = b.2 := by
    intro a ha b hb hab
    have hgetA := (m.mem_entries_iff a.1 a.2).mp ha
    have hgetB := (m.mem_entries_iff b.1 b.2).mp hb
    rw [hab, hgetB] at hgetA
    exact (Option.some.inj hgetA).symm
  apply ext_get?
  intro k
  apply Option.ext
  intro v
  rw [get?_ofEntries huniq, m.mem_entries_iff]

/-- The map with a function applied to every value. -/
def mapValues {β : Type} (f : α → β) (m : SortedMap κ α) : SortedMap κ β :=
  ⟨m.entries.map (fun e => (e.1, f e.2)), List.pairwise_map.mpr m.sorted⟩

theorem get?_mapValues {β : Type} (f : α → β) (m : SortedMap κ α) (k : κ) :
    (m.mapValues f).get? k = (m.get? k).map f := by
  show lookupEntry k (m.entries.map _) = (lookupEntry k m.entries).map f
  induction m.entries with
  | nil => rfl
  | cons e rest ih =>
      simp only [List.map_cons, lookupEntry]
      split_ifs
      · rfl
      · exact ih

theorem keys_mapValues {β : Type} (f : α → β) (m : SortedMap κ α) :
    (m.mapValues f).keys = m.keys := by
  show (m.entries.map _).map _ = m.entries.map _
  rw [List.map_map]
  rfl

/-- A new value under a key that is there changes no key. -/
theorem keys_insert_of_get? {m : SortedMap κ α} {k : κ} {v : α} (h : m.get? k = some v) (u : α) :
    (m.insert k u).keys = m.keys := by
  have hsame : (m.insert k u).mapValues (fun _ => ()) = m.mapValues fun _ => () := by
    refine ext_get? fun k' => ?_
    rw [get?_mapValues, get?_mapValues, get?_insert]
    split
    · next heq => rw [← heq, h]; rfl
    · rfl
  rw [← keys_mapValues (fun _ => ()) (m.insert k u), hsame, keys_mapValues]

/-! ### The key order -/

/-- The entry with the greatest key. -/
def last? (m : SortedMap κ α) : Option (κ × α) := m.entries.getLast?

theorem get?_of_last? {m : SortedMap κ α} {e : κ × α} (h : m.last? = some e) :
    m.get? e.1 = some e.2 :=
  (m.mem_entries_iff e.1 e.2).mp (List.mem_of_getLast? h)

theorem le_last? {m : SortedMap κ α} {e : κ × α} (h : m.last? = some e) {k : κ} {v : α}
    (hget : m.get? k = some v) : k ≤ e.1 := by
  obtain ⟨front, hfront⟩ := List.getLast?_eq_some_iff.mp h
  have hmem := (m.mem_entries_iff k v).mpr hget
  have hsorted := m.sorted
  rw [hfront, List.pairwise_append] at hsorted
  rw [hfront, List.mem_append, List.mem_singleton] at hmem
  rcases hmem with hmem | rfl
  · exact le_of_lt (hsorted.2.2 _ hmem e List.mem_cons_self)
  · exact le_refl _

theorem get?_of_last?_none {m : SortedMap κ α} (h : m.last? = none) (k : κ) : m.get? k = none := by
  show lookupEntry k m.entries = none
  rw [List.getLast?_eq_none_iff.mp h]
  rfl

/-- A predicate that holds below every key where it holds splits the entries in two. -/
theorem entries_filter_append (m : SortedMap κ α) (p : κ × α → Bool)
    (hdown : ∀ a b : κ × α, a.1 < b.1 → p b = true → p a = true) :
    (m.filter p).entries ++ (m.filter (fun e => !p e)).entries = m.entries := by
  have hpair : m.entries.Pairwise (fun a b => p b = true → p a = true) :=
    m.sorted.imp fun hlt => hdown _ _ hlt
  show m.entries.filter p ++ m.entries.filter (fun e => !p e) = m.entries
  revert hpair
  induction m.entries with
  | nil => exact fun _ => rfl
  | cons e rest ih =>
      intro hpair
      obtain ⟨hhead, hrest⟩ := List.pairwise_cons.mp hpair
      by_cases hp : p e = true
      · simp [hp, ih hrest]
      -- No entry after the cut satisfies the predicate.
      · have hnone : ∀ a ∈ rest, ¬ p a = true := fun a ha hpa => hp (hhead a ha hpa)
        rw [List.filter_cons_of_neg hp, List.filter_eq_nil_iff.mpr hnone, List.nil_append,
          List.filter_eq_self.mpr]
        intro a ha
        rcases List.mem_cons.mp ha with rfl | ha
        · simpa using hp
        · simpa using hnone a ha

end SortedMap

end CodexInfo.Lib
