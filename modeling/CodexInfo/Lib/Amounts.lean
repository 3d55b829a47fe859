import CodexInfo.Lib.Run
import CodexInfo.Lib.SortedMap
import Mathlib.Algebra.BigOperators.Group.List.Basic
import Mathlib.Algebra.Group.Hom.Defs

/-!
# `CodexInfo.Lib.Amounts`: amounts under keys

A map into a commutative monoid is read as a table of amounts. A key without an entry has the
amount zero. Nothing here needs a difference, so an amount may absorb what is added to it.

* `deposit`, `depositAll`: one amount and a list of amounts added under their keys.
* `amount_depositAll`, `grand_depositAll`: what the deposits leave under a key and in all.
* `CheckedSum`, `depositAllM_eq_ok_iff`: deposits with an addition that can fail.

Nothing here names a component of the repository.
-/

set_option autoImplicit false

namespace CodexInfo.Lib.SortedMap

variable {κ α : Type} [LinearOrder κ]

/-! ### Deposits -/

section
variable [AddCommMonoid α]

def amount (m : SortedMap κ α) (k : κ) : α := (m.get? k).getD 0

/-- The sum of all amounts. -/
def grand (m : SortedMap κ α) : α := m.values.sum

def deposit (m : SortedMap κ α) (k : κ) (a : α) : SortedMap κ α := m.insert k (m.amount k + a)

def depositAll (m : SortedMap κ α) (l : List (κ × α)) : SortedMap κ α :=
  l.foldl (fun m e => m.deposit e.1 e.2) m

/-- The sum of the listed amounts of one key. -/
def share (l : List (κ × α)) (k : κ) : α := ((l.filter (fun e => e.1 = k)).map (·.2)).sum

@[simp] theorem share_nil (k : κ) : share ([] : List (κ × α)) k = 0 := rfl

theorem share_cons (e : κ × α) (l : List (κ × α)) (k : κ) :
    share (e :: l) k = (if e.1 = k then e.2 else 0) + share l k := by
  by_cases hk : e.1 = k <;> simp [share, hk]

theorem share_eq_zero {l : List (κ × α)} {k : κ} (h : ∀ e ∈ l, e.1 ≠ k) : share l k = 0 := by
  have hnone : l.filter (fun e => e.1 = k) = [] :=
    List.filter_eq_nil_iff.mpr fun e he => by simpa using h e he
  simp [share, hnone]

theorem share_append (l l' : List (κ × α)) (k : κ) :
    share (l ++ l') k = share l k + share l' k := by
  simp [share, List.filter_append]

theorem share_perm {l l' : List (κ × α)} (h : l.Perm l') (k : κ) : share l k = share l' k :=
  ((h.filter _).map _).sum_eq

/-- A table lists each key once. -/
theorem share_entries (m : SortedMap κ α) (k : κ) : share m.entries k = m.amount k := by
  obtain ⟨l, hl⟩ := m
  show share l k = (lookupEntry k l).getD 0
  induction l with
  | nil => rfl
  | cons head rest ih =>
      obtain ⟨hhead, hrest⟩ := List.pairwise_cons.mp hl
      rw [share_cons]
      by_cases hk : head.1 = k
      · have hzero : share rest k = 0 := share_eq_zero fun e he => hk ▸ (hhead e he).ne'
        simp [lookupEntry, hk, hzero]
      · simp [lookupEntry, hk, ih hrest]

@[simp] theorem amount_empty (k : κ) : (empty : SortedMap κ α).amount k = 0 := rfl

theorem amount_insert (m : SortedMap κ α) (k k' : κ) (a : α) :
    (m.insert k a).amount k' = if k = k' then a else m.amount k' := by
  rw [amount, get?_insert]
  split <;> rfl

theorem amount_deposit (m : SortedMap κ α) (k k' : κ) (a : α) :
    (m.deposit k a).amount k' = m.amount k' + (if k = k' then a else 0) := by
  by_cases hk : k = k'
  · subst hk
    simp [deposit, amount]
  · simp [deposit, amount, get?_insert_ne m _ hk, hk]

theorem amount_depositAll (m : SortedMap κ α) (l : List (κ × α)) (k : κ) :
    (m.depositAll l).amount k = m.amount k + share l k := by
  induction l generalizing m with
  | nil => simp [depositAll]
  | cons e rest ih =>
      have hrest := ih (m.deposit e.1 e.2)
      show ((m.deposit e.1 e.2).depositAll rest).amount k = _
      rw [hrest, amount_deposit, share_cons, add_assoc]

/-- A deposit makes an entry, and only under its key. -/
theorem isSome_get?_depositAll (m : SortedMap κ α) (l : List (κ × α)) (k : κ) :
    ((m.depositAll l).get? k).isSome ↔ (m.get? k).isSome ∨ k ∈ l.map (·.1) := by
  induction l generalizing m with
  | nil => simp [depositAll]
  | cons e rest ih =>
      have hrest := ih (m.deposit e.1 e.2)
      show (((m.deposit e.1 e.2).depositAll rest).get? k).isSome ↔ _
      rw [hrest]
      by_cases hk : e.1 = k
      · simp [deposit, hk]
      · simp [deposit, get?_insert_ne m _ hk, Ne.symm hk]

/-- The entry of a key that has one. -/
theorem get?_eq_amount {m : SortedMap κ α} {k : κ} (h : (m.get? k).isSome) :
    m.get? k = some (m.amount k) := by
  obtain ⟨v, hv⟩ := Option.isSome_iff_exists.mp h
  simp [amount, hv]

/-- A table is determined by its keys and their amounts. -/
theorem ext_amount {m n : SortedMap κ α} (hkeys : ∀ k, (m.get? k).isSome ↔ (n.get? k).isSome)
    (hamounts : ∀ k, m.amount k = n.amount k) : m = n := by
  refine ext_get? fun k => ?_
  by_cases hk : (m.get? k).isSome
  · rw [get?_eq_amount hk, get?_eq_amount ((hkeys k).mp hk), hamounts k]
  · have hk' : ¬ (n.get? k).isSome := fun h => hk ((hkeys k).mpr h)
    rw [Option.not_isSome_iff_eq_none.mp hk, Option.not_isSome_iff_eq_none.mp hk']

/-! ### The grand total -/

/-- An additive reading of the amounts, key by key, of all entries together. The induction is over
the entries. Below the first key that is not smaller there is nothing to look up, as the keys
increase. -/
theorem sum_weigh_insertEntry {β : Type} [AddCommMonoid β] (weigh : κ → α →+ β) (k : κ) (a : α)
    {l : List (κ × α)} (h : l.Pairwise (fun a b => a.1 < b.1)) :
    ((insertEntry k ((lookupEntry k l).getD 0 + a) l).map fun e => weigh e.1 e.2).sum
      = (l.map fun e => weigh e.1 e.2).sum + weigh k a := by
  induction l with
  | nil => simp [insertEntry, lookupEntry]
  | cons head rest ih =>
      obtain ⟨k', v⟩ := head
      obtain ⟨hhead, hrest⟩ := List.pairwise_cons.mp h
      simp only [insertEntry, lookupEntry]
      rcases lt_trichotomy k k' with hlt | heq | hgt
      · have hnone : lookupEntry k rest = none := by
          cases hget : lookupEntry k rest with
          | none => rfl
          | some u => exact absurd (hhead _ (mem_of_lookupEntry hget)) (not_lt.mpr hlt.le)
        simp [hlt, hlt.ne', hnone, add_comm]
      · subst heq
        simp only [lt_irrefl, if_false, if_true, List.map_cons, List.sum_cons, Option.getD_some,
          map_add]
        rw [add_right_comm]
      · simp only [not_lt.mpr hgt.le, hgt.ne, hgt.ne', if_false, List.map_cons, List.sum_cons,
          ih hrest, add_assoc]

theorem sum_insertEntry (k : κ) (a : α) {l : List (κ × α)}
    (h : l.Pairwise (fun a b => a.1 < b.1)) :
    ((insertEntry k ((lookupEntry k l).getD 0 + a) l).map (·.2)).sum = (l.map (·.2)).sum + a :=
  sum_weigh_insertEntry (fun _ => AddMonoidHom.id α) k a h

theorem grand_deposit (m : SortedMap κ α) (k : κ) (a : α) :
    (m.deposit k a).grand = m.grand + a :=
  sum_insertEntry k a m.sorted

theorem grand_depositAll (m : SortedMap κ α) (l : List (κ × α)) :
    (m.depositAll l).grand = m.grand + (l.map (·.2)).sum := by
  induction l generalizing m with
  | nil => simp [depositAll]
  | cons e rest ih =>
      have hrest := ih (m.deposit e.1 e.2)
      show ((m.deposit e.1 e.2).depositAll rest).grand = _
      rw [hrest, grand_deposit, List.map_cons, List.sum_cons, add_assoc]

/-- What the entries of a key-value table hold is the amount of a key and the rest. -/
theorem grand_erase (m : SortedMap κ α) (k : κ) :
    (m.erase k).grand + m.amount k = m.grand := by
  obtain ⟨l, hl⟩ := m
  show ((l.filter (fun e => e.1 ≠ k)).map (·.2)).sum + (lookupEntry k l).getD 0 = (l.map (·.2)).sum
  induction l with
  | nil => simp [lookupEntry]
  | cons head rest ih =>
      obtain ⟨k', v⟩ := head
      obtain ⟨hhead, hrest⟩ := List.pairwise_cons.mp hl
      by_cases hk : k' = k
      · subst hk
        have hall : rest.filter (fun e => e.1 ≠ k') = rest :=
          List.filter_eq_self.mpr fun e he => by simpa using (hhead e he).ne'
        rw [List.filter_cons_of_neg (by simp), hall]
        simp [lookupEntry, add_comm]
      · rw [List.filter_cons_of_pos (by simpa using hk)]
        simp only [lookupEntry, hk, if_false, List.map_cons, List.sum_cons]
        rw [← ih hrest, add_assoc]

end

/-! ### Checked deposits -/

section
variable {ε : Type} (add : α → α → Except ε α)

def depositM (zero : α) (m : SortedMap κ α) (k : κ) (a : α) : Except ε (SortedMap κ α) := do
  let sum ← add ((m.get? k).getD zero) a
  return m.insert k sum

def depositAllM (zero : α) (m : SortedMap κ α) (l : List (κ × α)) : Except ε (SortedMap κ α) :=
  l.foldlM (fun m e => m.depositM add zero e.1 e.2) m

variable [AddCommMonoid α]

/-- An addition that fails exactly where the sum of two valid amounts does not fit. -/
structure CheckedSum (valid fits : α → Prop) : Prop where
  ok_iff : ∀ {a b c : α}, valid a → valid b → (add a b = .ok c ↔ fits (a + b) ∧ c = a + b)
  valid_zero : valid 0
  valid_add : ∀ {a b : α}, valid a → valid b → fits (a + b) → valid (a + b)
  fits_of_valid : ∀ {a : α}, valid a → fits a
  fits_left : ∀ {a b : α}, fits (a + b) → fits a

variable {add} {valid fits : α → Prop}

/-- Every amount of the table is valid. -/
def AllValid (valid : α → Prop) (m : SortedMap κ α) : Prop := ∀ k v, m.get? k = some v → valid v

theorem AllValid.amount (hadd : CheckedSum add valid fits) {m : SortedMap κ α}
    (hm : m.AllValid valid) (k : κ) : valid (m.amount k) := by
  cases hget : m.get? k with
  | none => simpa [SortedMap.amount, hget] using hadd.valid_zero
  | some v => simpa [SortedMap.amount, hget] using hm k v hget

theorem AllValid.deposit (hadd : CheckedSum add valid fits) {m : SortedMap κ α}
    (hm : m.AllValid valid) {k : κ} {a : α} (ha : valid a) (hfits : fits (m.amount k + a)) :
    (m.deposit k a).AllValid valid := by
  intro k' v hv
  by_cases hk : k = k'
  · subst hk
    rw [SortedMap.deposit, get?_insert_self, Option.some.injEq] at hv
    exact hv ▸ hadd.valid_add (hm.amount hadd k) ha hfits
  · rw [SortedMap.deposit, get?_insert_ne m _ hk] at hv
    exact hm k' v hv

theorem depositM_eq_ok_iff (hadd : CheckedSum add valid fits) {m m' : SortedMap κ α}
    (hm : m.AllValid valid) {k : κ} {a : α} (ha : valid a) :
    m.depositM add 0 k a = .ok m' ↔ fits (m.amount k + a) ∧ m' = m.deposit k a := by
  rw [depositM, bind_eq_ok_iff]
  constructor
  · rintro ⟨sum, hsum, hm'⟩
    obtain ⟨hfits, rfl⟩ := (hadd.ok_iff (hm.amount hadd k) ha).mp hsum
    exact ⟨hfits, (Except.ok.inj hm').symm⟩
  · rintro ⟨hfits, rfl⟩
    exact ⟨_, (hadd.ok_iff (hm.amount hadd k) ha).mpr ⟨hfits, rfl⟩, rfl⟩

/-- The deposits succeed exactly when the final amounts fit: what fits later fitted before. -/
theorem depositAllM_eq_ok_iff (hadd : CheckedSum add valid fits) {m m' : SortedMap κ α}
    (hm : m.AllValid valid) {l : List (κ × α)} (hl : ∀ e ∈ l, valid e.2) :
    m.depositAllM add 0 l = .ok m' ↔
      (∀ k, fits (m.amount k + share l k)) ∧ m' = m.depositAll l := by
  induction l generalizing m with
  | nil =>
      constructor
      · intro h
        refine ⟨fun k => ?_, (Except.ok.inj h).symm⟩
        rw [share_nil, add_zero]
        exact hadd.fits_of_valid (hm.amount hadd k)
      · rintro ⟨-, rfl⟩
        rfl
  | cons e rest ih =>
      have he : valid e.2 := hl e List.mem_cons_self
      have hrest : ∀ e ∈ rest, valid e.2 := fun e he => hl e (List.mem_cons_of_mem _ he)
      have hsplit : ∀ k, m.amount k + share (e :: rest) k
          = (m.deposit e.1 e.2).amount k + share rest k := by
        intro k
        rw [amount_deposit, share_cons, add_assoc]
      rw [depositAllM, List.foldlM_cons, bind_eq_ok_iff]
      constructor
      · rintro ⟨next, hnext, htail⟩
        obtain ⟨hfits, rfl⟩ := (depositM_eq_ok_iff hadd hm he).mp hnext
        obtain ⟨hall, rfl⟩ := (ih (hm.deposit hadd he hfits) hrest).mp htail
        exact ⟨fun k => hsplit k ▸ hall k, rfl⟩
      · rintro ⟨hall, rfl⟩
        have hfits : fits (m.amount e.1 + e.2) := by
          have hkey := hsplit e.1 ▸ hall e.1
          rw [amount_deposit, if_pos rfl] at hkey
          exact hadd.fits_left hkey
        refine ⟨_, (depositM_eq_ok_iff hadd hm he).mpr ⟨hfits, rfl⟩, ?_⟩
        exact (ih (hm.deposit hadd he hfits) hrest).mpr ⟨fun k => hsplit k ▸ hall k, rfl⟩

end

end CodexInfo.Lib.SortedMap
