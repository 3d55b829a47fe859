import CodexInfo.Lib.Absorb
import CodexInfo.Lib.JsonValue
import Mathlib.Data.Char
import Mathlib.Data.List.Lex

/-!
# `CodexInfo.Lib.JsonEquality`: documents that say the same

Two JSON documents say the same when their numbers have the same values and their objects the same
members in any order. A decoder that keeps one form of each number, and the members by name, makes
one document of all that say the same.

* `Same`: the documents say the same.
* `Canonical`: the numbers have one form and the members are in order.
* `Canonical.eq_of_same`: canonical documents that say the same are equal.

Nothing here names a component of the repository.
-/

set_option autoImplicit false

namespace CodexInfo.Lib

/-- What a number says. -/
def JsonNumber.value : JsonNumber → ℚ
  | posInt n => n
  | negInt n => n
  | float q => q

namespace JsonValue

mutual

/-- The documents say the same. -/
def Same : JsonValue → JsonValue → Prop
  | null, null => True
  | bool a, bool b => a = b
  | number a, number b => a.value = b.value
  | string a, string b => a = b
  | array as, array bs => SameItems as bs
  | object as, object bs => SameMembers as bs
  | _, _ => False

def SameItems : List JsonValue → List JsonValue → Prop
  | [], [] => True
  | a :: as, b :: bs => Same a b ∧ SameItems as bs
  | _, _ => False

/-- The members may stand in any order. -/
def SameMembers : List (List Char × JsonValue) → List (List Char × JsonValue) → Prop
  | [], bs => bs = []
  | (name, a) :: as, bs =>
      ∃ before b after, bs = before ++ (name, b) :: after ∧ Same a b ∧
        SameMembers as (before ++ after)

end

/-- The members stand in the order of their names, and no name stands twice. -/
def Ordered (members : List (List Char × JsonValue)) : Prop :=
  members.Pairwise fun a b => a.1 < b.1

mutual

/-- The numbers have one of the given forms, and the members are in order. -/
def Canonical (numbers : JsonNumber → Prop) : JsonValue → Prop
  | null => True
  | bool _ => True
  | number n => numbers n
  | string _ => True
  | array items => CanonicalItems numbers items
  | object members => Ordered members ∧ CanonicalMembers numbers members

def CanonicalItems (numbers : JsonNumber → Prop) : List JsonValue → Prop
  | [] => True
  | item :: items => Canonical numbers item ∧ CanonicalItems numbers items

def CanonicalMembers (numbers : JsonNumber → Prop) : List (List Char × JsonValue) → Prop
  | [] => True
  | (_, value) :: members => Canonical numbers value ∧ CanonicalMembers numbers members

end

variable {numbers : JsonNumber → Prop}

theorem canonicalItems_iff {items : List JsonValue} :
    CanonicalItems numbers items ↔ ∀ item ∈ items, Canonical numbers item := by
  induction items with
  | nil => simp [CanonicalItems]
  | cons item items ih => simp [CanonicalItems, ih]

theorem canonicalMembers_iff {members : List (List Char × JsonValue)} :
    CanonicalMembers numbers members ↔ ∀ entry ∈ members, Canonical numbers entry.2 := by
  induction members with
  | nil => simp [CanonicalMembers]
  | cons entry members ih =>
      obtain ⟨name, value⟩ := entry
      simp [CanonicalMembers, ih]

/-! ### Members -/

theorem mem_of_member {members : List (List Char × JsonValue)} {name : List Char} {value : JsonValue}
    (h : member members name = some value) : (name, value) ∈ members := by
  obtain ⟨entry, hfind, rfl⟩ := Option.map_eq_some_iff.mp h
  have hname : decide (entry.1 = name) = true :=
    List.find?_some (p := fun entry : List Char × JsonValue => decide (entry.1 = name)) hfind
  rw [← of_decide_eq_true hname]
  exact List.mem_of_find?_eq_some hfind

theorem member_eq_none_iff {members : List (List Char × JsonValue)} {name : List Char} :
    member members name = none ↔ name ∉ members.map (·.1) := by
  rw [member, Option.map_eq_none_iff, List.find?_eq_none]
  simp only [decide_eq_true_eq, List.mem_map, not_exists, not_and]

theorem Canonical.items {items : List JsonValue} (h : Canonical numbers (array items)) :
    ∀ item ∈ items, Canonical numbers item :=
  canonicalItems_iff.mp h

theorem Canonical.members {members : List (List Char × JsonValue)}
    (h : Canonical numbers (object members)) : ∀ entry ∈ members, Canonical numbers entry.2 :=
  canonicalMembers_iff.mp h.2

theorem Canonical.member {members : List (List Char × JsonValue)}
    (h : Canonical numbers (object members)) {name : List Char} {value : JsonValue}
    (hmember : JsonValue.member members name = some value) : Canonical numbers value :=
  h.members _ (mem_of_member hmember)

/-! ### Equality -/

/-- Each number has one form. -/
def OneForm (numbers : JsonNumber → Prop) : Prop :=
  ∀ a b, numbers a → numbers b → a.value = b.value → a = b

mutual

theorem same_refl : (a : JsonValue) → Same a a
  | null => trivial
  | bool _ => rfl
  | number _ => rfl
  | string _ => rfl
  | array items => sameItems_refl items
  | object members => sameMembers_refl members

theorem sameItems_refl : (items : List JsonValue) → SameItems items items
  | [] => trivial
  | item :: items => ⟨same_refl item, sameItems_refl items⟩

theorem sameMembers_refl : (members : List (List Char × JsonValue)) → SameMembers members members
  | [] => rfl
  | (_, value) :: members => ⟨[], value, members, rfl, same_refl value, sameMembers_refl members⟩

end

mutual

theorem Canonical.eq_of_same (hnumbers : OneForm numbers) : (a b : JsonValue) → Canonical numbers a → Canonical numbers b →
    Same a b → a = b
  | null, null, _, _, _ => rfl
  | bool _, bool _, _, _, h => congrArg bool h
  | number a, number b, ha, hb, h => congrArg number (hnumbers a b ha hb h)
  | string _, string _, _, _, h => congrArg string h
  | array as, array bs, ha, hb, h => congrArg array (CanonicalItems.eq_of_same hnumbers as bs ha hb h)
  | object as, object bs, ha, hb, h =>
      congrArg object (eq_of_perm_of_strict
        (CanonicalMembers.perm_of_same hnumbers as bs ha.2 (canonicalMembers_iff.mp hb.2) h) ha.1 hb.1)

theorem CanonicalItems.eq_of_same (hnumbers : OneForm numbers) : (as bs : List JsonValue) → CanonicalItems numbers as →
    CanonicalItems numbers bs → SameItems as bs → as = bs
  | [], [], _, _, _ => rfl
  | a :: as, b :: bs, ha, hb, h => by
      rw [Canonical.eq_of_same hnumbers a b ha.1 hb.1 h.1, CanonicalItems.eq_of_same hnumbers as bs ha.2 hb.2 h.2]

theorem CanonicalMembers.perm_of_same (hnumbers : OneForm numbers) :
    (as bs : List (List Char × JsonValue)) →
    CanonicalMembers numbers as → (∀ entry ∈ bs, Canonical numbers entry.2) → SameMembers as bs →
    as.Perm bs
  | [], bs, _, _, h => by
      obtain rfl : bs = [] := h
      exact .refl []
  | (name, a) :: as, bs, ha, hb, h => by
      obtain ⟨before, b, after, rfl, hsame, hrest⟩ := h
      have hbranch := hb (name, b) (List.mem_append_right _ List.mem_cons_self)
      rw [Canonical.eq_of_same hnumbers a b ha.1 hbranch hsame]
      -- The other members stand around the one that is taken out.
      have hothers : as.Perm (before ++ after) :=
        CanonicalMembers.perm_of_same hnumbers as (before ++ after) ha.2
          (fun entry hmem => hb entry (List.mem_append.mp hmem |>.elim
            (List.mem_append_left _) fun h => List.mem_append_right _ (List.mem_cons_of_mem _ h)))
          hrest
      exact (hothers.cons (name, b)).trans List.perm_middle.symm

end

end JsonValue

end CodexInfo.Lib
