import CodexInfo.Proofs.SessionInput.Items

/-!
# `CodexInfo.Proofs.SessionInput.Trees`: a reader of JSON trees

A reader with the loops of the parser that keeps the whole tree. The readers of the parser
are compared with it, so that each of them has to be compared with the grammar no more.

* `valueTree`: the reader.
* `valueTree_sound`, `valueTree_complete`: it reads the values of JSON whose nesting fits.
* `documentTree_sound`, `documentTree_complete`: the same of a whole line.
* `document_unique`: a line denotes one tree.
-/

set_option autoImplicit false

namespace CodexInfo.SessionInput

open CodexInfo.Lib (ByteProgram Json)
open CodexInfo.Lib.Json
open CodexInfo.Lib.ByteProgram

/-! ### Containers in the grammar -/

section
variable {α : Type} {Item : List UInt8 → α → List UInt8 → Prop} {close : UInt8}
  {line rest : List UInt8} {as : List α}

theorem Separated.and_iff {Q : α → Prop} :
    Separated (fun line a rest => Item line a rest ∧ Q a) close line as rest ↔
      Separated Item close line as rest ∧ ∀ a ∈ as, Q a := by
  constructor
  · intro h
    induction h with
    | last item stop => exact ⟨.last item.1 stop, List.forall_mem_singleton.mpr item.2⟩
    | more item comma space tail ih =>
        exact ⟨.more item.1 comma space ih.1, List.forall_mem_cons.mpr ⟨item.2, ih.2⟩⟩
  · rintro ⟨h, hall⟩
    induction h with
    | last item stop => exact .last ⟨item, hall _ List.mem_cons_self⟩ stop
    | more item comma space tail ih =>
        rw [List.forall_mem_cons] at hall
        exact .more ⟨item, hall.1⟩ comma space (ih hall.2)

theorem Contents.and_iff {Q : α → Prop} :
    Contents (fun line a rest => Item line a rest ∧ Q a) close line as rest ↔
      Contents Item close line as rest ∧ ∀ a ∈ as, Q a := by
  constructor
  · rintro (stop | ⟨space, h⟩)
    · exact ⟨.empty stop, List.forall_mem_nil _⟩
    · obtain ⟨h, hall⟩ := Separated.and_iff.mp h
      exact ⟨.items space h, hall⟩
  · rintro ⟨stop | ⟨space, h⟩, hall⟩
    · exact .empty stop
    · exact .items space (Separated.and_iff.mpr ⟨h, hall⟩)

end

theorem separated_of_items {line rest : List UInt8} {items : List Json} :
    Items line items rest → Separated Value 0x5d line items rest := by
  induction items generalizing line with
  | nil => exact fun h => by cases h
  | cons item items ih =>
      intro h
      cases h with
      | last value close => exact .last value close
      | more value comma space tail => exact .more value comma space (ih tail)

theorem separated_of_members {line rest : List UInt8} {members : List (List Char × Json)} :
    Members line members rest → Separated Member 0x7d line members rest := by
  induction members generalizing line with
  | nil => exact fun h => by cases h
  | cons member members ih =>
      intro h
      cases h with
      | last value close => exact .last value close
      | more value comma space tail => exact .more value comma space (ih tail)

theorem items_of_separated {line rest : List UInt8} {items : List Json}
    (h : Separated Value 0x5d line items rest) : Items line items rest := by
  induction h with
  | last item stop => exact .last item stop
  | more item comma space tail ih => exact .more item comma space ih

theorem members_of_separated {line rest : List UInt8} {members : List (List Char × Json)}
    (h : Separated Member 0x7d line members rest) : Members line members rest := by
  induction h with
  | last item stop => exact .last item stop
  | more item comma space tail ih => exact .more item comma space ih

theorem value_array_iff {line rest : List UInt8} {items : List Json} :
    Value line (.array items) rest ↔
      ∃ tail, line = 0x5b :: tail ∧ Contents Value 0x5d tail items rest := by
  constructor
  · intro h
    cases h with
    | emptyArray close => exact ⟨_, rfl, .empty close⟩
    | array space h => exact ⟨_, rfl, .items space (separated_of_items h)⟩
  · rintro ⟨tail, rfl, stop | ⟨space, h⟩⟩
    · exact .emptyArray stop
    · exact .array space (items_of_separated h)

theorem value_object_iff {line rest : List UInt8} {members : List (List Char × Json)} :
    Value line (.object members) rest ↔
      ∃ tail, line = 0x7b :: tail ∧ Contents Member 0x7d tail members rest := by
  constructor
  · intro h
    cases h with
    | emptyObject close => exact ⟨_, rfl, .empty close⟩
    | object space h => exact ⟨_, rfl, .items space (separated_of_members h)⟩
  · rintro ⟨tail, rfl, stop | ⟨space, h⟩⟩
    · exact .emptyObject stop
    · exact .object space (members_of_separated h)

theorem nestingItems_le {items : List Json} {room : Nat} :
    nestingItems items ≤ room ↔ ∀ item ∈ items, item.nesting ≤ room := by
  induction items with
  | nil => simp [nestingItems]
  | cons item items ih => simp [nestingItems, ih]

theorem nestingMembers_le {members : List (List Char × Json)} {room : Nat} :
    nestingMembers members ≤ room ↔ ∀ member ∈ members, member.2.nesting ≤ room := by
  induction members with
  | nil => simp [nestingMembers]
  | cons member members ih => simp [nestingMembers, ih]

/-! ### First bytes -/

/-- The first byte of every spelling of a value. -/
def firstByte : Json → UInt8
  | .null => 0x6e
  | .bool true => 0x74
  | .bool false => 0x66
  | .number lexeme => lexeme.headD 0x30
  | .string _ => 0x22
  | .array _ => 0x5b
  | .object _ => 0x7b

/-- A number starts with its sign or a digit. -/
theorem head_of_isNumber {lexeme : List UInt8} (h : IsNumber lexeme) :
    ∃ b tail, lexeme = b :: tail ∧ (b = 0x2d ∨ isDigit b = true) := by
  obtain ⟨sign, whole, fraction, exponent, rfl, hsign, ⟨⟨hne, hall⟩, -⟩, -, -⟩ := h
  rcases hsign with rfl | rfl
  · cases whole with
    | nil => exact absurd rfl hne
    | cons b whole =>
        rw [List.all_cons, Bool.and_eq_true] at hall
        exact ⟨b, _, rfl, .inr hall.1⟩
  · exact ⟨0x2d, _, rfl, .inl rfl⟩

theorem head_of_value {line rest : List UInt8} {t : Json} (h : Value line t rest) :
    line.head? = some (firstByte t) := by
  cases h with
  | number h =>
      obtain ⟨b, tail, rfl, -⟩ := head_of_isNumber h
      rfl
  | _ => rfl

/-! ### The reader -/

section
variable (turns : Nat)

/-- The scalars of a string. -/
def stringTree : ByteProgram (List Char) := do
  require 0x22
  readString turns (fun cs c => cs ++ [c]) []

/-- A name, a colon and a value. -/
def memberTree (value : ByteProgram Json) : ByteProgram (List Char × Json) := do
  let name ← stringTree turns
  skipWhitespace turns
  require 0x3a
  skipWhitespace turns
  return (name, ← value)

def objectTreeWith (value : ByteProgram Json) : ByteProgram (List (List Char × Json)) := do
  require 0x7b
  readItems turns 0x7d (fun members => do return members ++ [← memberTree turns value]) []

def arrayTreeWith (value : ByteProgram Json) : ByteProgram (List Json) := do
  require 0x5b
  readItems turns 0x5d (fun items => do return items ++ [← value]) []

/-- A value, with the readers of containers, by its first byte. -/
def valueTreeWith (object : ByteProgram (List (List Char × Json)))
    (array : ByteProgram (List Json)) : ByteProgram Json := do
  let byte ← peekByte
  if byte = some 0x22 then Json.string <$> stringTree turns
  else if byte = some 0x7b then Json.object <$> object
  else if byte = some 0x5b then Json.array <$> array
  else if byte = some 0x6e then (fun _ => Json.null) <$> parseLiteral [0x6e, 0x75, 0x6c, 0x6c]
  else if byte = some 0x74 then
    (fun _ => Json.bool true) <$> parseLiteral [0x74, 0x72, 0x75, 0x65]
  else if byte = some 0x66 then
    (fun _ => Json.bool false) <$> parseLiteral [0x66, 0x61, 0x6c, 0x73, 0x65]
  else if byte = some 0x2d ∨ digit byte = true then Json.number <$> (parseNumber turns).consumed
  else fail

/-- A value with at most `room` containers around its innermost value. -/
def valueTree : Nat → ByteProgram Json
  | 0 => valueTreeWith turns fail fail
  | room + 1 =>
      valueTreeWith turns (objectTreeWith turns (valueTree room))
        (arrayTreeWith turns (valueTree room))

/-- The members of an object, with the room before it. -/
def objectTree : Nat → ByteProgram (List (List Char × Json))
  | 0 => fail
  | room + 1 => objectTreeWith turns (valueTree turns room)

def arrayTree : Nat → ByteProgram (List Json)
  | 0 => fail
  | room + 1 => arrayTreeWith turns (valueTree turns room)

theorem valueTree_eq (room : Nat) :
    valueTree turns room = valueTreeWith turns (objectTree turns room) (arrayTree turns room) := by
  cases room <;> rfl

/-- A value with white space around it, up to the end of the line. -/
def documentTree (room : Nat) : ByteProgram Json := do
  skipWhitespace turns
  let value ← valueTree turns room
  skipWhitespace turns
  if (← peekByte).isSome then fail else pure value

end

/-! ### Soundness -/

section
variable {turns : Nat}

theorem parseLiteral_eq_some_iff {literal line rest : List UInt8} {u : Unit} :
    (parseLiteral literal).runOn line = some (u, rest) ↔ line = literal ++ rest := by
  induction literal generalizing line with
  | nil => simp [parseLiteral, eq_comm]
  | cons b literal ih =>
      simp only [parseLiteral, runOn_bind, Option.bind_eq_some_iff]
      constructor
      · rintro ⟨⟨v, after⟩, hb, h⟩
        obtain rfl := require_eq_some.mp hb
        have hafter : after = literal ++ rest := ih.mp h
        rw [hafter, List.cons_append]
      · rintro rfl
        exact ⟨((), literal ++ rest), require_head b _, ih.mpr rfl⟩

theorem foldl_push {α : Type} (start as : List α) :
    as.foldl (fun all a => all ++ [a]) start = start ++ as := by
  induction as generalizing start with
  | nil => simp
  | cons a as ih => simp [ih]

theorem stringTree_sound {line rest : List UInt8} {cs : List Char}
    (h : (stringTree turns).runOn line = some (cs, rest)) :
    ∃ tail, line = 0x22 :: tail ∧ Scalars tail cs rest := by
  rw [stringTree, runOn_bind, Option.bind_eq_some_iff] at h
  obtain ⟨⟨u, tail⟩, hquote, h⟩ := h
  obtain ⟨cs', hscalars, rfl⟩ := readString_sound _ h
  rw [foldl_push, List.nil_append]
  exact ⟨tail, require_eq_some.mp hquote, hscalars⟩

theorem memberTree_sound {Good : Json → Prop} {value : ByteProgram Json}
    (hvalue : ∀ line t rest, value.runOn line = some (t, rest) → Value line t rest ∧ Good t)
    {line rest : List UInt8} {member : List Char × Json}
    (h : (memberTree turns value).runOn line = some (member, rest)) :
    Member line member rest ∧ Good member.2 := by
  simp only [memberTree, runOn_bind, Option.bind_eq_some_iff] at h
  obtain ⟨⟨name, line₁⟩, hname, ⟨_, line₂⟩, hspace, ⟨_, line₃⟩, hcolon, ⟨_, line₄⟩, hspace',
    ⟨t, line₅⟩, ht, h⟩ := h
  obtain ⟨rfl, rfl⟩ := Prod.mk.inj (Option.some.inj h)
  obtain ⟨tail, rfl, hscalars⟩ := stringTree_sound hname
  obtain rfl := require_eq_some.mp hcolon
  obtain ⟨hvalue, hgood⟩ := hvalue _ _ _ ht
  exact ⟨.intro hscalars (skipWhitespace_sound hspace).1 (skipWhitespace_sound hspace').1 hvalue,
    hgood⟩

theorem objectTreeWith_sound {Good : Json → Prop} {value : ByteProgram Json}
    (hvalue : ∀ line t rest, value.runOn line = some (t, rest) → Value line t rest ∧ Good t)
    {line rest : List UInt8} {members : List (List Char × Json)}
    (h : (objectTreeWith turns value).runOn line = some (members, rest)) :
    Value line (.object members) rest ∧ ∀ member ∈ members, Good member.2 := by
  rw [objectTreeWith, runOn_bind, Option.bind_eq_some_iff] at h
  obtain ⟨⟨u, tail⟩, hopen, h⟩ := h
  obtain rfl := require_eq_some.mp hopen
  obtain ⟨as, hcontents, hstate⟩ :=
    readItems_sound (fun line member rest => Member line member rest ∧ Good member.2)
      (fun members member => members ++ [member]) (by
        intro state line state' rest hrun
        simp only [runOn_bind, Option.bind_eq_some_iff] at hrun
        obtain ⟨⟨member, after⟩, hmember, hrun⟩ := hrun
        obtain ⟨rfl, rfl⟩ := Prod.mk.inj (Option.some.inj hrun)
        exact ⟨member, memberTree_sound hvalue hmember, rfl⟩) h
  rw [foldl_push, List.nil_append] at hstate
  subst hstate
  obtain ⟨hcontents, hall⟩ := Contents.and_iff.mp hcontents
  exact ⟨value_object_iff.mpr ⟨tail, rfl, hcontents⟩, hall⟩

theorem arrayTreeWith_sound {Good : Json → Prop} {value : ByteProgram Json}
    (hvalue : ∀ line t rest, value.runOn line = some (t, rest) → Value line t rest ∧ Good t)
    {line rest : List UInt8} {items : List Json}
    (h : (arrayTreeWith turns value).runOn line = some (items, rest)) :
    Value line (.array items) rest ∧ ∀ item ∈ items, Good item := by
  rw [arrayTreeWith, runOn_bind, Option.bind_eq_some_iff] at h
  obtain ⟨⟨u, tail⟩, hopen, h⟩ := h
  obtain rfl := require_eq_some.mp hopen
  obtain ⟨as, hcontents, hstate⟩ :=
    readItems_sound (fun line item rest => Value line item rest ∧ Good item)
      (fun items item => items ++ [item]) (by
        intro state line state' rest hrun
        simp only [runOn_bind, Option.bind_eq_some_iff] at hrun
        obtain ⟨⟨item, after⟩, hitem, hrun⟩ := hrun
        obtain ⟨rfl, rfl⟩ := Prod.mk.inj (Option.some.inj hrun)
        exact ⟨item, hvalue _ _ _ hitem, rfl⟩) h
  rw [foldl_push, List.nil_append] at hstate
  subst hstate
  obtain ⟨hcontents, hall⟩ := Contents.and_iff.mp hcontents
  exact ⟨value_array_iff.mpr ⟨tail, rfl, hcontents⟩, hall⟩

theorem valueTreeWith_sound (Good : Json → Prop) {object : ByteProgram (List (List Char × Json))}
    {array : ByteProgram (List Json)} (hscalar : ∀ t : Json, t.nesting = 0 → Good t)
    (hobject : ∀ line members rest, object.runOn line = some (members, rest) →
      Value line (.object members) rest ∧ Good (.object members))
    (harray : ∀ line items rest, array.runOn line = some (items, rest) →
      Value line (.array items) rest ∧ Good (.array items))
    {line rest : List UInt8} {t : Json}
    (h : (valueTreeWith turns object array).runOn line = some (t, rest)) :
    Value line t rest ∧ Good t := by
  have hmap : ∀ {α : Type} {p : ByteProgram α} {f : α → Json},
      (f <$> p).runOn line = some (t, rest) → ∃ a, p.runOn line = some (a, rest) ∧ t = f a := by
    intro α p f hrun
    rw [runOn_map, Option.map_eq_some_iff] at hrun
    obtain ⟨⟨a, after⟩, hp, heq⟩ := hrun
    obtain ⟨rfl, rfl⟩ := Prod.mk.inj heq
    exact ⟨a, hp, rfl⟩
  rw [valueTreeWith, runOn_bind, runOn_peekByte, Option.bind_some] at h
  dsimp only at h
  split at h
  · obtain ⟨cs, hrun, rfl⟩ := hmap h
    obtain ⟨tail, rfl, hscalars⟩ := stringTree_sound hrun
    exact ⟨.string hscalars, hscalar _ rfl⟩
  split at h
  · obtain ⟨members, hrun, rfl⟩ := hmap h
    exact hobject _ _ _ hrun
  split at h
  · obtain ⟨items, hrun, rfl⟩ := hmap h
    exact harray _ _ _ hrun
  split at h
  · obtain ⟨u, hrun, rfl⟩ := hmap h
    obtain rfl := parseLiteral_eq_some_iff.mp hrun
    exact ⟨.null, hscalar _ rfl⟩
  split at h
  · obtain ⟨u, hrun, rfl⟩ := hmap h
    obtain rfl := parseLiteral_eq_some_iff.mp hrun
    exact ⟨.true, hscalar _ rfl⟩
  split at h
  · obtain ⟨u, hrun, rfl⟩ := hmap h
    obtain rfl := parseLiteral_eq_some_iff.mp hrun
    exact ⟨.false, hscalar _ rfl⟩
  split at h
  · obtain ⟨lexeme, hrun, rfl⟩ := hmap h
    obtain ⟨rfl, value, hrun⟩ := runOn_consumed_eq_some_iff.mp hrun
    obtain ⟨lexeme', heq, hnumber, -⟩ := parseNumber_sound hrun
    obtain rfl := List.append_cancel_right heq
    exact ⟨.number hnumber, hscalar _ rfl⟩
  · cases h

/-- What the reader gives is a value of JSON whose nesting fits. -/
theorem valueTree_sound {room : Nat} {line rest : List UInt8} {t : Json}
    (h : (valueTree turns room).runOn line = some (t, rest)) :
    Value line t rest ∧ t.nesting ≤ room := by
  induction room generalizing line rest t with
  | zero =>
      refine valueTreeWith_sound (nesting · ≤ 0) (fun t ht => Nat.le_of_eq ht) ?_ ?_ h
      · intro _ _ _ hrun
        cases hrun
      · intro _ _ _ hrun
        cases hrun
  | succ room ih =>
      refine valueTreeWith_sound (nesting · ≤ room + 1) (fun t ht => ht ▸ Nat.zero_le _) ?_ ?_ h
      · intro line members rest hrun
        obtain ⟨hvalue, hall⟩ := objectTreeWith_sound (fun _ _ _ => ih) hrun
        exact ⟨hvalue, Nat.succ_le_succ (nestingMembers_le.mpr hall)⟩
      · intro line items rest hrun
        obtain ⟨hvalue, hall⟩ := arrayTreeWith_sound (fun _ _ _ => ih) hrun
        exact ⟨hvalue, Nat.succ_le_succ (nestingItems_le.mpr hall)⟩

/-! ### Completeness -/

theorem stringTree_complete {line rest : List UInt8} {cs : List Char} (h : Scalars line cs rest)
    (hturns : line.length < turns) :
    (stringTree turns).runOn (0x22 :: line) = some (cs, rest) := by
  rw [stringTree, runOn_bind, require_head, Option.bind_some]
  have hrun := readString_complete (fun cs c => cs ++ [c]) [] h hturns
  rw [foldl_push, List.nil_append] at hrun
  exact hrun

/-- A byte that no number starts with. -/
theorem numberHead_ne {b c : UInt8} (h : b = 0x2d ∨ isDigit b = true)
    (hc : c.toNat < 0x2d ∨ 0x39 < c.toNat) : b ≠ c := by
  rintro rfl
  rcases h with rfl | hdigit
  · simp at hc
  · simp only [isDigit, decide_eq_true_eq, UInt8.le_iff_toNat_le, UInt8.reduceToNat] at hdigit
    omega

/-- What starts a value is no white space and closes no container. -/
theorem firstByte_of_value {line rest : List UInt8} {t : Json} (h : Value line t rest) :
    isSpace (firstByte t) = false ∧ firstByte t ≠ 0x5d ∧ firstByte t ≠ 0x7d := by
  cases h with
  | number hnumber =>
      obtain ⟨b, tail, rfl, hb⟩ := head_of_isNumber hnumber
      have hne : ∀ c : UInt8, c.toNat < 0x2d ∨ 0x39 < c.toNat → b ≠ c := fun c =>
        numberHead_ne hb
      refine ⟨?_, hne _ (by decide), hne _ (by decide)⟩
      simp only [firstByte, List.headD_cons, isSpace, Bool.or_eq_false_iff, beq_eq_false_iff_ne]
      exact ⟨⟨hne _ (by decide), hne _ (by decide)⟩, hne _ (by decide)⟩
  | _ => simp [firstByte, isSpace]

theorem noSpace_of_value {line rest : List UInt8} {t : Json} (h : Value line t rest) :
    NoSpace line := by
  rw [NoSpace, head_of_value h, Option.any_some]
  exact (firstByte_of_value h).1

theorem scalars_length_lt {line rest : List UInt8} {cs : List Char} (h : Scalars line cs rest) :
    rest.length < line.length := by
  induction h with
  | close => simp
  | scalar head tail ih =>
      rw [List.length_append]
      omega

mutual

theorem value_length_lt {line rest : List UInt8} {t : Json} :
    Value line t rest → rest.length < line.length
  | .null | .true | .false => by simp only [List.length_cons]; omega
  | .number h => by
      obtain ⟨b, tail, rfl, -⟩ := head_of_isNumber h
      simp only [List.cons_append, List.length_cons, List.length_append]
      omega
  | .string h => Nat.lt_succ_of_lt (scalars_length_lt h)
  | .emptyArray close => by
      have hle := space_length_le close
      simp only [List.length_cons] at hle ⊢
      omega
  | .array space h => by
      have hle := space_length_le space
      have hlt := items_length_lt h
      simp only [List.length_cons]
      omega
  | .emptyObject close => by
      have hle := space_length_le close
      simp only [List.length_cons] at hle ⊢
      omega
  | .object space h => by
      have hle := space_length_le space
      have hlt := members_length_lt h
      simp only [List.length_cons]
      omega

theorem items_length_lt {line rest : List UInt8} {items : List Json} :
    Items line items rest → rest.length < line.length
  | .last value close => by
      have hlt := value_length_lt value
      have hle := space_length_le close
      simp only [List.length_cons] at hle
      omega
  | .more value comma space tail => by
      have hlt := value_length_lt value
      have hle := space_length_le comma
      have hle' := space_length_le space
      have hlt' := items_length_lt tail
      simp only [List.length_cons] at hle
      omega

theorem members_length_lt {line rest : List UInt8} {members : List (List Char × Json)} :
    Members line members rest → rest.length < line.length
  | .last value close => by
      have hlt := member_length_lt value
      have hle := space_length_le close
      simp only [List.length_cons] at hle
      omega
  | .more value comma space tail => by
      have hlt := member_length_lt value
      have hle := space_length_le comma
      have hle' := space_length_le space
      have hlt' := members_length_lt tail
      simp only [List.length_cons] at hle
      omega

theorem member_length_lt {line rest : List UInt8} {member : List Char × Json} :
    Member line member rest → rest.length < line.length
  | .intro scalars colon space h => by
      have hlt := scalars_length_lt scalars
      have hle := space_length_le colon
      have hle' := space_length_le space
      have hlt' := value_length_lt h
      simp only [List.length_cons] at hle ⊢
      omega

end

section
variable {turns room : Nat} {value : ByteProgram Json}

theorem memberTree_complete
    (hvalue : ∀ line t rest, Value line t rest → t.nesting ≤ room → Stops rest →
      line.length < turns → value.runOn line = some (t, rest))
    {line rest : List UInt8} {member : List Char × Json} (h : Member line member rest)
    (hnesting : member.2.nesting ≤ room) (hstop : Stops rest) (hturns : line.length < turns) :
    (memberTree turns value).runOn line = some (member, rest) := by
  cases h with
  | @intro tail line₁ line₂ line₃ rest name t scalars colon space h =>
      have hless := scalars_length_lt scalars
      have hle := space_length_le colon
      have hle' := space_length_le space
      simp only [List.length_cons] at hle hturns
      have hlength : tail.length < turns := by omega
      have hlength₁ : line₁.length < turns := by omega
      have hlength₂ : line₂.length < turns := by omega
      have hlength₃ : line₃.length < turns := by omega
      have hcolon : NoSpace (0x3a :: line₂) := rfl
      simp only [memberTree, runOn_bind, stringTree_complete scalars hlength, Option.bind_some,
        skipWhitespace_complete colon hcolon hlength₁, require_head,
        skipWhitespace_complete space (noSpace_of_value h) hlength₂,
        hvalue _ _ _ h hnesting hstop hlength₃, runOn_pure]

theorem objectTreeWith_complete
    (hvalue : ∀ line t rest, Value line t rest → t.nesting ≤ room → Stops rest →
      line.length < turns → value.runOn line = some (t, rest))
    {line rest : List UInt8} {members : List (List Char × Json)}
    (h : Value line (.object members) rest) (hnesting : ∀ member ∈ members,
      member.2.nesting ≤ room) (hturns : line.length < turns) :
    (objectTreeWith turns value).runOn line = some (members, rest) := by
  obtain ⟨tail, rfl, hcontents⟩ := value_object_iff.mp h
  have hlength : tail.length < turns := Nat.lt_trans (Nat.lt_succ_self _) hturns
  have hclose : ∀ rest : List UInt8, Stops (0x7d :: rest) := fun _ =>
    ⟨rfl, by simp, by simp, by simp⟩
  have hhead : ∀ line (member : List Char × Json) rest,
      Member line member rest ∧ member.2.nesting ≤ room →
        NoSpace line ∧ line.head? ≠ some 0x7d ∧ rest.length < line.length := by
    rintro line member rest ⟨hmember, -⟩
    have hless := member_length_lt hmember
    cases hmember
    exact ⟨rfl, by simp, hless⟩
  have hitem : ∀ (state : List (List Char × Json)) line member rest,
      Member line member rest ∧ member.2.nesting ≤ room → Stops rest → line.length < turns →
        (memberTree turns value >>= fun member => pure (state ++ [member])).runOn line
          = some (state ++ [member], rest) := by
    rintro state line member rest ⟨hmember, hnesting⟩ hstop hturns
    simp only [runOn_bind, memberTree_complete hvalue hmember hnesting hstop hturns,
      Option.bind_some, runOn_pure]
  have hrun := readItems_complete (fun members member => members ++ [member]) rfl (by decide)
    hclose hhead hitem [] (Contents.and_iff.mpr ⟨hcontents, hnesting⟩) hlength
  rw [foldl_push, List.nil_append] at hrun
  rw [objectTreeWith, runOn_bind, require_head, Option.bind_some]
  exact hrun

theorem arrayTreeWith_complete
    (hvalue : ∀ line t rest, Value line t rest → t.nesting ≤ room → Stops rest →
      line.length < turns → value.runOn line = some (t, rest))
    {line rest : List UInt8} {items : List Json} (h : Value line (.array items) rest)
    (hnesting : ∀ item ∈ items, item.nesting ≤ room) (hturns : line.length < turns) :
    (arrayTreeWith turns value).runOn line = some (items, rest) := by
  obtain ⟨tail, rfl, hcontents⟩ := value_array_iff.mp h
  have hlength : tail.length < turns := Nat.lt_trans (Nat.lt_succ_self _) hturns
  have hclose : ∀ rest : List UInt8, Stops (0x5d :: rest) := fun _ =>
    ⟨rfl, by simp, by simp, by simp⟩
  have hhead : ∀ line (item : Json) rest, Value line item rest ∧ item.nesting ≤ room →
      NoSpace line ∧ line.head? ≠ some 0x5d ∧ rest.length < line.length := by
    rintro line item rest ⟨hitem, -⟩
    refine ⟨noSpace_of_value hitem, ?_, value_length_lt hitem⟩
    rw [head_of_value hitem]
    exact fun heq => (firstByte_of_value hitem).2.1 (Option.some.inj heq)
  have hitem : ∀ (state : List Json) line item rest,
      Value line item rest ∧ item.nesting ≤ room → Stops rest → line.length < turns →
        (value >>= fun item => pure (state ++ [item])).runOn line
          = some (state ++ [item], rest) := by
    rintro state line item rest ⟨hitem, hnesting⟩ hstop hturns
    simp only [runOn_bind, hvalue _ _ _ hitem hnesting hstop hturns, Option.bind_some, runOn_pure]
  have hrun := readItems_complete (fun items item => items ++ [item]) rfl (by decide)
    hclose hhead hitem [] (Contents.and_iff.mpr ⟨hcontents, hnesting⟩) hlength
  rw [foldl_push, List.nil_append] at hrun
  rw [arrayTreeWith, runOn_bind, require_head, Option.bind_some]
  exact hrun

end

/-- The dispatch on the first byte reads a value when the readers of containers do. -/
theorem valueTreeWith_complete {object : ByteProgram (List (List Char × Json))}
    {array : ByteProgram (List Json)} {line rest : List UInt8} {t : Json} (h : Value line t rest)
    (hobject : ∀ members, t = .object members → object.runOn line = some (members, rest))
    (harray : ∀ items, t = .array items → array.runOn line = some (items, rest))
    (hstop : Stops rest) (hturns : line.length < turns) :
    (valueTreeWith turns object array).runOn line = some (t, rest) := by
  rw [valueTreeWith, runOn_bind, runOn_peekByte, Option.bind_some, head_of_value h]
  dsimp only
  cases h with
  | null => rfl
  | true => rfl
  | false => rfl
  | string hscalars =>
      show (Json.string <$> stringTree turns).runOn _ = _
      rw [runOn_map, stringTree_complete hscalars (Nat.lt_trans (Nat.lt_succ_self _) hturns)]
      rfl
  | emptyArray close =>
      show (Json.array <$> array).runOn _ = _
      rw [runOn_map, harray _ rfl]
      rfl
  | array space items =>
      show (Json.array <$> array).runOn _ = _
      rw [runOn_map, harray _ rfl]
      rfl
  | emptyObject close =>
      show (Json.object <$> object).runOn _ = _
      rw [runOn_map, hobject _ rfl]
      rfl
  | object space members =>
      show (Json.object <$> object).runOn _ = _
      rw [runOn_map, hobject _ rfl]
      rfl
  | number hnumber =>
      obtain ⟨b, tail, rfl, hb⟩ := head_of_isNumber hnumber
      have hne : ∀ c : UInt8, c.toNat < 0x2d ∨ 0x39 < c.toNat → some b ≠ some c :=
        fun c hc heq => numberHead_ne hb hc (Option.some.inj heq)
      have hdigit : some b = some 0x2d ∨ digit (some b) = true := by
        rw [digit_eq]
        exact hb.imp (congrArg some) id
      have hlength : (b :: tail).length < turns := by
        rw [List.length_append] at hturns
        omega
      have hrun := parseNumber_complete hnumber hstop hlength
      rw [firstByte, List.headD_cons, if_neg (hne _ (by decide)), if_neg (hne _ (by decide)),
        if_neg (hne _ (by decide)), if_neg (hne _ (by decide)), if_neg (hne _ (by decide)),
        if_neg (hne _ (by decide)), if_pos hdigit, runOn_map, runOn_consumed_append hrun]
      rfl

/-- The reader reads every value of JSON whose nesting fits. -/
theorem valueTree_complete {room : Nat} {line rest : List UInt8} {t : Json} (h : Value line t rest)
    (hnesting : t.nesting ≤ room) (hstop : Stops rest) (hturns : line.length < turns) :
    (valueTree turns room).runOn line = some (t, rest) := by
  induction room generalizing line rest t with
  | zero =>
      refine valueTreeWith_complete h ?_ ?_ hstop hturns
      · rintro members rfl
        exact absurd hnesting (Nat.not_succ_le_zero _)
      · rintro items rfl
        exact absurd hnesting (Nat.not_succ_le_zero _)
  | succ room ih =>
      refine valueTreeWith_complete h ?_ ?_ hstop hturns
      · rintro members rfl
        exact objectTreeWith_complete (fun _ _ _ => ih) h
          (nestingMembers_le.mp (Nat.le_of_succ_le_succ hnesting)) hturns
      · rintro items rfl
        exact arrayTreeWith_complete (fun _ _ _ => ih) h
          (nestingItems_le.mp (Nat.le_of_succ_le_succ hnesting)) hturns

/-! ### Documents -/

theorem documentTree_sound {room : Nat} {line rest : List UInt8} {t : Json}
    (h : (documentTree turns room).runOn line = some (t, rest)) :
    rest = [] ∧ Document line t ∧ t.nesting ≤ room := by
  simp only [documentTree, runOn_bind, Option.bind_eq_some_iff] at h
  obtain ⟨⟨_, start⟩, hspace, ⟨value, stop⟩, hvalue, ⟨_, stop'⟩, hspace', ⟨byte, stop''⟩, hpeek,
    h⟩ := h
  obtain ⟨rfl, rfl⟩ := Prod.mk.inj (Option.some.inj hpeek)
  obtain ⟨hvalue, hnesting⟩ := valueTree_sound hvalue
  dsimp only at h hvalue hspace'
  cases hstop : stop' with
  | cons b tail =>
      rw [hstop] at h
      cases h
  | nil =>
      rw [hstop] at h
      obtain ⟨rfl, rfl⟩ := Prod.mk.inj (Option.some.inj h)
      rw [hstop] at hspace'
      exact ⟨rfl, ⟨start, stop, (skipWhitespace_sound hspace).1, hvalue,
        (skipWhitespace_sound hspace').1⟩, hnesting⟩

theorem documentTree_complete {room : Nat} {line : List UInt8} {t : Json} (h : Document line t)
    (hnesting : t.nesting ≤ room) (hturns : line.length < turns) :
    (documentTree turns room).runOn line = some (t, []) := by
  obtain ⟨start, stop, hspace, hvalue, hspace'⟩ := h
  have hle := space_length_le hspace
  have hless := value_length_lt hvalue
  have hstop : Stops stop := stops_of_space hspace' ⟨rfl, by simp, by simp, by simp⟩
  have hstart : (skipWhitespace turns).runOn line = some ((), start) :=
    skipWhitespace_complete hspace (noSpace_of_value hvalue) hturns
  have hend : (skipWhitespace turns).runOn stop = some ((), []) :=
    skipWhitespace_complete hspace' rfl (by omega)
  simp only [documentTree, runOn_bind, hstart, Option.bind_some,
    valueTree_complete hvalue hnesting hstop (Nat.lt_of_le_of_lt hle hturns), hend]
  rfl

/-- A line denotes one tree at most. -/
theorem document_unique {line : List UInt8} {t t' : Json} (h : Document line t)
    (h' : Document line t') : t = t' := by
  have hturns : line.length < line.length + 1 := Nat.lt_succ_self _
  have hrun := documentTree_complete h (Nat.le_max_left _ t'.nesting) hturns
  have hrun' := documentTree_complete h' (Nat.le_max_right t.nesting _) hturns
  rw [hrun] at hrun'
  exact (Prod.mk.inj (Option.some.inj hrun')).1

end

end CodexInfo.SessionInput
