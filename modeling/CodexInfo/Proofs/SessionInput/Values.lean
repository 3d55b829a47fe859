import CodexInfo.Proofs.SessionInput.Trees

/-!
# `CodexInfo.Proofs.SessionInput.Values`: the readers of values

Every reader of a value consumes the bytes that the reader of trees consumes, and what it gives
is a function of the tree.

* `Reads`: what that means. `Follows` allows a reader to fail over lines longer than a limit.
* `skipValue_reads`: values that are skipped.
* `parseTextValue_reads`, `parseU64Value_reads` and the other typed readers.
* `parseObjectArrayShape_reads`: the one reader whose counter can overflow.
-/

set_option autoImplicit false

namespace CodexInfo.SessionInput

open CodexInfo.Contract CodexInfo.Writer
open CodexInfo.Lib (ByteProgram Json)
open CodexInfo.Lib.Json
open CodexInfo.Lib.ByteProgram

/-- Over a line without leading white space, `p` gives `f` of the tree there. -/
def Reads {α : Type} (limit turns room : Nat) (p : ByteProgram α) (f : Json → α) : Prop :=
  ∀ line, NoSpace line → Follows limit f p (valueTree turns room) line

section
variable {limit turns room : Nat} {α β : Type}

theorem Reads.bind_pure {p : ByteProgram α} {f : Json → α} (h : Reads limit turns room p f)
    (g : α → β) : Reads limit turns room (p >>= fun a => pure (g a)) (g ∘ f) :=
  fun line hline => (h line hline).bind_pure g

/-! ### Parts of values -/

/-- A reader of a string folds over its scalars. -/
theorem readString_follows {σ : Type} (push : σ → Char → σ) (start : σ) (line : List UInt8) :
    Follows limit (fun cs => cs.foldl push start) (require 0x22 >>= fun _ =>
      readString turns push start) (stringTree turns) line :=
  .bind_same fun _ rest _ => .of_eq (readString_map push turns start rest)

theorem parseNumber_consumed (line : List UInt8) :
    (parseNumber turns).runOn line
      = ((parseNumber turns).consumed.runOn line).map (Prod.map numberValue id) := by
  cases hrun : (parseNumber turns).runOn line with
  | none =>
      rw [runOn_consumed, hrun]
      rfl
  | some result =>
      obtain ⟨value, rest⟩ := result
      obtain ⟨lexeme, rfl, -, rfl⟩ := parseNumber_sound hrun
      rw [runOn_consumed_append hrun]
      rfl

theorem parseNumber_follows (line : List UInt8) :
    Follows limit numberValue (parseNumber turns) (parseNumber turns).consumed line :=
  .of_eq (parseNumber_consumed line)

/-! ### Values that are skipped -/

theorem skipString_follows (line : List UInt8) :
    Follows limit (fun _ => ()) (skipString turns) (stringTree turns) line :=
  readString_follows (fun _ _ => ()) () line

section
variable {value : ByteProgram Unit} {tree : ByteProgram Json}

theorem skipMember_follows
    (hvalue : ∀ line, Follows limit (fun _ => ()) value (skipWhitespace turns >>= fun _ => tree)
      line) (line : List UInt8) :
    Follows limit (fun _ => ()) (skipMember turns value) (memberTree turns tree) line := by
  refine (skipString_follows line).bind fun name rest _ => ?_
  refine .bind_same fun _ _ _ => .bind_same fun _ rest _ => ?_
  refine ((hvalue rest).map_right (g := fun t => (name, t))).of_runOn_eq rfl ?_
  simp only [runOn_bind, runOn_map]
  cases (skipWhitespace turns).runOn rest with
  | none => rfl
  | some result =>
      rw [Option.bind_some, Option.bind_some]
      cases tree.runOn result.2 <;> rfl

theorem skipObjectWith_follows
    (hvalue : ∀ line, Follows limit (fun _ => ()) value (skipWhitespace turns >>= fun _ => tree)
      line) (line : List UInt8) :
    Follows limit (fun _ => ()) (skipObjectWith turns value) (objectTreeWith turns tree) line := by
  refine .bind_same fun _ rest _ => readItems_follows (f := fun _ => ()) ?_ [] rest
  intro state line _
  exact (skipMember_follows hvalue line).map_right

theorem skipArrayWith_follows
    (hvalue : ∀ line, Follows limit (fun _ => ()) value (skipWhitespace turns >>= fun _ => tree)
      line) (hturns : 0 < turns) (line : List UInt8) :
    Follows limit (fun _ => ()) (skipArrayWith turns value) (arrayTreeWith turns tree) line := by
  refine .bind_same fun _ rest _ => readItems_follows (f := fun _ => ()) ?_ [] rest
  intro state line hline
  have hrun : (skipWhitespace turns >>= fun _ => tree).runOn line = tree.runOn line := by
    rw [runOn_bind, skipWhitespace_noSpace hline hturns]
    rfl
  exact ((hvalue line).of_runOn_eq rfl hrun.symm).map_right

end

/-- A value that is skipped, with white space before it. -/
theorem skipValueWith_follows {object array : ByteProgram Unit}
    {object' : ByteProgram (List (List Char × Json))} {array' : ByteProgram (List Json)}
    (hobject : ∀ line, Follows limit (fun _ => ()) object object' line)
    (harray : ∀ line, Follows limit (fun _ => ()) array array' line) (line : List UInt8) :
    Follows limit (fun _ => ()) (skipValueWith turns object array)
      (skipWhitespace turns >>= fun _ => valueTreeWith turns object' array') line := by
  refine .bind_same fun _ rest _ => .bind_same fun byte rest _ => ?_
  refine .ite Iff.rfl (fun _ => (skipString_follows rest).map_right) fun _ => ?_
  refine .ite Iff.rfl (fun _ => (hobject rest).map_right) fun _ => ?_
  refine .ite Iff.rfl (fun _ => (harray rest).map_right) fun _ => ?_
  refine .ite Iff.rfl (fun _ => (Follows.refl _).map_right) fun _ => ?_
  refine .ite Iff.rfl (fun _ => (Follows.refl _).map_right) fun _ => ?_
  refine .ite Iff.rfl (fun _ => (Follows.refl _).map_right) fun _ => ?_
  refine .ite Iff.rfl (fun _ => ?_) fun _ => .fail
  have hnumber : Follows limit (fun _ => ()) ((fun _ => ()) <$> parseNumber turns)
      (parseNumber turns).consumed rest := (parseNumber_follows rest).map fun _ => ()
  exact hnumber.map_right

theorem skipValue_follows (hturns : 0 < turns) (line : List UInt8) :
    Follows limit (fun _ => ()) (skipValue turns room)
      (skipWhitespace turns >>= fun _ => valueTree turns room) line := by
  induction room generalizing line with
  | zero => exact skipValueWith_follows (fun _ => .fail) (fun _ => .fail) line
  | succ room ih =>
      exact skipValueWith_follows (skipObjectWith_follows ih) (skipArrayWith_follows ih hturns) line

theorem skipValue_reads (hturns : 0 < turns) :
    Reads limit turns room (skipValue turns room) fun _ => () := by
  intro line hline
  refine (skipValue_follows hturns line).of_runOn_eq rfl ?_
  rw [runOn_bind, skipWhitespace_noSpace hline hturns]
  rfl

/-! ### Kinds of values -/

section
variable {line : List UInt8}

theorem valueTree_string (h : line.head? = some 0x22) :
    (valueTree turns room).runOn line = (Json.string <$> stringTree turns).runOn line := by
  rw [valueTree_eq, valueTreeWith, runOn_bind, runOn_peekByte, Option.bind_some, h]
  rfl

theorem valueTree_object (h : line.head? = some 0x7b) :
    (valueTree turns room).runOn line = (Json.object <$> objectTree turns room).runOn line := by
  rw [valueTree_eq, valueTreeWith, runOn_bind, runOn_peekByte, Option.bind_some, h]
  rfl

theorem valueTree_array (h : line.head? = some 0x5b) :
    (valueTree turns room).runOn line = (Json.array <$> arrayTree turns room).runOn line := by
  rw [valueTree_eq, valueTreeWith, runOn_bind, runOn_peekByte, Option.bind_some, h]
  rfl

theorem valueTree_number (h : line.head? = some 0x2d ∨ digit line.head? = true) :
    (valueTree turns room).runOn line
      = (Json.number <$> (parseNumber turns).consumed).runOn line := by
  rw [valueTree_eq, valueTreeWith, runOn_bind, runOn_peekByte, Option.bind_some]
  cases hhead : line.head? with
  | none => simp [hhead, digit] at h
  | some b =>
      have hb : b = 0x2d ∨ isDigit b = true := by
        rw [hhead, digit_eq] at h
        exact h.imp Option.some.inj id
      have hne : ∀ c : UInt8, c.toNat < 0x2d ∨ 0x39 < c.toNat → some b ≠ some c :=
        fun c hc heq => numberHead_ne hb hc (Option.some.inj heq)
      dsimp only
      rw [hhead] at h
      rw [if_neg (hne _ (by decide)), if_neg (hne _ (by decide)), if_neg (hne _ (by decide)),
        if_neg (hne _ (by decide)), if_neg (hne _ (by decide)), if_neg (hne _ (by decide)),
        if_pos h]

end

/-- The kind of a value shows in its first byte. -/
theorem kind_of_value {line rest : List UInt8} {t : Json} (h : Value line t rest) :
    (line.head? = some 0x6e ↔ isNull t = true) ∧ (line.head? = some 0x22 ↔ isString t = true) ∧
      (line.head? = some 0x7b ↔ isObject t = true) ∧
      (line.head? = some 0x74 ∨ line.head? = some 0x66 ↔ isBool t = true) := by
  rw [head_of_value h]
  cases h with
  | number hnumber =>
      obtain ⟨b, tail, rfl, hb⟩ := head_of_isNumber hnumber
      have hne : ∀ c : UInt8, c.toNat < 0x2d ∨ 0x39 < c.toNat → b ≠ c := fun c => numberHead_ne hb
      simp [firstByte, isNull, isString, isObject, isBool, hne 0x6e (by decide),
        hne 0x22 (by decide), hne 0x7b (by decide), hne 0x74 (by decide), hne 0x66 (by decide)]
  | _ => simp [firstByte, isNull, isString, isObject, isBool]

/-- A reader that looks at the first byte and skips the value. -/
theorem skipValue_by {f : Json → α} {g : Option UInt8 → α} (hturns : 0 < turns)
    (hg : ∀ line t rest, Value line t rest → g line.head? = f t) :
    Reads limit turns room (do
      let byte ← peekByte
      skipValue turns room
      pure (g byte)) f := by
  intro line hline
  refine .peek ?_
  refine ((skipValue_reads hturns line hline).bind_pure fun _ => g line.head?).congr ?_
  intro t rest hrun
  exact hg line t rest (valueTree_sound hrun).1

/-- A reader that has a case of its own for strings. -/
theorem reads_of_string {p : ByteProgram α} {f : Json → α}
    (hstring : ∀ line, line.head? = some 0x22 →
      Follows limit (fun cs => f (.string cs)) p (stringTree turns) line)
    (hother : ∀ line, NoSpace line → line.head? ≠ some 0x22 →
      Follows limit f p (valueTree turns room) line) : Reads limit turns room p f := by
  intro line hline
  by_cases hhead : line.head? = some 0x22
  · have h : Follows limit (f ∘ Json.string) p (stringTree turns) line := hstring line hhead
    exact h.map_right.of_runOn_eq rfl (valueTree_string hhead)
  · exact hother line hline hhead

/-! ### Texts -/

theorem parseNoText_reads (hturns : 0 < turns) :
    Reads limit turns room (parseNoText (α := α) turns room) noText := by
  refine skipValue_by (g := fun byte => (none, decide (byte ≠ some 0x6e))) hturns ?_
  intro line t rest hvalue
  have hnull := (kind_of_value hvalue).1
  cases hkind : isNull t with
  | false => simp [noText, hkind, hnull]
  | true => simp [noText, hkind, hnull]

theorem parseTextValue_reads (hturns : 0 < turns) :
    Reads limit turns room (parseTextValue turns room) textValue := by
  refine reads_of_string ?_ ?_
  · intro line hhead
    refine .peek ?_
    rw [if_pos hhead]
    exact (readString_follows (pushText maxSessionModelBytes) ([], false) line).bind_pure
      fun text => (some text.1, text.2)
  · intro line hline hhead
    refine .peek ?_
    rw [if_neg hhead]
    refine (parseNoText_reads hturns line hline).congr fun t rest hrun => ?_
    have hkind := (kind_of_value (valueTree_sound hrun).1).2.1
    cases t with
    | string scalars => exact absurd (hkind.mpr rfl) hhead
    | _ => rfl

theorem parseIdentifierValue_reads (hturns : 0 < turns) :
    Reads limit turns room (parseIdentifierValue turns room) identifierValue := by
  refine reads_of_string ?_ ?_
  · intro line hhead
    refine .peek ?_
    rw [if_neg (not_not.mpr hhead)]
    exact (readString_follows (pushText (512 * 4)) ([], false) line).bind_pure asIdentifier
  · intro line hline hhead
    refine .peek ?_
    rw [if_pos hhead]
    refine (parseNoText_reads hturns line hline).congr fun t rest hrun => ?_
    have hkind := (kind_of_value (valueTree_sound hrun).1).2.1
    cases t with
    | string scalars => exact absurd (hkind.mpr rfl) hhead
    | _ => rfl

theorem takeByte_eq_require {line : List UInt8} {b : UInt8} (h : line.head? = some b)
    (k : ByteProgram α) :
    (takeByte >>= fun _ => k).runOn line = (require b >>= fun _ => k).runOn line := by
  cases line with
  | nil => cases h
  | cons c line =>
      obtain rfl := Option.some.inj h
      rw [runOn_bind, runOn_bind, require_head, runOn_takeByte_cons]
      rfl

/-- A string whose quotation mark has been seen, with a function of what it folds to. -/
theorem takeString_follows {σ : Type} (push : σ → Char → σ) (start : σ) (g : σ → α)
    {line : List UInt8} (h : line.head? = some 0x22) :
    Follows limit (fun cs => g (cs.foldl push start)) (takeByte >>= fun _ =>
      readString turns push start >>= fun state => pure (g state)) (stringTree turns) line := by
  have hfollows : Follows limit (fun cs => g (cs.foldl push start)) (require 0x22 >>= fun _ =>
      readString turns push start >>= fun state => pure (g state)) (stringTree turns) line := by
    refine .bind_same fun _ rest _ => ?_
    have hrest : Follows limit (fun cs => cs.foldl push start) (readString turns push start)
        (readString turns (fun cs c => cs ++ [c]) []) rest := .of_eq (readString_map push _ _ _)
    exact hrest.bind_pure g
  exact hfollows.of_runOn_eq (takeByte_eq_require h _) rfl

theorem parseModelValue_reads (hturns : 0 < turns) :
    Reads limit turns room (parseModelValue turns room) modelValue := by
  refine reads_of_string ?_ ?_
  · intro line hhead
    refine .peek ?_
    rw [if_neg (not_not.mpr hhead)]
    exact takeString_follows ModelNameBuilder.push {}
      (fun builder => (builder.finish, builder.finish.isNone)) hhead
  · intro line hline hhead
    refine .peek ?_
    rw [if_pos hhead]
    refine (parseNoText_reads hturns line hline).congr fun t rest hrun => ?_
    have hkind := (kind_of_value (valueTree_sound hrun).1).2.1
    cases t with
    | string scalars => exact absurd (hkind.mpr rfl) hhead
    | _ => rfl

theorem foldl_pushCount (most count : Nat) (cs : List Char) (h : count ≤ most + 1) :
    cs.foldl (pushCount most) count = min (count + cs.length) (most + 1) := by
  induction cs generalizing count with
  | nil => simp [h]
  | cons c cs ih =>
      rw [List.foldl_cons, pushCount, ih _ (Nat.min_le_right _ _), List.length_cons]
      omega

theorem parseStringScalarShape_reads (hturns : 0 < turns) (least most : Nat) :
    Reads limit turns room (parseStringScalarShape turns room least most)
      (stringScalarShape least most) := by
  refine reads_of_string ?_ ?_
  · intro line hhead
    refine .peek ?_
    rw [if_neg (not_not.mpr hhead)]
    refine (takeString_follows (pushCount most) 0
      (fun count => decide (least ≤ count ∧ count ≤ most)) hhead).congr fun cs rest _ => ?_
    simp only [stringScalarShape]
    rw [foldl_pushCount most 0 cs (Nat.zero_le _), decide_eq_decide]
    omega
  · intro line hline hhead
    refine .peek ?_
    rw [if_pos hhead]
    refine ((skipValue_reads hturns line hline).bind_pure fun _ => false).congr
      fun t rest hrun => ?_
    have hkind := (kind_of_value (valueTree_sound hrun).1).2.1
    cases t with
    | string scalars => exact absurd (hkind.mpr rfl) hhead
    | _ => rfl

/-! ### Numbers -/

/-- A number starts with its sign or a digit, and no other value does. -/
theorem number_of_head {line rest : List UInt8} {lexeme : List UInt8}
    (h : Value line (.number lexeme) rest) :
    line.head? = some 0x2d ∨ digit line.head? = true := by
  rw [head_of_value h, digit_eq]
  cases h with
  | number hnumber =>
      obtain ⟨b, tail, rfl, hb⟩ := head_of_isNumber hnumber
      exact hb.imp (congrArg some) id

/-- A reader that has a case of its own for numbers. -/
theorem reads_of_number {p : ByteProgram α} {f : Json → α}
    (hnumber : ∀ line, line.head? = some 0x2d ∨ digit line.head? = true →
      Follows limit (fun lexeme => f (.number lexeme)) p (parseNumber turns).consumed line)
    (hother : ∀ line, NoSpace line → ¬ (line.head? = some 0x2d ∨ digit line.head? = true) →
      Follows limit f p (valueTree turns room) line) : Reads limit turns room p f := by
  intro line hline
  by_cases hhead : line.head? = some 0x2d ∨ digit line.head? = true
  · have h : Follows limit (f ∘ Json.number) p (parseNumber turns).consumed line :=
      hnumber line hhead
    exact h.map_right.of_runOn_eq rfl (valueTree_number hhead)
  · exact hother line hline hhead

theorem parseU64Value_reads (hturns : 0 < turns) :
    Reads limit turns room (parseU64Value turns room) u64Value := by
  refine reads_of_number ?_ ?_
  · intro line hhead
    refine .peek ?_
    rw [if_pos hhead]
    exact (parseNumber_follows line).bind_pure fun value => (value, value.isNone)
  · intro line hline hhead
    refine .peek ?_
    rw [if_neg hhead]
    have hother : ∀ t rest, (valueTree turns room).runOn line = some (t, rest) →
        u64Value t = (none, !isNull t) := by
      intro t rest hrun
      cases t with
      | number lexeme => exact absurd (number_of_head (valueTree_sound hrun).1) hhead
      | _ => rfl
    cases hbyte : line.head? with
    | none =>
        obtain rfl := List.head?_eq_none_iff.mp hbyte
        refine .of_eq ?_
        rw [valueTree_eq]
        rfl
    | some b =>
        refine .ite_left (fun hnull => ?_) fun hnull => .ite_left (fun _ => ?_) fun h => ?_
        · refine ((skipValue_reads hturns line hline).bind_pure fun _ => (none, false)).congr
            fun t rest hrun => ?_
          have hkind := (kind_of_value (valueTree_sound hrun).1).1
          rw [hbyte] at hkind
          rw [hother t rest hrun, hkind.mp hnull]
          rfl
        · refine ((skipValue_reads hturns line hline).bind_pure fun _ => (none, true)).congr
            fun t rest hrun => ?_
          have hkind := (kind_of_value (valueTree_sound hrun).1).1
          rw [hbyte] at hkind
          rw [hother t rest hrun, Bool.eq_false_iff.mpr (mt hkind.mpr hnull)]
          rfl
        · exact absurd rfl h

/-- The sign of a number stays out of what comes after it. -/
theorem consumed_minus {rest : List UInt8} (hdigit : digit rest.head? = true) :
    (parseNumber turns).consumed.runOn (0x2d :: rest)
      = ((parseNumber turns).consumed.runOn rest).map fun result =>
          (0x2d :: result.1, result.2) := by
  have hother : rest.head? ≠ some 0x2d := by
    intro heq
    rw [heq] at hdigit
    cases hdigit
  have hrun : ((parseNumber turns).runOn (0x2d :: rest)).map (·.2)
      = ((parseNumber turns).runOn rest).map (·.2) := by
    rw [parseNumber_runOn, parseNumber_runOn, consumeIf_head, consumeIf_other hother]
    simp only [Option.bind_some, Option.map_bind, Option.map_map, Function.comp_def]
  have hconsumed : ∀ line : List UInt8, (parseNumber turns).consumed.runOn line
      = (((parseNumber turns).runOn line).map (·.2)).map fun after =>
          (line.take (line.length - after.length), after) := by
    intro line
    rw [runOn_consumed, Option.map_map]
    rfl
  rw [hconsumed, hconsumed, hrun, Option.map_map]
  cases hrest : (parseNumber turns).runOn rest with
  | none => rfl
  | some result =>
      have hle := runOn_length_le hrest
      simp only [Option.map_some, Function.comp_apply, List.length_cons, Nat.succ_sub hle,
        List.take_succ_cons]

/-- A sign before anything but a digit is no number. -/
theorem parseNumber_minus_none {rest : List UInt8} (hdigit : ¬ digit rest.head? = true) :
    (parseNumber turns).runOn (0x2d :: rest) = none := by
  rw [parseNumber_runOn, consumeIf_head, Option.bind_some]
  cases hwhole : (parseIntegerPart turns).runOn rest with
  | none => rfl
  | some result =>
      obtain ⟨whole, rfl, ⟨⟨hne, hall⟩, -⟩, -⟩ := parseIntegerPart_sound hwhole
      cases whole with
      | nil => exact absurd rfl hne
      | cons b whole =>
          rw [List.all_cons, Bool.and_eq_true] at hall
          exact absurd (by rw [digit_eq]; exact hall.1) hdigit

theorem parseSignedShape_reads (hturns : 0 < turns) (nullable : Bool) :
    Reads limit turns room (parseSignedShape turns room nullable) (signedShape nullable) := by
  refine reads_of_number ?_ ?_
  · intro line hhead
    have hnull : line.head? ≠ some 0x6e := by
      rintro heq
      rw [heq] at hhead
      exact absurd hhead (by decide)
    refine .peek ?_
    rw [if_neg hnull, if_neg (by
      rintro ⟨hne, hdigit⟩
      rcases hhead with hminus | hhead
      · exact hne hminus
      · rw [hhead] at hdigit
        cases hdigit)]
    by_cases hminus : line.head? = some 0x2d
    · cases line with
      | nil => cases hminus
      | cons b rest =>
          obtain rfl := Option.some.inj hminus
          refine .of_eq ?_
          simp only [runOn_bind, consumeIf_head, Option.bind_some, runOn_peekByte]
          by_cases hdigit : digit rest.head? = true
          · rw [if_pos hdigit, consumed_minus hdigit, runOn_bind, parseNumber_consumed]
            cases (parseNumber turns).consumed.runOn rest <;> rfl
          · rw [if_neg hdigit, runOn_consumed, parseNumber_minus_none hdigit]
            rfl
    · have hdigit := hhead.resolve_left hminus
      have hsigned : ∀ lexeme rest, (parseNumber turns).consumed.runOn line = some (lexeme, rest) →
          lexeme.head? ≠ some 0x2d := by
        intro lexeme rest hrun heq
        obtain ⟨rfl, -⟩ := runOn_consumed_eq_some_iff.mp hrun
        cases lexeme with
        | nil => cases heq
        | cons b lexeme => exact hminus heq
      refine Follows.of_runOn_eq (p := parseNumber turns >>= fun magnitude =>
        pure (magnitude.any fun value => decide ((value : Int) ≤ i64Max))) ?_ ?_ rfl
      · refine ((parseNumber_follows line).bind_pure fun magnitude =>
          magnitude.any fun value => decide ((value : Int) ≤ i64Max)).congr fun lexeme rest hrun => ?_
        exact (if_neg (hsigned lexeme rest hrun)).symm
      · simp only [runOn_bind, consumeIf_other hminus, Option.bind_some, runOn_peekByte, hdigit,
          if_true]
        rfl
  · intro line hline hhead
    refine .peek ?_
    have hother : ∀ t rest, (valueTree turns room).runOn line = some (t, rest) →
        signedShape nullable t = if isNull t then nullable else false := by
      intro t rest hrun
      cases t with
      | number lexeme => exact absurd (number_of_head (valueTree_sound hrun).1) hhead
      | _ => rfl
    refine .ite_left (fun hnull => ?_) fun hnull => .ite_left (fun _ => ?_) fun h => ?_
    · refine ((skipValue_reads hturns line hline).bind_pure fun _ => nullable).congr
        fun t rest hrun => ?_
      have hkind := (kind_of_value (valueTree_sound hrun).1).1
      rw [hother t rest hrun, hkind.mp hnull]
      rfl
    · refine ((skipValue_reads hturns line hline).bind_pure fun _ => false).congr
        fun t rest hrun => ?_
      have hkind := (kind_of_value (valueTree_sound hrun).1).1
      rw [hother t rest hrun, Bool.eq_false_iff.mpr (mt hkind.mpr hnull)]
      rfl
    · rw [not_or] at hhead
      exact absurd ⟨hhead.1, Bool.eq_false_iff.mpr hhead.2⟩ h

/-! ### Starts of values -/

theorem skipStartingWith_string (hturns : 0 < turns) :
    Reads limit turns room (skipStartingWith turns room [0x22]) isString := by
  refine skipValue_by (g := fun byte => byte.any [0x22].contains) hturns ?_
  intro line t rest hvalue
  rw [Bool.eq_iff_iff, ← (kind_of_value hvalue).2.1]
  cases line.head? <;> simp

theorem skipStartingWith_bool (hturns : 0 < turns) :
    Reads limit turns room (skipStartingWith turns room [0x74, 0x66]) isBool := by
  refine skipValue_by (g := fun byte => byte.any [0x74, 0x66].contains) hturns ?_
  intro line t rest hvalue
  rw [Bool.eq_iff_iff, ← (kind_of_value hvalue).2.2.2]
  cases line.head? <;> simp

theorem skipStartingWith_object (hturns : 0 < turns) :
    Reads limit turns room (skipStartingWith turns room [0x7b]) isObject := by
  refine skipValue_by (g := fun byte => byte.any [0x7b].contains) hturns ?_
  intro line t rest hvalue
  rw [Bool.eq_iff_iff, ← (kind_of_value hvalue).2.2.1]
  cases line.head? <;> simp

/-! ### Arrays of objects -/

/-- The count of the items fits 64 bits over lines that are no longer than that. -/
theorem parseObjectItem_follows (hturns : 0 < turns) (items : List Json) {line : List UInt8}
    (hline : NoSpace line) :
    Follows (u64Max - items.length) (fun items => (items.length, items.all isObject))
      (parseObjectItem turns room (items.length, items.all isObject))
      (valueTree turns room >>= fun item => pure (items ++ [item])) line := by
  have hkind : ∀ t rest, (valueTree turns room).runOn line = some (t, rest) →
      decide (line.head? = some 0x7b) = isObject t := by
    intro t rest hrun
    rw [Bool.eq_iff_iff, decide_eq_true_iff]
    exact (kind_of_value (valueTree_sound hrun).1).2.2.1
  refine .peek ?_
  by_cases hfits : items.length + 1 ≤ u64Max
  · refine (skipValue_reads hturns line hline).bind fun t rest hrun => ?_
    rw [if_pos hfits]
    refine .of_eq ?_
    simp only [runOn_pure, Option.map_some, Prod.map_apply, id_eq, List.length_append,
      List.length_singleton, List.all_append, List.all_cons, List.all_nil, Bool.and_true,
      hkind t rest hrun]
  · rw [if_neg hfits]
    have hskip : (skipValue turns room).runOn line
        = ((valueTree turns room).runOn line).map (Prod.map (fun _ => ()) id) :=
      Follows.eq_map fun limit => skipValue_reads hturns line hline
    cases hrun : (valueTree turns room).runOn line with
    | none => exact .inl (by rw [runOn_bind, runOn_bind, hskip, hrun]; rfl)
    | some result =>
        have hlt := value_length_lt (valueTree_sound hrun).1
        exact .inr ⟨by rw [runOn_bind, hskip, hrun]; rfl, by omega⟩

theorem parseObjectItems_follows (hturns : 0 < turns) {line : List UInt8}
    (hhead : line.head? = some 0x5b) :
    Follows u64Max (fun items => (some items.length, items.all isObject))
      (parseObjectItems turns room) (arrayTree turns room) line := by
  cases room with
  | zero => exact .fail
  | succ room =>
      have hitems : ∀ rest : List UInt8,
          Follows u64Max (fun items => (items.length, items.all isObject))
            (readItems turns 0x5d (parseObjectItem turns room) (0, true))
            (readItems turns 0x5d
              (fun items => valueTree turns room >>= fun item => pure (items ++ [item])) []) rest := by
        intro rest
        refine readItems_follows_counted (f := fun items => (items.length, items.all isObject))
          (fun items : List Json => u64Max - items.length) ?_
          (fun items line hline => parseObjectItem_follows hturns items hline) [] rest
        intro items line next rest hrun
        rw [runOn_bind, Option.bind_eq_some_iff] at hrun
        obtain ⟨⟨item, after⟩, hitem, hrun⟩ := hrun
        obtain ⟨rfl, rfl⟩ := Prod.mk.inj (Option.some.inj hrun)
        have hlt : after.length < line.length := value_length_lt (valueTree_sound hitem).1
        rw [List.length_append, List.length_singleton]
        dsimp only
        omega
      have hfollows : Follows u64Max (fun items => (some items.length, items.all isObject))
          (require 0x5b >>= fun _ =>
            readItems turns 0x5d (parseObjectItem turns room) (0, true) >>= fun shape =>
              pure (some shape.1, shape.2))
          (arrayTree turns (room + 1)) line :=
        .bind_same fun _ rest _ => (hitems rest).bind_pure fun shape => (some shape.1, shape.2)
      exact hfollows.of_runOn_eq (takeByte_eq_require hhead _) rfl

theorem parseObjectArrayShape_reads (hturns : 0 < turns) :
    Reads u64Max turns room (parseObjectArrayShape turns room) objectArrayShape := by
  intro line hline
  have hkind : ∀ t rest, (valueTree turns room).runOn line = some (t, rest) →
      line.head? ≠ some 0x5b → objectArrayShape t = (none, isNull t) := by
    intro t rest hrun hhead
    have hvalue := (valueTree_sound hrun).1
    cases t with
    | array items => exact absurd (head_of_value hvalue) hhead
    | _ => rfl
  refine .peek (.ite_left (fun hnull => ?_) fun hnull => .ite_left (fun hhead => ?_) fun hhead => ?_)
  · refine ((skipValue_reads hturns line hline).bind_pure fun _ => (none, true)).congr
      fun t rest hrun => ?_
    have hkind' := (kind_of_value (valueTree_sound hrun).1).1
    rw [hkind t rest hrun (by rw [hnull]; decide), hkind'.mp hnull]
    rfl
  · refine ((skipValue_reads hturns line hline).bind_pure fun _ => (none, false)).congr
      fun t rest hrun => ?_
    have hkind' := (kind_of_value (valueTree_sound hrun).1).1
    rw [hkind t rest hrun hhead, Bool.eq_false_iff.mpr (mt hkind'.mpr hnull)]
    rfl
  · have hhead := not_not.mp hhead
    have hfollows : Follows u64Max (objectArrayShape ∘ Json.array) (parseObjectItems turns room)
        (arrayTree turns room) line := parseObjectItems_follows hturns hhead
    exact hfollows.map_right.of_runOn_eq rfl (valueTree_array hhead)

end

end CodexInfo.SessionInput
