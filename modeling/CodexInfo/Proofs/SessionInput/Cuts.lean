import CodexInfo.Lib.Brackets
import CodexInfo.Proofs.SessionInput.Admission

/-!
# `CodexInfo.Proofs.SessionInput.Cuts`: a record that is read from its middle

What is left of an object after a cut inside it is no JSON value. A cut outside strings leaves a
bracket too many, a cut inside a string turns strings inside out to the end of the line, and a cut
in an escape does one or the other.

* `not_document_of_cut`: the cut of an object of the grammar.
* `readSessionRecord_cut`: the cut of a line that the parser accepts.
-/

set_option autoImplicit false

namespace CodexInfo.SessionInput

open CodexInfo.Contract
open CodexInfo.Lib (Json)
open CodexInfo.Lib.Json

/-- A whole document is balanced. -/
theorem balanced_of_document {line : List UInt8} {t : Json} (h : Document line t) :
    Balanced line := by
  obtain ⟨start, stop, hspace, hvalue, hspace'⟩ := h
  obtain ⟨bytes, rfl, hbytes⟩ :=
    ((balanced_of_space hspace).trans (balanced_of_value hvalue)).trans (balanced_of_space hspace')
  rw [List.append_nil]
  exact hbytes

/-- An object is its braces around a balanced text. -/
theorem body_of_object {line rest : List UInt8} {members : List (List Char × Json)}
    (h : Value line (.object members) rest) :
    ∃ body, line = 0x7b :: (body ++ 0x7d :: rest) ∧ Balanced body := by
  cases h with
  | emptyObject close =>
      obtain ⟨body, rfl, hbody⟩ := balanced_of_space close
      exact ⟨body, rfl, hbody⟩
  | object space members =>
      obtain ⟨body, rfl, hbody⟩ := (balanced_of_space space).trans (balanced_of_members members)
      exact ⟨body, rfl, hbody⟩

/-- White space is no document. -/
theorem not_document_of_space {line : List UInt8} (h : line.all isSpace = true) (t : Json) :
    ¬ Document line t := by
  rintro ⟨start, stop, hspace, hvalue, -⟩
  obtain ⟨bytes, rfl, -⟩ := space_iff.mp hspace
  rw [List.all_append, Bool.and_eq_true] at h
  have hhead := head_of_value hvalue
  cases start with
  | nil => cases hhead
  | cons b start =>
      have hb : isSpace b = true := by
        rw [List.all_cons, Bool.and_eq_true] at h
        exact h.2.1
      rw [Option.some.inj hhead, (firstByte_of_value hvalue).1] at hb
      cases hb

/-- A text cannot end at depth zero outside strings both from there and from inside an object. -/
theorem not_both {place : Place} {depth : Int} {bytes : List UInt8} (hdepth : 1 ≤ depth)
    (h : lex 0 place depth bytes = some (.outside, 0))
    (h' : lex 0 .outside 0 bytes = some (.outside, 0)) : False := by
  have hshift : ∀ {place : Place} {bytes : List UInt8},
      lex 0 place 0 bytes = some (.outside, 0) → lex 0 place depth bytes = some (.outside, 0) →
        False := by
    intro place bytes hzero hdeep
    have hshifted := lex_shift depth hzero
    rw [zero_add] at hshifted
    have hfloor := lex_floor hshifted (show (0 : Int) ≤ depth by omega)
    rw [hdeep] at hfloor
    have heq := (Prod.mk.inj (Option.some.inj hfloor)).2
    omega
  cases place with
  | outside => exact hshift h' h
  | inside => exact lex_opposite (.inl ⟨rfl, rfl⟩) h h'
  | escaped =>
      cases bytes with
      | nil => cases h
      | cons b bytes =>
          -- The text goes on inside the string, whatever the byte is.
          rw [lex_cons] at h h'
          have hinside : lex 0 .inside depth bytes = some (.outside, 0) := by
            rw [← h]
            exact (if_pos (show (0 : Int) ≤ depth by omega)).symm
          obtain ⟨next, hstep, h'⟩ := Option.bind_eq_some_iff.mp h'
          split at h'
          · by_cases hquote : b = 0x22
            · rw [lexStep, if_pos hquote] at hstep
              obtain rfl := Option.some.inj hstep
              exact hshift h' hinside
            · have hnext : next.1 = .outside := by
                simp only [lexStep, if_neg hquote] at hstep
                split_ifs at hstep <;> rw [← Option.some.inj hstep]
              rw [hnext] at h'
              exact lex_opposite (.inl ⟨rfl, rfl⟩) hinside h'
          · cases h'

/-- What an object leaves after a cut behind its opening brace is no document. -/
theorem not_document_of_cut {before left stop : List UInt8} {members : List (List Char × Json)}
    (h : Value (0x7b :: (before ++ left)) (.object members) stop) (hstop : Space stop [])
    (t : Json) : ¬ Document left t := by
  intro hdocument
  obtain ⟨body, hline, hbody⟩ := body_of_object h
  have hcut := (List.cons.inj hline).2
  have hspace : stop.all isSpace = true := by
    obtain ⟨bytes, rfl, hall⟩ := space_iff.mp hstop
    rw [List.append_nil]
    exact hall
  have hplace : (∃ inner, body = before ++ inner ∧ left = inner ++ 0x7d :: stop) ∨
      ∃ inner, stop = inner ++ left := by
    rcases List.append_eq_append_iff.mp hcut with ⟨inner, hbody, hleft⟩ | ⟨inner, hbefore, hleft⟩
    · exact .inl ⟨inner, hbody, hleft⟩
    · cases inner with
      | nil => exact .inl ⟨[], by rw [hbefore, List.append_nil, List.append_nil], hleft.symm⟩
      | cons b inner => exact .inr ⟨inner, (List.cons.inj hleft).2⟩
  rcases hplace with ⟨inner, rfl, rfl⟩ | ⟨inner, rfl⟩
  · -- The cut is inside the braces.
    have hrun := hbody 1 1 (Int.le_refl 1)
    rw [lex_append, Option.bind_eq_some_iff] at hrun
    obtain ⟨⟨place, depth⟩, hbefore, hrun⟩ := hrun
    have hdepth : 1 ≤ depth := floor_le_of_lex hbefore (Int.le_refl 1)
    have hstop := balanced_of_plain (List.all_eq_true.mpr fun b hb =>
      isPlain_of_isSpace (List.all_eq_true.mp hspace b hb)) 0 0 (Int.le_refl 0)
    have hleft : lex 0 place depth (inner ++ 0x7d :: stop) = some (.outside, 0) := by
      rw [lex_append, lex_floor hrun (by decide), Option.bind_some, lex_cons]
      exact hstop
    exact not_both hdepth hleft (balanced_of_document hdocument 0 0 (Int.le_refl 0))
  · rw [List.all_append, Bool.and_eq_true] at hspace
    exact not_document_of_space hspace.2 t hdocument

/-- White space ends where the next byte is none. -/
theorem dropWhile_of_space {bytes start : List UInt8} (h : bytes.all isSpace = true)
    (hstart : NoSpace start) : (bytes ++ start).dropWhile isSpace = start := by
  rw [List.dropWhile_append_of_pos (List.all_eq_true.mp h)]
  cases start with
  | nil => rfl
  | cons b start => exact List.dropWhile_cons_of_neg (Bool.eq_false_iff.mp hstart)

/-- A cut of a line that the parser accepts, behind the opening brace of its object, leaves a line
that is not present, however the reads are buffered. -/
theorem readSessionRecord_cut (sha256 : Text → Text) {reader reader' : BufReader}
    {space before left rest rest' : List UInt8} {summary : SessionRecordSummary} {count : Nat}
    (hspace : space.all isSpace = true) (hlf : lineFeed ∉ space ++ 0x7b :: (before ++ left))
    (hreader : reader.bytes = space ++ 0x7b :: (before ++ left) ++ lineFeed :: rest)
    (hpresent : (readSessionRecord sha256 reader).1 = .present summary count)
    (hreader' : reader'.bytes = left ++ lineFeed :: rest') (summary' : SessionRecordSummary)
    (count' : Nat) : (readSessionRecord sha256 reader').1 ≠ .present summary' count' := by
  intro hpresent'
  obtain ⟨t, ⟨start, stop, hstart, hvalue, hstop⟩, -⟩ := document_of_present sha256 hreader hlf hpresent
  have hlf' : lineFeed ∉ left := fun hmem => hlf (by simp [hmem])
  obtain ⟨t', hdocument, -⟩ := document_of_present sha256 hreader' hlf' hpresent'
  -- The value of the line starts at its brace.
  obtain ⟨bytes, hline, hall⟩ := space_iff.mp hstart
  have hdrop := dropWhile_of_space hall (noSpace_of_value hvalue)
  have hbrace : NoSpace (0x7b :: (before ++ left)) := rfl
  rw [← hline, dropWhile_of_space hspace hbrace] at hdrop
  subst hdrop
  have hobject := (kind_of_value hvalue).2.2.1.mp rfl
  cases t with
  | object members => exact not_document_of_cut hvalue hstop t' hdocument
  | _ => cases hobject

/-- The line `{"a":"{}"}` is cut inside its string, where an object seems to start. -/
theorem readSessionRecord_cut_string :
    (readSessionRecord id ⟨[0x7b, 0x7d, 0x22, 0x7d, 0x0a], fun _ => 1⟩).1
      ≠ .present (summarize id (.object [])) 3 := by
  have hreader : (⟨[0x7b, 0x22, 0x61, 0x22, 0x3a, 0x22, 0x7b, 0x7d, 0x22, 0x7d, 0x0a],
      fun _ => 0⟩ : BufReader).bytes
        = [] ++ 0x7b :: ([0x22, 0x61, 0x22, 0x3a, 0x22] ++ [0x7b, 0x7d, 0x22, 0x7d])
          ++ lineFeed :: [] := rfl
  have hpresent : (readSessionRecord id ⟨[0x7b, 0x22, 0x61, 0x22, 0x3a, 0x22, 0x7b, 0x7d, 0x22,
      0x7d, 0x0a], fun _ => 0⟩).1
        = .present (summarize id (.object [(['a'], .string ['{', '}'])])) 11 := rfl
  have hreader' : (⟨[0x7b, 0x7d, 0x22, 0x7d, 0x0a], fun _ => 1⟩ : BufReader).bytes
      = [0x7b, 0x7d, 0x22, 0x7d] ++ lineFeed :: [] := rfl
  exact readSessionRecord_cut id (by rfl) (by decide) hreader hpresent hreader' _ _

end CodexInfo.SessionInput
