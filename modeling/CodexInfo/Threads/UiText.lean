import CodexInfo.Contract.ModelNames

/-!
# `CodexInfo.Threads.UiText`: texts that are shown

Model of `normalize_ui_text` and `shorten_unicode` of `security.rs`: a text from outside becomes a
label of bounded length without control characters.
-/

set_option autoImplicit false

namespace CodexInfo.Threads

open CodexInfo.Contract (Text)

/-- `is_forbidden_ui_scalar`. -/
def isForbiddenUiScalar (c : Char) : Bool :=
  decide (c.toNat ≤ 0x1f ∨ (0x7f ≤ c.toNat ∧ c.toNat ≤ 0x9f) ∨ c.toNat = 0x61c ∨
    (0x200e ≤ c.toNat ∧ c.toNat ≤ 0x200f) ∨ (0x2028 ≤ c.toNat ∧ c.toNat ≤ 0x202e) ∨
    (0x2066 ≤ c.toNat ∧ c.toNat ≤ 0x2069))

/-- The loop of `normalize_ui_text`. -/
def collapseSpaces : Bool → Text → Text
  | _, [] => []
  | previousWasSpace, c :: rest =>
      if isForbiddenUiScalar c = true ∨ c = ' ' then
        if previousWasSpace then collapseSpaces true rest else ' ' :: collapseSpaces true rest
      else c :: collapseSpaces false rest

/-- `normalize_ui_text`. -/
def normalizeUiText (value : Text) : Text := collapseSpaces false value

/-- `shorten_unicode`. -/
def shortenUnicode (value : Text) (limit : Nat) : Text :=
  if value.length ≤ limit then value
  else
    match limit with
    | 0 => []
    | 1 => ['…']
    | _ => value.take (limit - 1) ++ ['…']

end CodexInfo.Threads
