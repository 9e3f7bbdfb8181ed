/-!
# Hexadecimal of fixed width
-/

namespace Reckoner.Text

/-- The last `width` hexadecimal digits of `n`, in lower case, with zeros in front. -/
def hex : (width : Nat) → (n : Nat) → List Char
  | 0, _ => []
  | width + 1, n => hex width (n / 16) ++ [Nat.digitChar (n % 16)]

@[simp] theorem length_hex (width n : Nat) : (hex width n).length = width := by
  induction width generalizing n with
  | zero => rfl
  | succ width ih => simp [hex, ih]

end Reckoner.Text
