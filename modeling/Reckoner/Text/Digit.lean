/-!
# Decimal digits

Every script with a positional decimal system has its ten digits at ten successive code points,
zero first, so a table of the zeros gives both the class (category Nd) and the value of a digit.
-/

namespace Reckoner.Text

/-- The code points of the zeros, in rising order. The ten digits from a zero on belong together. -/
def zeros : List Nat :=
  [0x30, 0x660, 0x6f0, 0x7c0, 0x966, 0x9e6, 0xa66, 0xae6, 0xb66, 0xbe6, 0xc66, 0xce6, 0xd66,
   0xde6, 0xe50, 0xed0, 0xf20, 0x1040, 0x1090, 0x17e0, 0x1810, 0x1946, 0x19d0, 0x1a80, 0x1a90,
   0x1b50, 0x1bb0, 0x1c40, 0x1c50, 0xa620, 0xa8d0, 0xa900, 0xa9d0, 0xa9f0, 0xaa50, 0xabf0,
   0xff10, 0x104a0, 0x10d30, 0x11066, 0x110f0, 0x11136, 0x111d0, 0x112f0, 0x11450, 0x114d0,
   0x11650, 0x116c0, 0x11730, 0x118e0, 0x11950, 0x11c50, 0x11d50, 0x11da0, 0x16a60, 0x16ac0,
   0x16b50, 0x1d7ce, 0x1d7d8, 0x1d7e2, 0x1d7ec, 0x1d7f6, 0x1e140, 0x1e2f0, 0x1e950, 0x1fbf0]

/-- The value of the code point `n` in the first run of ten that holds it. -/
def digitAmong (n : Nat) : List Nat → Option Nat
  | [] => none
  | first :: later =>
      if n < first then none
      else if n < first + 10 then some (n - first)
      else digitAmong n later

/-- The value of a decimal digit of any script, and nothing for any other character. -/
def digitValue? (c : Char) : Option Nat := digitAmong c.toNat zeros

def isDigit (c : Char) : Bool := (digitValue? c).isSome

/-- The number that a run of decimal digits writes; characters that are no digits count as zero. -/
def digitsValue (cs : List Char) : Nat :=
  cs.foldl (fun n c => 10 * n + (digitValue? c).getD 0) 0

theorem digitAmong_lt {n d : Nat} {table : List Nat} (h : digitAmong n table = some d) :
    d < 10 := by
  induction table with
  | nil => simp [digitAmong] at h
  | cons first later ih =>
    rw [digitAmong] at h
    split at h
    · simp at h
    · split at h
      · have := Option.some.inj h
        omega
      · exact ih h

theorem digitValue?_lt {c : Char} {d : Nat} (h : digitValue? c = some d) : d < 10 :=
  digitAmong_lt h

end Reckoner.Text
