/-! # Blank characters and trimming -/

namespace Interchange.Text

/-- The characters with the Unicode property `White_Space`. -/
def isBlankChar (c : Char) : Bool :=
  let n := c.toNat
  (0x09 ≤ n && n ≤ 0x0d) || n == 0x20 || n == 0x85 || n == 0xa0 || n == 0x1680 ||
    (0x2000 ≤ n && n ≤ 0x200a) || n == 0x2028 || n == 0x2029 || n == 0x202f || n == 0x205f ||
    n == 0x3000

/-- Drop the blank characters at the front. -/
def trimFront (cs : List Char) : List Char := cs.dropWhile isBlankChar

/-- Drop the blank characters at both ends. -/
def trimChars (cs : List Char) : List Char := (trimFront (trimFront cs).reverse).reverse

/-- A text without the blank characters at its ends. -/
def trim (s : String) : String := String.ofList (trimChars s.toList)

/-- Holds of a text that has nothing but blank characters. -/
def isBlank (s : String) : Bool := s.toList.all isBlankChar

@[simp] theorem trimChars_nil : trimChars [] = [] := rfl

@[simp] theorem isBlank_empty : isBlank "" = true := rfl

theorem trimFront_eq_nil_iff (cs : List Char) : trimFront cs = [] ↔ cs.all isBlankChar := by
  induction cs with
  | nil => simp [trimFront]
  | cons c cs ih =>
    by_cases h : isBlankChar c
    · have step : trimFront (c :: cs) = trimFront cs := List.dropWhile_cons_of_pos h
      rw [step, ih, List.all_cons, h, Bool.true_and]
    · simp [trimFront, h]

@[simp] theorem all_trimFront (cs : List Char) :
    (trimFront cs).all isBlankChar = cs.all isBlankChar := by
  induction cs with
  | nil => rfl
  | cons c cs ih =>
    by_cases h : isBlankChar c
    · simpa [trimFront, h] using ih
    · simp [trimFront, h]

/-- Trimming leaves nothing of a blank text, and something of any other. -/
theorem trimChars_eq_nil_iff (cs : List Char) : trimChars cs = [] ↔ cs.all isBlankChar := by
  rw [trimChars, List.reverse_eq_nil_iff, trimFront_eq_nil_iff, List.all_reverse, all_trimFront]

end Interchange.Text
