/-!
Blank characters, by the Unicode property White_Space, and the normal form in which setting names
are compared: no blanks around the name, letters A to Z lowered.
-/

namespace TypeContracts

/-- The characters of the property White_Space. -/
def isBlank (c : Char) : Bool :=
  let n := c.toNat
  (9 ≤ n && n ≤ 13) || n == 0x20 || n == 0x85 || n == 0xa0 || n == 0x1680
    || (0x2000 ≤ n && n ≤ 0x200a) || n == 0x2028 || n == 0x2029 || n == 0x202f || n == 0x205f
    || n == 0x3000

/-- The text without the blanks at both its ends. -/
def trimBlanks (s : String) : String :=
  String.ofList ((s.toList.dropWhile isBlank).reverse.dropWhile isBlank).reverse

/-- The text with the letters A to Z lowered and every other character kept. -/
def lowerLetters (s : String) : String :=
  String.ofList (s.toList.map Char.toLower)

/-- The form in which setting names are compared. -/
def settingName (s : String) : String := lowerLetters (trimBlanks s)

/-- Every character that the core library calls white space is blank. -/
theorem isBlank_of_isWhitespace {c : Char} (h : c.isWhitespace = true) : isBlank c = true := by
  simp only [Char.isWhitespace, Bool.or_eq_true, decide_eq_true_eq] at h
  rcases h with ((h | h) | h) | h <;> subst h <;> decide

end TypeContracts
