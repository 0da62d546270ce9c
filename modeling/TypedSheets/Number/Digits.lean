/-!
# Whole numbers as text

* `Number.natChars`, `Number.natText`, `Number.intText` — decimal text without leading zeros
* `Number.digitsValue` — the number that a run of decimal digits denotes
* `Number.parseInt?` — an optional sign and then digits
* `Number.hexByte`, `Number.hexNat` — lower case hexadecimal text
-/

namespace TypedSheets.Number

/-- The decimal digit of a number below ten. -/
def digitChar (n : Nat) : Char := Char.ofNat ('0'.toNat + n)

/-- The value of a decimal digit. -/
def digitValue (c : Char) : Nat := c.toNat - '0'.toNat

/-- The decimal digits of a number, without leading zeros. -/
def natChars (n : Nat) : List Char :=
  if n < 10 then [digitChar n] else natChars (n / 10) ++ [digitChar (n % 10)]
termination_by n
decreasing_by omega

/-- The decimal text of a number. -/
def natText (n : Nat) : String := String.ofList (natChars n)

/-- The decimal text of an integer: a minus sign before the digits of a negative one. -/
def intText (i : Int) : String :=
  if i < 0 then String.ofList ('-' :: natChars i.natAbs) else natText i.natAbs

/-- The number that decimal digits denote. -/
def digitsValue (digits : List Char) : Nat :=
  digits.foldl (fun n c => 10 * n + digitValue c) 0

/-- Reads decimal digits, at least one and nothing else. -/
def parseNat? (s : List Char) : Option Nat :=
  if !s.isEmpty && s.all Char.isDigit then some (digitsValue s) else none

/-- Reads an optional sign and then decimal digits. -/
def parseInt? : List Char → Option Int
  | '-' :: digits => (parseNat? digits).map (fun n => -(n : Int))
  | '+' :: digits => (parseNat? digits).map Int.ofNat
  | digits => (parseNat? digits).map Int.ofNat

/-- The hexadecimal digit of a number below sixteen. -/
def hexDigit (n : Nat) : Char :=
  if n < 10 then digitChar n else Char.ofNat ('a'.toNat + (n - 10))

/-- The lowest `width` hexadecimal digits of a number. -/
def hexFixed (width n : Nat) : List Char :=
  (List.range width).map (fun i => hexDigit (n >>> (4 * (width - 1 - i)) % 16))

/-- The hexadecimal digits of a number, without leading zeros. -/
def hexNat (n : Nat) : List Char :=
  if n < 16 then [hexDigit n] else hexNat (n / 16) ++ [hexDigit (n % 16)]
termination_by n
decreasing_by omega

/-- The value of a hexadecimal digit of either case. -/
def hexValue? (c : Char) : Option Nat :=
  if c.isDigit then some (digitValue c)
  else if 'a' ≤ c && c ≤ 'f' then some (c.toNat - 'a'.toNat + 10)
  else if 'A' ≤ c && c ≤ 'F' then some (c.toNat - 'A'.toNat + 10)
  else none

/-- Reads hexadecimal digits, at least one and nothing else. -/
def parseHex? (s : List Char) : Option Nat :=
  if s.isEmpty then none
  else s.foldl (fun n c => n.bind (fun n => (hexValue? c).map (16 * n + ·))) (some 0)

theorem digitsValue_append (a b : List Char) :
    digitsValue (a ++ b) = b.foldl (fun n c => 10 * n + digitValue c) (digitsValue a) := by
  simp [digitsValue, List.foldl_append]

theorem natChars_ne_nil (n : Nat) : natChars n ≠ [] := by
  rw [natChars]
  split <;> simp

theorem digitValue_digitChar : ∀ d, d < 10 → digitValue (digitChar d) = d := by decide

theorem isDigit_digitChar : ∀ d, d < 10 → (digitChar d).isDigit = true := by decide

theorem digitsValue_natChars (n : Nat) : digitsValue (natChars n) = n := by
  induction n using Nat.strongRecOn with
  | ind n ih =>
    rw [natChars]
    split
    · next h => simp [digitsValue, digitValue_digitChar n h]
    · next h =>
      rw [digitsValue_append, ih (n / 10) (by omega)]
      simp only [List.foldl_cons, List.foldl_nil, digitValue_digitChar (n % 10) (by omega)]
      omega

theorem isDigit_of_mem_natChars (n : Nat) : ∀ c ∈ natChars n, c.isDigit = true := by
  induction n using Nat.strongRecOn with
  | ind n ih =>
    rw [natChars]
    split
    · next h => simpa using isDigit_digitChar n h
    · next h =>
      intro c hc
      rcases List.mem_append.mp hc with hc | hc
      · exact ih (n / 10) (by omega) c hc
      · obtain rfl := List.mem_singleton.mp hc
        exact isDigit_digitChar (n % 10) (by omega)

/-- What is printed reads back. -/
theorem parseNat?_natChars (n : Nat) : parseNat? (natChars n) = some n := by
  have h : (natChars n).all Char.isDigit = true :=
    List.all_eq_true.mpr (isDigit_of_mem_natChars n)
  simp [parseNat?, natChars_ne_nil, h, digitsValue_natChars]

end TypedSheets.Number
