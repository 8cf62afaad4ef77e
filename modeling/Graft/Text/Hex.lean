/-
Hexadecimal digits, lowercase.
-/
set_option autoImplicit false

namespace Graft.Hex

/-- The digit of a number below sixteen. -/
def digit (n : Nat) : Char :=
  if n < 10 then Char.ofNat (48 + n) else Char.ofNat (87 + n)

/-- The two digits of a byte. -/
def ofByte (b : UInt8) : List Char := [digit (b.toNat / 16), digit (b.toNat % 16)]

/-- The digits of a sequence of bytes, two for each. -/
def ofBytes (bytes : List UInt8) : String := String.ofList (bytes.flatMap ofByte)

/-- The digits of a number, without leading zeros. -/
def ofNat (n : Nat) : String := String.ofList (Nat.toDigits 16 n)

/-- The number that a digit of either case stands for. -/
def value? (c : Char) : Option Nat :=
  if '0' ≤ c ∧ c ≤ '9' then some (c.toNat - 48)
  else if 'a' ≤ c ∧ c ≤ 'f' then some (c.toNat - 87)
  else if 'A' ≤ c ∧ c ≤ 'F' then some (c.toNat - 55)
  else none

/-- The number that a sequence of digits spells; none when a character is no digit. -/
def natOf? (digits : List Char) : Option Nat :=
  digits.foldlM (fun n c => (value? c).map (fun d => 16 * n + d)) 0

/-- The bytes that pairs of digits spell. -/
def bytesOf? : List Char → Option (List UInt8)
  | [] => some []
  | [_] => none
  | high :: low :: rest => do
    return UInt8.ofNat (16 * (← value? high) + (← value? low)) :: (← bytesOf? rest)

theorem isAlphanum_digit {n : Nat} (h : n < 16) : (digit n).isAlphanum = true := by
  have hall : ∀ m : Fin 16, (digit m.val).isAlphanum = true := by decide
  exact hall ⟨n, h⟩

/-- The digits of bytes are letters and figures. -/
theorem isAlphanum_of_mem_ofBytes {bytes : List UInt8} {c : Char}
    (h : c ∈ (ofBytes bytes).toList) : c.isAlphanum = true := by
  rw [ofBytes, String.toList_ofList] at h
  obtain ⟨b, -, hc⟩ := List.mem_flatMap.mp h
  have hb : b.toNat < 256 := b.toNat_lt
  rcases List.mem_cons.mp hc with rfl | hc
  · exact isAlphanum_digit (by omega)
  · obtain rfl := List.mem_singleton.mp hc
    exact isAlphanum_digit (by omega)

end Graft.Hex
