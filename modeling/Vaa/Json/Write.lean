import Vaa.Codes
import Vaa.Hex

/-!
# JSON text

Compact JSON as the bytes `serde_json::to_vec` writes: natural numbers in decimal digits,
strings in quotes with the quote, the backslash and the control characters escaped,
objects as the list of their fields. The crate itself is a parameter of the development;
these are the concrete bytes of the values it is used with.

Strings, and numbers up to the character that follows them, are self-delimiting codes.
-/

namespace Vaa.Json

open Codes

/-! ## Text -/

/-- `str::as_bytes`. -/
def utf8 (s : String) : Bytes := s.toUTF8.toList

theorem utf8_injective : Function.Injective utf8 := by
  intro s t hst
  have hdata (b : ByteArray) : b.toList = b.data.toList := by
    rw [ByteArray.toList, Hex.toList_loop]
    rfl
  rw [utf8, utf8, hdata, hdata, Array.toList_inj] at hst
  exact String.toByteArray_inj.1 (ByteArray.ext hst)

/-! ## Numbers -/

/-- A natural number in decimal digits. -/
def number (n : ℕ) : Bytes := (Nat.toDigits 10 n).map fun c => UInt8.ofNat c.toNat

theorem toNat_of_mem_toDigits {n : ℕ} {c : Char} (hc : c ∈ Nat.toDigits 10 n) :
    48 ≤ c.toNat ∧ c.toNat ≤ 57 :=
  Char.isDigit_iff_toNat.1 (Nat.isDigit_of_mem_toDigits (by decide) (by decide) hc)

/-- The bytes of a number are those of digits. -/
theorem toNat_of_mem_number {n : ℕ} {b : UInt8} (hb : b ∈ number n) :
    48 ≤ b.toNat ∧ b.toNat ≤ 57 := by
  obtain ⟨c, hc, rfl⟩ := List.mem_map.1 hb
  have hdigit := toNat_of_mem_toDigits hc
  rwa [UInt8.toNat_ofNat_of_lt' (show c.toNat < 256 by omega)]

theorem number_injective : Function.Injective number := by
  intro m n hmn
  have hchars (k : ℕ) : (number k).map (fun b => Char.ofNat b.toNat) = Nat.toDigits 10 k := by
    rw [number, List.map_map]
    refine (List.map_congr_left fun c hc => ?_).trans (List.map_id _)
    have hdigit := toNat_of_mem_toDigits hc
    rw [Function.comp_apply, UInt8.toNat_ofNat_of_lt' (show c.toNat < 256 by omega),
      Char.ofNat_toNat, id]
  have hdigits : Nat.toDigits 10 m = Nat.toDigits 10 n := by
    rw [← hchars m, ← hchars n, hmn]
  rw [← Nat.ofDigitChars_ten_toDigits (n := m), hdigits, Nat.ofDigitChars_ten_toDigits]

/-- A number ends where a character that is no digit follows. -/
theorem selfDelimiting_number {t : UInt8} (ht : t.toNat < 48) :
    SelfDelimiting fun n => number n ++ [t] := by
  refine selfDelimiting_terminated number_injective fun n hmem => ?_
  have hdigit := toNat_of_mem_number hmem
  omega

/-! ## Strings -/

/-- A byte of a string, escaped. -/
def escape (b : UInt8) : Bytes :=
  if b = 0x22 then [0x5c, 0x22]
  else if b = 0x5c then [0x5c, 0x5c]
  else if b = 0x08 then [0x5c, 0x62]
  else if b = 0x09 then [0x5c, 0x74]
  else if b = 0x0a then [0x5c, 0x6e]
  else if b = 0x0c then [0x5c, 0x66]
  else if b = 0x0d then [0x5c, 0x72]
  else if b < 0x20 then
    [0x5c, 0x75, 0x30, 0x30, UInt8.ofNat (Nat.digitChar (b.toNat / 16)).toNat,
      UInt8.ofNat (Nat.digitChar (b.toNat % 16)).toNat]
  else [b]

/-- The byte given after a backslash, and what follows. -/
def unescapeTail : Bytes → Option (UInt8 × Bytes)
  | 0x62 :: rest => some (0x08, rest)
  | 0x74 :: rest => some (0x09, rest)
  | 0x6e :: rest => some (0x0a, rest)
  | 0x66 :: rest => some (0x0c, rest)
  | 0x72 :: rest => some (0x0d, rest)
  | 0x75 :: _ :: _ :: high :: low :: rest => do
    let high ← Hex.digit high
    let low ← Hex.digit low
    some (high * 16 + low, rest)
  | b :: rest => some (b, rest)
  | [] => none

/-- The byte a text starts with, which may be escaped, and what follows. -/
def unescape : Bytes → Option (UInt8 × Bytes)
  | b :: rest => if b = 0x5c then unescapeTail rest else some (b, rest)
  | [] => none

/-- The two digits of a control character are read back. -/
theorem digits_control : ∀ n < 32,
    (Hex.digit (UInt8.ofNat (Nat.digitChar (n / 16)).toNat)).bind (fun high =>
      (Hex.digit (UInt8.ofNat (Nat.digitChar (n % 16)).toNat)).map fun low => high * 16 + low) =
      some (UInt8.ofNat n) := by
  decide

theorem unescape_escape (b : UInt8) (rest : Bytes) :
    unescape (escape b ++ rest) = some (b, rest) := by
  rw [escape]
  split_ifs with hquote hbackslash hb ht hn hf hr hcontrol
  · rw [hquote]
    rfl
  · rw [hbackslash]
    rfl
  · rw [hb]
    rfl
  · rw [ht]
    rfl
  · rw [hn]
    rfl
  · rw [hf]
    rfl
  · rw [hr]
    rfl
  · have hdigits := digits_control b.toNat (UInt8.lt_iff_toNat_lt.1 hcontrol)
    rw [UInt8.ofNat_toNat, Option.bind_eq_some_iff] at hdigits
    obtain ⟨high, hhigh, hlow⟩ := hdigits
    obtain ⟨low, hlow, hbyte⟩ := Option.map_eq_some_iff.1 hlow
    simp only [unescape, List.cons_append, List.nil_append, if_true, unescapeTail, hhigh, hlow]
    exact congrArg (fun byte => some (byte, rest)) hbyte
  · exact if_neg hbackslash

theorem selfDelimiting_escape : SelfDelimiting escape := .of_read unescape_escape

/-- No escape starts with a quote. -/
theorem escape_eq_cons (b : UInt8) : ∃ c w, escape b = c :: w ∧ c ≠ 0x22 := by
  rw [escape]
  split_ifs with hquote
  case neg => exact ⟨b, [], rfl, hquote⟩
  all_goals exact ⟨0x5c, _, rfl, by decide⟩

/-- A string in quotes. -/
def string (s : String) : Bytes := 0x22 :: ((utf8 s).flatMap escape ++ [0x22])

theorem selfDelimiting_string : SelfDelimiting string :=
  ((selfDelimiting_blocks selfDelimiting_escape escape_eq_cons).comp utf8_injective).prepend [0x22]

/-! ## Objects -/

/-- The fields of an object, each after a comma but the first. -/
def object (fields : List (String × Bytes)) : Bytes :=
  0x7b :: (List.intercalate [0x2c] (fields.map fun p => string p.1 ++ 0x3a :: p.2) ++ [0x7d])

end Vaa.Json
