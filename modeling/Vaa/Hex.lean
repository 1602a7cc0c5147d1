import Vaa.Bsv
import Vaa.Rust

/-!
# Hexadecimal

The crate `hex` writes a byte as two lower-case digits, and reads pairs of digits of
either case. The CLI uses an encoder `hexEncode` and a decoder `hexDecode`, parameters
of the development, which relies on the decoder reading what the encoder writes
(`HexCodec`) or, where the strings are not its own, on what the crate reads and writes
exactly (`HexCrate`); `Hex.encode` and `Hex.decode` are concrete ones (`hexCodec`,
`hexCrate`).
-/

namespace Vaa

/-- The decoder reads what the encoder writes, in lower-case digits. -/
structure HexCodec (hexEncode : Bytes → String) (hexDecode : String → Except String Bytes) :
    Prop where
  decode_encode : ∀ bytes, hexDecode (hexEncode bytes) = .ok bytes
  encode_digits : ∀ bytes, ∀ c ∈ (hexEncode bytes).toList, ∃ n < 16, c = Nat.digitChar n

/-- The digits written are not whitespace. -/
theorem isWhitespace_digitChar : ∀ n < 16, isWhitespace (Nat.digitChar n) = false := by
  decide

/-- A string written by the encoder is not trimmed. -/
theorem HexCodec.trim_encode {hexEncode : Bytes → String}
    {hexDecode : String → Except String Bytes} (hhex : HexCodec hexEncode hexDecode)
    (bytes : Bytes) : trim (hexEncode bytes) = hexEncode bytes := by
  refine trim_eq_self ?_
  intro c hc
  obtain ⟨n, hn, rfl⟩ := hhex.encode_digits bytes c hc
  exact isWhitespace_digitChar n hn

namespace Hex

/-- The two digits of a byte. -/
def digits (b : UInt8) : List Char := [Nat.digitChar (b.toNat / 16), Nat.digitChar (b.toNat % 16)]

/-- `hex::encode`. -/
def encode (bytes : Bytes) : String := String.ofList (bytes.flatMap digits)

/-- The value of a digit. -/
def digit (c : UInt8) : Option UInt8 :=
  if 48 ≤ c ∧ c ≤ 57 then some (c - 48)
  else if 65 ≤ c ∧ c ≤ 70 then some (c - 55)
  else if 97 ≤ c ∧ c ≤ 102 then some (c - 87)
  else none

/-- A byte as the character of its value, as `{:?}` writes it. -/
def debugChar (c : UInt8) : String :=
  let escaped :=
    match c.toNat with
    | 0 => "\\0"
    | 9 => "\\t"
    | 10 => "\\n"
    | 13 => "\\r"
    | 39 => "\\'"
    | 92 => "\\\\"
    | n =>
      -- Controls, the non-breaking space and the soft hyphen are not printed.
      if n < 32 ∨ 127 ≤ n ∧ n ≤ 160 ∨ n = 173 then
        "\\u\x7b" ++ String.ofList (Nat.toDigits 16 n) ++ "\x7d"
      else
        String.singleton (Char.ofNat n)
  "'" ++ escaped ++ "'"

/-- The byte of a digit at a position of the string, or the text of the error. -/
def val (c : UInt8) (position : ℕ) : Except String UInt8 :=
  match digit c with
  | some v => .ok v
  | none => .error s!"Invalid character {debugChar c} at position {position}"

/-- The bytes of an even number of digits, from a position of the string on. -/
def pairs : List UInt8 → ℕ → Except String Bytes
  | high :: low :: digits, position => do
    let high ← val high position
    let low ← val low (position + 1)
    let bytes ← pairs digits (position + 2)
    return (high * 16 + low) :: bytes
  | _, _ => .ok []

/-- `hex::decode`. -/
def decode (s : String) : Except String Bytes :=
  let digits := s.toUTF8.toList
  if digits.length % 2 = 1 then
    .error "Odd number of digits"
  else
    pairs digits 0

example : decode "00fFa7" = .ok [0x00, 0xff, 0xa7] := by decide +kernel

example : decode "0\n" = .error "Invalid character '\\n' at position 1" := by decide +kernel

/-! ## Round trip -/

/-- The digits written are single bytes of UTF-8, read back as their values. -/
theorem digitChar_spec : ∀ n < 16,
    String.utf8EncodeChar (Nat.digitChar n) = [UInt8.ofNat (Nat.digitChar n).toNat] ∧
      digit (UInt8.ofNat (Nat.digitChar n).toNat) = some (UInt8.ofNat n) := by
  decide

theorem val_digitChar {n : ℕ} (hn : n < 16) (position : ℕ) :
    val (UInt8.ofNat (Nat.digitChar n).toNat) position = .ok (UInt8.ofNat n) := by
  rw [val, (digitChar_spec n hn).2]

/-- The bytes of the two digits of a byte. -/
theorem utf8_digits (b : UInt8) : (digits b).flatMap String.utf8EncodeChar =
    [UInt8.ofNat (Nat.digitChar (b.toNat / 16)).toNat,
      UInt8.ofNat (Nat.digitChar (b.toNat % 16)).toNat] := by
  have hhigh : b.toNat / 16 < 16 := Nat.div_lt_of_lt_mul b.toNat_lt
  have hlow : b.toNat % 16 < 16 := Nat.mod_lt _ (by decide)
  rw [digits, List.flatMap_cons, List.flatMap_singleton, (digitChar_spec _ hhigh).1,
    (digitChar_spec _ hlow).1]
  rfl

/-- The digits of bytes are read back as these. -/
theorem pairs_digits (bytes : Bytes) (position : ℕ) :
    pairs (bytes.flatMap fun b => (digits b).flatMap String.utf8EncodeChar) position =
      .ok bytes := by
  induction bytes generalizing position with
  | nil => rfl
  | cons b bytes ih =>
    have hhigh : b.toNat / 16 < 16 := Nat.div_lt_of_lt_mul b.toNat_lt
    have hlow : b.toNat % 16 < 16 := Nat.mod_lt _ (by decide)
    have hbyte : UInt8.ofNat (b.toNat / 16) * 16 + UInt8.ofNat (b.toNat % 16) = b := by
      rw [← UInt8.toNat_inj, UInt8.toNat_add, UInt8.toNat_mul,
        UInt8.toNat_ofNat_of_lt' (Nat.lt_trans hhigh (by decide)),
        UInt8.toNat_ofNat_of_lt' (Nat.lt_trans hlow (by decide))]
      have hlt := b.toNat_lt
      simp only [UInt8.reduceToNat]
      omega
    rw [List.flatMap_cons, utf8_digits, List.cons_append, List.singleton_append, pairs,
      val_digitChar hhigh, val_digitChar hlow, ih]
    exact congrArg (fun byte => Except.ok (byte :: bytes)) hbyte

/-- The loop listing the bytes of an array, from an index on. -/
theorem toList_loop (bytes : ByteArray) (i : ℕ) (r : List UInt8) :
    ByteArray.toList.loop bytes i r = r.reverse ++ bytes.data.toList.drop i := by
  fun_induction ByteArray.toList.loop bytes i r with
  | case1 i r hlt ih =>
    have hget : bytes.get! i = bytes.data[i] := getElem!_pos bytes.data i hlt
    rw [ih, hget, List.reverse_cons, List.append_assoc, List.singleton_append,
      ← Array.getElem_toList, List.getElem_cons_drop]
  | case2 i r hlt => rw [List.drop_eq_nil_of_le (Nat.not_lt.1 hlt), List.append_nil]

/-- The list of the bytes of a string. -/
theorem toList_toUTF8_ofList (cs : List Char) :
    (String.ofList cs).toUTF8.toList = cs.flatMap String.utf8EncodeChar := by
  rw [ByteArray.toList, toList_loop]
  exact List.toList_data_toByteArray

/-- The encoder and the decoder above are a codec. -/
theorem hexCodec : HexCodec encode decode where
  decode_encode bytes := by
    have hutf8 : (encode bytes).toUTF8.toList =
        bytes.flatMap fun b => (digits b).flatMap String.utf8EncodeChar := by
      rw [encode, toList_toUTF8_ofList, List.flatMap_assoc]
    have heven : (bytes.flatMap fun b => (digits b).flatMap String.utf8EncodeChar).length % 2 =
        0 := by
      have hlen (b : UInt8) : ((digits b).flatMap String.utf8EncodeChar).length = 2 := by
        rw [utf8_digits]
        rfl
      rw [List.length_flatMap]
      simp only [hlen, List.map_const', List.sum_replicate_nat, Nat.mul_mod_left]
    rw [decode, hutf8]
    simp only [heven]
    exact pairs_digits bytes 0
  encode_digits bytes c hc := by
    rw [encode, String.toList_ofList, List.mem_flatMap] at hc
    obtain ⟨b, -, hc⟩ := hc
    rw [digits, List.mem_cons, List.mem_singleton] at hc
    rcases hc with rfl | rfl
    · exact ⟨_, Nat.div_lt_of_lt_mul b.toNat_lt, rfl⟩
    · exact ⟨_, Nat.mod_lt _ (by decide), rfl⟩

/-! ## Digits of either case -/

/-- The value of a character as a digit. -/
def value (c : Char) : Option ℕ :=
  if 48 ≤ c.toNat ∧ c.toNat ≤ 57 then some (c.toNat - 48)
  else if 65 ≤ c.toNat ∧ c.toNat ≤ 70 then some (c.toNat - 55)
  else if 97 ≤ c.toNat ∧ c.toNat ≤ 102 then some (c.toNat - 87)
  else none

/-- The values of the two digits of a byte. -/
def nibbles (b : UInt8) : List ℕ := [b.toNat / 16, b.toNat % 16]

theorem nibbles_lt {b : UInt8} {n : ℕ} (hn : n ∈ nibbles b) : n < 16 := by
  rw [nibbles, List.mem_cons, List.mem_singleton] at hn
  rcases hn with rfl | rfl
  · exact Nat.div_lt_of_lt_mul b.toNat_lt
  · exact Nat.mod_lt _ (by decide)

/-- Two values are those of one byte. -/
theorem nibbles_ofNat {high low : ℕ} (hhigh : high < 16) (hlow : low < 16) :
    nibbles (UInt8.ofNat (high * 16 + low)) = [high, low] := by
  rw [nibbles, UInt8.toNat_ofNat_of_lt' (show high * 16 + low < 256 by omega)]
  congr 1
  · omega
  · congr 1
    omega

theorem length_flatMap_nibbles (bytes : Bytes) :
    (bytes.flatMap nibbles).length = 2 * bytes.length := by
  rw [List.length_flatMap]
  simp only [nibbles, List.length_cons, List.length_nil, List.map_const', List.sum_replicate_nat]
  omega

/-- An even number of values are those of some bytes. -/
theorem exists_nibbles {ns : List ℕ} (hns : ∀ n ∈ ns, n < 16) {m : ℕ}
    (hlen : ns.length = 2 * m) :
    ∃ bytes : Bytes, bytes.flatMap nibbles = ns ∧ bytes.length = m := by
  induction m generalizing ns with
  | zero => exact ⟨[], (List.length_eq_zero_iff.1 hlen).symm, rfl⟩
  | succ m ih =>
    match ns with
    | [] => cases hlen
    | [_] => simp at hlen; omega
    | high :: low :: ns =>
      have hhigh := hns high List.mem_cons_self
      have hlow := hns low (List.mem_cons_of_mem _ List.mem_cons_self)
      obtain ⟨bytes, rfl, hbytes⟩ := ih
        (fun n hn => hns n (List.mem_cons_of_mem _ (List.mem_cons_of_mem _ hn)))
        (by simp only [List.length_cons] at hlen; omega)
      refine ⟨UInt8.ofNat (high * 16 + low) :: bytes, ?_, by rw [List.length_cons, hbytes]⟩
      rw [List.flatMap_cons, nibbles_ofNat hhigh hlow]
      rfl

theorem value_digitChar : ∀ n < 16, value (Nat.digitChar n) = some n := by
  decide

/-- The digits are characters of ASCII. -/
theorem toNat_lt_of_value {c : Char} {n : ℕ} (hc : value c = some n) : c.toNat < 128 := by
  by_contra hge
  rw [value, if_neg (by omega), if_neg (by omega), if_neg (by omega)] at hc
  cases hc

/-- A digit is written in lower case from its value. -/
theorem digitChar_of_value {c : Char} {n : ℕ} (hc : value c = some n) :
    n < 16 ∧ Nat.digitChar n = c.toLower := by
  have htable : ∀ m < 128, ∀ v ∈ value (Char.ofNat m),
      v < 16 ∧ Nat.digitChar v = (Char.ofNat m).toLower := by
    decide
  have hofNat := htable c.toNat (toNat_lt_of_value hc) n
  rw [Char.ofNat_toNat] at hofNat
  exact hofNat hc

/-- Every character of a string of digits has a value. -/
theorem exists_value {cs : List Char} {ns : List ℕ} (hvalues : cs.map value = ns.map some)
    {c : Char} (hc : c ∈ cs) : ∃ n, value c = some n := by
  have hmem : value c ∈ cs.map value := List.mem_map_of_mem hc
  rw [hvalues] at hmem
  obtain ⟨n, -, hn⟩ := List.mem_map.1 hmem
  exact ⟨n, hn.symm⟩

end Hex

/-- What the crate reads and writes: a byte is written as two lower-case digits, and
    exactly the strings of two digits of either case for each byte are read. -/
structure HexCrate (hexEncode : Bytes → String) (hexDecode : String → Except String Bytes) :
    Prop where
  encode_eq : ∀ bytes, hexEncode bytes = String.ofList (bytes.flatMap Hex.digits)
  decode_iff : ∀ s bytes, hexDecode s = .ok bytes ↔
    s.toList.map Hex.value = (bytes.flatMap Hex.nibbles).map some

section Crate

variable {hexEncode : Bytes → String} {hexDecode : String → Except String Bytes}

theorem HexCrate.toList_encode (hhex : HexCrate hexEncode hexDecode) (bytes : Bytes) :
    (hexEncode bytes).toList = (bytes.flatMap Hex.nibbles).map Nat.digitChar := by
  rw [hhex.encode_eq, String.toList_ofList, List.map_flatMap]
  rfl

/-- The crate reads what it writes. -/
theorem HexCrate.codec (hhex : HexCrate hexEncode hexDecode) : HexCodec hexEncode hexDecode where
  decode_encode bytes := by
    rw [hhex.decode_iff, hhex.toList_encode, List.map_map]
    refine List.map_congr_left fun n hn => ?_
    obtain ⟨b, -, hb⟩ := List.mem_flatMap.1 hn
    exact Hex.value_digitChar n (Hex.nibbles_lt hb)
  encode_digits bytes c hc := by
    rw [hhex.toList_encode] at hc
    obtain ⟨n, hn, rfl⟩ := List.mem_map.1 hc
    obtain ⟨b, -, hb⟩ := List.mem_flatMap.1 hn
    exact ⟨n, Hex.nibbles_lt hb, rfl⟩

/-- The crate reads exactly the strings of two digits for each byte. -/
theorem HexCrate.exists_decode_iff (hhex : HexCrate hexEncode hexDecode) {s : String} {m : ℕ} :
    (∃ bytes, hexDecode s = .ok bytes ∧ bytes.length = m) ↔
      s.length = 2 * m ∧ ∀ c ∈ s.toList, (Hex.value c).isSome := by
  simp only [hhex.decode_iff, ← String.length_toList]
  constructor
  · rintro ⟨bytes, hvalues, rfl⟩
    constructor
    · have hlen := congrArg List.length hvalues
      rwa [List.length_map, List.length_map, Hex.length_flatMap_nibbles] at hlen
    · intro c hc
      exact Option.isSome_iff_exists.2 (Hex.exists_value hvalues hc)
  · rintro ⟨hlen, hdigits⟩
    have hvalues : s.toList.map Hex.value =
        (s.toList.map fun c => (Hex.value c).getD 0).map some := by
      rw [List.map_map]
      refine List.map_congr_left fun c hc => ?_
      obtain ⟨n, hn⟩ := Option.isSome_iff_exists.1 (hdigits c hc)
      rw [Function.comp_apply, hn]
      rfl
    have hlt : ∀ n ∈ s.toList.map fun c => (Hex.value c).getD 0, n < 16 := by
      intro n hn
      obtain ⟨c, hc, rfl⟩ := List.mem_map.1 hn
      obtain ⟨n, hn⟩ := Option.isSome_iff_exists.1 (hdigits c hc)
      rw [hn]
      exact (Hex.digitChar_of_value hn).1
    obtain ⟨bytes, hbytes, hm⟩ := Hex.exists_nibbles hlt ((List.length_map _).trans hlen)
    exact ⟨bytes, by rw [hvalues, hbytes], hm⟩

/-- What the crate reads, it writes in lower case. -/
theorem HexCrate.encode_of_decode (hhex : HexCrate hexEncode hexDecode) {s : String}
    {bytes : Bytes} (hdecode : hexDecode s = .ok bytes) : hexEncode bytes = s.toLower := by
  have hvalues := (hhex.decode_iff s bytes).1 hdecode
  have hdigits := congrArg (List.map fun v => Nat.digitChar (v.getD 0)) hvalues
  have hlower : s.toLower = s.map Char.toLower := rfl
  rw [List.map_map, List.map_map] at hdigits
  rw [← String.toList_inj, hhex.toList_encode, hlower, String.toList_map]
  refine hdigits.symm.trans (List.map_congr_left fun c hc => ?_)
  obtain ⟨n, hn⟩ := Hex.exists_value hvalues hc
  rw [Function.comp_apply, hn]
  exact (Hex.digitChar_of_value hn).2

end Crate

namespace Hex

/-! ## The digits of a string -/

/-- The value of a byte of the string as a digit. -/
theorem digit_toNat_lt {c v : UInt8} (hc : digit c = some v) : v.toNat < 16 := by
  have htable : ∀ m < 256, ∀ v ∈ digit (UInt8.ofNat m), v.toNat < 16 := by decide +kernel
  have hofNat := htable c.toNat c.toNat_lt v
  rw [UInt8.ofNat_toNat] at hofNat
  exact hofNat hc

theorem nibbles_eq_iff {b high low : UInt8} (hhigh : high.toNat < 16) (hlow : low.toNat < 16) :
    [high.toNat, low.toNat] = nibbles b ↔ high * 16 + low = b := by
  rw [nibbles, List.cons.injEq, List.cons.injEq, ← UInt8.toNat_inj, UInt8.toNat_add,
    UInt8.toNat_mul]
  simp only [UInt8.reduceToNat, and_true]
  omega

theorem pairs_cons_eq_ok_iff {high low : UInt8} {ds : List UInt8} {position : ℕ}
    {bytes : Bytes} : pairs (high :: low :: ds) position = .ok bytes ↔ ∃ h l rest,
      digit high = some h ∧ digit low = some l ∧ pairs ds (position + 2) = .ok rest ∧
      (h * 16 + l) :: rest = bytes := by
  rw [pairs, val, val]
  cases digit high with
  | none => simp [Bind.bind, Except.bind]
  | some h =>
    cases digit low with
    | none => simp [Bind.bind, Except.bind]
    | some l =>
      cases pairs ds (position + 2) <;> simp [Bind.bind, Except.bind, pure, Except.pure]

/-- Pairs of digits are read as the bytes of their values. -/
theorem pairs_eq_ok_iff {ds : List UInt8} {position : ℕ} {bytes : Bytes}
    (heven : ds.length % 2 = 0) : pairs ds position = .ok bytes ↔
      ds.map (fun d => (digit d).map UInt8.toNat) = (bytes.flatMap nibbles).map some := by
  fun_induction pairs ds position generalizing bytes with
  | case1 high low ds position ih =>
    have hrest : ds.length % 2 = 0 := by
      rw [List.length_cons, List.length_cons] at heven
      omega
    rw [← pairs, pairs_cons_eq_ok_iff]
    constructor
    · rintro ⟨h, l, rest, hhigh, hlow, hpairs, rfl⟩
      rw [List.map_cons, List.map_cons, hhigh, hlow, (ih hrest).1 hpairs, List.flatMap_cons,
        ← (nibbles_eq_iff (digit_toNat_lt hhigh) (digit_toNat_lt hlow)).2 rfl]
      rfl
    · intro heq
      match bytes with
      | [] => cases heq
      | b :: bytes =>
        obtain ⟨hhigh, htail⟩ := List.cons.inj heq
        obtain ⟨hlow, hds⟩ := List.cons.inj htail
        obtain ⟨h, hhigh, hh⟩ := Option.map_eq_some_iff.1 hhigh
        obtain ⟨l, hlow, hl⟩ := Option.map_eq_some_iff.1 hlow
        have hbyte : [h.toNat, l.toNat] = nibbles b := by
          rw [hh, hl]
          rfl
        refine ⟨h, l, bytes, hhigh, hlow, (ih hrest).2 hds, ?_⟩
        rw [(nibbles_eq_iff (digit_toNat_lt hhigh) (digit_toNat_lt hlow)).1 hbyte]
  | case2 ds position hshort =>
    match ds with
    | [] =>
      rw [Except.ok.injEq]
      cases bytes <;> simp [nibbles]
    | [_] => cases heven
    | high :: low :: ds => exact absurd rfl (hshort high low ds)

/-- A character is encoded by one byte, of the same value, if it is a digit; and starts
    with a byte that is no digit if it is none. -/
theorem map_digit_utf8EncodeChar (c : Char) :
    (∃ n, value c = some n ∧
      (String.utf8EncodeChar c).map (fun d => (digit d).map UInt8.toNat) = [some n]) ∨
    value c = none ∧ ∃ rest,
      (String.utf8EncodeChar c).map (fun d => (digit d).map UInt8.toNat) = none :: rest := by
  rcases Nat.lt_or_ge c.toNat 128 with hascii | hbeyond
  · have htable : ∀ m < 128, String.utf8EncodeChar (Char.ofNat m) = [UInt8.ofNat m] ∧
        (digit (UInt8.ofNat m)).map UInt8.toNat = value (Char.ofNat m) := by
      decide +kernel
    obtain ⟨hencode, hvalue⟩ := htable c.toNat hascii
    rw [Char.ofNat_toNat] at hencode hvalue
    rw [hencode, List.map_singleton, hvalue]
    cases value c with
    | none => exact .inr ⟨rfl, [], rfl⟩
    | some n => exact .inl ⟨n, rfl, rfl⟩
  · -- The first byte of a longer encoding is at least `0xc0`.
    have hlead : ∀ m < 256, 192 ≤ m → digit (UInt8.ofNat m) = none := by decide +kernel
    have hvalue : value c = none := by
      rw [value, if_neg (by omega), if_neg (by omega), if_neg (by omega)]
    refine .inr ⟨hvalue, ?_⟩
    have hval : ¬c.val.toNat ≤ 127 := by
      change ¬c.toNat ≤ 127
      omega
    simp only [String.utf8EncodeChar, if_neg hval]
    split
    · exact ⟨_, by rw [List.map_cons, hlead _ (by omega) (by omega)]; rfl⟩
    · split
      · exact ⟨_, by rw [List.map_cons, hlead _ (by omega) (by omega)]; rfl⟩
      · exact ⟨_, by rw [List.map_cons, hlead _ (by omega) (by omega)]; rfl⟩

/-- The bytes of a string are digits exactly when its characters are. -/
theorem map_digit_utf8 {cs : List Char} {ns : List ℕ} :
    (cs.flatMap String.utf8EncodeChar).map (fun d => (digit d).map UInt8.toNat) = ns.map some ↔
      cs.map value = ns.map some := by
  induction cs generalizing ns with
  | nil => rfl
  | cons c cs ih =>
    rw [List.flatMap_cons, List.map_append, List.map_cons]
    rcases map_digit_utf8EncodeChar c with ⟨n, hvalue, hencode⟩ | ⟨hvalue, rest, hencode⟩
    · rw [hencode, hvalue]
      cases ns with
      | nil => simp
      | cons m ns =>
        rw [List.map_cons, List.singleton_append, List.cons.injEq, List.cons.injEq, ih]
    · rw [hencode, hvalue]
      cases ns <;> simp

/-- The encoder and the decoder above write and read what the crate does. -/
theorem hexCrate : HexCrate encode decode where
  encode_eq _ := rfl
  decode_iff s bytes := by
    have hutf8 : s.toUTF8.toList = s.toList.flatMap String.utf8EncodeChar := by
      rw [← toList_toUTF8_ofList, String.ofList_toList]
    rw [← map_digit_utf8, ← hutf8, decode]
    split
    · next hodd =>
      -- The values of the digits of bytes are even in number.
      refine iff_of_false (by simp) fun heq => ?_
      have hlen := congrArg List.length heq
      rw [List.length_map, List.length_map, length_flatMap_nibbles] at hlen
      omega
    · next heven => exact pairs_eq_ok_iff (by omega)

end Hex

end Vaa
