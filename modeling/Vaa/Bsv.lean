import Vaa.Sha256

/-!
# The hash of the block chain

The crate `vaa-bsv`: the one hash of the system is double SHA-256. The crate
`sha2` it computes SHA-256 with is a parameter `sha256` of the development;
`Sha256.digest` is a concrete one.
-/

namespace Vaa

/-- Byte strings. -/
abbrev Bytes := List UInt8

/-- A 32-byte hash, in internal byte order. -/
abbrev Hash := Vector UInt8 32

namespace Bsv

/-- `hash::double_sha256`. -/
def doubleSha256 (sha256 : Bytes → Hash) (input : Bytes) : Hash :=
  let first := sha256 input
  let second := sha256 first.toList
  second

/-- Two different byte strings, one in each list, have the same double SHA-256. -/
def Collides (sha256 : Bytes → Hash) (as bs : List Bytes) : Prop :=
  ∃ a ∈ as, ∃ b ∈ bs, a ≠ b ∧ doubleSha256 sha256 a = doubleSha256 sha256 b

instance (sha256 : Bytes → Hash) (as bs : List Bytes) : Decidable (Collides sha256 as bs) :=
  inferInstanceAs
    (Decidable (∃ a ∈ as, ∃ b ∈ bs, a ≠ b ∧ doubleSha256 sha256 a = doubleSha256 sha256 b))

theorem Collides.mono {sha256 : Bytes → Hash} {as bs as' bs' : List Bytes}
    (hc : Collides sha256 as bs) (ha : as ⊆ as') (hb : bs ⊆ bs') : Collides sha256 as' bs' := by
  obtain ⟨a, hmem, b, hmem', hab⟩ := hc
  exact ⟨a, ha hmem, b, hb hmem', hab⟩

/-- The double SHA-256 of the empty string. -/
example : doubleSha256 Sha256.digest [] =
    #v[0x5d, 0xf6, 0xe0, 0xe2, 0x76, 0x13, 0x59, 0xd3, 0x0a, 0x82, 0x75, 0x05, 0x8e, 0x29, 0x9f,
       0xcc, 0x03, 0x81, 0x53, 0x45, 0x45, 0xf5, 0x5c, 0xf4, 0x3e, 0x41, 0x98, 0x3f, 0x5d, 0x4c,
       0x94, 0x56] := by
  decide +kernel

end Bsv

end Vaa
