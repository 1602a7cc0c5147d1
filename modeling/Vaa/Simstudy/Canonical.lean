import Vaa.Json.Write
import Vaa.Simstudy.RollForward

/-!
# The bytes of a record

A leaf of the study is the hash of a record in JSON. The JSON of `serde_json` is a
parameter `toVec` of the study, which relies on different records having different bytes;
`AccountingRecord.canonicalBytes` are the concrete ones (`canonicalBytes_injective`).
-/

namespace Vaa.Simstudy

open Codes

/-- The variant of `RecordKind` as it is serialised. -/
def RecordKind.name : RecordKind → String
  | invoice => "Invoice"
  | receipt => "Receipt"
  | creditNote => "CreditNote"
  | writeOff => "WriteOff"

/-- `AccountingRecord::canonical_bytes`. -/
def AccountingRecord.canonicalBytes (r : AccountingRecord) : Bytes :=
  Json.object [("id", Json.number r.id.toNat), ("kind", Json.string r.kind.name),
    ("value", Json.number r.value.toNat), ("counterparty", Json.string r.counterparty),
    ("date", Json.string r.date)]

theorem name_injective : Function.Injective RecordKind.name := by
  intro kind kind' heq
  cases kind <;> cases kind' <;> first | rfl | exact absurd heq (by decide)

/-- The fields written, in their order. -/
def AccountingRecord.fields (r : AccountingRecord) : ℕ × String × ℕ × String × String :=
  (r.id.toNat, r.kind.name, r.value.toNat, r.counterparty, r.date)

theorem fields_injective : Function.Injective AccountingRecord.fields := by
  rintro ⟨id, kind, value, counterparty, date⟩ ⟨id', kind', value', counterparty', date'⟩ heq
  simp only [AccountingRecord.fields, Prod.mk.injEq, UInt32.toNat_inj, UInt64.toNat_inj] at heq
  obtain ⟨rfl, hkind, rfl, rfl, rfl⟩ := heq
  rw [name_injective hkind]

/-- The name of a field after the one before it, with the colon. -/
def fieldName (name : String) : Bytes := Json.string name ++ [0x3a]

/-- The bytes of a record are its fields, each after its name. -/
theorem canonicalBytes_eq (r : AccountingRecord) : r.canonicalBytes =
    ([0x7b] ++ fieldName "id" ++ ((Json.number r.fields.1 ++ [0x2c]) ++
      (fieldName "kind" ++ Json.string r.fields.2.1 ++
        ([0x2c] ++ fieldName "value" ++ (Json.number r.fields.2.2.1 ++ [0x2c]) ++
          (fieldName "counterparty" ++ Json.string r.fields.2.2.2.1 ++
            ([0x2c] ++ fieldName "date" ++ Json.string r.fields.2.2.2.2)))))) ++ [0x7d] := by
  simp [AccountingRecord.canonicalBytes, AccountingRecord.fields, Json.object, fieldName,
    List.intercalate]

/-- The bytes of a record determine it. -/
theorem canonicalBytes_injective : Function.Injective AccountingRecord.canonicalBytes := by
  have hnumber : SelfDelimiting fun n => Json.number n ++ [0x2c] :=
    Json.selfDelimiting_number (by decide)
  have hstring := Json.selfDelimiting_string
  have hcode := (hnumber.append ((hstring.prepend (fieldName "kind")).append
    ((hnumber.prepend ([0x2c] ++ fieldName "value")).append
      ((hstring.prepend (fieldName "counterparty")).append
        (hstring.prepend ([0x2c] ++ fieldName "date")))))).prepend ([0x7b] ++ fieldName "id")
  intro r s heq
  rw [canonicalBytes_eq, canonicalBytes_eq] at heq
  exact fields_injective (hcode heq).1

end Vaa.Simstudy
