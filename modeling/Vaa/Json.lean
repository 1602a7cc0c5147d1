import Vaa.Rust

/-!
# JSON values

The values of the crate `serde_json`, with the accesses of `vaa reproduce`: a field that
is missing, or of a value that is no object, is read as `null`, and a number is read as a
word only if it is written as a natural number of 64 bits.
-/

namespace Vaa.Json

/-- `serde_json::Number`; a float is given by its bits. -/
inductive Number
  | posInt (n : UInt64)
  | negInt (n : Int64)
  | float (bits : UInt64)
  deriving DecidableEq

/-- `serde_json::Value`; an object is the list of its entries. -/
inductive Value
  | null
  | bool (b : Bool)
  | number (n : Number)
  | string (s : String)
  | array (items : List Value)
  | object (entries : List (String × Value))

namespace Value

/-- `v[key]`. -/
def get (v : Value) (key : String) : Value :=
  match v with
  | object entries => (entries.lookup key).getD null
  | _ => null

/-- `Value::as_u64`. -/
def asU64 : Value → Option UInt64
  | number (.posInt n) => some n
  | _ => none

/-- `Value::as_str`. -/
def asStr : Value → Option String
  | string s => some s
  | _ => none

/-- `Value::as_bool`. -/
def asBool : Value → Option Bool
  | bool b => some b
  | _ => none

/-- `Value::as_array`. -/
def asArray : Value → Option (List Value)
  | array items => some items
  | _ => none

/-- The value of a field, if it is a word. -/
def field (v : Value) (key : String) : Option ℕ := (v.get key).asU64.map UInt64.toNat

/-- The number of a word. -/
def ofNat (n : ℕ) : Value := number (.posInt (UInt64.ofNat n))

/-- A number that fits a word is read back. -/
theorem toNat_asU64_ofNat {n : ℕ} (hn : n < 2 ^ 64) :
    (ofNat n).asU64.map UInt64.toNat = some n :=
  congrArg some (UInt64.toNat_ofNat_of_lt' hn)

theorem field_eq_some_iff {v : Value} {key : String} {n : ℕ} :
    v.field key = some n ↔ ∃ w, (v.get key).asU64 = some w ∧ w.toNat = n := Option.map_eq_some_iff

/-- A field fits a word. -/
theorem lt_of_field {v : Value} {key : String} {n : ℕ} (hv : v.field key = some n) :
    n < 2 ^ 64 := by
  obtain ⟨w, -, rfl⟩ := field_eq_some_iff.1 hv
  exact w.toNat_lt

end Value

end Vaa.Json
