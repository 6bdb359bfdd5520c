import YulongHids.Golang.Md5
import YulongHids.Golang.Net
import YulongHids.Mongo.Collection

/-!
# Object ids as text

`ObjectId.Hex` writes an id with `hexEncode`; `bson.ObjectIdHex` reads it back.
-/

namespace YulongHids.Mongo

open Golang

/-- `hex.DecodeString`, `none` for an error. -/
def hexDecode : GoString → Option (List UInt8)
  | [] => some []
  | [_] => none
  | a :: b :: s => do
    let high ← hexValue a
    let low ← hexValue b
    let rest ← hexDecode s
    return (16 * high + low).toUInt8 :: rest

/-- `bson.ObjectIdHex`, `none` for the panic at a text that is not an id. -/
def objectIdHex (s : GoString) : Option ObjectId :=
  (hexDecode s).bind fun d => if d.length = 12 then some d else none

theorem hexValue_hexDigit : ∀ n < 16, hexValue (hexDigit n) = some n := by decide

theorem hexDecode_hexEncode (s : List UInt8) : hexDecode (hexEncode s) = some s := by
  induction s with
  | nil => rfl
  | cons b s ih =>
    have hb := b.toNat_lt
    have hbyte : (16 * (b.toNat / 16) + b.toNat % 16).toUInt8 = b := by
      rw [Nat.div_add_mod]
      exact UInt8.ofNat_toNat
    have ih' : hexDecode (s.flatMap fun b => [hexDigit (b.toNat / 16), hexDigit (b.toNat % 16)])
        = some s := ih
    simp only [hexEncode, List.flatMap_cons, List.cons_append, List.nil_append, hexDecode,
      hexValue_hexDigit _ (show b.toNat / 16 < 16 by omega),
      hexValue_hexDigit _ (show b.toNat % 16 < 16 by omega), ih', Option.bind_eq_bind,
      Option.bind_some, hbyte]
    rfl

/-- The only id that a written id reads as is itself. -/
theorem objectIdHex_hexEncode {s id : ObjectId} (h : objectIdHex (hexEncode s) = some id) :
    id = s := by
  rw [objectIdHex, hexDecode_hexEncode, Option.bind_some, Option.ite_none_right_eq_some] at h
  exact (Option.some.inj h.2).symm

theorem hexEncode_ne {s : ObjectId} {t : GoString} (ht : hexDecode t = none) : hexEncode s ≠ t := by
  rintro rfl
  rw [hexDecode_hexEncode] at ht
  cases ht

end YulongHids.Mongo
