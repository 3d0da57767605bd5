/-!
# Text as bytes

* `encode`, `decode?` — UTF-8 in both directions; bytes that no text encodes to are refused.

Principal results: `decode?_eq_some_iff` — decoding accepts exactly what encoding produces;
`mem_encode_iff` — a byte below 128 is the character of this number and no part of another one.
-/

set_option autoImplicit false

namespace ExprLang.Utf8

def encode (s : String) : List UInt8 := s.toUTF8.data.toList

def decode? (bytes : List UInt8) : Option String := String.fromUTF8? ⟨bytes.toArray⟩

/-! ## Laws -/

theorem decode?_encode (s : String) : decode? (encode s) = some s := by
  simp only [decode?, encode, String.toUTF8_eq_toByteArray, String.fromUTF8?, Array.toArray_toList,
    dif_pos s.isValidUTF8]
  rfl

theorem decode?_eq_some_iff {bytes : List UInt8} {s : String} :
    decode? bytes = some s ↔ bytes = encode s := by
  refine ⟨fun h => ?_, fun h => h ▸ decode?_encode s⟩
  simp only [decode?, String.fromUTF8?] at h
  split at h
  · cases h
    simp [encode, String.fromUTF8]
  · cases h

theorem encode_append (s t : String) : encode (s ++ t) = encode s ++ encode t := by
  simp [encode]

theorem encode_eq_flatMap (s : String) : encode s = s.toList.flatMap String.utf8EncodeChar := by
  rw [encode, String.toUTF8_eq_toByteArray, ← String.utf8Encode_toList, List.utf8Encode,
    List.data_toByteArray]

/-- A byte below 128 is a character by itself; in longer sequences all bytes are above. -/
theorem mem_utf8EncodeChar_iff {b : UInt8} (hb : b.toNat < 128) {c : Char} :
    b ∈ String.utf8EncodeChar c ↔ c.toNat = b.toNat := by
  have hc : c.val.toNat = c.toNat := rfl
  fun_cases String.utf8EncodeChar with
  | case1 =>
    simp only [List.mem_cons, ← UInt8.toNat_inj, UInt8.toNat_ofNat', Nat.reducePow,
      List.not_mem_nil, or_false]
    omega
  | _ =>
    simp only [UInt8.ofNat_add, UInt8.reduceOfNat, List.mem_cons, ← UInt8.toNat_inj,
      UInt8.toNat_add, UInt8.toNat_ofNat', Nat.reducePow, UInt8.reduceToNat, Nat.mod_add_mod,
      List.not_mem_nil, or_false]
    omega

theorem mem_encode_iff {b : UInt8} (hb : b.toNat < 128) {s : String} :
    b ∈ encode s ↔ ∃ c ∈ s.toList, c.toNat = b.toNat := by
  simp only [encode_eq_flatMap, List.mem_flatMap, mem_utf8EncodeChar_iff hb]

end ExprLang.Utf8
