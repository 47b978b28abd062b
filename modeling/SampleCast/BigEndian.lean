/-! Big-endian words.
`encode w n` is the `w`-byte image of `n`, most significant byte first, and drops what lies above
`256 ^ w`. On words that fit, `decode` and `encode` undo each other. -/

namespace SampleCast.BigEndian

def encode : Nat → Nat → List UInt8
  | 0, _ => []
  | w + 1, n => encode w (n / 256) ++ [UInt8.ofNat n]

def decode (bytes : List UInt8) : Nat :=
  bytes.foldl (fun n b => n * 256 + b.toNat) 0

@[simp] theorem length_encode (w n : Nat) : (encode w n).length = w := by
  induction w generalizing n with
  | zero => rfl
  | succ w ih => simp [encode, ih]

@[simp] theorem decode_nil : decode [] = 0 := rfl

@[simp] theorem decode_concat (bytes : List UInt8) (b : UInt8) :
    decode (bytes ++ [b]) = decode bytes * 256 + b.toNat := by
  simp [decode]

theorem decode_encode (w n : Nat) : decode (encode w n) = n % Nat.pow 256 w := by
  induction w generalizing n with
  | zero => exact (Nat.mod_one n).symm
  | succ w ih =>
    have hb : (UInt8.ofNat n).toNat = n % 256 := UInt8.toNat_ofNat'
    have hp : Nat.pow 256 (w + 1) = 256 * Nat.pow 256 w := Nat.mul_comm _ _
    rw [encode, decode_concat, ih, hb, hp, Nat.mod_mul]
    omega

theorem decode_encode_of_lt {w n : Nat} (h : n < Nat.pow 256 w) : decode (encode w n) = n := by
  rw [decode_encode, Nat.mod_eq_of_lt h]

theorem encode_decode (bytes : List UInt8) : encode bytes.length (decode bytes) = bytes := by
  induction hn : bytes.length generalizing bytes with
  | zero => simp [List.length_eq_zero_iff.mp hn, encode]
  | succ n ih =>
    obtain ⟨front, b, rfl⟩ := (List.eq_nil_or_concat bytes).resolve_left (by
      rintro rfl; simp at hn)
    have hfront : front.length = n := by simpa using hn
    have hb := UInt8.toNat_lt b
    have hdiv : (decode front * 256 + b.toNat) / 256 = decode front := by omega
    have hlow : UInt8.ofNat (decode front * 256 + b.toNat) = b := by
      apply UInt8.toNat_inj.mp
      rw [UInt8.toNat_ofNat']
      omega
    rw [List.concat_eq_append, decode_concat, encode, hdiv, hlow, ih front hfront]

theorem encode_decode_of_length {w : Nat} {bytes : List UInt8} (h : bytes.length = w) :
    encode w (decode bytes) = bytes := by
  rw [← h, encode_decode]

theorem decode_lt (bytes : List UInt8) : decode bytes < Nat.pow 256 bytes.length := by
  rw [← encode_decode bytes, decode_encode, length_encode]
  exact Nat.mod_lt _ (Nat.pow_pos (by decide))

end SampleCast.BigEndian
