import Mathlib.Algebra.Order.Ring.Nat
import Mathlib.Tactic.Ring

/-!
# Numbers on the wire

The two integer encodings of the proto3 wire format, on lists of bytes: little-endian numbers of
a fixed width (`toLE`, `ofLE`) and base-128 varints (`encodeVarint`, `decodeVarint`).

A varint holds seven bits in each byte, the lowest first, and the high bit of every byte but the
last is set. The writer is canonical (the shortest form); the reader takes over-long forms up to
a number of bytes its caller gives, and truncating the value is left to the caller too.
-/

/-- A byte string, `std::string` of the C++ sources. -/
abbrev Bytes := List UInt8

namespace Wire

/-! ## Fixed width -/

/-- The `width` low bytes of `n`, the lowest first. -/
def toLE : Nat → Nat → Bytes
  | 0, _ => []
  | width + 1, n => UInt8.ofNat n :: toLE width (n / 256)

/-- The number whose bytes are given, the lowest first. -/
def ofLE : Bytes → Nat
  | [] => 0
  | b :: bs => b.toNat + 256 * ofLE bs

@[simp] theorem toLE_length (width n : Nat) : (toLE width n).length = width := by
  induction width generalizing n with
  | zero => rfl
  | succ width ih => rw [toLE, List.length_cons, ih]

/-- Reading back what was written, for a number that fits. Induction on the width. -/
theorem ofLE_toLE (width : Nat) {n : Nat} (h : n < 256 ^ width) : ofLE (toLE width n) = n := by
  induction width generalizing n with
  | zero =>
    have hn : n = 0 := by simpa using h
    rw [hn, toLE, ofLE]
  | succ width ih =>
    have hdiv : n / 256 < 256 ^ width := by
      rw [Nat.div_lt_iff_lt_mul (by decide)]
      simpa [Nat.pow_succ] using h
    rw [toLE, ofLE, ih hdiv, UInt8.toNat_ofNat']
    omega

/-! ## Varints -/

/-- The varint of `n`, at most `fuel` bytes of it. -/
def encodeVarintAux : Nat → Nat → Bytes
  | 0, _ => []
  | fuel + 1, n =>
    if n < 128 then [UInt8.ofNat n]
    else UInt8.ofNat (n % 128 + 128) :: encodeVarintAux fuel (n / 128)

/-- The varint of `n`. Ten bytes hold 70 bits; the numbers written are below `2 ^ 64`. The last byte
has its high bit clear, the others have it set. -/
def encodeVarint (n : Nat) : Bytes :=
  encodeVarintAux 10 n

/-- The varint at the start of a byte string, of at most as many bytes as the first argument
says, and the bytes after it; `none` when the bytes end inside it or it is too long. -/
def decodeVarint : Nat → Bytes → Option (Nat × Bytes)
  | 0, _ => none
  | _ + 1, [] => none
  | fuel + 1, b :: bs =>
    if b.toNat < 128 then some (b.toNat, bs)
    else (decodeVarint fuel bs).map fun r => (b.toNat - 128 + 128 * r.1, r.2)

/-- The reader undoes the writer, whatever comes after. Induction on the bytes that are left. The
reader may have more fuel than the number has septets. -/
theorem decodeVarint_encodeVarintAux {k fuel n : Nat} (hk : k ≤ fuel) (hn : n < 2 ^ (7 * k))
    (hpos : 0 < k) (rest : Bytes) :
    decodeVarint fuel (encodeVarintAux k n ++ rest) = some (n, rest) := by
  -- induction on the number of groups of seven bits, with fuel for at least as many
  induction k generalizing fuel n with
  | zero => omega
  | succ k ih =>
    obtain ⟨fuel, rfl⟩ : ∃ f, fuel = f + 1 := ⟨fuel - 1, by omega⟩
    rw [encodeVarintAux]
    split
    · next hlt =>
      have hb : (UInt8.ofNat n).toNat = n := by
        rw [UInt8.toNat_ofNat']
        omega
      rw [List.singleton_append, decodeVarint, hb, if_pos hlt]
    · next hge =>
      have hb : (UInt8.ofNat (n % 128 + 128)).toNat = n % 128 + 128 := by
        rw [UInt8.toNat_ofNat']
        omega
      have hpow : 2 ^ (7 * (k + 1)) = 2 ^ (7 * k) * 128 := by
        rw [show 7 * (k + 1) = 7 * k + 7 by ring, Nat.pow_add]
      have hk0 : 0 < k := by
        rcases Nat.eq_zero_or_pos k with rfl | hk0
        · omega
        · exact hk0
      have hdiv : n / 128 < 2 ^ (7 * k) := by omega
      rw [List.cons_append, decodeVarint, hb, if_neg (by omega), ih (by omega) hdiv hk0]
      simp only [Option.map_some, Option.some.injEq, Prod.mk.injEq, and_true]
      omega

/-- More fuel than the number needs changes nothing. Induction on the septets that are needed. -/
theorem encodeVarintAux_of_le {k fuel n : Nat} (hk : k ≤ fuel) (hn : n < 2 ^ (7 * k))
    (hpos : 0 < k) : encodeVarintAux fuel n = encodeVarintAux k n := by
  induction k generalizing fuel n with
  | zero => omega
  | succ k ih =>
    obtain ⟨fuel, rfl⟩ : ∃ f, fuel = f + 1 := ⟨fuel - 1, by omega⟩
    rw [encodeVarintAux, encodeVarintAux]
    split
    · rfl
    · next hge =>
      have hpow : 2 ^ (7 * (k + 1)) = 2 ^ (7 * k) * 128 := by
        rw [show 7 * (k + 1) = 7 * k + 7 by ring, Nat.pow_add]
      have hk0 : 0 < k := by
        rcases Nat.eq_zero_or_pos k with rfl | hk0
        · omega
        · exact hk0
      rw [ih (by omega) (by omega) hk0]

/-- **Varint round trip.** A number that fits `k` septets is read back by a reader that takes at
least `k` bytes. -/
theorem decodeVarint_encodeVarint {k fuel n : Nat} (hk : k ≤ fuel) (hk10 : k ≤ 10)
    (hpos : 0 < k) (hn : n < 2 ^ (7 * k)) (rest : Bytes) :
    decodeVarint fuel (encodeVarint n ++ rest) = some (n, rest) := by
  rw [encodeVarint, encodeVarintAux_of_le hk10 hn hpos]
  exact decodeVarint_encodeVarintAux hk hn hpos rest

/-- A number that fits `k` septets has at most `k` bytes. Induction on `k`. -/
theorem encodeVarintAux_length_le {k fuel n : Nat} (hk : k ≤ fuel) (hn : n < 2 ^ (7 * k))
    (hpos : 0 < k) : (encodeVarintAux fuel n).length ≤ k := by
  rw [encodeVarintAux_of_le hk hn hpos]
  clear hk hn hpos fuel
  induction k generalizing n with
  | zero => rfl
  | succ k ih =>
    rw [encodeVarintAux]
    split
    · simp
    · rw [List.length_cons]
      have := ih (n := n / 128)
      omega

/-- A number that fits `k` septets has at most `k` bytes, for the fuel the writer uses. -/
theorem encodeVarint_length_le {k n : Nat} (hk : k ≤ 10) (hn : n < 2 ^ (7 * k)) (hpos : 0 < k) :
    (encodeVarint n).length ≤ k :=
  encodeVarintAux_length_le hk hn hpos

/-- A number below 128 is its own byte. All the tags of this program are. -/
theorem encodeVarint_of_lt {n : Nat} (h : n < 128) : encodeVarint n = [UInt8.ofNat n] := by
  rw [encodeVarint, encodeVarintAux, if_pos h]

theorem encodeVarint_length_pos (n : Nat) : 0 < (encodeVarint n).length := by
  rw [encodeVarint, encodeVarintAux]
  split <;> simp

/-- The exact length: a number that needs more than `k` septets and no more than `k + 1` has `k + 1`
bytes. Induction on `k`. -/
theorem encodeVarint_length_succ {k n : Nat} (hk : k < 10) (hlo : 2 ^ (7 * k) ≤ n)
    (hhi : n < 2 ^ (7 * (k + 1))) : (encodeVarint n).length = k + 1 := by
  -- for any fuel that suffices, as the fuel goes down with the number
  have hgen : ∀ k fuel n, k < fuel → 2 ^ (7 * k) ≤ n → n < 2 ^ (7 * (k + 1)) →
      k = 0 ∨ (encodeVarintAux fuel n).length = k + 1 := by
    intro k
    induction k with
    | zero => exact fun _ _ _ _ _ => Or.inl rfl
    | succ k ih =>
      intro fuel n hf hlo hhi
      obtain ⟨fuel, rfl⟩ : ∃ f, fuel = f + 1 := ⟨fuel - 1, by omega⟩
      have h1 : 2 ^ (7 * (k + 1)) = 2 ^ (7 * k) * 128 := by
        rw [show 7 * (k + 1) = 7 * k + 7 by ring, Nat.pow_add]
      have h2 : 2 ^ (7 * (k + 1 + 1)) = 2 ^ (7 * (k + 1)) * 128 := by
        rw [show 7 * (k + 1 + 1) = 7 * (k + 1) + 7 by ring, Nat.pow_add]
      have hpos := Nat.two_pow_pos (7 * k)
      right
      rw [encodeVarintAux, if_neg (by omega), List.length_cons]
      rcases ih fuel (n / 128) (by omega) (by omega) (by omega) with rfl | h
      · obtain ⟨fuel, rfl⟩ : ∃ f, fuel = f + 1 := ⟨fuel - 1, by omega⟩
        rw [encodeVarintAux, if_pos (by simp only [Nat.reduceAdd, Nat.reduceMul] at hhi; omega)]
        rfl
      · rw [h]
  rcases hgen k 10 n hk hlo hhi with rfl | h
  · rw [encodeVarint_of_lt (by simpa using hhi)]
    rfl
  · exact h

/-- A varint that is read takes at least one byte, so a reader that reads varints comes to an
end. -/
theorem decodeVarint_length_lt {fuel : Nat} {bs rest : Bytes} {n : Nat}
    (h : decodeVarint fuel bs = some (n, rest)) : rest.length < bs.length := by
  induction fuel generalizing bs n with
  | zero => simp [decodeVarint] at h
  | succ fuel ih =>
    cases bs with
    | nil => simp [decodeVarint] at h
    | cons b bs =>
      rw [decodeVarint] at h
      split at h
      · obtain ⟨-, rfl⟩ := Prod.mk.inj (Option.some.inj h)
        simp
      · obtain ⟨r, hr, heq⟩ := Option.map_eq_some_iff.mp h
        obtain ⟨-, rfl⟩ := Prod.mk.inj heq
        have := ih hr
        rw [List.length_cons]
        omega

/-! ## The shortest form -/

/-- A larger number is not written shorter. Induction on the fuel. -/
theorem encodeVarintAux_length_mono {a b : Nat} (fuel : Nat) (h : a ≤ b) :
    (encodeVarintAux fuel a).length ≤ (encodeVarintAux fuel b).length := by
  induction fuel generalizing a b with
  | zero => rfl
  | succ fuel ih =>
    rw [encodeVarintAux, encodeVarintAux]
    split
    · split <;> simp
    · next ha =>
      rw [if_neg (by omega), List.length_cons, List.length_cons]
      have := ih (Nat.div_le_div_right (c := 128) h)
      omega

/-- A larger number is not written shorter, so dropping the high bits of a value never makes its
varint longer. -/
theorem encodeVarint_length_mono {a b : Nat} (h : a ≤ b) :
    (encodeVarint a).length ≤ (encodeVarint b).length :=
  encodeVarintAux_length_mono 10 h

/-- **The writer is never longer than what was read.** Induction on the bytes that are read. A
reader accepts a number with zero septets at its high end, which the writer never makes. -/
theorem encodeVarintAux_length_le_of_decode {k fuel n : Nat} {bs rest : Bytes}
    (h : decodeVarint k bs = some (n, rest)) :
    (encodeVarintAux fuel n).length + rest.length ≤ bs.length := by
  -- both go through the number in groups of seven bits, and the encoder stops no later
  induction k generalizing fuel n bs with
  | zero => simp [decodeVarint] at h
  | succ k ih =>
    cases fuel with
    | zero =>
      have := decodeVarint_length_lt h
      simp only [encodeVarintAux, List.length_nil]
      omega
    | succ fuel =>
      cases bs with
      | nil => simp [decodeVarint] at h
      | cons b bs =>
        have hb := b.toNat_lt
        rw [decodeVarint] at h
        split at h
        · next hlt =>
          obtain ⟨rfl, rfl⟩ := Prod.mk.inj (Option.some.inj h)
          rw [encodeVarintAux, if_pos hlt, List.length_cons, List.length_cons, List.length_nil]
          omega
        · next hge =>
          obtain ⟨r, hr, heq⟩ := Option.map_eq_some_iff.mp h
          obtain ⟨rfl, rfl⟩ := Prod.mk.inj heq
          have hlen : (encodeVarintAux fuel r.1).length + r.2.length ≤ bs.length := ih hr
          have hdiv : (b.toNat - 128 + 128 * r.1) / 128 = r.1 := by omega
          rw [encodeVarintAux, List.length_cons]
          split
          · rw [List.length_cons, List.length_nil]
            have := decodeVarint_length_lt hr
            omega
          · rw [List.length_cons, hdiv]
            omega

/-- **Reading and writing again does not lengthen a number**: the reader takes over-long forms, the
writer has the shortest. -/
theorem encodeVarint_length_le_of_decode {k n : Nat} {bs rest : Bytes}
    (h : decodeVarint k bs = some (n, rest)) :
    (encodeVarint n).length + rest.length ≤ bs.length :=
  encodeVarintAux_length_le_of_decode h

end Wire
