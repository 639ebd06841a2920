import Mathlib

/-!
# Byte strings: network byte order, byte order, prefix codes

General facts about byte strings that a wire format rests on.
-/

/-- Bytes are ordered as the unsigned numbers they are. -/
instance UInt8.linearOrder : LinearOrder UInt8 where
  le_refl _ := Nat.le_refl _
  le_trans _ _ _ := Nat.le_trans
  lt_iff_le_not_ge _ _ := Nat.lt_iff_le_and_not_ge
  le_antisymm _ _ h h' := UInt8.le_antisymm h h'
  le_total _ _ := Nat.le_total _ _
  toDecidableLE := inferInstance

/-- So are the 16-bit numbers. -/
instance UInt16.linearOrder : LinearOrder UInt16 where
  le_refl _ := Nat.le_refl _
  le_trans _ _ _ := Nat.le_trans
  lt_iff_le_not_ge _ _ := Nat.lt_iff_le_and_not_ge
  le_antisymm _ _ h h' := UInt16.le_antisymm h h'
  le_total _ _ := Nat.le_total _ _
  toDecidableLE := inferInstance
  toDecidableLT := inferInstance

theorem UInt16.or_and_distrib (a b c : UInt16) : (a ||| b) &&& c = a &&& c ||| b &&& c :=
  UInt16.toBitVec_inj.1 (BitVec.and_or_distrib_right ..)

/-- Clearing bits that are not set changes nothing. -/
theorem UInt16.and_not_eq_self {a b : UInt16} (h : a &&& b = 0) : a &&& ~~~b = a := by
  calc a &&& ~~~b = a &&& b ||| a &&& ~~~b := by rw [h, UInt16.zero_or]
    _ = a &&& (b ||| ~~~b) := UInt16.toBitVec_inj.1 (BitVec.and_or_distrib_left ..).symm
    _ = a := by rw [UInt16.or_not_self, UInt16.and_neg_one]

/-- A word that misses a mask and its complement is zero. -/
theorem UInt16.eq_zero_of_and_of_and_not {a b : UInt16} (h : a &&& b = 0) (h' : a &&& ~~~b = 0) :
    a = 0 :=
  (UInt16.and_not_eq_self h).symm.trans h'

/-- The bytes from index `start` up to, not including, index `stop`. -/
def slice {α : Type*} (l : List α) (start stop : ℕ) : List α :=
  (l.drop start).take (stop - start)

variable {start stop : ℕ}

theorem length_slice {α : Type*} {l : List α} (h : stop ≤ l.length) :
    (slice l start stop).length = stop - start := by
  rw [slice, List.length_take, List.length_drop]
  omega

/-- A slice is what stands in front of the remainder after it. -/
theorem slice_append_drop {α : Type*} {l : List α} (h : start ≤ stop) :
    slice l start stop ++ l.drop stop = l.drop start := by
  obtain ⟨k, rfl⟩ := Nat.exists_eq_add_of_le h
  rw [slice, Nat.add_sub_cancel_left, ← List.drop_drop, List.take_append_drop]

theorem slice_append_append {α : Type*} {before middle after : List α}
    (hstart : before.length = start) (hstop : start + middle.length = stop) :
    slice (before ++ (middle ++ after)) start stop = middle := by
  subst hstart hstop
  simp [slice]

namespace BigEndian

/-- The `k` low-order bytes of `n`, most significant first. -/
def encode : ℕ → ℕ → List UInt8
  | 0, _ => []
  | k + 1, n => encode k (n / 256) ++ [UInt8.ofNat n]

/-- The number a byte string denotes, most significant byte first. -/
def decode (bytes : List UInt8) : ℕ :=
  bytes.foldl (fun acc b => acc * 256 + b.toNat) 0

@[simp] theorem length_encode (k n : ℕ) : (encode k n).length = k := by
  induction k generalizing n with
  | zero => rfl
  | succ k ih => simp [encode, ih]

@[simp] theorem decode_nil : decode [] = 0 := rfl

theorem decode_concat (bytes : List UInt8) (b : UInt8) :
    decode (bytes ++ [b]) = decode bytes * 256 + b.toNat := by
  simp [decode]

theorem decode_encode (k n : ℕ) : decode (encode k n) = n % 256 ^ k := by
  induction k generalizing n with
  | zero => simp [encode, Nat.mod_one]
  | succ k ih =>
    have hbyte : (UInt8.ofNat n).toNat = n % 256 := UInt8.toNat_ofNat'
    rw [encode, decode_concat, ih, hbyte, pow_succ', Nat.mod_mul]
    ring

theorem decode_encode_of_lt {k n : ℕ} (h : n < 256 ^ k) : decode (encode k n) = n := by
  rw [decode_encode, Nat.mod_eq_of_lt h]

theorem decode_lt (bytes : List UInt8) : decode bytes < 256 ^ bytes.length := by
  induction bytes using List.reverseRecOn with
  | nil => simp
  | append_singleton bytes b ih =>
    rw [decode_concat, List.length_append, List.length_singleton, pow_succ]
    have hb : b.toNat < 256 := b.toNat_lt
    omega

theorem encode_decode (bytes : List UInt8) : encode bytes.length (decode bytes) = bytes := by
  induction bytes using List.reverseRecOn with
  | nil => rfl
  | append_singleton bytes b ih =>
    -- the last byte is the remainder modulo 256, the others the quotient
    have hb : b.toNat < 256 := b.toNat_lt
    have hdiv : (decode bytes * 256 + b.toNat) / 256 = decode bytes := by omega
    have hlast : UInt8.ofNat (decode bytes * 256 + b.toNat) = b := by
      apply UInt8.toNat_inj.mp
      rw [UInt8.toNat_ofNat']
      omega
    rw [List.length_append, List.length_singleton, encode, decode_concat, hdiv, ih, hlast]

end BigEndian

/-! ### Fixed-width machine words -/

/-- The two bytes of a 16-bit word in network byte order. -/
def UInt16.toBeBytes (x : UInt16) : List UInt8 := BigEndian.encode 2 x.toNat

/-- The 16-bit word two bytes in network byte order denote. -/
def UInt16.fromBeBytes (bytes : List UInt8) : UInt16 := UInt16.ofNat (BigEndian.decode bytes)

/-- The four bytes of a 32-bit word in network byte order. -/
def UInt32.toBeBytes (x : UInt32) : List UInt8 := BigEndian.encode 4 x.toNat

/-- The 32-bit word four bytes in network byte order denote. -/
def UInt32.fromBeBytes (bytes : List UInt8) : UInt32 := UInt32.ofNat (BigEndian.decode bytes)

/-- The eight bytes of a 64-bit word in network byte order. -/
def UInt64.toBeBytes (x : UInt64) : List UInt8 := BigEndian.encode 8 x.toNat

/-- The 64-bit word eight bytes in network byte order denote. -/
def UInt64.fromBeBytes (bytes : List UInt8) : UInt64 := UInt64.ofNat (BigEndian.decode bytes)

@[simp] theorem UInt16.length_toBeBytes (x : UInt16) : x.toBeBytes.length = 2 :=
  BigEndian.length_encode _ _

@[simp] theorem UInt32.length_toBeBytes (x : UInt32) : x.toBeBytes.length = 4 :=
  BigEndian.length_encode _ _

@[simp] theorem UInt64.length_toBeBytes (x : UInt64) : x.toBeBytes.length = 8 :=
  BigEndian.length_encode _ _

@[simp] theorem UInt16.fromBeBytes_toBeBytes (x : UInt16) :
    UInt16.fromBeBytes x.toBeBytes = x := by
  unfold UInt16.fromBeBytes UInt16.toBeBytes
  rw [BigEndian.decode_encode_of_lt (lt_of_lt_of_le x.toNat_lt (by norm_num))]
  exact UInt16.ofNat_toNat

@[simp] theorem UInt32.fromBeBytes_toBeBytes (x : UInt32) :
    UInt32.fromBeBytes x.toBeBytes = x := by
  unfold UInt32.fromBeBytes UInt32.toBeBytes
  rw [BigEndian.decode_encode_of_lt (lt_of_lt_of_le x.toNat_lt (by norm_num))]
  exact UInt32.ofNat_toNat

@[simp] theorem UInt64.fromBeBytes_toBeBytes (x : UInt64) :
    UInt64.fromBeBytes x.toBeBytes = x := by
  unfold UInt64.fromBeBytes UInt64.toBeBytes
  rw [BigEndian.decode_encode_of_lt (lt_of_lt_of_le x.toNat_lt (by norm_num))]
  exact UInt64.ofNat_toNat

variable {bytes : List UInt8}

theorem UInt16.toNat_fromBeBytes (h : bytes.length = 2) :
    (UInt16.fromBeBytes bytes).toNat = BigEndian.decode bytes := by
  have hlt := BigEndian.decode_lt bytes
  rw [h] at hlt
  exact UInt16.toNat_ofNat_of_lt' (by simpa [UInt16.size] using hlt)

theorem UInt32.toNat_fromBeBytes (h : bytes.length = 4) :
    (UInt32.fromBeBytes bytes).toNat = BigEndian.decode bytes := by
  have hlt := BigEndian.decode_lt bytes
  rw [h] at hlt
  exact UInt32.toNat_ofNat_of_lt' (by simpa [UInt32.size] using hlt)

theorem UInt64.toNat_fromBeBytes (h : bytes.length = 8) :
    (UInt64.fromBeBytes bytes).toNat = BigEndian.decode bytes := by
  have hlt := BigEndian.decode_lt bytes
  rw [h] at hlt
  exact UInt64.toNat_ofNat_of_lt' (by simpa [UInt64.size] using hlt)

theorem UInt16.toBeBytes_fromBeBytes (h : bytes.length = 2) :
    (UInt16.fromBeBytes bytes).toBeBytes = bytes := by
  rw [UInt16.toBeBytes, UInt16.toNat_fromBeBytes h, ← h, BigEndian.encode_decode]

theorem UInt32.toBeBytes_fromBeBytes (h : bytes.length = 4) :
    (UInt32.fromBeBytes bytes).toBeBytes = bytes := by
  rw [UInt32.toBeBytes, UInt32.toNat_fromBeBytes h, ← h, BigEndian.encode_decode]

theorem UInt64.toBeBytes_fromBeBytes (h : bytes.length = 8) :
    (UInt64.fromBeBytes bytes).toBeBytes = bytes := by
  rw [UInt64.toBeBytes, UInt64.toNat_fromBeBytes h, ← h, BigEndian.encode_decode]

/-- The signed reading of a 32-bit word. -/
theorem UInt32.toInt_toInt32 (x : UInt32) :
    x.toInt32.toInt = if x.toNat < 2 ^ 31 then (x.toNat : ℤ) else x.toNat - 2 ^ 32 := by
  have h : x.toInt32.toInt = if 2 * x.toNat < 2 ^ 32 then (x.toNat : ℤ) else x.toNat - 2 ^ 32 :=
    BitVec.toInt_eq_toNat_cond x.toBitVec
  rw [h]
  split_ifs <;> omega

/-- Against a bound that is not negative, a signed range check and an unsigned
comparison accept the same words. -/
theorem UInt32.toInt32_range_iff {x : UInt32} {bound : Int32} (h : 0 ≤ bound) :
    0 ≤ x.toInt32 ∧ x.toInt32 ≤ bound ↔ x ≤ bound.toUInt32 := by
  have hx := x.toInt_toInt32
  have hbound : bound.toInt = _ := bound.toUInt32.toInt_toInt32
  have hxlt := x.toNat_lt
  have hlt := bound.toUInt32.toNat_lt
  have hzero : (0 : Int32).toInt = 0 := rfl
  rw [Int32.le_iff_toInt_le, hzero] at h
  rw [Int32.le_iff_toInt_le, Int32.le_iff_toInt_le, hzero, UInt32.le_iff_toNat_le]
  split_ifs at hx hbound <;> omega

/-- A signed reading that is not negative is the unsigned one. -/
theorem UInt32.toNat_toInt_toInt32 {x : UInt32} (h : 0 ≤ x.toInt32) :
    x.toInt32.toInt.toNat = x.toNat := by
  have hx := x.toInt_toInt32
  have hxlt := x.toNat_lt
  rw [Int32.le_iff_toInt_le, show (0 : Int32).toInt = 0 from rfl] at h
  split_ifs at hx <;> omega

/-! ### Prefix codes -/

/-- A code whose words delimit themselves: the codeword of a valid value can be
told apart from whatever follows it. -/
structure PrefixCode {α β : Type*} (valid : α → Prop) (encode : α → List β) : Prop where
  append_inj : ∀ {a a' : α} {rest rest' : List β}, valid a → valid a' →
    encode a ++ rest = encode a' ++ rest' → a = a' ∧ rest = rest'
  encode_ne_nil : ∀ a, encode a ≠ []

namespace PrefixCode

variable {α β : Type*} {valid : α → Prop} {encode : α → List β}

/-- A decoder that reads codewords off the front of its input witnesses that
they delimit themselves. -/
theorem of_decoder (decode : List β → Option (α × List β))
    (hdecode : ∀ a rest, valid a → decode (encode a ++ rest) = some (a, rest))
    (hne : ∀ a, encode a ≠ []) : PrefixCode valid encode where
  append_inj {a a' rest rest'} ha ha' heq := by
    have := (hdecode a rest ha).symm.trans ((congrArg decode heq).trans (hdecode a' rest' ha'))
    simpa using this
  encode_ne_nil := hne

/-- A concatenation of codewords has one reading only. -/
theorem flatMap_injective (h : PrefixCode valid encode) {l l' : List α}
    (hl : ∀ a ∈ l, valid a) (hl' : ∀ a ∈ l', valid a)
    (heq : l.flatMap encode = l'.flatMap encode) : l = l' := by
  induction l generalizing l' with
  | nil =>
    cases l' with
    | nil => rfl
    | cons a' l' => simp [h.encode_ne_nil] at heq
  | cons a l ih =>
    cases l' with
    | nil => simp [h.encode_ne_nil] at heq
    | cons a' l' =>
      rw [List.flatMap_cons, List.flatMap_cons] at heq
      rw [List.forall_mem_cons] at hl hl'
      obtain ⟨rfl, hrest⟩ := h.append_inj hl.1 hl'.1 heq
      rw [ih hl.2 hl'.2 hrest]

end PrefixCode
