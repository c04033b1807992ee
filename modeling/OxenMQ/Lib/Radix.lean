import Mathlib.Data.List.GetD
import Mathlib.Data.List.Induction
import Mathlib.Data.List.Nodup
import Mathlib.Tactic.Ring

/-!
# Writing bytes in another base

Hexadecimal, base 32 and base 64 do the same thing with different numbers: the bytes, one after the
other, are a string of bits; zeros are added until its length is a multiple of `k`; and every `k`
bits are one digit, which is written as a character of some alphabet.  Reading goes back the same
way and throws away the bits that do not make up a byte.

A list of digits in base `b`, the most significant one first, is also a number (`value`), and a
number is a list of digits once their number is fixed (`digits`).  Bits need not be mentioned then:
adding `p` zeros is a multiplication by `2 ^ p`, and throwing `p` bits away a division.
`decode_encode` says that reading undoes writing, provided that a digit has at most eight bits.

An `Alphabet` says how the digits are written.  It may have more than one character for a digit, as
when upper and lower case mean the same.
-/

set_option autoImplicit false

namespace Radix

/-- A byte as a character. -/
theorem toNat_ofNat_of_lt {n : ℕ} (h : n < 256) : (Char.ofNat n).toNat = n := by
  have hvalid : n.isValidChar := Or.inl (by omega)
  rw [Char.ofNat, dif_pos hvalid]
  rfl

/-! ## Digits of a given number -/

/-- The number that the digits stand for, the most significant one first. -/
def value (b : ℕ) (ds : List ℕ) : ℕ := ds.foldl (fun n d => b * n + d) 0

/-- The last `len` digits of a number. -/
def digits (b : ℕ) : (len n : ℕ) → List ℕ
  | 0, _ => []
  | len + 1, n => digits b len (n / b) ++ [n % b]

variable {b : ℕ}

theorem value_concat (ds : List ℕ) (d : ℕ) : value b (ds ++ [d]) = b * value b ds + d := by
  simp [value, List.foldl_append]

@[simp] theorem length_digits (len n : ℕ) : (digits b len n).length = len := by
  induction len generalizing n with
  | zero => rfl
  | succ len ih => rw [digits, List.length_append, ih, List.length_singleton]

theorem digits_lt (hb : 0 < b) (len n : ℕ) : ∀ d ∈ digits b len n, d < b := by
  induction len generalizing n with
  | zero => exact fun _ hd => absurd hd List.not_mem_nil
  | succ len ih =>
    intro d hd
    rcases List.mem_append.1 hd with hd | hd
    · exact ih (n / b) d hd
    · rw [List.mem_singleton.1 hd]
      exact Nat.mod_lt n hb

theorem value_digits (len n : ℕ) : value b (digits b len n) = n % b ^ len := by
  induction len generalizing n with
  | zero => rw [digits, pow_zero, Nat.mod_one, value, List.foldl_nil]
  | succ len ih =>
    rw [digits, value_concat, ih, pow_succ, mul_comm (b ^ len) b, Nat.mod_mul]
    ring

theorem value_lt {ds : List ℕ} (h : ∀ d ∈ ds, d < b) :
    value b ds < b ^ ds.length := by
  induction ds using List.reverseRecOn with
  | nil => exact Nat.one_pos
  | append_singleton ds d ih =>
    have hd : d < b := h d (by simp)
    have hds : value b ds + 1 ≤ b ^ ds.length := ih fun e he => h e (by simp [he])
    rw [value_concat, List.length_append, List.length_singleton, pow_succ]
    calc b * value b ds + d < b * value b ds + b := by omega
      _ = (value b ds + 1) * b := by ring
      _ ≤ b ^ ds.length * b := Nat.mul_le_mul_right b hds

theorem digits_value {ds : List ℕ} (h : ∀ d ∈ ds, d < b) :
    digits b ds.length (value b ds) = ds := by
  induction ds using List.reverseRecOn with
  | nil => rfl
  | append_singleton ds d ih =>
    have hd : d < b := h d (by simp)
    have hpos : 0 < b := by omega
    have hdiv : (b * value b ds + d) / b = value b ds := by
      rw [Nat.mul_add_div hpos, Nat.div_eq_of_lt hd, Nat.add_zero]
    have hmod : (b * value b ds + d) % b = d := by
      rw [Nat.mul_add_mod, Nat.mod_eq_of_lt hd]
    rw [List.length_append, List.length_singleton, digits, value_concat, hdiv, hmod,
      ih fun e he => h e (by simp [he])]

/-! ## From bytes to digits and back -/

/-- How many digits of `k` bits it takes to write `n` bytes. -/
def digitCount (k n : ℕ) : ℕ := (8 * n + k - 1) / k

/-- How many bytes `m` digits of `k` bits make up. -/
def byteCount (k m : ℕ) : ℕ := m * k / 8

/-- The digits of a string of bytes. -/
def encode (k : ℕ) (bytes : List ℕ) : List ℕ :=
  let m := digitCount k bytes.length
  digits (2 ^ k) m (value 256 bytes * 2 ^ (m * k - 8 * bytes.length))

/-- The bytes that digits stand for. -/
def decode (k : ℕ) (ds : List ℕ) : List ℕ :=
  let n := byteCount k ds.length
  digits 256 n (value (2 ^ k) ds / 2 ^ (ds.length * k - 8 * n))

variable {k : ℕ}

theorem length_encode (bytes : List ℕ) : (encode k bytes).length = digitCount k bytes.length :=
  length_digits ..

theorem length_decode (ds : List ℕ) : (decode k ds).length = byteCount k ds.length :=
  length_digits ..

theorem encode_lt (bytes : List ℕ) : ∀ d ∈ encode k bytes, d < 2 ^ k :=
  digits_lt (Nat.two_pow_pos k) _ _

theorem decode_lt (ds : List ℕ) : ∀ d ∈ decode k ds, d < 256 := digits_lt (by decide) _ _

/-- The bits that are added do not make up a byte. -/
theorem digitCount_mul (hk : 0 < k) (n : ℕ) :
    8 * n ≤ digitCount k n * k ∧ digitCount k n * k < 8 * n + k := by
  have hmod : (8 * n + k - 1) % k < k := Nat.mod_lt _ hk
  have hdiv : digitCount k n * k + (8 * n + k - 1) % k = 8 * n + k - 1 := by
    rw [digitCount, mul_comm]
    exact Nat.div_add_mod _ _
  omega

theorem byteCount_digitCount (hk : 0 < k) (hk8 : k ≤ 8) (n : ℕ) :
    byteCount k (digitCount k n) = n := by
  obtain ⟨hle, hlt⟩ := digitCount_mul hk n
  rw [byteCount]
  omega

/-- **Reading undoes writing.** -/
theorem decode_encode (hk : 0 < k) (hk8 : k ≤ 8) {bytes : List ℕ} (h : ∀ d ∈ bytes, d < 256) :
    decode k (encode k bytes) = bytes := by
  obtain ⟨hle, _⟩ := digitCount_mul hk bytes.length
  have hfit : value 256 bytes * 2 ^ (digitCount k bytes.length * k - 8 * bytes.length) <
      (2 ^ k) ^ digitCount k bytes.length := by
    have hbytes : value 256 bytes < 2 ^ (8 * bytes.length) := by
      rw [pow_mul]
      exact value_lt h
    have hpow : (2 ^ k) ^ digitCount k bytes.length = 2 ^ (8 * bytes.length) *
        2 ^ (digitCount k bytes.length * k - 8 * bytes.length) := by
      rw [← pow_mul, ← pow_add, mul_comm k]
      congr 1
      omega
    rw [hpow]
    exact Nat.mul_lt_mul_of_pos_right hbytes (Nat.two_pow_pos _)
  rw [decode, length_encode, byteCount_digitCount hk hk8, encode, value_digits,
    Nat.mod_eq_of_lt hfit, Nat.mul_div_cancel _ (Nat.two_pow_pos _)]
  exact digits_value h

/-! ## Alphabets -/

/-- How digits of `k` bits are written.  `fold` maps every character that stands for a digit to the
one that is written for it. -/
structure Alphabet (k : ℕ) where
  chars : List Char
  fold : Char → Char
  length_chars : chars.length = 2 ^ k
  nodup_chars : chars.Nodup
  fold_chars : chars.map fold = chars

namespace Alphabet

variable (a : Alphabet k)

/-- Does the character stand for a digit? -/
def digit (c : Char) : Bool := decide (a.fold c ∈ a.chars)

def charOf (d : ℕ) : Char := a.chars.getD d ' '

def valueOf (c : Char) : ℕ := a.chars.idxOf (a.fold c)

theorem fold_of_mem {c : Char} (h : c ∈ a.chars) : a.fold c = c :=
  List.map_inj_left.1 (a.fold_chars.trans (List.map_id _).symm) c h

theorem charOf_mem {d : ℕ} (h : d < 2 ^ k) : a.charOf d ∈ a.chars := by
  rw [← a.length_chars] at h
  rw [charOf, List.getD_eq_getElem _ _ h]
  exact List.getElem_mem h

theorem digit_charOf {d : ℕ} (h : d < 2 ^ k) : a.digit (a.charOf d) = true := by
  have hmem := a.charOf_mem h
  rw [digit, a.fold_of_mem hmem]
  exact decide_eq_true hmem

theorem valueOf_charOf {d : ℕ} (h : d < 2 ^ k) : a.valueOf (a.charOf d) = d := by
  rw [valueOf, a.fold_of_mem (a.charOf_mem h)]
  rw [← a.length_chars] at h
  rw [charOf, List.getD_eq_getElem _ _ h]
  exact a.nodup_chars.idxOf_getElem d h

/-- A string of bytes, each of them a character below 256, in this alphabet. -/
def write (s : List Char) : List Char := (encode k (s.map Char.toNat)).map a.charOf

/-- The string of bytes that a text in this alphabet stands for. -/
def read (s : List Char) : List Char := (decode k (s.map a.valueOf)).map Char.ofNat

theorem length_write (s : List Char) : (a.write s).length = digitCount k s.length := by
  rw [write, List.length_map, length_encode, List.length_map]

theorem length_read (s : List Char) : (a.read s).length = byteCount k s.length := by
  rw [read, List.length_map, length_decode, List.length_map]

theorem byte_read (s : List Char) : ∀ c ∈ a.read s, c.toNat < 256 := by
  intro c hc
  obtain ⟨d, hd, rfl⟩ := List.mem_map.1 hc
  have hlt := decode_lt _ d hd
  rwa [toNat_ofNat_of_lt hlt]

theorem digit_write (s : List Char) : ∀ c ∈ a.write s, a.digit c = true := by
  intro c hc
  obtain ⟨d, hd, rfl⟩ := List.mem_map.1 hc
  exact a.digit_charOf (encode_lt _ d hd)

/-- Could the text have been written in this alphabet?  Less than a digit is left over then when the
bytes have been taken out. -/
def valid (s : List Char) : Bool := s.all a.digit && decide (s.length * k % 8 < k)

theorem valid_iff {s : List Char} :
    a.valid s = true ↔ (∀ c ∈ s, a.digit c = true) ∧ s.length * k % 8 < k := by
  rw [valid, Bool.and_eq_true, List.all_eq_true, decide_eq_true_iff]

/-- Characters that are read as the same digit are interchangeable. -/
theorem read_map {f : Char → Char} (hf : ∀ c, a.fold (f c) = a.fold c) (s : List Char) :
    a.read (s.map f) = a.read s := by
  have hvalue : a.valueOf ∘ f = a.valueOf := funext fun c => by
    rw [Function.comp_apply, valueOf, hf, valueOf]
  rw [read, List.map_map, hvalue, read]

theorem read_write (hk : 0 < k) (hk8 : k ≤ 8) {s : List Char} (h : ∀ c ∈ s, c.toNat < 256) :
    a.read (a.write s) = s := by
  have hvalues : (a.write s).map a.valueOf = encode k (s.map Char.toNat) := by
    rw [write, List.map_map]
    refine (List.map_congr_left fun d hd => ?_).trans (List.map_id _)
    exact a.valueOf_charOf (encode_lt _ d hd)
  have hbytes : ∀ d ∈ s.map Char.toNat, d < 256 := by
    intro d hd
    obtain ⟨c, hc, rfl⟩ := List.mem_map.1 hd
    exact h c hc
  rw [read, hvalues, decode_encode hk hk8 hbytes, List.map_map]
  exact (List.map_congr_left fun c _ => Char.ofNat_toNat c).trans (List.map_id _)

end Alphabet

end Radix
