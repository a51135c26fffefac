import Mathlib.Algebra.Order.Group.Nat
import Mathlib.Data.List.Basic
import Mathlib.Data.Int.ModEq
import Mathlib.Tactic.NormNum
import Mathlib.Tactic.Ring

namespace DocumentDb.Bytes

section Words

@[irreducible] def toUInt32 (i : Int) : Nat := (i % 2 ^ 32).toNat

@[irreducible] def toInt32 (i : Int) : Int := (i + 2 ^ 31) % 2 ^ 32 - 2 ^ 31

theorem toUInt32_lt (i : Int) : toUInt32 i < 2 ^ 32 := by
  unfold toUInt32; omega

theorem toUInt32_of_lt {n : Nat} (h : n < 2 ^ 32) : toUInt32 n = n := by
  unfold toUInt32; omega

theorem toInt32_of_range {i : Int} (h0 : -2 ^ 31 ≤ i) (h : i < 2 ^ 31) : toInt32 i = i := by
  unfold toInt32; omega

theorem toUInt32_sub {a b : Nat} (hb : b ≤ a) (ha : a < 2 ^ 32) : toUInt32 ((a : Int) - b) = a - b := by
  unfold toUInt32; omega

theorem toUInt32_add {a b : Nat} (h : a + b < 2 ^ 32) : toUInt32 ((a : Int) + b) = a + b := by
  unfold toUInt32; omega

theorem toUInt32_succ {n : Nat} (h : n + 1 < 2 ^ 32) : toUInt32 ((n : Int) + 1) = n + 1 := by
  unfold toUInt32; omega

theorem toInt32_natCast {n : Nat} (h : n < 2 ^ 31) : toInt32 n = n := by
  unfold toInt32; omega

theorem toInt32_succ {n : Nat} (h : n + 1 < 2 ^ 31) : toInt32 ((n : Int) + 1) = n + 1 := by
  unfold toInt32; omega

theorem le_toInt32 (i : Int) : -2 ^ 31 ≤ toInt32 i := by
  unfold toInt32; omega

theorem toInt32_lt (i : Int) : toInt32 i < 2 ^ 31 := by
  unfold toInt32; omega

theorem toInt32_toUInt32 (i : Int) : toInt32 (toUInt32 i) = toInt32 i := by
  unfold toInt32 toUInt32; omega

theorem toUInt32_toInt32 (i : Int) : toUInt32 (toInt32 i) = toUInt32 i := by
  unfold toInt32 toUInt32; omega

def encodeLE : Nat → Nat → List UInt8
  | 0, _ => []
  | w + 1, n => UInt8.ofNat (n % 256) :: encodeLE w (n / 256)

def decodeLE : List UInt8 → Nat
  | [] => 0
  | b :: bs => b.toNat + 256 * decodeLE bs

@[simp] theorem length_encodeLE (w n : Nat) : (encodeLE w n).length = w := by
  induction w generalizing n with
  | zero => rfl
  | succ w ih => simp only [encodeLE, List.length_cons, ih]

theorem decodeLE_encodeLE (w n : Nat) : decodeLE (encodeLE w n) = n % 256 ^ w := by
  induction w generalizing n with
  | zero => simp [encodeLE, decodeLE, Nat.mod_one]
  | succ w ih =>
      have hb : n % 256 % 2 ^ 8 = n % 256 := by omega
      rw [encodeLE, decodeLE, ih, UInt8.toNat_ofNat', hb, pow_succ', Nat.mod_mul]

theorem decodeLE_lt (bs : List UInt8) : decodeLE bs < 256 ^ bs.length := by
  induction bs with
  | nil => simp [decodeLE]
  | cons b bs ih =>
      have hb := b.toNat_lt
      rw [decodeLE, List.length_cons, pow_succ]
      omega

theorem encodeLE_decodeLE (bs : List UInt8) : encodeLE bs.length (decodeLE bs) = bs := by
  induction bs with
  | nil => rfl
  | cons b bs ih =>
      have hb : b.toNat < 256 := b.toNat_lt
      have hd : (b.toNat + 256 * decodeLE bs) / 256 = decodeLE bs := by omega
      have hm : (b.toNat + 256 * decodeLE bs) % 256 = b.toNat := by omega
      rw [List.length_cons, encodeLE, decodeLE, hd, hm, ih, UInt8.ofNat_toNat]

def encodeUInt32 (n : Nat) : List UInt8 := encodeLE 4 n

def encodeInt32 (i : Int) : List UInt8 := encodeLE 4 (toUInt32 i)

def decodeInt32 (bs : List UInt8) : Int := toInt32 (decodeLE bs)

@[simp] theorem length_encodeUInt32 (n : Nat) : (encodeUInt32 n).length = 4 := length_encodeLE 4 n

@[simp] theorem length_encodeInt32 (i : Int) : (encodeInt32 i).length = 4 := length_encodeLE 4 _

theorem decodeLE_encodeUInt32 {n : Nat} (h : n < 2 ^ 32) : decodeLE (encodeUInt32 n) = n := by
  rw [encodeUInt32, decodeLE_encodeLE]
  exact Nat.mod_eq_of_lt (by omega)

theorem decodeInt32_encodeInt32 {i : Int} (h0 : -2 ^ 31 ≤ i) (h : i < 2 ^ 31) :
    decodeInt32 (encodeInt32 i) = i := by
  have hw : decodeLE (encodeInt32 i) = toUInt32 i := decodeLE_encodeUInt32 (toUInt32_lt i)
  rw [decodeInt32, hw, toInt32_toUInt32, toInt32_of_range h0 h]

theorem decodeLE_lt_word {bs : List UInt8} (h : bs.length = 4) : decodeLE bs < 2 ^ 32 := by
  have hd := decodeLE_lt bs
  rw [h] at hd
  omega

theorem encodeUInt32_decodeLE {bs : List UInt8} (h : bs.length = 4) :
    encodeUInt32 (decodeLE bs) = bs := by
  rw [encodeUInt32, ← h, encodeLE_decodeLE]

theorem encodeInt32_decodeInt32 {bs : List UInt8} (h : bs.length = 4) :
    encodeInt32 (decodeInt32 bs) = bs := by
  rw [encodeInt32, decodeInt32, toUInt32_toInt32, toUInt32_of_lt (decodeLE_lt_word h)]
  exact encodeUInt32_decodeLE h

end Words

section Blocks

variable {α : Type} [Inhabited α]

def slice (bs : List α) (off len : Nat) : List α := (bs.drop off).take len

/-- Overwrite a block from offset `off`. A block that is too short is filled
up first, as a file is by a write behind its end. -/
def patch (bs : List α) (off : Nat) (new : List α) : List α :=
  bs.take off ++ List.replicate (off - bs.length) default ++ new ++ bs.drop (off + new.length)

omit [Inhabited α] in
theorem getElem?_slice (bs : List α) (off len i : Nat) :
    (slice bs off len)[i]? = if i < len then bs[off + i]? else none := by
  simp only [slice, List.getElem?_take, List.getElem?_drop]

theorem getElem?_patch (bs new : List α) (off i : Nat) :
    (patch bs off new)[i]? =
      if i < off then (if i < bs.length then bs[i]? else some default)
      else if i < off + new.length then new[i - off]? else bs[i]? := by
  have hpre : (bs.take off ++ List.replicate (off - bs.length) default).length = off := by
    simp only [List.length_append, List.length_take, List.length_replicate]; omega
  rw [patch]
  by_cases h1 : i < off
  · rw [if_pos h1, List.append_assoc, List.getElem?_append_left (by omega)]
    by_cases h2 : i < bs.length
    · rw [if_pos h2, List.getElem?_append_left (by simp only [List.length_take]; omega),
        List.getElem?_take, if_pos h1]
    · rw [if_neg h2, List.getElem?_append_right (by simp only [List.length_take]; omega),
        List.getElem?_replicate, if_pos (by simp only [List.length_take]; omega)]
  · rw [if_neg h1]
    by_cases h2 : i < off + new.length
    · rw [if_pos h2, List.getElem?_append_left (by simp only [List.length_append] at hpre ⊢; omega),
        List.getElem?_append_right (by omega), hpre]
    · rw [if_neg h2, List.getElem?_append_right (by simp only [List.length_append] at hpre ⊢; omega),
        List.getElem?_drop]
      congr 1
      simp only [List.length_append] at hpre ⊢
      omega

omit [Inhabited α] in
theorem length_slice (bs : List α) (off len : Nat) :
    (slice bs off len).length = min len (bs.length - off) := by
  simp only [slice, List.length_take, List.length_drop]

omit [Inhabited α] in
theorem length_slice_of_le {bs : List α} {off len : Nat} (h : off + len ≤ bs.length) :
    (slice bs off len).length = len := by
  rw [length_slice]; omega

theorem length_patch (bs new : List α) (off : Nat) :
    (patch bs off new).length = max bs.length (off + new.length) := by
  simp only [patch, List.length_append, List.length_take, List.length_replicate, List.length_drop]
  omega

theorem length_patch_of_le {bs new : List α} {off : Nat} (h : off + new.length ≤ bs.length) :
    (patch bs off new).length = bs.length := by
  rw [length_patch]; omega

omit [Inhabited α] in
@[simp] theorem slice_zero_length (bs : List α) : slice bs 0 bs.length = bs := by
  simp [slice]

omit [Inhabited α] in
theorem slice_append_slice (bs : List α) (off m n : Nat) :
    slice bs off m ++ slice bs (off + m) n = slice bs off (m + n) := by
  simp only [slice, ← List.drop_drop]
  exact (List.take_add ..).symm

omit [Inhabited α] in
theorem slice_congr {as bs : List α} {off off' len : Nat} (h : ∀ i < len, as[off + i]? = bs[off' + i]?) :
    slice as off len = slice bs off' len := by
  apply List.ext_getElem?
  intro i
  rw [getElem?_slice, getElem?_slice]
  by_cases hi : i < len
  · rw [if_pos hi, if_pos hi, h i hi]
  · rw [if_neg hi, if_neg hi]

omit [Inhabited α] in
theorem slice_append_left (as bs : List α) {off len : Nat} (h : off + len ≤ as.length) :
    slice (as ++ bs) off len = slice as off len := by
  apply slice_congr
  intro i hi
  exact List.getElem?_append_left (by omega)

omit [Inhabited α] in
theorem slice_append_right (as bs : List α) {off : Nat} (len : Nat) (h : as.length ≤ off) :
    slice (as ++ bs) off len = slice bs (off - as.length) len := by
  apply slice_congr
  intro i hi
  rw [List.getElem?_append_right (by omega), Nat.sub_add_comm h]

theorem slice_patch_same (bs new : List α) (off : Nat) :
    slice (patch bs off new) off new.length = new := by
  apply List.ext_getElem?
  intro i
  rw [getElem?_slice, getElem?_patch]
  by_cases hi : i < new.length
  · rw [if_pos hi, if_neg (by omega), if_pos (by omega), Nat.add_sub_cancel_left]
  · rw [if_neg hi, List.getElem?_eq_none (by omega)]

theorem slice_patch_before (bs new : List α) {off off' len : Nat} (h : off' + len ≤ off)
    (hb : off' + len ≤ bs.length) : slice (patch bs off new) off' len = slice bs off' len := by
  apply slice_congr
  intro i hi
  rw [getElem?_patch, if_pos (by omega), if_pos (by omega)]

theorem slice_patch_after (bs new : List α) {off off' len : Nat} (h : off + new.length ≤ off') :
    slice (patch bs off new) off' len = slice bs off' len := by
  apply slice_congr
  intro i hi
  rw [getElem?_patch, if_neg (by omega), if_neg (by omega)]

theorem patch_append_left (as bs : List α) {new : List α} (h : new.length = as.length) :
    patch (as ++ bs) 0 new = new ++ bs := by
  apply List.ext_getElem?
  intro i
  rw [getElem?_patch, if_neg (by omega)]
  by_cases hi : i < new.length
  · rw [if_pos (by omega), List.getElem?_append_left hi, Nat.sub_zero]
  · rw [if_neg (by omega), List.getElem?_append_right (by omega),
      List.getElem?_append_right (by omega), h]

theorem patch_append_right (as bs new : List α) (off : Nat) :
    patch (as ++ bs) (as.length + off) new = as ++ patch bs off new := by
  apply List.ext_getElem?
  intro i
  by_cases hi : i < as.length
  · rw [getElem?_patch, if_pos (by omega), if_pos (by rw [List.length_append]; omega),
      List.getElem?_append_left hi, List.getElem?_append_left hi]
  · rw [List.getElem?_append_right (by omega), getElem?_patch, getElem?_patch]
    have hlen : (as ++ bs).length = as.length + bs.length := List.length_append
    by_cases hoff : i < as.length + off
    · rw [if_pos hoff, if_pos (by omega : i - as.length < off)]
      by_cases hb : i - as.length < bs.length
      · rw [if_pos (by omega), if_pos hb, List.getElem?_append_right (by omega)]
      · rw [if_neg (by omega), if_neg hb]
    · rw [if_neg hoff, if_neg (by omega : ¬i - as.length < off)]
      by_cases hn : i < as.length + off + new.length
      · rw [if_pos hn, if_pos (by omega)]
        congr 1
        omega
      · rw [if_neg hn, if_neg (by omega), List.getElem?_append_right (by omega)]

end Blocks

section Files

variable {α β : Type} {f : β → List α} {xs : List β} {size : Nat}

theorem length_flatMap_blocks (hf : ∀ x ∈ xs, (f x).length = size) :
    (xs.flatMap f).length = xs.length * size := by
  induction xs with
  | nil => simp
  | cons x xs ih =>
      rw [List.flatMap_cons, List.length_append, hf x List.mem_cons_self,
        ih fun y hy => hf y (List.mem_cons_of_mem x hy), List.length_cons, Nat.succ_mul, Nat.add_comm]

theorem slice_flatMap_blocks (hf : ∀ x ∈ xs, (f x).length = size) {k : Nat} {x : β}
    (hk : xs[k]? = some x) : slice (xs.flatMap f) (k * size) size = f x := by
  induction xs generalizing k with
  | nil => simp at hk
  | cons y ys ih =>
      have hy := hf y List.mem_cons_self
      rw [List.flatMap_cons]
      cases k with
      | zero =>
          obtain rfl : y = x := by simpa using hk
          rw [Nat.zero_mul, slice_append_left _ _ (by omega), ← hy, slice_zero_length]
      | succ k =>
          rw [slice_append_right _ _ _ (by rw [hy, Nat.succ_mul]; omega), hy, Nat.succ_mul,
            Nat.add_sub_cancel]
          exact ih (fun z hz => hf z (List.mem_cons_of_mem y hz)) (by simpa using hk)

variable [Inhabited α]

theorem patch_flatMap_blocks (hf : ∀ x ∈ xs, (f x).length = size) {k : Nat} (hk : k < xs.length)
    {y : β} (hy : (f y).length = size) :
    patch (xs.flatMap f) (k * size) (f y) = (xs.set k y).flatMap f := by
  induction xs generalizing k with
  | nil => simp at hk
  | cons x xs ih =>
      have hx := hf x List.mem_cons_self
      rw [List.flatMap_cons]
      cases k with
      | zero => rw [Nat.zero_mul, patch_append_left _ _ (by omega), List.set_cons_zero, List.flatMap_cons]
      | succ k =>
          rw [show (k + 1) * size = (f x).length + k * size by rw [hx, Nat.succ_mul, Nat.add_comm],
            patch_append_right, ih (fun z hz => hf z (List.mem_cons_of_mem x hz)) (by simpa using hk),
            List.set_cons_succ, List.flatMap_cons]

theorem patch_flatMap_end (hf : ∀ x ∈ xs, (f x).length = size) (y : β) :
    patch (xs.flatMap f) (xs.length * size) (f y) = (xs ++ [y]).flatMap f := by
  have hend := patch_append_right (xs.flatMap f) [] (f y) 0
  rw [List.append_nil, Nat.add_zero, length_flatMap_blocks hf] at hend
  rw [hend, List.flatMap_append, List.flatMap_singleton]
  simp [patch]

end Files

end DocumentDb.Bytes
