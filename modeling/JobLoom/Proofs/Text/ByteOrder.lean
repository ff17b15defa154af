import Mathlib.Tactic.SplitIfs
import JobLoom.Text.Utf8

/-!
# The order of bytes

Texts are ordered by their characters, and their bytes by numbers. UTF-8 is made so that both orders
are the same: of two characters the first one either has the lower first byte, or shares its first
bytes and has a lower byte after them. So what decides about the characters decides about the bytes,
whatever follows.
-/

namespace JobLoom.Text.Utf8

/-! ## The bytes of a text -/

/-- The bytes from a place on are listed behind those that have been read. -/
theorem toList_loop_eq (b : ByteArray) (i : Nat) (read : List UInt8) :
    ByteArray.toList.loop b i read = read.reverse ++ b.data.toList.drop i := by
  fun_induction ByteArray.toList.loop b i read with
  | case1 i read hi ih =>
    have hlength : i < b.data.toList.length := hi
    have hget : b.get! i = b.data.toList[i] := by
      rw [ByteArray.get!, Array.getElem_toList]
      exact getElem!_pos b.data i hi
    rw [ih, List.reverse_cons, List.append_assoc, hget, List.drop_eq_getElem_cons hlength]
    rfl
  | case2 i read hi =>
    have hlength : b.data.toList.length ≤ i := Nat.not_lt.1 hi
    rw [List.drop_of_length_le hlength, List.append_nil]

/-- The bytes of a text are those of its characters. -/
theorem encode_eq_flatMap (s : String) : encode s = s.toList.flatMap String.utf8EncodeChar := by
  rw [encode, String.toUTF8, ByteArray.toList, toList_loop_eq, ← String.utf8Encode_toList,
    List.utf8Encode, List.data_toByteArray]
  rfl

/-! ## Orders -/

/-- Of two sequences of bytes the first byte decides, and if it is the same the rest. -/
theorem byte_cons_lt_iff {m n : Nat} {s t : List UInt8} (hm : m < 256) (hn : n < 256) :
    UInt8.ofNat m :: s < UInt8.ofNat n :: t ↔ m < n ∨ m = n ∧ s < t := by
  rw [List.cons_lt_cons_iff, UInt8.lt_iff_toNat_lt, ← UInt8.toNat_inj,
    UInt8.toNat_ofNat_of_lt' hm, UInt8.toNat_ofNat_of_lt' hn]

/-- The bytes of two characters decide, whatever follows them. -/
theorem utf8EncodeChar_append_lt {c d : Char} (h : c < d) (s t : List UInt8) :
    String.utf8EncodeChar c ++ s < String.utf8EncodeChar d ++ t := by
  have hlt : c.val.toNat < d.val.toNat := h
  have hd : d.val.toNat < 0x110000 := by
    rcases d.valid with hlow | ⟨-, hhigh⟩ <;> omega
  -- a byte carries six bits, so what the bytes before it carry is had by dividing by 64 again
  have htwo (n : Nat) : n / 4096 = n / 64 / 64 := (Nat.div_div_eq_div_mul n 64 64).symm
  have hthree (n : Nat) : n / 262144 = n / 64 / 64 / 64 := by
    rw [Nat.div_div_eq_div_mul, Nat.div_div_eq_div_mul]
  unfold String.utf8EncodeChar
  dsimp only
  generalize c.val.toNat = m at hlt
  generalize d.val.toNat = n at hlt hd
  simp only [htwo, hthree]
  split_ifs
  all_goals
    simp (disch := omega) only [List.cons_append, List.nil_append, byte_cons_lt_iff]
    omega

/-- Characters in order have bytes in order. -/
theorem flatMap_utf8EncodeChar_lt {s t : List Char} (h : s < t) :
    s.flatMap String.utf8EncodeChar < t.flatMap String.utf8EncodeChar := by
  induction h with
  | nil =>
    obtain ⟨b, rest, hcons⟩ := List.exists_cons_of_ne_nil (String.utf8EncodeChar_ne_nil)
    rw [List.flatMap_nil, List.flatMap_cons, hcons]
    exact List.nil_lt_cons _ _
  | rel hlt => exact utf8EncodeChar_append_lt hlt _ _
  | cons _ ih =>
    rw [List.flatMap_cons, List.flatMap_cons]
    exact List.append_left_lt ih

/-- **Texts in order have bytes in order.** -/
theorem encode_lt_encode {s t : String} (h : s < t) : encode s < encode t := by
  rw [encode_eq_flatMap, encode_eq_flatMap]
  exact flatMap_utf8EncodeChar_lt (String.lt_iff.1 h)

end JobLoom.Text.Utf8
