import ProofScript.Text.Bytes

/-!
# The bytes of a text

The bytes of a text are those of its characters, one after the other. A byte below 128 is a
character of its own and never a part of another one (`eq_of_mem_encode`), so an ASCII character can
be looked for byte by byte.
-/

namespace ProofScript.Text

theorem toList_loop (bytes : ByteArray) (place : Nat) (read : List UInt8) :
    ByteArray.toList.loop bytes place read = read.reverse ++ bytes.data.toList.drop place := by
  fun_induction ByteArray.toList.loop bytes place read with
  | case1 place read hlt ih =>
    have hplace : place < bytes.data.toList.length := by simpa using hlt
    have hbyte : bytes.get! place = bytes.data.toList[place] := by
      have hget : bytes.get! place = bytes.data[place]! := by cases bytes; rfl
      rw [hget, getElem!_pos bytes.data place hlt, Array.getElem_toList]
    rw [ih, List.drop_eq_getElem_cons hplace, hbyte, List.reverse_cons, List.append_assoc]
    rfl
  | case2 place read hge =>
    rw [List.drop_eq_nil_of_le (by simpa using Nat.le_of_not_lt hge), List.append_nil]

/-- The bytes of a text are the bytes of its characters. -/
theorem toBytes_ofList (cs : List Char) :
    toBytes (String.ofList cs) = cs.flatMap String.utf8EncodeChar := by
  rw [toBytes, ByteArray.toList, toList_loop, List.reverse_nil, List.nil_append, List.drop_zero,
    String.toUTF8, String.toByteArray_ofList, List.utf8Encode, List.toList_data_toByteArray]

variable {b : UInt8} {c d : Char}

/-- The byte of an ASCII character. -/
theorem encode_of_lt (h : c.toNat < 128) : String.utf8EncodeChar c = [UInt8.ofNat c.toNat] :=
  if_pos (Nat.le_of_lt_succ h)

/-- Every byte of another character has its highest bit set. -/
theorem le_of_mem_encode (h : b ∈ String.utf8EncodeChar c) (hc : 128 ≤ c.toNat) :
    128 ≤ b.toNat := by
  have hbit : ∀ n, b = UInt8.ofNat n → 128 ≤ n % 256 → 128 ≤ b.toNat := by
    rintro n rfl hn
    rwa [UInt8.toNat_ofNat']
  unfold String.utf8EncodeChar at h
  dsimp only at h
  split at h
  · next hshort => exact absurd hc (Nat.not_le_of_lt (Nat.lt_succ_of_le hshort))
  split at h
  · simp only [List.mem_cons, List.not_mem_nil, or_false] at h
    rcases h with h | h
    all_goals exact hbit _ h (by omega)
  split at h
  · simp only [List.mem_cons, List.not_mem_nil, or_false] at h
    rcases h with h | h | h
    all_goals exact hbit _ h (by omega)
  · simp only [List.mem_cons, List.not_mem_nil, or_false] at h
    rcases h with h | h | h | h
    all_goals exact hbit _ h (by omega)

/-- The byte of an ASCII character occurs in no other character. -/
theorem eq_of_mem_encode (h : UInt8.ofNat d.toNat ∈ String.utf8EncodeChar c)
    (hd : d.toNat < 128) : c = d := by
  have hbyte : ∀ e : Char, e.toNat < 128 → (UInt8.ofNat e.toNat).toNat = e.toNat := by
    intro e he
    rw [UInt8.toNat_ofNat']
    omega
  by_cases hc : c.toNat < 128
  · rw [encode_of_lt hc] at h
    have hsame := congrArg UInt8.toNat (List.mem_singleton.1 h)
    rw [hbyte d hd, hbyte c hc] at hsame
    exact Char.toNat_inj.1 hsame.symm
  · have hhigh := le_of_mem_encode h (Nat.le_of_not_lt hc)
    rw [hbyte d hd] at hhigh
    omega

end ProofScript.Text
