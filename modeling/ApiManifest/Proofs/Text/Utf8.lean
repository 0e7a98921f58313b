import ApiManifest.Text.Utf8

/-!
# Writing and reading UTF-8

What is written for a character is read back as that character, whatever follows it, and so is what is written
for a whole string.
-/

namespace ApiManifest.Text.Utf8

/-! ## Bytes one after another -/

section

variable {b : UInt8} {bs : List UInt8} {p : Pending}

theorem decodeFrom_one (h : b.toNat < 0x80) :
    decodeFrom none (b :: bs) = some (Char.ofNat b.toNat) :: decodeFrom none bs := by
  have hstep : step none b = ([some (Char.ofNat b.toNat)], none) := by
    rw [step, start, if_pos (UInt8.lt_iff_toNat_lt.mpr h)]
  rw [decodeFrom, hstep]
  rfl

/-- What the first byte of several leaves to be read: how many more bytes, and which ones may come next. -/
def leading (b : Nat) : Pending :=
  if b < 0xE0 then { bits := b - 0xC0, left := 1 }
  else if b < 0xF0 then
    { bits := b - 0xE0, left := 2, low := if b = 0xE0 then 0xA0 else 0x80, high := if b = 0xED then 0x9F else 0xBF }
  else
    { bits := b - 0xF0, left := 3, low := if b = 0xF0 then 0x90 else 0x80, high := if b = 0xF4 then 0x8F else 0xBF }

theorem start_leading (h : 0xC2 ≤ b.toNat) (h' : b.toNat ≤ 0xF4) : start b = ([], some (leading b.toNat)) := by
  have heq (c : UInt8) : b = c ↔ b.toNat = c.toNat := UInt8.toNat_inj.symm
  simp only [start, leading, UInt8.lt_iff_toNat_lt, beq_iff_eq, heq, UInt8.reduceToNat]
  repeat' split
  all_goals first | omega | simp_all

theorem decodeFrom_lead (h : 0xC2 ≤ b.toNat) (h' : b.toNat ≤ 0xF4) :
    decodeFrom none (b :: bs) = decodeFrom (some (leading b.toNat)) bs := by
  rw [decodeFrom, step, start_leading h h']
  rfl

theorem toNat_ofNat {n : Nat} (h : n < 256) : (UInt8.ofNat n).toNat = n := by
  rw [UInt8.toNat_ofNat', Nat.mod_eq_of_lt h]

theorem decodeFrom_further {bits left k : Nat} {low high : UInt8} (hk : k < 64) (hlow : low.toNat ≤ k + 128)
    (hhigh : k + 128 ≤ high.toNat) :
    decodeFrom (some ⟨bits, left + 2, low, high⟩) (UInt8.ofNat (k + 128) :: bs) =
      decodeFrom (some { bits := bits * 64 + k, left := left + 1 }) bs := by
  have hb : (UInt8.ofNat (k + 128)).toNat = k + 128 := toNat_ofNat (by omega)
  generalize UInt8.ofNat (k + 128) = b at hb
  rw [← hb, ← UInt8.le_iff_toNat_le] at hlow hhigh
  simp [decodeFrom, step, hlow, hhigh, hb]

theorem decodeFrom_last {bits k : Nat} (hk : k < 64) :
    decodeFrom (some { bits, left := 1 }) (UInt8.ofNat (k + 128) :: bs) =
      some (Char.ofNat (bits * 64 + k)) :: decodeFrom none bs := by
  have hb : (UInt8.ofNat (k + 128)).toNat = k + 128 := toNat_ofNat (by omega)
  generalize UInt8.ofNat (k + 128) = b at hb
  have hlow : 0x80 ≤ b := UInt8.le_iff_toNat_le.mpr (by simp [hb])
  have hhigh : b ≤ 0xBF := UInt8.le_iff_toNat_le.mpr (by simp [hb]; omega)
  simp [decodeFrom, step, hlow, hhigh, hb]

end

/-! ## Characters -/

section

variable {n : Nat} {bs : List UInt8}

theorem decodeFrom_two (h : 0x80 ≤ n) (h' : n < 0x800) :
    decodeFrom none (UInt8.ofNat (n / 64 % 32 + 192) :: UInt8.ofNat (n % 64 + 128) :: bs) =
      some (Char.ofNat n) :: decodeFrom none bs := by
  have hfirst : (UInt8.ofNat (n / 64 % 32 + 192)).toNat = n / 64 + 192 := by
    rw [toNat_ofNat (by omega)]
    omega
  have hlead : leading (n / 64 + 192) = { bits := n / 64, left := 1 } := by
    rw [leading, if_pos (by omega), Nat.add_sub_cancel]
  rw [decodeFrom_lead (by omega) (by omega), hfirst, hlead, decodeFrom_last (by omega), Nat.div_add_mod']

theorem decodeFrom_three (h : 0x800 ≤ n) (h' : n < 0xD800 ∨ 0xDFFF < n) (h'' : n < 0x10000) :
    decodeFrom none (UInt8.ofNat (n / 4096 % 16 + 224) :: UInt8.ofNat (n / 64 % 64 + 128) ::
        UInt8.ofNat (n % 64 + 128) :: bs) =
      some (Char.ofNat n) :: decodeFrom none bs := by
  have hfirst : (UInt8.ofNat (n / 4096 % 16 + 224)).toNat = n / 4096 + 224 := by
    rw [toNat_ofNat (by omega)]
    omega
  have hlead : leading (n / 4096 + 224) =
      ⟨n / 4096, 2, if n / 4096 = 0 then 0xA0 else 0x80, if n / 4096 = 0xD then 0x9F else 0xBF⟩ := by
    rw [leading, if_neg (by omega), if_pos (by omega), Nat.add_sub_cancel]
    congr 2
    · simp
    · simp
  -- no form is longer than it has to be, and none is that of a surrogate
  have hlow : (if n / 4096 = 0 then 0xA0 else 0x80 : UInt8).toNat ≤ n / 64 % 64 + 128 := by
    split
    · simp
      omega
    · simp
  have hhigh : n / 64 % 64 + 128 ≤ (if n / 4096 = 0xD then 0x9F else 0xBF : UInt8).toNat := by
    split <;> simp <;> omega
  have hbits : (n / 4096 * 64 + n / 64 % 64) * 64 + n % 64 = n := by omega
  rw [decodeFrom_lead (by omega) (by omega), hfirst, hlead, decodeFrom_further (by omega) hlow hhigh,
    decodeFrom_last (by omega), hbits]

theorem decodeFrom_four (h : 0x10000 ≤ n) (h' : n < 0x110000) :
    decodeFrom none (UInt8.ofNat (n / 262144 % 8 + 240) :: UInt8.ofNat (n / 4096 % 64 + 128) ::
        UInt8.ofNat (n / 64 % 64 + 128) :: UInt8.ofNat (n % 64 + 128) :: bs) =
      some (Char.ofNat n) :: decodeFrom none bs := by
  have hfirst : (UInt8.ofNat (n / 262144 % 8 + 240)).toNat = n / 262144 + 240 := by
    rw [toNat_ofNat (by omega)]
    omega
  have hlead : leading (n / 262144 + 240) =
      ⟨n / 262144, 3, if n / 262144 = 0 then 0x90 else 0x80, if n / 262144 = 4 then 0x8F else 0xBF⟩ := by
    rw [leading, if_neg (by omega), if_neg (by omega), Nat.add_sub_cancel]
    congr 2
    · simp
    · simp
  have hlow : (if n / 262144 = 0 then 0x90 else 0x80 : UInt8).toNat ≤ n / 4096 % 64 + 128 := by
    split
    · simp
      omega
    · simp
  have hhigh : n / 4096 % 64 + 128 ≤ (if n / 262144 = 4 then 0x8F else 0xBF : UInt8).toNat := by
    split <;> simp <;> omega
  have hbits : ((n / 262144 * 64 + n / 4096 % 64) * 64 + n / 64 % 64) * 64 + n % 64 = n := by omega
  rw [decodeFrom_lead (by omega) (by omega), hfirst, hlead, decodeFrom_further (by omega) hlow hhigh,
    decodeFrom_further (by omega) (by simp) (by simp; omega), decodeFrom_last (by omega), hbits]

end

theorem decodeFrom_encodeChar (c : Char) (bs : List UInt8) :
    decodeFrom none (String.utf8EncodeChar c ++ bs) = some c :: decodeFrom none bs := by
  have hvalid : c.toNat < 0xD800 ∨ (0xDFFF < c.toNat ∧ c.toNat < 0x110000) := c.valid
  have hc : Char.ofNat c.toNat = c := c.ofNat_toNat
  have hval : c.val.toNat = c.toNat := rfl
  simp only [String.utf8EncodeChar, hval]
  split
  · have hone : (UInt8.ofNat c.toNat).toNat = c.toNat := toNat_ofNat (by omega)
    rw [List.singleton_append, decodeFrom_one (by omega), hone, hc]
  · split
    · exact (decodeFrom_two (by omega) (by omega)).trans (by rw [hc]; rfl)
    · split
      · exact (decodeFrom_three (by omega) (by omega) (by omega)).trans (by rw [hc]; rfl)
      · exact (decodeFrom_four (by omega) (by omega)).trans (by rw [hc]; rfl)

/-! ## Strings -/

theorem loop_toList (bs : ByteArray) (i : Nat) (r : List UInt8) :
    ByteArray.toList.loop bs i r = r.reverse ++ bs.data.toList.drop i := by
  fun_induction ByteArray.toList.loop bs i r with
  | case1 i r hi ih =>
      have hi' : i < bs.data.toList.length := hi
      have hget : bs.get! i = bs.data.toList[i] := getElem!_pos bs.data i hi
      rw [ih, List.reverse_cons, List.append_assoc, List.drop_eq_getElem_cons hi', hget]
      rfl
  | case2 i r hi =>
      have hi' : bs.data.toList.length ≤ i := Nat.le_of_not_lt hi
      rw [List.drop_eq_nil_of_le hi', List.append_nil]

/-- The bytes of a string are those that it is stored as. In this form they are quick to evaluate. -/
theorem encode_eq_data (s : String) : encode s = s.toByteArray.data.toList := by
  rw [encode, String.toUTF8_eq_toByteArray, ByteArray.toList, loop_toList]
  rfl

theorem encode_eq (s : String) : encode s = s.toList.flatMap String.utf8EncodeChar := by
  have hbytes : s.toByteArray = (s.toList.flatMap String.utf8EncodeChar).toByteArray := by
    rw [← List.utf8Encode, ← String.toByteArray_ofList, String.ofList_toList]
  rw [encode_eq_data, hbytes, List.toList_data_toByteArray]

theorem decode_encode (s : String) : decode (encode s) = s.toList.map some := by
  rw [decode, encode_eq]
  induction s.toList with
  | nil => rfl
  | cons c cs ih => rw [List.flatMap_cons, decodeFrom_encodeChar, ih, List.map_cons]

theorem decode?_encode (s : String) : decode? (encode s) = some s.toList := by
  rw [decode?, decode_encode]
  induction s.toList with
  | nil => rfl
  | cons c cs ih => rw [List.map_cons, List.mapM_cons, ih]; rfl

end ApiManifest.Text.Utf8
