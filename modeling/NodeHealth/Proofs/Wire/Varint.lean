import Mathlib.Tactic.Ring
import NodeHealth.Wire.Varint

/-!
# Base-128 numbers: arithmetic

The bit operations of the codec are read as arithmetic on naturals. A run of continued bytes
that an ending byte closes is decoded to its positional value, and the shortest form of a
number is such a run, so decoding what was encoded gives the number back whatever follows it.

## Implementation notes

`worth` is the positional value without any bound. Keeping it in the naturals leaves the
bound of 64 bits to one hypothesis of `accept_of_fits`, where the tenth byte is decided.

-/

namespace NodeHealth.Varint

/-- The positional value of base-128 digits, lowest first; high bits do not count. -/
def worth : Bytes → Nat
  | [] => 0
  | byte :: rest => byte.toNat % 128 + 128 * worth rest

/-! ## Bytes and words -/

theorem toNat_low_bits (byte : UInt8) : (byte &&& 0x7F).toNat = byte.toNat % 128 := by
  rw [UInt8.toNat_and]
  exact Nat.and_two_pow_sub_one_eq_mod byte.toNat 7

/-- The high bit of a byte tells whether it is 128 at least. -/
theorem high_bit_eq (byte : UInt8) : (byte &&& 0x80 != 0) = decide (128 ≤ byte.toNat) := by
  have h : ∀ b : Fin 256, (UInt8.ofFin b &&& 0x80 != 0) = decide (128 ≤ b.val) := by
    decide +kernel
  exact h byte.toFin

theorem toNat_low_group (value : UInt64) :
    (value &&& 0x7F).toUInt8.toNat = value.toNat % 128 := by
  rw [UInt64.toNat_toUInt8, UInt64.toNat_and]
  have hmask : value.toNat &&& (0x7F : UInt64).toNat = value.toNat % 128 :=
    Nat.and_two_pow_sub_one_eq_mod value.toNat 7
  rw [hmask]
  omega

theorem toNat_high_groups (value : UInt64) : (value >>> 7).toNat = value.toNat / 128 := by
  rw [UInt64.toNat_shiftRight]
  exact Nat.shiftRight_eq_div_pow value.toNat 7

/-- Marking a group as continued adds the high bit. -/
theorem toNat_mark {group : UInt8} (h : group.toNat < 128) :
    (group ||| 0x80).toNat = group.toNat + 128 := by
  rw [UInt8.toNat_or]
  have hor := Nat.two_pow_add_eq_or_of_lt (i := 7) h 1
  have hhigh : (0x80 : UInt8).toNat = 2 ^ 7 * 1 := rfl
  rw [hhigh, Nat.or_comm, ← hor]
  omega

/-! ## One byte -/

/-- A byte whose bits fit into the word is added at its place. -/
theorem accept_of_fits {value : UInt64} {index : Nat} (byte : UInt8) (hindex : index < 10)
    (hvalue : value.toNat < 128 ^ index) (hfits : index = 9 → byte.toNat ≤ 1) :
    ∃ next : UInt64, accept value index byte = .ok (next, decide (byte.toNat < 128)) ∧
      next.toNat = value.toNat + 128 ^ index * (byte.toNat % 128) := by
  refine ⟨value ||| ((byte &&& 0x7F).toUInt64 <<< UInt64.ofNat (7 * index)), ?_, ?_⟩
  · have hgood : ¬(index + 1 = maxLength ∧ ((byte &&& 0x80 != 0) = true ∨ 1 < byte &&& 0x7F)) := by
      rintro ⟨hlast, hbad⟩
      have hbyte := hfits (by simp only [maxLength] at hlast; omega)
      rw [high_bit_eq, UInt8.lt_iff_toNat_lt, toNat_low_bits] at hbad
      simp only [decide_eq_true_eq, UInt8.reduceToNat] at hbad
      omega
    have haccept : accept value index byte =
        .ok (value ||| ((byte &&& 0x7F).toUInt64 <<< UInt64.ofNat (7 * index)),
          !(byte &&& 0x80 != 0)) := if_neg hgood
    rw [haccept, high_bit_eq, ← decide_not]
    simp only [Nat.not_le]
  · have hpow : (128 : Nat) ^ index = 2 ^ (7 * index) := by
      rw [Nat.pow_mul]
    have hshift : (UInt64.ofNat (7 * index)).toNat % 64 = 7 * index := by
      rw [UInt64.toNat_ofNat']
      omega
    have hbits : byte.toNat % 128 * 2 ^ (7 * index) < 2 ^ 64 := by
      by_cases hlast : index = 9
      · have := hfits hlast
        subst hlast
        omega
      · calc byte.toNat % 128 * 2 ^ (7 * index)
            < 2 ^ 7 * 2 ^ (7 * index) :=
              Nat.mul_lt_mul_of_pos_right (Nat.mod_lt _ (by decide)) (Nat.two_pow_pos _)
          _ = 2 ^ (7 + 7 * index) := by rw [Nat.pow_add]
          _ ≤ 2 ^ 64 := Nat.pow_le_pow_right (by decide) (by omega)
    rw [hpow] at hvalue ⊢
    rw [UInt64.toNat_or, UInt64.toNat_shiftLeft, UInt8.toNat_toUInt64, toNat_low_bits, hshift,
      Nat.shiftLeft_eq, Nat.mod_eq_of_lt hbits, Nat.or_comm, Nat.mul_comm,
      ← Nat.two_pow_add_eq_or_of_lt hvalue]
    omega

/-- The tenth byte holds the top bit of a word and nothing else. -/
theorem accept_overflow {value : UInt64} {byte : UInt8} (h : 1 < byte.toNat) :
    accept value 9 byte = .error .malformedVarint := by
  have hbad : 9 + 1 = maxLength ∧ ((byte &&& 0x80 != 0) = true ∨ 1 < byte &&& 0x7F) := by
    refine ⟨rfl, ?_⟩
    rw [high_bit_eq, UInt8.lt_iff_toNat_lt, toNat_low_bits]
    simp only [decide_eq_true_eq, UInt8.reduceToNat]
    have := byte.toNat_lt
    omega
  simp only [accept, if_pos hbad]

/-! ## Runs of bytes -/

@[simp] theorem decodeFrom_nil (value : UInt64) (index limit : Nat) :
    decodeFrom value index limit [] = .ok none := by
  cases limit <;> rfl

/-- Decoding goes on behind continued bytes with all of them added at their places. -/
theorem decodeFrom_continued {init : Bytes} (rest : Bytes)
    (hinit : ∀ byte ∈ init, 128 ≤ byte.toNat) :
    ∀ {value : UInt64} {index limit : Nat}, index + limit = 10 → init.length < limit →
      value.toNat < 128 ^ index →
      ∃ next : UInt64,
        decodeFrom value index limit (init ++ rest) =
          decodeFrom next (index + init.length) (limit - init.length) rest ∧
        next.toNat = value.toNat + 128 ^ index * worth init ∧
        next.toNat < 128 ^ (index + init.length) := by
  induction init with
  | nil =>
      intro value index limit _ _ hvalue
      exact ⟨value, rfl, by simp [worth], hvalue⟩
  | cons byte init ih =>
      intro value index limit hsum hlen hvalue
      rw [List.length_cons] at hlen
      obtain ⟨more, rfl⟩ : ∃ more, limit = more + 1 := ⟨limit - 1, by omega⟩
      obtain ⟨next, haccept, hnext⟩ := accept_of_fits byte (by omega) hvalue (by omega)
      have hhigh : 128 ≤ byte.toNat := hinit byte List.mem_cons_self
      have hbound : next.toNat < 128 ^ (index + 1) := by
        have hdigit : byte.toNat % 128 ≤ 127 := by omega
        have hplace := Nat.mul_le_mul_left (128 ^ index) hdigit
        rw [hnext, Nat.pow_succ]
        omega
      obtain ⟨word, hword, htotal, hlast⟩ :=
        ih (fun b hb => hinit b (List.mem_cons_of_mem byte hb))
          (by omega : index + 1 + more = 10) (by omega) hbound
      have hplace : index + 1 + init.length = index + (byte :: init).length := by
        rw [List.length_cons]
        omega
      rw [hplace] at hword hlast
      refine ⟨word, ?_, ?_, hlast⟩
      · have hmore : decide (byte.toNat < 128) = false := by simp [hhigh]
        simp only [List.cons_append, decodeFrom, haccept, hmore, hword, List.length_cons,
          Nat.add_sub_add_right]
      · rw [htotal, hnext]
        simp only [worth, Nat.pow_succ]
        ring

/-- Digits behind others count more. -/
theorem worth_append (front back : Bytes) :
    worth (front ++ back) = worth front + 128 ^ front.length * worth back := by
  induction front with
  | nil => simp [worth]
  | cons byte front ih =>
      simp only [List.cons_append, worth, ih, List.length_cons, Nat.pow_succ]
      ring

theorem worth_concat (init : Bytes) (last : UInt8) :
    worth (init ++ [last]) = worth init + 128 ^ init.length * (last.toNat % 128) := by
  rw [worth_append, worth, worth, Nat.mul_zero, Nat.add_zero]

/-- Decoding takes continued bytes up to the ending one and adds them all at their places. -/
theorem decodeFrom_run {init : Bytes} {last : UInt8} (rest : Bytes) (hlast : last.toNat < 128)
    {value : UInt64} {index limit : Nat} (hsum : index + limit = 10)
    (hlen : init.length < limit) (hinit : ∀ byte ∈ init, 128 ≤ byte.toNat)
    (hfits : index + init.length = 9 → last.toNat ≤ 1) (hvalue : value.toNat < 128 ^ index) :
    ∃ word : UInt64,
      decodeFrom value index limit (init ++ last :: rest) =
        .ok (some (word, index + init.length + 1)) ∧
      word.toNat = value.toNat + 128 ^ index * worth (init ++ [last]) := by
  obtain ⟨next, hinit, hnext, hbound⟩ :=
    decodeFrom_continued (last :: rest) hinit hsum hlen hvalue
  obtain ⟨word, haccept, hword⟩ := accept_of_fits last (by omega) hbound hfits
  refine ⟨word, ?_, ?_⟩
  · obtain ⟨more, hmore⟩ : ∃ more, limit - init.length = more + 1 :=
      ⟨limit - init.length - 1, by omega⟩
    simp [hinit, hmore, decodeFrom, haccept, hlast]
  · rw [hword, hnext, worth_concat, Nat.pow_add]
    ring

/-! ## The shortest form -/

/-- One group is split off a number. -/
theorem groups?_succ (limit : Nat) (value : UInt64) :
    groups? (limit + 1) value =
      if value.toNat / 128 = 0 then some [(value &&& 0x7F).toUInt8]
      else (groups? limit (value >>> 7)).map (((value &&& 0x7F).toUInt8 ||| 0x80) :: ·) := by
  have hzero : value >>> 7 = 0 ↔ value.toNat / 128 = 0 := by
    rw [← UInt64.toNat_inj, toNat_high_groups]
    rfl
  simp only [groups?, hzero]

/-- The groups of a number are a run of continued bytes and an ending one, and worth it. -/
theorem groups?_run (limit : Nat) :
    ∀ {value : UInt64}, value.toNat < 128 ^ (limit + 1) →
      ∃ init last, groups? (limit + 1) value = some (init ++ [last]) ∧ init.length ≤ limit ∧
        (∀ byte ∈ init, 128 ≤ byte.toNat) ∧ last.toNat < 128 ∧
        worth (init ++ [last]) = value.toNat := by
  induction limit with
  | zero =>
      intro value hvalue
      have hlow := toNat_low_group value
      refine ⟨[], (value &&& 0x7F).toUInt8, ?_, by simp, by simp, by omega, ?_⟩
      · rw [groups?_succ, if_pos (by omega)]
        rfl
      · simp only [List.nil_append, worth]
        omega
  | succ limit ih =>
      intro value hvalue
      have hlow := toNat_low_group value
      rw [groups?_succ]
      by_cases hhigh : value.toNat / 128 = 0
      · refine ⟨[], (value &&& 0x7F).toUInt8, by rw [if_pos hhigh]; rfl, by simp, by simp,
          by omega, ?_⟩
        simp only [List.nil_append, worth]
        omega
      · have hrest : (value >>> 7).toNat < 128 ^ (limit + 1) := by
          rw [toNat_high_groups, Nat.div_lt_iff_lt_mul (by decide)]
          rwa [Nat.pow_succ] at hvalue
        obtain ⟨init, last, hgroups, hlen, hinit, hlast, hworth⟩ := ih hrest
        have hmark := toNat_mark (by omega : (value &&& 0x7F).toUInt8.toNat < 128)
        refine ⟨((value &&& 0x7F).toUInt8 ||| 0x80) :: init, last, ?_, ?_, ?_, hlast, ?_⟩
        · rw [if_neg hhigh, hgroups]
          rfl
        · simpa using hlen
        · intro byte hbyte
          rcases List.mem_cons.mp hbyte with rfl | hbyte
          · omega
          · exact hinit byte hbyte
        · simp only [List.cons_append, worth, hworth, hmark, toNat_high_groups]
          omega

/-- Ten groups are enough for every number. -/
theorem exists_groups (value : UInt64) :
    ∃ init last, groups? maxLength value = some (init ++ [last]) ∧ init.length ≤ 9 ∧
      (∀ byte ∈ init, 128 ≤ byte.toNat) ∧ last.toNat < 128 ∧
      worth (init ++ [last]) = value.toNat := by
  have hvalue : value.toNat < 128 ^ (9 + 1) := by
    have := value.toNat_lt
    omega
  exact groups?_run 9 hvalue

/-- Every number has a shortest form of at most ten bytes, and it is what `encode` returns. -/
theorem encode_eq (value : UInt64) :
    ∃ init last, encode value = .ok (init ++ [last]) ∧ init.length ≤ 9 ∧
      (∀ byte ∈ init, 128 ≤ byte.toNat) ∧ last.toNat < 128 ∧
      worth (init ++ [last]) = value.toNat := by
  obtain ⟨init, last, hgroups, hrun⟩ := exists_groups value
  refine ⟨init, last, ?_, hrun⟩
  simp [encode, write, hgroups, Buffer.append]

/-- Nine continued bytes leave one bit of a word to the tenth. -/
theorem last_le_one {init : Bytes} {last : UInt8} (hlen : init.length = 9)
    (hlast : last.toNat < 128) (hworth : worth (init ++ [last]) < 2 ^ 64) :
    last.toNat ≤ 1 := by
  rw [worth_concat, hlen, Nat.mod_eq_of_lt hlast] at hworth
  omega

/-- What was encoded is decoded, whatever follows it. -/
theorem decode_encode_append {value : UInt64} {bytes : Bytes} (h : encode value = .ok bytes)
    (rest : Bytes) : decode (bytes ++ rest) = .ok (some (value, bytes.length)) := by
  obtain ⟨init, last, hencode, hlen, hinit, hlast, hworth⟩ := encode_eq value
  obtain rfl : init ++ [last] = bytes := Except.ok.inj (hencode.symm.trans h)
  have hfits : 0 + init.length = 9 → last.toNat ≤ 1 := by
    intro hnine
    have hnine : init.length = 9 := by omega
    apply last_le_one hnine hlast
    rw [hworth]
    exact value.toNat_lt
  obtain ⟨word, hword, htotal⟩ := decodeFrom_run rest hlast
    (by rfl : 0 + maxLength = 10) (by simp only [maxLength]; omega) hinit hfits
    (by decide : (0 : UInt64).toNat < 128 ^ 0)
  have hsame : word = value := by
    apply UInt64.toNat_inj.mp
    rw [htotal, hworth]
    simp
  subst hsame
  simpa [decode] using hword

end NodeHealth.Varint
