import TypedSheets.Bytes.Codec
import TypedSheets.Bytes.Utf8

/-!
# Reading the binary form back

What is written is read back, whatever stands behind it. Lengths are numbers of 64 bits, so this
holds of texts and lists that are shorter than that.

## Main definitions

* `Bytes.ReadsBack` — a value is read back from its bytes and nothing of what is behind them
* `Bytes.TextFits` — the length of a text is a number of 64 bits

## Main results

* `Bytes.decodeText?_encodeText` — the bytes of a text are read as the text
* `Bytes.decodeNat_encodeNat`, `Bytes.readsBack_int` — numbers
* `Bytes.readsBack_string`, `Bytes.readsBack_option`, `Bytes.readsBack_list`,
  `Bytes.readsBack_pair` — the other forms
-/

namespace TypedSheets.Bytes

/-! ### UTF-8 -/

theorem toNat_byte {n : Nat} (h : n < 256) : (byte n).toNat = n := by
  rw [byte, UInt8.toNat_ofNat']
  exact Nat.mod_eq_of_lt h

/-- Six bits in a continuation byte. -/
theorem continuation?_byte {n : Nat} (h : n < 0x40) : continuation? (byte (0x80 + n)) = some n := by
  rw [continuation?, toNat_byte (by omega), if_pos (by simp; omega)]
  congr 1
  omega

/-- A character is the one of its code point. -/
theorem charFrom?_toNat {least : Nat} (c : Char) (h : least ≤ c.toNat) :
    charFrom? least c.toNat = some c := by
  have hvalid : c.toNat.isValidChar := c.valid
  rw [charFrom?, dif_pos hvalid, if_pos h]
  rfl

section Characters

variable {b b1 b2 b3 : UInt8} {rest : List UInt8} {c1 c2 c3 : Nat} {c : Char}

theorem decodeChars?_one (h : b.toNat < 0x80) :
    decodeChars? (b :: rest) = (decodeChars? rest).map (Char.ofNat b.toNat :: ·) := by
  delta decodeChars?
  exact if_pos h

theorem decodeChars?_two (hlead : 0xC0 ≤ b.toNat ∧ b.toNat < 0xE0)
    (h1 : continuation? b1 = some c1)
    (hc : charFrom? 0x80 ((b.toNat - 0xC0) * 0x40 + c1) = some c) :
    decodeChars? (b :: b1 :: rest) = (decodeChars? rest).map (c :: ·) := by
  delta decodeChars?
  refine (if_neg (by omega)).trans ?_
  simp only [h1]
  refine (if_pos (by simpa using hlead)).trans ?_
  simp only [hc]

theorem decodeChars?_three (hlead : 0xE0 ≤ b.toNat ∧ b.toNat < 0xF0)
    (h1 : continuation? b1 = some c1) (h2 : continuation? b2 = some c2)
    (hc : charFrom? 0x800 ((b.toNat - 0xE0) * 0x1000 + c1 * 0x40 + c2) = some c) :
    decodeChars? (b :: b1 :: b2 :: rest) = (decodeChars? rest).map (c :: ·) := by
  delta decodeChars?
  refine (if_neg (by omega)).trans ?_
  simp only [h1]
  refine (if_neg (by simp; omega)).trans ?_
  simp only [h2]
  refine (if_pos (by simpa using hlead)).trans ?_
  simp only [hc]

/-- The reader is its step on what it makes of the shorter lists. -/
theorem decodeChars?_eq_step (bytes : List UInt8) :
    decodeChars? bytes = decodeChars?._f bytes (List.brecOn.go bytes decodeChars?._f).2 := by
  delta decodeChars?
  exact List.brecOn.eq bytes decodeChars?._f

theorem decodeChars?_four (hlead : 0xF0 ≤ b.toNat ∧ b.toNat < 0xF8)
    (h1 : continuation? b1 = some c1) (h2 : continuation? b2 = some c2)
    (h3 : continuation? b3 = some c3)
    (hc : charFrom? 0x10000 ((b.toNat - 0xF0) * 0x40000 + c1 * 0x1000 + c2 * 0x40 + c3) = some c) :
    decodeChars? (b :: b1 :: b2 :: b3 :: rest) = (decodeChars? rest).map (c :: ·) := by
  -- the values of the shorter lists stay a variable: unfolded, they are the reader once more each
  have hstep : ∀ x : List.below (motive := fun _ => Option (List Char))
        (b :: b1 :: b2 :: b3 :: rest),
      decodeChars?._f (b :: b1 :: b2 :: b3 :: rest) x = x.2.2.2.1.map (c :: ·) := by
    intro x
    refine (if_neg (by omega)).trans ?_
    simp only [h1]
    refine (if_neg (by simp; omega)).trans ?_
    simp only [h2]
    refine (if_neg (by simp; omega)).trans ?_
    simp only [h3]
    refine (if_pos (by simpa using hlead)).trans ?_
    simp only [hc]
  have hrest : (List.brecOn.go (b :: b1 :: b2 :: b3 :: rest) decodeChars?._f).2.2.2.2.1 =
      decodeChars? rest := by
    delta decodeChars?
    rfl
  rw [decodeChars?_eq_step (b :: b1 :: b2 :: b3 :: rest), hstep, hrest]

end Characters

/-- The bytes of a character are read as the character. -/
theorem decodeChars?_encodeChar (c : Char) (rest : List UInt8) :
    decodeChars? (encodeChar c ++ rest) = (decodeChars? rest).map (c :: ·) := by
  have hlt : c.toNat < 0x110000 := by
    have hvalid : c.toNat.isValidChar := c.valid
    rcases hvalid with h | ⟨-, h⟩ <;> omega
  have hfound : ∀ {least n : Nat}, least ≤ c.toNat → n = c.toNat →
      charFrom? least n = some c := by
    rintro least n h rfl
    exact charFrom?_toNat c h
  have hsix : ∀ n : Nat, continuation? (byte (0x80 + n % 0x40)) = some (n % 0x40) :=
    fun n => continuation?_byte (Nat.mod_lt n (by decide))
  have hbyte : ∀ {n : Nat}, n < 256 → (byte n).toNat = n := toNat_byte
  -- as many bytes as the code point needs, in the cases in which the encoder takes them
  simp only [encodeChar]
  split
  · next h1 =>
    have hone := hbyte (n := c.toNat) (by omega)
    rw [List.singleton_append, decodeChars?_one (by omega), hone, Char.ofNat_toNat]
  · next h1 =>
    split
    · next h2 =>
      have hlead := hbyte (n := 0xC0 + c.toNat / 0x40) (by omega)
      exact decodeChars?_two (by omega) (hsix _) (hfound (by omega) (by omega))
    · next h2 =>
      split
      · next h3 =>
        have hlead := hbyte (n := 0xE0 + c.toNat / 0x1000) (by omega)
        exact decodeChars?_three (by omega) (hsix _) (hsix _) (hfound (by omega) (by omega))
      · next h3 =>
        have hlead := hbyte (n := 0xF0 + c.toNat / 0x40000) (by omega)
        exact decodeChars?_four (by omega) (hsix _) (hsix _) (hsix _)
          (hfound (by omega) (by omega))

theorem decodeChars?_encodeChars (s : List Char) : decodeChars? (encodeChars s) = some s := by
  induction s with
  | nil => rfl
  | cons c rest ih =>
    have hfirst := decodeChars?_encodeChar c (encodeChars rest)
    rw [ih] at hfirst
    exact hfirst

/-- The bytes of a text are read as the text. -/
theorem decodeText?_encodeText (s : String) : decodeText? (encodeText s) = some s := by
  rw [decodeText?, encodeText, decodeChars?_encodeChars, Option.map_some, String.ofList_toList]

open Number

/-- A value is read back from its bytes, and what is behind them is left. -/
def ReadsBack {α : Type} (encode : α → List UInt8) (decode : Decoder α) (x : α) : Prop :=
  ∀ rest, decode (encode x ++ rest) = some (x, rest)

/-! ### Numbers -/

theorem length_littleEndian (count n : Nat) : (littleEndian count n).length = count := by
  induction count generalizing n with
  | zero => rfl
  | succ count ih => rw [littleEndian, List.length_cons, ih]

theorem takeBytes_append (bytes rest : List UInt8) :
    takeBytes bytes.length (bytes ++ rest) = some (bytes, rest) := by
  rw [takeBytes, if_pos (by simp), List.take_left, List.drop_left]

theorem takeLittleEndian_littleEndian {count n : Nat} (h : n < Nat.pow 256 count)
    (rest : List UInt8) :
    takeLittleEndian count (littleEndian count n ++ rest) = some (n, rest) := by
  have htake := takeBytes_append (littleEndian count n) rest
  rw [length_littleEndian] at htake
  rw [takeLittleEndian, htake, Option.map_some]
  simp only [ofLittleEndian_littleEndian count n h]

/-- A marker says how many bytes there are, unless they are more than there may be. -/
theorem decodeNat_marker {width : Nat} (rest : List UInt8) :
    (2 ≤ width → decodeNat width (251 :: rest) = takeLittleEndian 2 rest) ∧
      (4 ≤ width → decodeNat width (252 :: rest) = takeLittleEndian 4 rest) ∧
      (8 ≤ width → decodeNat width (253 :: rest) = takeLittleEndian 8 rest) ∧
      (16 ≤ width → decodeNat width (254 :: rest) = takeLittleEndian 16 rest) := by
  refine ⟨fun h => ?_, fun h => ?_, fun h => ?_, fun h => ?_⟩ <;> simp [decodeNat, h]

/-- An unsigned number of that width is read back. -/
theorem decodeNat_encodeNat {width n : Nat} (hwidth : width ∈ [2, 4, 8, 16])
    (h : n < Nat.pow 256 width) : ReadsBack encodeNat (decodeNat width) n := by
  intro rest
  -- a number that needs more bytes has a greater width
  have hbytes : 2 ≤ width ∧ (UInt16.size ≤ n → 4 ≤ width) ∧ (UInt32.size ≤ n → 8 ≤ width) ∧
      (UInt64.size ≤ n → 16 ≤ width ∧ n < Nat.pow 256 16) := by
    simp only [List.mem_cons, List.not_mem_nil, or_false] at hwidth
    rcases hwidth with rfl | rfl | rfl | rfl <;> simp [UInt16.size, UInt32.size, UInt64.size] at h ⊢
      <;> omega
  obtain ⟨h2, h4, h8, h16⟩ := hbytes
  rw [encodeNat]
  split
  · next h1 =>
    rw [List.singleton_append, decodeNat, toNat_byte (by omega), if_pos h1]
  · split
    · next hn => rw [List.cons_append, (decodeNat_marker _).1 h2, takeLittleEndian_littleEndian hn]
    · next hn16 =>
      split
      · next hn =>
        rw [List.cons_append, (decodeNat_marker _).2.1 (h4 (by omega)),
          takeLittleEndian_littleEndian hn]
      · next hn32 =>
        split
        · next hn =>
          rw [List.cons_append, (decodeNat_marker _).2.2.1 (h8 (by omega)),
            takeLittleEndian_littleEndian hn]
        · next hn64 =>
          obtain ⟨hwide, hn⟩ := h16 (by omega)
          rw [List.cons_append, (decodeNat_marker _).2.2.2 hwide,
            takeLittleEndian_littleEndian hn]

/-- A length is read back if it is a number of 64 bits. -/
theorem decodeNat_length {n : Nat} (h : n < UInt64.size) : ReadsBack encodeNat (decodeNat 8) n :=
  decodeNat_encodeNat (by decide) h

theorem fold_lt {i : Int} {n : Nat} (hlo : -(n : Int) ≤ i) (hhi : i < n) : fold i < 2 * n := by
  rw [fold]
  split <;> omega

/-- The bytes of a kind count as many numbers as the kind has values. -/
theorem pow_bytes (k : IntKind) : Nat.pow 256 (k.bits / 8) = 2 * (1 <<< (k.bits - 1)) ∧
    Nat.pow 256 (k.bits / 8) = 1 <<< k.bits := by
  cases k <;> decide

theorem fold_val_lt {k : IntKind} (hsigned : k.signed = true) (x : k.El) :
    fold x.val < Nat.pow 256 (k.bits / 8) := by
  obtain ⟨hlo, hhi⟩ := x.property
  rw [IntKind.lo, if_pos hsigned] at hlo
  rw [IntKind.hi, if_pos hsigned] at hhi
  rw [(pow_bytes k).1]
  exact fold_lt hlo (Int.lt_of_le_sub_one hhi)

theorem val_lt {k : IntKind} (hsigned : k.signed = false) (x : k.El) :
    (x.val.toNat : Int) = x.val ∧ x.val.toNat < Nat.pow 256 (k.bits / 8) := by
  obtain ⟨hlo, hhi⟩ := x.property
  rw [IntKind.lo, if_neg (by simp [hsigned])] at hlo
  rw [IntKind.hi, if_neg (by simp [hsigned])] at hhi
  have hval := Int.toNat_of_nonneg hlo
  rw [(pow_bytes k).2]
  omega

/-- An integer of a kind of one byte is read back from the byte. -/
theorem ofByte_val {k : IntKind} (h8 : k.bits = 8) (x : k.El) :
    (if k.signed && 128 ≤ x.val % 256 then x.val % 256 - 256 else x.val % 256) = x.val := by
  obtain ⟨hlo, hhi⟩ := x.property
  cases hsigned : k.signed with
  | true =>
    simp only [IntKind.lo, IntKind.hi, hsigned, h8, if_true] at hlo hhi
    simp only [Bool.true_and, decide_eq_true_eq]
    split <;> omega
  | false =>
    simp only [IntKind.lo, IntKind.hi, hsigned, h8, Bool.false_eq_true, if_false] at hlo hhi
    simp only [Bool.false_and, Bool.false_eq_true, if_false]
    omega

/-- A value of an integer kind is read back. -/
theorem readsBack_int (k : IntKind) (x : k.El) : ReadsBack (encodeInt k) (decodeInt k) x := by
  intro rest
  unfold encodeInt decodeInt
  -- integers of one byte are that byte; wider ones are written with as many bytes as they need
  by_cases h8 : (k.bits == 8) = true
  · have hbyte : ((byte (x.val % 256).toNat).toNat : Int) = x.val % 256 := by
      rw [toNat_byte (by omega)]
      omega
    simp only [h8, if_true, List.singleton_append, hbyte, ofByte_val (beq_iff_eq.mp h8),
      IntKind.ofInt?_val, Option.map_some]
  · have hwidth : k.bits / 8 ∈ [2, 4, 8, 16] := by
      cases k <;> first | exact absurd rfl h8 | decide
    rw [if_neg h8, if_neg h8]
    cases hsigned : k.signed with
    | true =>
      rw [if_pos rfl, decodeNat_encodeNat hwidth (fold_val_lt hsigned x) rest]
      simp only [if_true, unfold_fold, IntKind.ofInt?_val, Option.map_some]
    | false =>
      obtain ⟨hval, hlt⟩ := val_lt hsigned x
      rw [if_neg (by decide), decodeNat_encodeNat hwidth hlt rest]
      simp only [Bool.false_eq_true, if_false, hval, IntKind.ofInt?_val, Option.map_some]

/-- A floating point number is read back if its bytes hold all bits of its format. -/
theorem readsBack_binary {f : Format} (hf : f.patterns ≤ Nat.pow 256 f.bytes) (x : Binary f) :
    ReadsBack encodeBinary (decodeBinary f) x := by
  intro rest
  have hbits : x.bits.val < Nat.pow 256 f.bytes := Nat.lt_of_lt_of_le x.bits.isLt hf
  have hx : Binary.ofBits f x.bits.val = x :=
    congrArg Binary.mk (Fin.ext (Nat.mod_eq_of_lt x.bits.isLt))
  simp only [encodeBinary, decodeBinary, takeLittleEndian_littleEndian hbits, Option.map_some, hx]

theorem readsBack_bool (b : Bool) : ReadsBack encodeBool decodeBool b := by
  intro rest
  cases b <;> rfl

/-! ### Texts, options, lists and pairs -/

/-- The number of bytes of a text is a number of 64 bits. -/
def TextFits (s : String) : Prop := (encodeText s).length < UInt64.size

instance (s : String) : Decidable (TextFits s) :=
  inferInstanceAs (Decidable ((encodeText s).length < UInt64.size))

/-- A text is read back. -/
theorem readsBack_string {s : String} (h : TextFits s) :
    ReadsBack encodeString decodeString s := by
  intro rest
  simp only [encodeString, decodeString, List.append_assoc,
    decodeNat_length h (encodeText s ++ rest), takeBytes_append, decodeText?_encodeText,
    Option.map_some]

section Collections

variable {α β : Type} {encode : α → List UInt8} {decode : Decoder α} {encode' : β → List UInt8}
  {decode' : Decoder β}

/-- An optional value is read back. -/
theorem readsBack_option {x : Option α} (h : ∀ y, x = some y → ReadsBack encode decode y) :
    ReadsBack (encodeOption encode) (decodeOption decode) x := by
  intro rest
  cases x with
  | none => rfl
  | some y =>
    have hy : decodeOption decode (1 :: (encode y ++ rest)) =
        (decode (encode y ++ rest)).map fun p => (some p.1, p.2) := rfl
    rw [encodeOption, List.cons_append, hy, h y rfl rest, Option.map_some]

/-- As many items are read back as were written. -/
theorem decodeItems_encodeItems {xs : List α} (h : ∀ y ∈ xs, ReadsBack encode decode y)
    (rest : List UInt8) :
    decodeItems decode xs.length (encodeItems encode xs ++ rest) = some (xs, rest) := by
  induction xs with
  | nil => rfl
  | cons x xs ih =>
    have hx := h x List.mem_cons_self (encodeItems encode xs ++ rest)
    have hxs := ih fun y hy => h y (List.mem_cons_of_mem x hy)
    rw [encodeItems] at hx hxs
    simp only [encodeItems, List.length_cons, List.flatMap_cons, List.append_assoc, decodeItems, hx,
      hxs]

/-- A list is read back. -/
theorem readsBack_list {xs : List α} (hlength : xs.length < UInt64.size)
    (h : ∀ y ∈ xs, ReadsBack encode decode y) :
    ReadsBack (encodeList encode) (decodeList decode) xs := by
  intro rest
  simp only [encodeList, decodeList, List.append_assoc, decodeNat_length hlength _,
    decodeItems_encodeItems h rest]

/-- A pair is read back. -/
theorem readsBack_pair {p : α × β} (hfirst : ReadsBack encode decode p.1)
    (hsecond : ReadsBack encode' decode' p.2) :
    ReadsBack (encodePair encode encode') (decodePair decode decode') p := by
  intro rest
  simp only [encodePair, decodePair, List.append_assoc, hfirst _, hsecond rest, Option.map_some]

end Collections

end TypedSheets.Bytes
