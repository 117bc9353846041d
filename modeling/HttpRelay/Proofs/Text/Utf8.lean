import HttpRelay.Text.Utf8

/-!
# Decoding what was encoded

Every text is read back from its UTF-8 encoding.

* `piece_utf8EncodeChar`: the first piece of an encoded character is that character;
* `decode?_ofText`: decoding undoes encoding;
* `ofText_ascii`: characters below 128 are encoded by themselves.
-/

namespace HttpRelay.Text.Utf8

section Lead

variable {b : UInt8}

/-- The lead bytes of characters of two bytes. -/
theorem lead?_two (hlo : 0xC2 ≤ b.toNat) (hhi : b.toNat ≤ 0xDF) :
    lead? b = some (1, 0x80, 0xBF) := by
  have hrange : (0xC2 ≤ b && b ≤ 0xDF) = true := by
    simp [UInt8.le_iff_toNat_le, hlo, hhi]
  rw [lead?, if_pos hrange]

/-- The lead bytes of characters of three bytes, with the least and greatest second byte. -/
theorem lead?_three (hlo : 0xE0 ≤ b.toNat) (hhi : b.toNat ≤ 0xEF) :
    lead? b = some (2, if b.toNat = 0xE0 then 0xA0 else 0x80,
      if b.toNat = 0xED then 0x9F else 0xBF) := by
  have hnot : ¬ b.toNat ≤ 0xDF := by omega
  -- The first and the last but two of these lead bytes have ranges of their own.
  by_cases hfirst : b.toNat = 0xE0
  · obtain rfl : b = 0xE0 := UInt8.toNat_inj.mp hfirst
    rfl
  · by_cases hsurrogate : b.toNat = 0xED
    · obtain rfl : b = 0xED := UInt8.toNat_inj.mp hsurrogate
      rfl
    · have hne : ¬ b = 0xE0 := fun h => hfirst (by rw [h]; rfl)
      have hne' : ¬ b = 0xED := fun h => hsurrogate (by rw [h]; rfl)
      have hlo' : 0xE1 ≤ b.toNat := by omega
      simp [lead?, UInt8.le_iff_toNat_le, hnot, hne, hne', hlo', hhi, hfirst, hsurrogate]

/-- The lead bytes of characters of four bytes, with the least and greatest second byte. -/
theorem lead?_four (hlo : 0xF0 ≤ b.toNat) (hhi : b.toNat ≤ 0xF4) :
    lead? b = some (3, if b.toNat = 0xF0 then 0x90 else 0x80,
      if b.toNat = 0xF4 then 0x8F else 0xBF) := by
  by_cases hfirst : b.toNat = 0xF0
  · obtain rfl : b = 0xF0 := UInt8.toNat_inj.mp hfirst
    rfl
  · by_cases hlast : b.toNat = 0xF4
    · obtain rfl : b = 0xF4 := UInt8.toNat_inj.mp hlast
      rfl
    · -- neither a lead byte of three bytes nor one at the edge of the range
      have hne : ¬ b = 0xF0 := fun h => hfirst (by rw [h]; rfl)
      have hne' : ¬ b = 0xF4 := fun h => hlast (by rw [h]; rfl)
      have hother : ¬ b = 0xE0 ∧ ¬ b = 0xED := by
        constructor <;> rintro rfl <;> simp at hlo
      have hlo' : 0xF1 ≤ b.toNat := by omega
      have hhi' : b.toNat ≤ 0xF3 := by omega
      have hnot : ¬ b.toNat ≤ 0xDF := by omega
      have hnot' : ¬ b.toNat ≤ 0xEF := by omega
      simp [lead?, UInt8.le_iff_toNat_le, hnot, hnot', hne, hother, hlo', hhi', hfirst, hlast]

end Lead

section Shape

variable {b b₁ b₂ b₃ lo hi : UInt8} (hlead : ¬ b < 0x80) (hrange : lo ≤ b₁ ∧ b₁ ≤ hi)
  (rest : Bytes)

include hlead hrange

/-- A character of two bytes. -/
theorem piece_two (h : lead? b = some (1, lo, hi)) :
    piece b (b₁ :: rest) = .character (Char.ofNat (b.toNat % 32 * 64 + low b₁)) rest := by
  simp [piece, hlead, h, hrange]

/-- A character of three bytes. -/
theorem piece_three (h : lead? b = some (2, lo, hi)) (h₂ : isContinuation b₂ = true) :
    piece b (b₁ :: b₂ :: rest) =
      .character (Char.ofNat ((b.toNat % 16 * 64 + low b₁) * 64 + low b₂)) rest := by
  simp [piece, hlead, h, hrange, h₂]

/-- A character of four bytes. -/
theorem piece_four (h : lead? b = some (3, lo, hi)) (h₂ : isContinuation b₂ = true)
    (h₃ : isContinuation b₃ = true) :
    piece b (b₁ :: b₂ :: b₃ :: rest) =
      .character (Char.ofNat (((b.toNat % 8 * 64 + low b₁) * 64 + low b₂) * 64 + low b₃)) rest := by
  simp [piece, hlead, h, hrange, h₂, h₃]

end Shape

section Character

variable (c : Char) (rest : Bytes)

/-- The number of a byte. -/
private theorem toNat_byte {n : Nat} (h : n < 256) : (UInt8.ofNat n).toNat = n :=
  UInt8.toNat_ofNat_of_lt' h

/-- A byte from 128 on is no character by itself. -/
private theorem not_lt_byte {n : Nat} (hlo : 0x80 ≤ n) (hhi : n < 256) :
    ¬ UInt8.ofNat n < 0x80 := by
  rw [UInt8.lt_iff_toNat_lt, toNat_byte hhi]
  exact Nat.not_lt_of_le hlo

/-- The payload bits of a continuation byte. -/
private theorem low_byte (n : Nat) : low (UInt8.ofNat (n % 64 + 0x80)) = n % 64 := by
  rw [low, toNat_byte (by omega)]
  omega

/-- A continuation byte is one. -/
private theorem isContinuation_byte (n : Nat) :
    isContinuation (UInt8.ofNat (n % 64 + 0x80)) = true := by
  have hbyte := toNat_byte (n := n % 64 + 0x80) (by omega)
  simp only [isContinuation, UInt8.le_iff_toNat_le, hbyte, Bool.and_eq_true, decide_eq_true_eq]
  constructor
  · simp
  · simp
    omega

/-- A byte lies in a range when its number does. -/
private theorem byte_mem (lo hi : UInt8) {n : Nat} (h : n < 256) (hlo : lo.toNat ≤ n)
    (hhi : n ≤ hi.toNat) : lo ≤ UInt8.ofNat n ∧ UInt8.ofNat n ≤ hi := by
  rw [UInt8.le_iff_toNat_le, UInt8.le_iff_toNat_le, toNat_byte h]
  exact ⟨hlo, hhi⟩

/-- A character below 128 is read back. -/
private theorem piece_encoded_one (h : c.toNat ≤ 0x7F) :
    piece (UInt8.ofNat c.toNat) rest = .character c rest := by
  have hbyte := toNat_byte (n := c.toNat) (by omega)
  have hsmall : UInt8.ofNat c.toNat < 0x80 := by
    rw [UInt8.lt_iff_toNat_lt, hbyte]
    exact Nat.lt_succ_of_le h
  rw [piece, if_pos hsmall, hbyte, Char.ofNat_toNat]

/-- A character that takes two bytes is read back. -/
private theorem piece_encoded_two (hlo : 0x7F < c.toNat) (hhi : c.toNat ≤ 0x7FF) :
    piece (UInt8.ofNat (c.toNat / 64 % 32 + 0xC0)) (UInt8.ofNat (c.toNat % 64 + 0x80) :: rest) =
      .character c rest := by
  have hbyte := toNat_byte (n := c.toNat / 64 % 32 + 0xC0) (by omega)
  have hlead := lead?_two (b := UInt8.ofNat (c.toNat / 64 % 32 + 0xC0)) (by omega) (by omega)
  have hrange := byte_mem 0x80 0xBF (n := c.toNat % 64 + 0x80) (by omega) (by simp)
    (by simp; omega)
  have hvalue : (c.toNat / 64 % 32 + 0xC0) % 32 * 64 + c.toNat % 64 = c.toNat := by omega
  rw [piece_two (not_lt_byte (by omega) (by omega)) hrange rest hlead, hbyte, low_byte, hvalue,
    Char.ofNat_toNat]

/-- A character that takes three bytes is read back. The surrogates, which the range of the second
byte excludes, are no characters. -/
private theorem piece_encoded_three (hlo : 0x7FF < c.toNat) (hhi : c.toNat ≤ 0xFFFF) :
    piece (UInt8.ofNat (c.toNat / 4096 % 16 + 0xE0))
      (UInt8.ofNat (c.toNat / 64 % 64 + 0x80) :: UInt8.ofNat (c.toNat % 64 + 0x80) :: rest) =
      .character c rest := by
  have hvalid : c.toNat < 0xD800 ∨ 0xDFFF < c.toNat ∧ c.toNat < 0x110000 := c.valid
  have hbyte := toNat_byte (n := c.toNat / 4096 % 16 + 0xE0) (by omega)
  have hlead := lead?_three (b := UInt8.ofNat (c.toNat / 4096 % 16 + 0xE0)) (by omega) (by omega)
  rw [hbyte] at hlead
  -- The range of the second byte keeps the value above 0x7FF, and out of the surrogates.
  have hlow : (if c.toNat / 4096 % 16 + 0xE0 = 0xE0 then 0xA0 else 0x80 : UInt8).toNat ≤
      c.toNat / 64 % 64 + 0x80 := by
    split
    · simp
      omega
    · simp
  have hhigh : c.toNat / 64 % 64 + 0x80 ≤
      (if c.toNat / 4096 % 16 + 0xE0 = 0xED then 0x9F else 0xBF : UInt8).toNat := by
    split
    · simp
      omega
    · simp
      omega
  have hrange := byte_mem _ _ (by omega) hlow hhigh
  have hvalue : ((c.toNat / 4096 % 16 + 0xE0) % 16 * 64 + c.toNat / 64 % 64) * 64 + c.toNat % 64
      = c.toNat := by omega
  rw [piece_three (not_lt_byte (by omega) (by omega)) hrange rest hlead
    (isContinuation_byte c.toNat), hbyte, low_byte, low_byte, hvalue, Char.ofNat_toNat]

/-- A character that takes four bytes is read back. -/
private theorem piece_encoded_four (hlo : 0xFFFF < c.toNat) :
    piece (UInt8.ofNat (c.toNat / 262144 % 8 + 0xF0))
      (UInt8.ofNat (c.toNat / 4096 % 64 + 0x80) :: UInt8.ofNat (c.toNat / 64 % 64 + 0x80) ::
        UInt8.ofNat (c.toNat % 64 + 0x80) :: rest) = .character c rest := by
  have hvalid : c.toNat < 0xD800 ∨ 0xDFFF < c.toNat ∧ c.toNat < 0x110000 := c.valid
  have hbyte := toNat_byte (n := c.toNat / 262144 % 8 + 0xF0) (by omega)
  have hlead := lead?_four (b := UInt8.ofNat (c.toNat / 262144 % 8 + 0xF0)) (by omega) (by omega)
  rw [hbyte] at hlead
  -- The range of the second byte keeps the value above 0xFFFF, and below 0x110000.
  have hlow : (if c.toNat / 262144 % 8 + 0xF0 = 0xF0 then 0x90 else 0x80 : UInt8).toNat ≤
      c.toNat / 4096 % 64 + 0x80 := by
    split
    · simp
      omega
    · simp
  have hhigh : c.toNat / 4096 % 64 + 0x80 ≤
      (if c.toNat / 262144 % 8 + 0xF0 = 0xF4 then 0x8F else 0xBF : UInt8).toNat := by
    split
    · simp
      omega
    · simp
      omega
  have hrange := byte_mem _ _ (by omega) hlow hhigh
  have hvalue : (((c.toNat / 262144 % 8 + 0xF0) % 8 * 64 + c.toNat / 4096 % 64) * 64
      + c.toNat / 64 % 64) * 64 + c.toNat % 64 = c.toNat := by omega
  rw [piece_four (not_lt_byte (by omega) (by omega)) hrange rest hlead
    (isContinuation_byte (c.toNat / 64)) (isContinuation_byte c.toNat), hbyte, low_byte, low_byte,
    low_byte, hvalue, Char.ofNat_toNat]

/-- The first piece of an encoded character is that character. -/
theorem piece_utf8EncodeChar :
    ∃ b bs, String.utf8EncodeChar c = b :: bs ∧ piece b (bs ++ rest) = .character c rest := by
  -- The number of bytes depends on the size of the character.
  by_cases hone : c.toNat ≤ 0x7F
  · exact ⟨_, _, if_pos hone, piece_encoded_one c rest hone⟩
  by_cases htwo : c.toNat ≤ 0x7FF
  · exact ⟨_, _, (if_neg hone).trans (if_pos htwo),
      piece_encoded_two c rest (Nat.lt_of_not_le hone) htwo⟩
  by_cases hthree : c.toNat ≤ 0xFFFF
  · exact ⟨_, _, (if_neg hone).trans ((if_neg htwo).trans (if_pos hthree)),
      piece_encoded_three c rest (Nat.lt_of_not_le htwo) hthree⟩
  · exact ⟨_, _, (if_neg hone).trans ((if_neg htwo).trans (if_neg hthree)),
      piece_encoded_four c rest (Nat.lt_of_not_le hthree)⟩

end Character

/-- The pieces of encoded characters are those characters. -/
theorem piecesFrom_encoded (done : List (Option Char)) (cs : List Char) :
    piecesFrom done (cs.flatMap String.utf8EncodeChar) = done.reverse ++ cs.map some := by
  induction cs generalizing done with
  | nil => simp [piecesFrom]
  | cons c cs ih =>
    obtain ⟨b, bs, hencoded, hpiece⟩ :=
      piece_utf8EncodeChar c (cs.flatMap String.utf8EncodeChar)
    rw [List.flatMap_cons, hencoded, List.cons_append, piecesFrom, hpiece]
    change piecesFrom (some c :: done) (cs.flatMap String.utf8EncodeChar) = _
    rw [ih, List.reverse_cons, List.append_assoc, List.singleton_append, List.map_cons]

/-- The pieces of an encoded text are its characters. -/
theorem pieces_ofText (s : String) : pieces (Bytes.ofText s) = s.toList.map some := by
  rw [pieces, Bytes.ofText, piecesFrom_encoded, List.reverse_nil, List.nil_append]

/-- Decoding undoes encoding. -/
theorem decode?_ofText (s : String) : decode? (Bytes.ofText s) = some s := by
  have hall : (s.toList.map some).all Option.isSome = true := by simp
  rw [decode?, pieces_ofText, if_pos hall]
  simp [List.filterMap_map]

/-- Characters below 128 are encoded by themselves. -/
theorem ofText_ascii {cs : List Char} (h : ∀ c ∈ cs, c.toNat < 128) :
    Bytes.ofText (String.ofList cs) = cs.map fun c => UInt8.ofNat c.toNat := by
  rw [Bytes.ofText, String.toList_ofList]
  induction cs with
  | nil => rfl
  | cons c cs ih =>
    have hone : String.utf8EncodeChar c = [UInt8.ofNat c.toNat] :=
      if_pos (Nat.le_of_lt_succ (h c List.mem_cons_self))
    rw [List.flatMap_cons, hone, ih fun c' hc' => h c' (List.mem_cons_of_mem _ hc')]
    rfl

end HttpRelay.Text.Utf8
