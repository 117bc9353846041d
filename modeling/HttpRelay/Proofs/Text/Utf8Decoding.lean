import HttpRelay.Proofs.Text.Utf8

/-!
# Encoding what was decoded

Bytes that decode to a text are its encoding. Where ill-formed parts are replaced on the way, the
encoding has the bytes of the replacement character in their place, and the others as they were.

* `eq_encoded_of_piece`: a character was read off its own encoding;
* `ofText_of_decode?`: encoding undoes decoding;
* `decodeLossy_ofText`: a text is read back as it is, also by the decoding that replaces;
* `Mends`: bytes with the replacement character in the place of ill-formed parts;
* `mends_ofText_decodeLossy`: what was decoded with replacements, once it is encoded again.
-/

namespace HttpRelay.Text.Utf8

/-- The bytes below the least lead byte of two bytes and above the greatest one of four lead
nothing. -/
theorem lead?_eq_none {b : UInt8} (h : b.toNat < 0xC2 ∨ 0xF4 < b.toNat) : lead? b = none := by
  have hne : ∀ n : UInt8, 0xC2 ≤ n.toNat → n.toNat ≤ 0xF4 → (b == n) = false := by
    intro n hlo hhi
    refine beq_eq_false_iff_ne.mpr ?_
    rintro rfl
    omega
  have hnot : ∀ lo hi : UInt8, 0xC2 ≤ lo.toNat → hi.toNat ≤ 0xF4 →
      (decide (lo ≤ b) && decide (b ≤ hi)) = false := by
    intro lo hi hlo hhi
    simp only [UInt8.le_iff_toNat_le, Bool.and_eq_false_iff, decide_eq_false_iff_not]
    omega
  simp [lead?, hne, hnot]

section Encoded

variable {b b₁ b₂ b₃ : UInt8}

/-- The number of a character that is given by its number. -/
private theorem toNat_ofNat_of_valid {n : Nat} (h : n < 0xD800 ∨ 0xDFFF < n ∧ n < 0x110000) :
    (Char.ofNat n).toNat = n := by
  have hvalid : n.isValidChar := h
  have hchar : Char.ofNat n = Char.ofNatAux n hvalid := dif_pos hvalid
  rw [hchar]
  rfl

/-- A byte with the number of another one is that byte. -/
private theorem byte_eq {n : Nat} (h : n = b.toNat) : UInt8.ofNat n = b := by
  rw [h, UInt8.ofNat_toNat]

/-- The encoding of a character that is given by its byte. -/
theorem utf8EncodeChar_one (hb : b.toNat < 0x80) :
    String.utf8EncodeChar (Char.ofNat b.toNat) = [b] := by
  have hvalue := toNat_ofNat_of_valid (n := b.toNat) (by omega)
  have hone : (Char.ofNat b.toNat).toNat ≤ 0x7F := by omega
  refine (if_pos hone).trans ?_
  change [UInt8.ofNat (Char.ofNat b.toNat).toNat] = [b]
  rw [hvalue, byte_eq rfl]

/-- The encoding of a character that is given by the payload bits of two bytes. -/
theorem utf8EncodeChar_two (hb : 0xC2 ≤ b.toNat ∧ b.toNat ≤ 0xDF)
    (h₁ : 0x80 ≤ b₁.toNat ∧ b₁.toNat ≤ 0xBF) :
    String.utf8EncodeChar (Char.ofNat (b.toNat % 32 * 64 + low b₁)) = [b, b₁] := by
  rw [low]
  generalize hn : b.toNat % 32 * 64 + b₁.toNat % 64 = n
  have hvalue := toNat_ofNat_of_valid (n := n) (by omega)
  have hone : ¬ (Char.ofNat n).toNat ≤ 0x7F := by omega
  have htwo : (Char.ofNat n).toNat ≤ 0x7FF := by omega
  refine ((if_neg hone).trans (if_pos htwo)).trans ?_
  change [UInt8.ofNat ((Char.ofNat n).toNat / 64 % 32 + 0xC0),
    UInt8.ofNat ((Char.ofNat n).toNat % 64 + 0x80)] = [b, b₁]
  rw [hvalue, byte_eq (b := b) (by omega), byte_eq (b := b₁) (by omega)]

/-- The encoding of a character that is given by the payload bits of three bytes. The range of the
second one leaves out the numbers that two bytes encode, and the surrogates. -/
theorem utf8EncodeChar_three (hb : 0xE0 ≤ b.toNat ∧ b.toNat ≤ 0xEF)
    (h₁ : 0x80 ≤ b₁.toNat ∧ b₁.toNat ≤ 0xBF) (hfirst : b.toNat = 0xE0 → 0xA0 ≤ b₁.toNat)
    (hsurrogate : b.toNat = 0xED → b₁.toNat ≤ 0x9F) (h₂ : 0x80 ≤ b₂.toNat ∧ b₂.toNat ≤ 0xBF) :
    String.utf8EncodeChar (Char.ofNat ((b.toNat % 16 * 64 + low b₁) * 64 + low b₂)) =
      [b, b₁, b₂] := by
  rw [low, low]
  -- only the size of the number counts from here on
  generalize hn : (b.toNat % 16 * 64 + b₁.toNat % 64) * 64 + b₂.toNat % 64 = n
  have hvalue := toNat_ofNat_of_valid (n := n) (by omega)
  have hone : ¬ (Char.ofNat n).toNat ≤ 0x7F := by omega
  have htwo : ¬ (Char.ofNat n).toNat ≤ 0x7FF := by omega
  have hthree : (Char.ofNat n).toNat ≤ 0xFFFF := by omega
  refine ((if_neg hone).trans ((if_neg htwo).trans (if_pos hthree))).trans ?_
  change [UInt8.ofNat ((Char.ofNat n).toNat / 4096 % 16 + 0xE0),
    UInt8.ofNat ((Char.ofNat n).toNat / 64 % 64 + 0x80),
    UInt8.ofNat ((Char.ofNat n).toNat % 64 + 0x80)] = [b, b₁, b₂]
  rw [hvalue, byte_eq (b := b) (by omega), byte_eq (b := b₁) (by omega),
    byte_eq (b := b₂) (by omega)]

/-- The encoding of a character that is given by the payload bits of four bytes. The range of the
second one leaves out the numbers that three bytes encode, and those that are too large. -/
theorem utf8EncodeChar_four (hb : 0xF0 ≤ b.toNat ∧ b.toNat ≤ 0xF4)
    (h₁ : 0x80 ≤ b₁.toNat ∧ b₁.toNat ≤ 0xBF) (hfirst : b.toNat = 0xF0 → 0x90 ≤ b₁.toNat)
    (hlast : b.toNat = 0xF4 → b₁.toNat ≤ 0x8F) (h₂ : 0x80 ≤ b₂.toNat ∧ b₂.toNat ≤ 0xBF)
    (h₃ : 0x80 ≤ b₃.toNat ∧ b₃.toNat ≤ 0xBF) :
    String.utf8EncodeChar
        (Char.ofNat (((b.toNat % 8 * 64 + low b₁) * 64 + low b₂) * 64 + low b₃)) =
      [b, b₁, b₂, b₃] := by
  rw [low, low, low]
  generalize hn :
    ((b.toNat % 8 * 64 + b₁.toNat % 64) * 64 + b₂.toNat % 64) * 64 + b₃.toNat % 64 = n
  have hvalue := toNat_ofNat_of_valid (n := n) (by omega)
  have hone : ¬ (Char.ofNat n).toNat ≤ 0x7F := by omega
  have htwo : ¬ (Char.ofNat n).toNat ≤ 0x7FF := by omega
  have hthree : ¬ (Char.ofNat n).toNat ≤ 0xFFFF := by omega
  refine ((if_neg hone).trans ((if_neg htwo).trans (if_neg hthree))).trans ?_
  change [UInt8.ofNat ((Char.ofNat n).toNat / 262144 % 8 + 0xF0),
    UInt8.ofNat ((Char.ofNat n).toNat / 4096 % 64 + 0x80),
    UInt8.ofNat ((Char.ofNat n).toNat / 64 % 64 + 0x80),
    UInt8.ofNat ((Char.ofNat n).toNat % 64 + 0x80)] = [b, b₁, b₂, b₃]
  rw [hvalue, byte_eq (b := b) (by omega), byte_eq (b := b₁) (by omega),
    byte_eq (b := b₂) (by omega), byte_eq (b := b₃) (by omega)]

end Encoded

section Shape

variable {b lo hi : UInt8} {rest rest' : Bytes} {c : Char} (hlead : ¬ b < 0x80)
  (hpiece : piece b rest = .character c rest')

include hlead hpiece

/-- What a character of two bytes was read from. -/
theorem exists_of_piece_two (h : lead? b = some (1, lo, hi)) :
    ∃ b₁, rest = b₁ :: rest' ∧ (lo ≤ b₁ ∧ b₁ ≤ hi) ∧
      c = Char.ofNat (b.toNat % 32 * 64 + low b₁) := by
  rw [piece, if_neg hlead, h] at hpiece
  dsimp only at hpiece
  split at hpiece
  next => cases hpiece
  next b₁ rest =>
    split at hpiece
    next => cases hpiece
    next hrange =>
      rw [if_pos rfl] at hpiece
      cases hpiece
      exact ⟨b₁, rfl, by simpa using hrange, rfl⟩

/-- What a character of three bytes was read from. -/
theorem exists_of_piece_three (h : lead? b = some (2, lo, hi)) :
    ∃ b₁ b₂, rest = b₁ :: b₂ :: rest' ∧ (lo ≤ b₁ ∧ b₁ ≤ hi) ∧ isContinuation b₂ = true ∧
      c = Char.ofNat ((b.toNat % 16 * 64 + low b₁) * 64 + low b₂) := by
  rw [piece, if_neg hlead, h] at hpiece
  dsimp only at hpiece
  split at hpiece
  next => cases hpiece
  next b₁ rest =>
    split at hpiece
    next => cases hpiece
    next hrange =>
      rw [if_neg (by decide)] at hpiece
      split at hpiece
      next => cases hpiece
      next b₂ rest =>
        split at hpiece
        next => cases hpiece
        next h₂ =>
          rw [if_pos rfl] at hpiece
          cases hpiece
          exact ⟨b₁, b₂, rfl, by simpa using hrange, by simpa using h₂, rfl⟩

/-- What a character of four bytes was read from. -/
theorem exists_of_piece_four (h : lead? b = some (3, lo, hi)) :
    ∃ b₁ b₂ b₃, rest = b₁ :: b₂ :: b₃ :: rest' ∧ (lo ≤ b₁ ∧ b₁ ≤ hi) ∧
      isContinuation b₂ = true ∧ isContinuation b₃ = true ∧
      c = Char.ofNat (((b.toNat % 8 * 64 + low b₁) * 64 + low b₂) * 64 + low b₃) := by
  rw [piece, if_neg hlead, h] at hpiece
  dsimp only at hpiece
  split at hpiece
  next => cases hpiece
  next b₁ rest =>
    split at hpiece
    next => cases hpiece
    next hrange =>
      rw [if_neg (by decide)] at hpiece
      split at hpiece
      next => cases hpiece
      next b₂ rest =>
        split at hpiece
        next => cases hpiece
        next h₂ =>
          rw [if_neg (by decide)] at hpiece
          split at hpiece
          next => cases hpiece
          next b₃ rest =>
            split at hpiece
            next => cases hpiece
            next h₃ =>
              cases hpiece
              exact ⟨b₁, b₂, b₃, rfl, by simpa using hrange, by simpa using h₂, by simpa using h₃,
                rfl⟩

end Shape

section Piece

/-- A continuation byte, by its number. -/
private theorem isContinuation_iff {b : UInt8} :
    isContinuation b = true ↔ 0x80 ≤ b.toNat ∧ b.toNat ≤ 0xBF := by
  simp [isContinuation, UInt8.le_iff_toNat_le]

/-- The range of a second byte is that of a continuation byte, but for one lead byte at each end. -/
private theorem second_bounds {p q : Prop} [Decidable p] [Decidable q] {b least greatest : UInt8}
    (h : (if p then least else 0x80) ≤ b ∧ b ≤ if q then greatest else 0xBF)
    (hleast : 0x80 ≤ least.toNat) (hgreatest : greatest.toNat ≤ 0xBF) :
    (0x80 ≤ b.toNat ∧ b.toNat ≤ 0xBF) ∧ (p → least.toNat ≤ b.toNat) ∧
      (q → b.toNat ≤ greatest.toNat) := by
  simp only [UInt8.le_iff_toNat_le, apply_ite UInt8.toNat, UInt8.reduceToNat] at h
  refine ⟨?_, fun hp => ?_, fun hq => ?_⟩
  · split at h <;> split at h <;> omega
  · rw [if_pos hp] at h
    exact h.1
  · rw [if_pos hq] at h
    exact h.2

variable {b : UInt8} {rest rest' : Bytes} {c : Char}

/-- A character was read off its own encoding. -/
theorem eq_encoded_of_piece (h : piece b rest = .character c rest') :
    b :: rest = String.utf8EncodeChar c ++ rest' := by
  by_cases hone : b < 0x80
  · rw [piece, if_pos hone] at h
    cases h
    rw [utf8EncodeChar_one (UInt8.lt_iff_toNat_lt.mp hone)]
    rfl
  -- the lead byte tells the number of bytes, and the range of the second one
  rcases Nat.lt_or_ge b.toNat 0xC2 with hlow | hlow
  · rw [piece, if_neg hone, lead?_eq_none (.inl hlow)] at h
    cases h
  rcases Nat.lt_or_ge 0xF4 b.toNat with hhigh | hhigh
  · rw [piece, if_neg hone, lead?_eq_none (.inr hhigh)] at h
    cases h
  rcases Nat.lt_or_ge 0xDF b.toNat with htwo | htwo
  · rcases Nat.lt_or_ge 0xEF b.toNat with hthree | hthree
    · obtain ⟨b₁, b₂, b₃, rfl, h₁, h₂, h₃, rfl⟩ :=
        exists_of_piece_four hone h (lead?_four hthree hhigh)
      rw [isContinuation_iff] at h₂ h₃
      obtain ⟨hrange, hfirst, hlast⟩ := second_bounds h₁ (by decide) (by decide)
      rw [utf8EncodeChar_four ⟨hthree, hhigh⟩ hrange hfirst hlast h₂ h₃]
      rfl
    · obtain ⟨b₁, b₂, rfl, h₁, h₂, rfl⟩ := exists_of_piece_three hone h (lead?_three htwo hthree)
      rw [isContinuation_iff] at h₂
      obtain ⟨hrange, hfirst, hsurrogate⟩ := second_bounds h₁ (by decide) (by decide)
      rw [utf8EncodeChar_three ⟨htwo, hthree⟩ hrange hfirst hsurrogate h₂]
      rfl
  · obtain ⟨b₁, rfl, h₁, rfl⟩ := exists_of_piece_two hone h (lead?_two hlow htwo)
    rw [UInt8.le_iff_toNat_le, UInt8.le_iff_toNat_le] at h₁
    rw [utf8EncodeChar_two ⟨hlow, htwo⟩ h₁]
    rfl

/-- What is behind an ill-formed part is the end of what was there. -/
theorem suffix_of_illFormed (h : piece b rest = .illFormed rest') : rest' <:+ rest := by
  have hsuffix : (piece b rest).rest <:+ rest := by
    unfold piece
    repeat' split
    all_goals simp [Piece.rest, List.suffix_cons_iff]
  rwa [h] at hsuffix

end Piece

section Pieces

/-- The pieces that are done stand in front. -/
theorem piecesFrom_append (done front : List (Option Char)) (bytes : Bytes) :
    piecesFrom (done ++ front) bytes = front.reverse ++ piecesFrom done bytes := by
  -- the front stays behind what is done while pieces are put before it
  induction done, bytes using piecesFrom.induct with
  | case1 done => simp [piecesFrom]
  | case2 done b rest ih => rw [piecesFrom, piecesFrom, ← ih, List.cons_append]

theorem pieces_nil : pieces [] = [] := by simp [pieces, piecesFrom]

theorem pieces_cons (b : UInt8) (rest : Bytes) :
    pieces (b :: rest) = (piece b rest).char? :: pieces (piece b rest).rest := by
  rw [pieces, piecesFrom]
  exact piecesFrom_append [] [(piece b rest).char?] (piece b rest).rest

/-- Bytes below 128 are characters by themselves, whatever is behind them. -/
theorem pieces_append_ascii {front : Bytes} (h : ∀ b ∈ front, b < 0x80) (rest : Bytes) :
    pieces (front ++ rest) = (front.map fun b => Char.ofNat b.toNat).map some ++ pieces rest := by
  induction front with
  | nil => rfl
  | cons b front ih =>
    have hpiece : piece b (front ++ rest) = .character (Char.ofNat b.toNat) (front ++ rest) := by
      rw [piece, if_pos (h b List.mem_cons_self)]
    rw [List.cons_append, pieces_cons, hpiece]
    exact congrArg _ (ih fun b' hb' => h b' (List.mem_cons_of_mem b hb'))

theorem pieces_ascii {bytes : Bytes} (h : ∀ b ∈ bytes, b < 0x80) :
    pieces bytes = (bytes.map fun b => Char.ofNat b.toNat).map some := by
  have hpieces := pieces_append_ascii h []
  rwa [List.append_nil, pieces_nil, List.append_nil] at hpieces

/-- Bytes that are characters throughout are the encodings of these. -/
theorem flatMap_of_pieces {bytes : Bytes} {cs : List Char} (h : pieces bytes = cs.map some) :
    cs.flatMap String.utf8EncodeChar = bytes := by
  induction cs generalizing bytes with
  | nil =>
    cases bytes with
    | nil => rfl
    | cons b rest =>
      rw [pieces_cons] at h
      cases h
  | cons c cs ih =>
    cases bytes with
    | nil =>
      rw [pieces_nil] at h
      cases h
    | cons b rest =>
      rw [pieces_cons, List.map_cons, List.cons.injEq] at h
      cases hpiece : piece b rest with
      | illFormed rest' =>
        rw [hpiece] at h
        cases h.1
      | character c' rest' =>
        -- the bytes begin with the encoding of the first character
        rw [hpiece] at h
        obtain rfl : c' = c := Option.some.inj h.1
        rw [eq_encoded_of_piece hpiece, List.flatMap_cons, ih h.2]
        rfl

/-- Options that are all there are those of the values in them. -/
theorem eq_map_some_of_all {α : Type} {os : List (Option α)} (h : os.all Option.isSome = true) :
    os = (os.filterMap id).map some := by
  induction os with
  | nil => rfl
  | cons o os ih =>
    rw [List.all_cons, Bool.and_eq_true] at h
    obtain ⟨a, rfl⟩ := Option.isSome_iff_exists.mp h.1
    change _ = some a :: (os.filterMap id).map some
    rw [← ih h.2]

/-- Encoding undoes decoding. -/
theorem ofText_of_decode? {bytes : Bytes} {s : String} (h : decode? bytes = some s) :
    Bytes.ofText s = bytes := by
  rw [decode?] at h
  split at h
  next hall =>
    cases h
    rw [Bytes.ofText, String.toList_ofList]
    exact flatMap_of_pieces (eq_map_some_of_all hall)
  next => cases h

/-- Bytes that decode to a text have its characters for pieces. -/
theorem pieces_of_decode? {bytes : Bytes} {s : String} (h : decode? bytes = some s) :
    pieces bytes = s.toList.map some := by
  rw [← ofText_of_decode? h, pieces_ofText]

/-- Bytes below 128 decode to a text. -/
theorem isSome_decode?_ascii {bytes : Bytes} (h : ∀ b ∈ bytes, b < 0x80) :
    (decode? bytes).isSome = true := by
  have hall : ((bytes.map fun b => Char.ofNat b.toNat).map some).all Option.isSome = true := by simp
  rw [decode?, pieces_ascii h, if_pos hall]
  rfl

/-- Texts in a row are encoded one by one. -/
theorem ofText_append (s t : String) :
    Bytes.ofText (s ++ t) = Bytes.ofText s ++ Bytes.ofText t := by
  rw [Bytes.ofText, String.toList_append, List.flatMap_append]
  rfl

/-- Texts with one encoding are one text. -/
theorem ofText_inj {s t : String} : Bytes.ofText s = Bytes.ofText t ↔ s = t := by
  constructor
  · intro hsame
    have hread := decode?_ofText s
    rw [hsame, decode?_ofText, Option.some.injEq] at hread
    exact hread.symm
  · exact congrArg _

/-- A text is read back as it is also where ill-formed parts would be replaced. -/
theorem decodeLossy_ofText (s : String) : decodeLossy (Bytes.ofText s) = s := by
  have hsame : (fun c : Option Char => c.getD '\uFFFD') ∘ some = id := rfl
  rw [decodeLossy, pieces_ofText, List.map_map, hsame, List.map_id, String.ofList_toList]

end Pieces

section Replacement

/-- The encoding of the replacement character. -/
def replacement : Bytes := [0xEF, 0xBF, 0xBD]

theorem utf8EncodeChar_replacement : String.utf8EncodeChar '\uFFFD' = replacement := by decide

/-- Bytes, with the replacement character in the place of the parts that are no characters. -/
inductive Mends : Bytes → Bytes → Prop
  | nil : Mends [] []
  | character (c : Char) {bytes mended : Bytes} : Mends bytes mended →
      Mends (String.utf8EncodeChar c ++ bytes) (String.utf8EncodeChar c ++ mended)
  | illFormed {b : UInt8} {rest bytes mended : Bytes} : piece b rest = .illFormed bytes →
      Mends bytes mended → Mends (b :: rest) (replacement ++ mended)

/-- So are bytes that were decoded with replacements, once they are encoded again. -/
theorem mends_ofText_decodeLossy (bytes : Bytes) :
    Mends bytes (Bytes.ofText (decodeLossy bytes)) := by
  -- the recursion is on the pieces, each of which takes a byte at least
  match bytes with
  | [] =>
    rw [decodeLossy, pieces_nil]
    exact .nil
  | b :: rest =>
    have ih := mends_ofText_decodeLossy (piece b rest).rest
    simp only [Bytes.ofText, decodeLossy, String.toList_ofList] at ih ⊢
    rw [pieces_cons, List.map_cons, List.flatMap_cons]
    cases hpiece : piece b rest with
    | character c rest' =>
      rw [hpiece] at ih
      rw [eq_encoded_of_piece hpiece]
      exact .character c ih
    | illFormed rest' =>
      rw [hpiece] at ih
      have hmends := Mends.illFormed hpiece ih
      rwa [← utf8EncodeChar_replacement] at hmends
termination_by bytes.length
decreasing_by
  have := length_rest_piece_le b rest
  simp only [List.length_cons]
  omega

section Ends

variable {bytes mended : Bytes} (h : Mends bytes mended)

include h

/-- A byte of the mended bytes was among them, or is one of the replacement. -/
theorem Mends.mem {b : UInt8} (hb : b ∈ mended) : b ∈ bytes ∨ b ∈ replacement := by
  induction h with
  | nil => exact .inl hb
  | character c _ ih =>
    rcases List.mem_append.mp hb with hb | hb
    · exact .inl (List.mem_append_left _ hb)
    · exact (ih hb).imp_left (List.mem_append_right _)
  | illFormed hpiece _ ih =>
    rcases List.mem_append.mp hb with hb | hb
    · exact .inr hb
    · have hsuffix := suffix_of_illFormed hpiece
      exact (ih hb).imp_left fun hb => List.mem_cons_of_mem _ (hsuffix.subset hb)

/-- The first byte stays, or is that of the replacement. -/
theorem Mends.head? : mended.head? = bytes.head? ∨ mended.head? = some 0xEF := by
  cases h with
  | nil => exact .inl rfl
  | character c _ =>
    obtain ⟨b, bs, hencoded, -⟩ := piece_utf8EncodeChar c []
    rw [hencoded]
    exact .inl rfl
  | illFormed _ _ => exact .inr rfl

/-- The last byte stays, or is that of the replacement. -/
theorem Mends.getLast? : mended.getLast? = bytes.getLast? ∨ mended.getLast? = some 0xBD := by
  induction h with
  | nil => exact .inl rfl
  | @character c bytes mended _ ih =>
    rw [List.getLast?_append, List.getLast?_append]
    rcases ih with ih | ih
    · exact .inl (by rw [ih])
    · exact .inr (by rw [ih, Option.some_or])
  | @illFormed b rest bytes mended hpiece _ ih =>
    obtain ⟨front, rfl⟩ := suffix_of_illFormed hpiece
    rw [← List.cons_append, List.getLast?_append, List.getLast?_append]
    rcases ih with ih | ih
    · rw [ih]
      -- the last byte is that of the replacement only if nothing is behind the ill-formed part
      cases bytes.getLast? with
      | none => exact .inr rfl
      | some b => exact .inl rfl
    · exact .inr (by rw [ih, Option.some_or])

end Ends

end Replacement

end HttpRelay.Text.Utf8
