import CommentedCode.Text.Utf8
/-!
# Encoding and decoding

The bytes of a character are read as that character and no more, so decoding undoes encoding,
also on a slice whose ends lie between characters.
-/
namespace CommentedCode.Utf8

theorem isContinuation_iff (b : UInt8) :
    isContinuation b = true ↔ 0x80 ≤ b.toNat ∧ b.toNat < 0xC0 := by
  simp [isContinuation, UInt8.le_iff_toNat_le, UInt8.lt_iff_toNat_lt]

theorem continues_iff (a b : UInt8) :
    continues a b = true ↔ isContinuation b = true ∧ (a.toNat = 0xE0 → 0xA0 ≤ b.toNat) ∧
      (a.toNat = 0xED → b.toNat < 0xA0) ∧ (a.toNat = 0xF0 → 0x90 ≤ b.toNat) ∧
      (a.toNat = 0xF4 → b.toNat < 0x90) := by
  have heq (n : UInt8) : a = n ↔ a.toNat = n.toNat := UInt8.toNat_inj.symm
  simp only [continues, Bool.and_eq_true, heq]
  apply and_congr_right
  intro _
  split <;> rename_i h0
  · simp [h0, UInt8.le_iff_toNat_le]
  split <;> rename_i h1
  · simp [h1, UInt8.lt_iff_toNat_lt]
  split <;> rename_i h2
  · simp [h2, UInt8.le_iff_toNat_le]
  split <;> rename_i h3
  · simp [h3, UInt8.lt_iff_toNat_lt]
  · simpa using ⟨fun h => absurd h h0, fun h => absurd h h1, fun h => absurd h h2,
      fun h => absurd h h3⟩

private theorem not_lt_byte {a n : UInt8} {k : Nat} (hn : n.toNat ≤ k) (h : k ≤ a.toNat) :
    ¬a < n := by
  rw [UInt8.lt_iff_toNat_lt]
  omega

private theorem piece_one {b : UInt8} (h : b.toNat < 0x80) (rest : Bytes) :
    piece b rest = .char (Char.ofNat b.toNat) 0 := by
  have h : b < 0x80 := UInt8.lt_iff_toNat_lt.mpr h
  unfold piece
  rw [if_pos h]

private theorem piece_two {a b : UInt8} (hl : 0xC2 ≤ a.toNat) (hu : a.toNat < 0xE0)
    (hb : continues a b = true) (rest : Bytes) :
    piece a (b :: rest) = .char (Char.ofNat ((a.toNat - 0xC0) * 0x40 + low b)) 1 := by
  have h₁ : ¬a < 0x80 := not_lt_byte (by decide) hl
  have h₂ : ¬a < 0xC2 := not_lt_byte (by decide) hl
  have h₃ : a < 0xE0 := UInt8.lt_iff_toNat_lt.mpr hu
  simp only [piece, if_neg h₁, if_neg h₂, if_pos h₃, if_pos hb]

private theorem piece_three {a b c : UInt8} (hl : 0xE0 ≤ a.toNat) (hu : a.toNat < 0xF0)
    (hb : continues a b = true) (hc : isContinuation c = true) (rest : Bytes) :
    piece a (b :: c :: rest) =
      .char (Char.ofNat ((a.toNat - 0xE0) * 0x1000 + low b * 0x40 + low c)) 2 := by
  have h₁ : ¬a < 0x80 := not_lt_byte (by decide) hl
  have h₂ : ¬a < 0xC2 := not_lt_byte (by decide) hl
  have h₃ : ¬a < 0xE0 := not_lt_byte (by decide) hl
  have h₄ : a < 0xF0 := UInt8.lt_iff_toNat_lt.mpr hu
  simp only [piece, if_neg h₁, if_neg h₂, if_neg h₃, if_pos h₄, if_pos hb, if_pos hc]

private theorem piece_four {a b c d : UInt8} (hl : 0xF0 ≤ a.toNat) (hu : a.toNat < 0xF5)
    (hb : continues a b = true) (hc : isContinuation c = true) (hd : isContinuation d = true)
    (rest : Bytes) :
    piece a (b :: c :: d :: rest) =
      .char (Char.ofNat ((a.toNat - 0xF0) * 0x40000 + low b * 0x1000 + low c * 0x40 + low d))
        3 := by
  have h₁ : ¬a < 0x80 := not_lt_byte (by decide) hl
  have h₂ : ¬a < 0xC2 := not_lt_byte (by decide) hl
  have h₃ : ¬a < 0xE0 := not_lt_byte (by decide) hl
  have h₄ : ¬a < 0xF0 := not_lt_byte (by decide) hl
  have h₅ : a < 0xF5 := UInt8.lt_iff_toNat_lt.mpr hu
  simp only [piece, if_neg h₁, if_neg h₂, if_neg h₃, if_neg h₄, if_pos h₅, if_pos hb, if_pos hc,
    if_pos hd]

private theorem lead_byte {n : Nat} (h : n < 0x100) : (UInt8.ofNat n).toNat = n := by
  rw [UInt8.toNat_ofNat']
  exact Nat.mod_eq_of_lt h

private theorem tail_byte (n : Nat) :
    (UInt8.ofNat (n % 0x40 + 0x80)).toNat = n % 0x40 + 0x80 :=
  lead_byte (by omega)

private theorem isContinuation_tail (n : Nat) :
    isContinuation (UInt8.ofNat (n % 0x40 + 0x80)) = true := by
  rw [isContinuation_iff, tail_byte]
  omega

private theorem low_tail (n : Nat) : low (UInt8.ofNat (n % 0x40 + 0x80)) = n % 0x40 := by
  have h := tail_byte n
  unfold low
  omega

private theorem piece_two_bytes {v : Nat} (hl : 0x80 ≤ v) (hu : v < 0x800) (rest : Bytes) :
    piece (UInt8.ofNat (v / 64 % 0x20 + 0xC0)) (UInt8.ofNat (v % 0x40 + 0x80) :: rest) =
      .char (Char.ofNat v) 1 := by
  have hlead : (UInt8.ofNat (v / 64 % 0x20 + 0xC0)).toNat = v / 64 % 0x20 + 0xC0 :=
    lead_byte (by omega)
  have hcont : continues (UInt8.ofNat (v / 64 % 0x20 + 0xC0))
      (UInt8.ofNat (v % 0x40 + 0x80)) = true := by
    rw [continues_iff, hlead, tail_byte]
    refine ⟨isContinuation_tail v, ?_⟩
    omega
  rw [piece_two (by omega) (by omega) hcont, hlead, low_tail]
  congr 2
  omega

private theorem piece_three_bytes {v : Nat} (hl : 0x800 ≤ v) (hu : v < 0x10000)
    (hs : v < 0xD800 ∨ 0xDFFF < v) (rest : Bytes) :
    piece (UInt8.ofNat (v / 4096 % 0x10 + 0xE0))
      (UInt8.ofNat (v / 64 % 0x40 + 0x80) :: UInt8.ofNat (v % 0x40 + 0x80) :: rest) =
      .char (Char.ofNat v) 2 := by
  have hlead : (UInt8.ofNat (v / 4096 % 0x10 + 0xE0)).toNat = v / 4096 % 0x10 + 0xE0 :=
    lead_byte (by omega)
  have hcont : continues (UInt8.ofNat (v / 4096 % 0x10 + 0xE0))
      (UInt8.ofNat (v / 64 % 0x40 + 0x80)) = true := by
    rw [continues_iff, hlead, tail_byte]
    refine ⟨isContinuation_tail _, ?_⟩
    omega
  rw [piece_three (by omega) (by omega) hcont (isContinuation_tail v), hlead, low_tail, low_tail]
  congr 2
  omega

private theorem piece_four_bytes {v : Nat} (hl : 0x10000 ≤ v) (hu : v < 0x110000) (rest : Bytes) :
    piece (UInt8.ofNat (v / 262144 % 0x08 + 0xF0))
      (UInt8.ofNat (v / 4096 % 0x40 + 0x80) :: UInt8.ofNat (v / 64 % 0x40 + 0x80) ::
        UInt8.ofNat (v % 0x40 + 0x80) :: rest) = .char (Char.ofNat v) 3 := by
  have hlead : (UInt8.ofNat (v / 262144 % 0x08 + 0xF0)).toNat = v / 262144 % 0x08 + 0xF0 :=
    lead_byte (by omega)
  have hcont : continues (UInt8.ofNat (v / 262144 % 0x08 + 0xF0))
      (UInt8.ofNat (v / 4096 % 0x40 + 0x80)) = true := by
    rw [continues_iff, hlead, tail_byte]
    refine ⟨isContinuation_tail _, ?_⟩
    omega
  rw [piece_four (by omega) (by omega) hcont (isContinuation_tail _) (isContinuation_tail v),
    hlead, low_tail, low_tail, low_tail]
  congr 2
  omega

theorem piece_encodeChar (c : Char) :
    ∃ b tail, String.utf8EncodeChar c = b :: tail ∧
      ∀ rest, piece b (tail ++ rest) = .char c tail.length := by
  have hvalid := c.valid
  rw [UInt32.isValidChar, Nat.isValidChar] at hvalid
  have hc : Char.ofNat c.val.toNat = c := Char.ofNat_toNat c
  unfold String.utf8EncodeChar
  generalize c.val.toNat = v at hvalid hc
  rw [← hc]
  dsimp only
  split <;> rename_i h₁
  · have hv : (UInt8.ofNat v).toNat = v := lead_byte (by omega)
    refine ⟨_, [], rfl, fun rest => ?_⟩
    rw [piece_one (by omega), hv]
    rfl
  split <;> rename_i h₂
  · exact ⟨_, [_], rfl, piece_two_bytes (by omega) (by omega)⟩
  split <;> rename_i h₃
  · exact ⟨_, [_, _], rfl, piece_three_bytes (by omega) (by omega) (by omega)⟩
  · exact ⟨_, [_, _, _], rfl, piece_four_bytes (by omega) (by omega)⟩

theorem encode_cons (c : Char) (cs : Text) :
    encode (c :: cs) = String.utf8EncodeChar c ++ encode cs := rfl

private theorem encode_append (as bs : Text) : encode (as ++ bs) = encode as ++ encode bs :=
  List.flatMap_append

theorem length_le_encode (cs : Text) : cs.length ≤ (encode cs).length := by
  induction cs with
  | nil => exact Nat.le_refl _
  | cons c cs ih =>
    have hpos := c.utf8Size_pos
    rw [encode_cons, List.length_append, String.length_utf8EncodeChar, List.length_cons]
    omega

private theorem decodeFrom_skip (position : Nat) (covered rest : Bytes) :
    decodeFrom position covered.length (covered ++ rest) =
      decodeFrom (position + covered.length) 0 rest := by
  induction covered generalizing position with
  | nil => rfl
  | cons b bs ih =>
    rw [List.cons_append, List.length_cons, decodeFrom, ih (position + 1)]
    congr 1
    omega

private theorem decodeFrom_encode (position : Nat) (cs : Text) (rest : Bytes) :
    decodeFrom position 0 (encode cs ++ rest) =
      (decodeFrom (position + (encode cs).length) 0 rest).map (cs ++ ·) := by
  induction cs generalizing position with
  | nil => cases h : decodeFrom position 0 rest <;> simp [encode, h, Except.map]
  | cons c cs ih =>
    obtain ⟨b, tail, hbytes, hpiece⟩ := piece_encodeChar c
    have hlength : (encode (c :: cs)).length = tail.length + 1 + (encode cs).length := by
      rw [encode_cons, hbytes, List.length_append, List.length_cons]
    rw [hlength, encode_cons, hbytes, List.append_assoc, List.cons_append, decodeFrom,
      hpiece (encode cs ++ rest)]
    dsimp only
    rw [decodeFrom_skip, ih]
    rw [show position + 1 + tail.length + (encode cs).length =
      position + (tail.length + 1 + (encode cs).length) by omega]
    cases decodeFrom (position + (tail.length + 1 + (encode cs).length)) 0 rest <;> rfl

theorem decode?_encode (cs : Text) : decode? (encode cs) = .ok cs := by
  have h := decodeFrom_encode 0 cs []
  rw [List.append_nil] at h
  rw [decode?, h, decodeFrom]
  simp [Except.map]

private theorem piecesFrom_skip (covered rest : Bytes) :
    piecesFrom covered.length (covered ++ rest) = piecesFrom 0 rest := by
  induction covered with
  | nil => rfl
  | cons b bs ih => exact ih

private theorem decodeLossy_of_char {b : UInt8} {tail rest : Bytes} {c : Char}
    (h : piece b (tail ++ rest) = .char c tail.length) :
    decodeLossy (b :: (tail ++ rest)) = c :: decodeLossy rest := by
  rw [decodeLossy, pieces, piecesFrom, h]
  dsimp only [Piece.size]
  rw [piecesFrom_skip, List.filterMap_cons]
  rfl

theorem decodeLossy_of_fault {b : UInt8} {covered rest : Bytes} {kind : Fault}
    (h : piece b (covered ++ rest) = .fault kind covered.length) :
    decodeLossy (b :: (covered ++ rest)) = decodeLossy rest := by
  rw [decodeLossy, pieces, piecesFrom, h]
  dsimp only [Piece.size]
  rw [piecesFrom_skip, List.filterMap_cons]
  rfl

theorem decodeLossy_encode_append (cs : Text) (rest : Bytes) :
    decodeLossy (encode cs ++ rest) = cs ++ decodeLossy rest := by
  induction cs with
  | nil => rfl
  | cons c cs ih =>
    obtain ⟨b, tail, hbytes, hpiece⟩ := piece_encodeChar c
    rw [encode_cons, hbytes, List.append_assoc, List.cons_append, decodeLossy_of_char (hpiece _),
      ih, List.cons_append]

theorem decodeLossy_encode (cs : Text) : decodeLossy (encode cs) = cs := by
  have hnil : decodeLossy [] = [] := rfl
  rw [← List.append_nil (encode cs), decodeLossy_encode_append, hnil, List.append_nil]

theorem slice_encode (before text behind : Text) :
    ((encode (before ++ (text ++ behind))).drop (encode before).length).take
      (encode text).length = encode text := by
  rw [encode_append, encode_append, List.drop_left, List.take_left]

end CommentedCode.Utf8
