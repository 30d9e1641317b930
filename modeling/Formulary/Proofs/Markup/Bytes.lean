import Formulary.Proofs.Markup.Documents

/-!
# Documents as bytes

The bytes of a text are decoded to the text, whatever its characters are (`decodeUtf8_utf8`).  The
bytes of a document that was written show their encoding, so it is read as it is read as a text
(`readBytes_write`).
-/

namespace Formulary.Text

/-! ## 1. Texts as bytes -/

theorem toNat_byte {n : Nat} (h : n < 0x100) : (UInt8.ofNat n).toNat = n := by
  rw [UInt8.toNat_ofNat']
  omega

theorem continuation?_byte {n : Nat} (h : n < 0x40) :
    continuation? (UInt8.ofNat (n + 0x80)) = some n := by
  have hval : (UInt8.ofNat (n + 0x80)).toNat = n + 0x80 := toNat_byte (by omega)
  unfold continuation?
  rw [if_pos, hval, Nat.add_sub_cancel]
  rw [Bool.and_eq_true_iff, decide_eq_true_iff, decide_eq_true_iff, UInt8.le_iff_toNat_le,
    UInt8.lt_iff_toNat_lt, hval]
  show 0x80 ≤ n + 0x80 ∧ n + 0x80 < 0xC0
  omega

theorem pushCode_toNat (c : Char) (d : Decoded) : pushCode c.toNat d = d.push c := by
  have hvalid : c.toNat.isValidChar := c.valid
  rw [pushCode, if_pos hvalid, Char.ofNat_toNat]

section

variable {a : UInt8} {x y z w : Nat} (rest : List UInt8)

theorem decodeUtf8_one (ha : a.toNat < 0x80) :
    decodeUtf8 (a :: rest) = pushCode a.toNat (decodeUtf8 rest) := by
  have hlow : a < 0x80 := UInt8.lt_iff_toNat_lt.2 ha
  have hvalid : a.toNat.isValidChar := .inl (by omega)
  rw [decodeUtf8.eq_def, pushCode, if_pos hvalid]
  dsimp only
  rw [if_pos hlow]

theorem decodeUtf8_two {b : UInt8} (hb : continuation? b = some y) (hlow : 0xC2 ≤ a.toNat)
    (hhigh : a.toNat < 0xE0) :
    decodeUtf8 (a :: b :: rest) = pushCode ((a.toNat - 0xC0) * 0x40 + y) (decodeUtf8 rest) := by
  have hone : ¬a < 0x80 := by rw [UInt8.lt_iff_toNat_lt]; show ¬_ < 0x80; omega
  have htwo : (decide (0xC2 ≤ a) && decide (a < 0xE0)) = true := by
    simpa [UInt8.le_iff_toNat_le, UInt8.lt_iff_toNat_lt] using ⟨hlow, hhigh⟩
  rw [decodeUtf8, if_neg hone]
  dsimp only
  rw [hb]
  dsimp only
  rw [if_pos htwo]

theorem decodeUtf8_three {b c : UInt8} (hb : continuation? b = some y)
    (hc : continuation? c = some z) (hlow : 0xE0 ≤ a.toNat) (hhigh : a.toNat < 0xF0)
    (hlong : 0x800 ≤ ((a.toNat - 0xE0) * 0x40 + y) * 0x40 + z) :
    decodeUtf8 (a :: b :: c :: rest) =
      pushCode (((a.toNat - 0xE0) * 0x40 + y) * 0x40 + z) (decodeUtf8 rest) := by
  have hone : ¬a < 0x80 := by rw [UInt8.lt_iff_toNat_lt]; show ¬_ < 0x80; omega
  have htwo : ¬(decide (0xC2 ≤ a) && decide (a < 0xE0)) = true := by
    simpa [UInt8.le_iff_toNat_le, UInt8.lt_iff_toNat_lt] using fun _ => hlow
  have hthree : (decide (0xE0 ≤ a) && decide (a < 0xF0)) = true := by
    simpa [UInt8.le_iff_toNat_le, UInt8.lt_iff_toNat_lt] using ⟨hlow, hhigh⟩
  rw [decodeUtf8, if_neg hone]
  dsimp only
  rw [hb]
  dsimp only
  rw [if_neg htwo, hc]
  dsimp only
  rw [if_pos hthree, if_neg (by omega)]

theorem decodeUtf8_four {b c d : UInt8} (hb : continuation? b = some y)
    (hc : continuation? c = some z) (hd : continuation? d = some w) (hlow : 0xF0 ≤ a.toNat)
    (hhigh : a.toNat < 0xF5)
    (hlong : 0x10000 ≤ (((a.toNat - 0xF0) * 0x40 + y) * 0x40 + z) * 0x40 + w) :
    decodeUtf8 (a :: b :: c :: d :: rest) =
      pushCode ((((a.toNat - 0xF0) * 0x40 + y) * 0x40 + z) * 0x40 + w) (decodeUtf8 rest) := by
  have hone : ¬a < 0x80 := by rw [UInt8.lt_iff_toNat_lt]; show ¬_ < 0x80; omega
  have htwo : ¬(decide (0xC2 ≤ a) && decide (a < 0xE0)) = true := by
    simp [UInt8.le_iff_toNat_le, UInt8.lt_iff_toNat_lt]; omega
  have hthree : ¬(decide (0xE0 ≤ a) && decide (a < 0xF0)) = true := by
    simp [UInt8.le_iff_toNat_le, UInt8.lt_iff_toNat_lt]; omega
  have hfour : ¬(decide (a < 0xF0) || decide (0xF5 ≤ a) ||
      decide ((((a.toNat - 0xF0) * 0x40 + y) * 0x40 + z) * 0x40 + w < 0x10000)) = true := by
    simp [UInt8.le_iff_toNat_le, UInt8.lt_iff_toNat_lt]; omega
  rw [decodeUtf8, if_neg hone]
  dsimp only
  rw [hb]
  dsimp only
  rw [if_neg htwo, hc]
  dsimp only
  rw [if_neg hthree, hd]
  dsimp only
  rw [if_neg hfour]

end

theorem decodeUtf8_encodeChar (c : Char) (rest : List UInt8) :
    decodeUtf8 (String.utf8EncodeChar c ++ rest) = (decodeUtf8 rest).push c := by
  have hmax : c.toNat < 0x110000 := by
    have hvalid : c.toNat.isValidChar := c.valid
    unfold Nat.isValidChar at hvalid
    omega
  have hval : c.val.toNat = c.toNat := rfl
  unfold String.utf8EncodeChar
  rw [← pushCode_toNat, hval]
  generalize c.toNat = v at hmax ⊢
  dsimp only
  -- one, two, three or four bytes
  split
  · have ha : (UInt8.ofNat v).toNat = v := toNat_byte (by omega)
    rw [List.singleton_append, decodeUtf8_one rest (by omega), ha]
  split
  · have ha : (UInt8.ofNat (v / 64 % 32 + 192)).toNat = v / 64 % 32 + 192 := toNat_byte (by omega)
    show decodeUtf8 (_ :: _ :: rest) = _
    rw [decodeUtf8_two rest (continuation?_byte (by omega)) (by omega) (by omega), ha]
    congr 1
    omega
  split
  · have ha : (UInt8.ofNat (v / 4096 % 16 + 224)).toNat = v / 4096 % 16 + 224 :=
      toNat_byte (by omega)
    show decodeUtf8 (_ :: _ :: _ :: rest) = _
    rw [decodeUtf8_three rest (continuation?_byte (by omega)) (continuation?_byte (by omega))
      (by omega) (by omega) (by omega), ha]
    congr 1
    omega
  · have ha : (UInt8.ofNat (v / 262144 % 8 + 240)).toNat = v / 262144 % 8 + 240 :=
      toNat_byte (by omega)
    show decodeUtf8 (_ :: _ :: _ :: _ :: rest) = _
    rw [decodeUtf8_four rest (continuation?_byte (by omega)) (continuation?_byte (by omega))
      (continuation?_byte (by omega)) (by omega) (by omega) (by omega), ha]
    congr 1
    omega

theorem exists_encodeChar {c : Char} (h : c.toNat ≠ 0) :
    ∃ b bytes, String.utf8EncodeChar c = b :: bytes ∧ b ≠ 0 := by
  have hval : c.val.toNat = c.toNat := rfl
  have hne {n : Nat} (h : 0 < n) (hmax : n < 0x100) : UInt8.ofNat n ≠ 0 := by
    intro hzero
    have hnat := toNat_byte hmax
    rw [hzero] at hnat
    exact absurd hnat (by simpa using Nat.ne_of_lt h)
  unfold String.utf8EncodeChar
  rw [hval]
  dsimp only
  split
  · exact ⟨_, _, rfl, hne (by omega) (by omega)⟩
  split
  · exact ⟨_, _, rfl, hne (by omega) (by omega)⟩
  split
  · exact ⟨_, _, rfl, hne (by omega) (by omega)⟩
  · exact ⟨_, _, rfl, hne (by omega) (by omega)⟩

/-- The bytes of a text. -/
def utf8 (cs : List Char) : List UInt8 :=
  cs.flatMap String.utf8EncodeChar

theorem toList_toUTF8 (s : String) : s.toUTF8.data.toList = utf8 s.toList := by
  have hbytes : (String.ofList s.toList).toByteArray = s.toList.utf8Encode :=
    String.toByteArray_ofList
  rw [String.ofList_toList] at hbytes
  show s.toByteArray.data.toList = _
  rw [hbytes, List.utf8Encode, List.data_toByteArray]
  rfl

theorem decodeUtf8_utf8 (cs : List Char) : decodeUtf8 (utf8 cs) = ⟨cs, true⟩ := by
  induction cs with
  | nil => rfl
  | cons c cs ih =>
    rw [utf8, List.flatMap_cons, decodeUtf8_encodeChar, ← utf8, ih]
    rfl

end Formulary.Text

namespace Formulary.Markup

open Text (utf8)

/-! ## 2. Documents as bytes -/

-- the first two bytes show no other encoding
theorem sniff_element {c : Char} (h : isNameStart .usual c = true) (rest : List Char) :
    sniff (utf8 ('<' :: c :: rest)) = (.utf8, utf8 ('<' :: c :: rest)) := by
  have hc : c.toNat ≠ 0 := by
    intro hzero
    obtain rfl : c = '\x00' := Char.toNat_inj.1 hzero
    exact absurd h (by decide)
  obtain ⟨b, bytes, hbytes, hb⟩ := Text.exists_encodeChar hc
  have hutf8 : utf8 ('<' :: c :: rest) = 0x3C :: b :: (bytes ++ utf8 rest) := by
    show 0x3C :: (String.utf8EncodeChar c ++ utf8 rest) = _
    rw [hbytes]
    rfl
  rw [hutf8, sniff]
  all_goals simp [hb]

theorem readBytes_write {e : Element} (h : e.Spelled Admissible) {tail : List Char}
    (htail : ∀ c ∈ tail, c = '\n') :
    readBytes (utf8 (write e ++ tail)) = .ok (e.mapText (filled ∘ unifiedText)) := by
  obtain ⟨c, rest, hc, hwrite⟩ := write_starts_name h
  have hsniff : sniff (utf8 (write e ++ tail)) = (.utf8, utf8 (write e ++ tail)) := by
    rw [hwrite]
    exact sniff_element hc (rest ++ tail)
  have hdeclaration : takeDeclaration .usual (write e ++ tail) =
      some (⟨none, false⟩, write e ++ tail) := by
    rw [hwrite]
    exact takeDeclaration_element hc (rest ++ tail)
  have hdecode : Text.Encoding.utf8.decode (utf8 (write e ++ tail)) = ⟨write e ++ tail, true⟩ :=
    Text.decodeUtf8_utf8 _
  have hletters : lettersOf .utf8 none = .usual := rfl
  have hopen : openDocument (utf8 (write e ++ tail)) = .ok ⟨{}, write e ++ tail, true⟩ := by
    unfold openDocument
    rw [hsniff]
    dsimp only
    rw [hdecode, hletters, hdeclaration]
    dsimp only
    unfold openAs
    rw [hdecode, hletters]
    dsimp only
    rw [hdeclaration]
    rfl
  rw [readBytes, hopen]
  show (readBody {} (write e ++ tail)).bind _ = _
  rw [readBody_write h htail]
  rfl

end Formulary.Markup
