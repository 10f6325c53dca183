import ResourceGraph.Json.Reader
import ResourceGraph.Text.Blank
import ResourceGraph.Text.Percent

/-!
# Percent-encoded text

Each byte of a text is written as a percent sign and two hexadecimal digits, or as the character
that it stands for if that needs no escape. Which of these characters are escaped nevertheless, and
with which case of the digits, is free. However a text is encoded, decoding gives it back, and what
encodes it has no blanks and no braces.
-/
namespace ResourceGraph.Text

/-! ## Encodings -/

/-- Printable ASCII characters other than the quote, the percent sign, angle brackets, backslash,
caret, backtick, braces and the bar. -/
def standsBare (c : Char) : Bool :=
  0x21 ≤ c.toNat && c.toNat ≤ 0x7E &&
    c.toNat ∉ [0x22, 0x25, 0x3C, 0x3E, 0x5C, 0x5E, 0x60, 0x7B, 0x7C, 0x7D]

/-- The characters encode the bytes. -/
inductive EncodesBytes : List UInt8 → List Char → Prop where
  | nil : EncodesBytes [] []
  | bare {c : Char} {bytes cs} (hbare : standsBare c = true) (hrest : EncodesBytes bytes cs) :
    EncodesBytes (c.val.toUInt8 :: bytes) (c :: cs)
  | escaped {high low : Char} {h l : Nat} {bytes cs} (hhigh : Json.hexDigit? high = some h)
    (hlow : Json.hexDigit? low = some l) (hrest : EncodesBytes bytes cs) :
    EncodesBytes (UInt8.ofNat (h * 16 + l) :: bytes) ('%' :: high :: low :: cs)

def utf8 (s : String) : List UInt8 := s.toUTF8.data.toList

def PercentEncodes (text encoded : String) : Prop := EncodesBytes (utf8 text) encoded.toList

/-- Letters, digits and four signs are never escaped. -/
def isUnreserved (c : Char) : Bool :=
  c.isAlphanum || c = '-' || c = '.' || c = '_' || c = '~'

def upperHex (n : Nat) : Char := Char.ofNat (if n < 10 then 0x30 + n else 0x37 + n)

def encodeByte (b : UInt8) : List Char :=
  if isUnreserved (Char.ofNat b.toNat) then [Char.ofNat b.toNat]
  else ['%', upperHex (b.toNat / 16), upperHex (b.toNat % 16)]

/-- The encoding that escapes all it can, with capital digits. -/
def percentEncode (s : String) : String := String.ofList ((utf8 s).flatMap encodeByte)

theorem hexDigit?_upperHex {n : Nat} (h : n < 16) : Json.hexDigit? (upperHex n) = some n := by
  have hall : ∀ k : Fin 16, Json.hexDigit? (upperHex k) = some k.val := by decide
  exact hall ⟨n, h⟩

theorem EncodesBytes.encodeByte_append {bytes : List UInt8} {cs : List Char}
    (h : EncodesBytes bytes cs) (b : UInt8) : EncodesBytes (b :: bytes) (encodeByte b ++ cs) := by
  have hunreserved : ∀ k : Fin 256, isUnreserved (Char.ofNat k) = true →
      standsBare (Char.ofNat k) = true ∧ (Char.ofNat k).val.toUInt8 = UInt8.ofNat k := by
    decide +kernel
  unfold encodeByte
  split
  · next hkept =>
    obtain ⟨hbare, hbyte⟩ := hunreserved ⟨b.toNat, b.toNat_lt⟩ hkept
    have hencodes := EncodesBytes.bare hbare h
    rwa [hbyte, UInt8.ofNat_toNat] at hencodes
  · have hlt := b.toNat_lt
    have hencodes := EncodesBytes.escaped (hexDigit?_upperHex (n := b.toNat / 16) (by omega))
      (hexDigit?_upperHex (n := b.toNat % 16) (by omega)) h
    rwa [Nat.div_add_mod', UInt8.ofNat_toNat] at hencodes

/-- Every text has an encoding. -/
theorem percentEncodes_percentEncode (s : String) : PercentEncodes s (percentEncode s) := by
  have hbytes : ∀ bytes, EncodesBytes bytes (bytes.flatMap encodeByte) := by
    intro bytes
    induction bytes with
    | nil => exact .nil
    | cons b bytes ih => exact ih.encodeByte_append b
  rw [PercentEncodes, percentEncode, String.toList_ofList]
  exact hbytes _

/-! ## Characters of an encoding -/

/-- What holds of the 128 characters of ASCII. -/
theorem of_ascii {P : Char → Prop} (h : ∀ k : Fin 128, P (Char.ofNat k)) {c : Char}
    (hc : c.toNat < 128) : P c := by
  have hk := h ⟨c.toNat, hc⟩
  rwa [Char.ofNat_toNat] at hk

theorem toNat_lt_of_standsBare {c : Char} (h : standsBare c = true) : c.toNat < 128 := by
  simp only [standsBare, Bool.and_eq_true, decide_eq_true_eq] at h
  omega

theorem toNat_lt_of_hexDigit? {c : Char} {n : Nat} (h : Json.hexDigit? c = some n) :
    c.toNat < 128 := by
  have hbelow : ∀ last : Char, c ≤ last → last.toNat < 128 → c.toNat < 128 :=
    fun last hle hlast => Nat.lt_of_le_of_lt (Char.le_def.1 hle) hlast
  unfold Json.hexDigit? at h
  simp only [Bool.and_eq_true, decide_eq_true_eq] at h
  split at h
  · next hc => exact hbelow '9' hc.2 (by decide)
  · split at h
    · next hc => exact hbelow 'f' hc.2 (by decide)
    · split at h
      · next hc => exact hbelow 'F' hc.2 (by decide)
      · cases h

/-- Digits of characters and of bytes are the same, and need no escape. -/
theorem hexDigit?_eq_some {c : Char} {n : Nat} (h : Json.hexDigit? c = some n) :
    standsBare c = true ∧ hexValue? c.val.toUInt8 = some (UInt8.ofNat n) := by
  have hall : ∀ k : Fin 128, (Json.hexDigit? (Char.ofNat k)).all fun n =>
      standsBare (Char.ofNat k) &&
        hexValue? (Char.ofNat k).val.toUInt8 == some (UInt8.ofNat n) := by
    decide +kernel
  have hc := of_ascii (P := fun c => (Json.hexDigit? c).all fun n =>
    standsBare c && hexValue? c.val.toUInt8 == some (UInt8.ofNat n)) hall (toNat_lt_of_hexDigit? h)
  simpa [h] using hc

theorem EncodesBytes.standsBare_or_eq {bytes : List UInt8} {cs : List Char}
    (h : EncodesBytes bytes cs) : ∀ c ∈ cs, standsBare c = true ∨ c = '%' := by
  induction h with
  | nil => exact List.forall_mem_nil _
  | bare hbare _ ih => exact List.forall_mem_cons.2 ⟨.inl hbare, ih⟩
  | escaped hhigh hlow _ ih =>
    have hdigits := List.forall_mem_cons.2 ⟨.inl (hexDigit?_eq_some hlow).1, ih⟩
    exact List.forall_mem_cons.2 ⟨.inr rfl,
      List.forall_mem_cons.2 ⟨.inl (hexDigit?_eq_some hhigh).1, hdigits⟩⟩

/-- No blank and no brace stands in an encoding. -/
theorem EncodesBytes.not_blank {bytes : List UInt8} {cs : List Char} (h : EncodesBytes bytes cs) :
    ∀ c ∈ cs, isBlank c = false ∧ c ≠ '{' := by
  have hall : ∀ k : Fin 128, standsBare (Char.ofNat k) = true →
      isBlank (Char.ofNat k) = false ∧ Char.ofNat k ≠ '{' := by decide +kernel
  intro c hc
  rcases h.standsBare_or_eq c hc with hbare | rfl
  · exact of_ascii (P := fun c => standsBare c = true → isBlank c = false ∧ c ≠ '{') hall
      (toNat_lt_of_standsBare hbare) hbare
  · decide

/-! ## Decoding -/

theorem utf8EncodeChar_of_lt {c : Char} (h : c.toNat < 128) :
    String.utf8EncodeChar c = [c.val.toUInt8] := by
  refine String.utf8EncodeChar_eq_singleton (Char.utf8Size_eq_one_iff.2 ?_)
  exact UInt32.le_iff_toNat_le.2 (Nat.le_of_lt_succ h)

theorem utf8_eq (s : String) : utf8 s = s.toList.flatMap String.utf8EncodeChar := by
  have hbytes : s.toByteArray = s.toList.utf8Encode := by
    rw [← String.toByteArray_ofList, String.ofList_toList]
  rw [utf8, String.toUTF8, hbytes, List.utf8Encode, List.data_toByteArray]

theorem percentDecodeBytes_bare {b : UInt8} (h : b ≠ 0x25) (bytes : List UInt8) :
    percentDecodeBytes (b :: bytes) = b :: percentDecodeBytes bytes := by
  rw [percentDecodeBytes.eq_def]
  exact if_pos (bne_iff_ne.2 h)

theorem percentDecodeBytes_escaped {high low h l : UInt8} (hhigh : hexValue? high = some h)
    (hlow : hexValue? low = some l) (bytes : List UInt8) :
    percentDecodeBytes (0x25 :: high :: low :: bytes) =
      (h * 16 + l) :: percentDecodeBytes bytes := by
  rw [percentDecodeBytes, if_neg (by decide)]
  simp only [hhigh, hlow]

theorem EncodesBytes.percentDecodeBytes_eq {bytes : List UInt8} {cs : List Char}
    (h : EncodesBytes bytes cs) :
    percentDecodeBytes (cs.flatMap String.utf8EncodeChar) = bytes := by
  induction h with
  | nil => rfl
  | @bare c _ _ hbare _ ih =>
    have hall : ∀ k : Fin 128, standsBare (Char.ofNat k) = true →
        (Char.ofNat k).val.toUInt8 ≠ 0x25 := by decide +kernel
    have hlt := toNat_lt_of_standsBare hbare
    have hbyte : c.val.toUInt8 ≠ 0x25 :=
      of_ascii (P := fun c => standsBare c = true → c.val.toUInt8 ≠ 0x25) hall hlt hbare
    rw [List.flatMap_cons, utf8EncodeChar_of_lt hlt, List.singleton_append,
      percentDecodeBytes_bare hbyte, ih]
  | @escaped high low h l bytes cs hhigh hlow _ ih =>
    have hsign : String.utf8EncodeChar '%' = [0x25] := utf8EncodeChar_of_lt (by decide)
    have hvalue : UInt8.ofNat h * 16 + UInt8.ofNat l = UInt8.ofNat (h * 16 + l) := by
      rw [UInt8.ofNat_add, UInt8.ofNat_mul]
      rfl
    rw [List.flatMap_cons, List.flatMap_cons, List.flatMap_cons, hsign,
      utf8EncodeChar_of_lt (toNat_lt_of_hexDigit? hhigh),
      utf8EncodeChar_of_lt (toNat_lt_of_hexDigit? hlow), List.singleton_append,
      List.singleton_append, List.singleton_append,
      percentDecodeBytes_escaped (hexDigit?_eq_some hhigh).2 (hexDigit?_eq_some hlow).2, ih, hvalue]

/-- Decoding undoes every encoding. -/
theorem percentDecode?_eq {text encoded : String} (h : PercentEncodes text encoded) :
    percentDecode? encoded = some text := by
  have hdecoded : percentDecodeBytes encoded.toUTF8.data.toList = utf8 text := by
    rw [← h.percentDecodeBytes_eq, ← utf8_eq, utf8]
  rw [percentDecode?, hdecoded]
  exact dif_pos text.isValidUTF8

end ResourceGraph.Text
