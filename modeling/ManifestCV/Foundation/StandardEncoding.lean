import ManifestCV.Foundation.PdfContent
import ManifestCV.Foundation.PdfObject
import ManifestCV.Foundation.Sizes

namespace ManifestCV.Foundation.Pdf

def standardExtra : List (Char × UInt8) := [
  ('’', 0x27), ('‘', 0x60), ('¡', 0xa1), ('¢', 0xa2), ('£', 0xa3), ('⁄', 0xa4), ('¥', 0xa5), ('ƒ', 0xa6),
    ('§', 0xa7), ('¤', 0xa8),
  ('\'', 0xa9), ('“', 0xaa), ('«', 0xab), ('‹', 0xac), ('›', 0xad), ('ﬁ', 0xae), ('ﬂ', 0xaf), ('–', 0xb1),
    ('†', 0xb2), ('‡', 0xb3),
  ('·', 0xb4), ('¶', 0xb6), ('•', 0xb7), ('‚', 0xb8), ('„', 0xb9), ('”', 0xba), ('»', 0xbb), ('…', 0xbc),
    ('‰', 0xbd), ('¿', 0xbf),
  ('`', 0xc1), ('´', 0xc2), ('ˆ', 0xc3), ('˜', 0xc4), ('¯', 0xc5), ('˘', 0xc6), ('˙', 0xc7), ('¨', 0xc8),
    ('˚', 0xca), ('¸', 0xcb),
  ('˝', 0xcd), ('˛', 0xce), ('ˇ', 0xcf), ('—', 0xd0), ('Æ', 0xe1), ('ª', 0xe3), ('Ł', 0xe8), ('Ø', 0xe9),
    ('Œ', 0xea), ('º', 0xeb),
  ('æ', 0xf1), ('ı', 0xf5), ('ł', 0xf8), ('ø', 0xf9), ('œ', 0xfa), ('ß', 0xfb)]

def standardCode (c : Char) : Option UInt8 :=
  match standardExtra.lookup c with
  | some code => some code
  | none => if 0x20 ≤ c.toNat ∧ c.toNat ≤ 0x7e then some c.toNat.toUInt8 else none

def showsItself (c : Char) : Bool := 0x20 ≤ c.toNat && c.toNat ≤ 0x7e && c ≠ '\'' && c ≠ '`'

def latinFonts : List String := [
  "Times-Roman", "Times-Bold", "Times-Italic", "Times-BoldItalic", "Helvetica", "Helvetica-Bold",
    "Helvetica-Oblique",
  "Helvetica-BoldOblique", "Courier", "Courier-Bold", "Courier-Oblique", "Courier-BoldOblique"]

/-- The codes of a font that declares no `/Encoding` are those built into it. -/
def fontEncoding (font : Entries) : Option (Char → Option UInt8) :=
  match font.lookup "Subtype".toList, font.lookup "Encoding".toList, font.lookup "BaseFont".toList with
  | some (.name subtype), none, some (.name base) =>
    if subtype = "Type1".toList ∧ base ∈ latinFonts.map String.toList then some standardCode else none
  | _, _, _ => none

def Shows (code : Char → Option UInt8) (bytes : Bytes) (text : Str) : Prop := text.map code = bytes.map some

theorem fontEncoding_standard {font : Entries} {code : Char → Option UInt8}
    (encoding : fontEncoding font = some code) :
    code = standardCode := by
  unfold fontEncoding at encoding
  split at encoding
  · split at encoding
    · exact (Option.some.inj encoding).symm
    · cases encoding
  · cases encoding

theorem standardExtra_keys : ∀ entry ∈ standardExtra, entry.1 = '\'' ∨ entry.1 = '`' ∨
    128 ≤ entry.1.toNat := by
  decide

theorem standardCode_itself {c : Char} (small : c.toNat < 128) :
    standardCode c = some c.toNat.toUInt8 ↔ showsItself c = true := by
  by_cases quote : c = '\''
  · subst quote
    decide
  by_cases grave : c = '`'
  · subst grave
    decide
  have absent : standardExtra.lookup c = none := by
    rw [List.lookup_eq_none_iff]
    intro entry inside
    rw [bne_iff_ne]
    rintro rfl
    rcases standardExtra_keys entry inside with same | same | high
    · exact quote same
    · exact grave same
    · omega
  simp [standardCode, showsItself, absent, quote, grave]

theorem readBreaks_same {bytes : Bytes} (nothing : 13 ∉ bytes) : Content.readBreaks bytes = bytes := by
  induction bytes with
  | nil => rfl
  | cons b bytes ih =>
    rw [List.mem_cons, not_or] at nothing
    have other : b ≠ 13 := Ne.symm nothing.1
    rw [Content.readBreaks, ih nothing.2]
    · exact fun _ same _ => other same
    · exact other

theorem encode_no_return {text : Str} (nothing : '\r' ∉ text) : 13 ∉ encode text := by
  intro member
  obtain ⟨c, inside, byte⟩ := List.mem_flatMap.mp member
  by_cases small : c.toNat < 128
  · rw [utf8EncodeChar_ascii small, List.mem_singleton] at byte
    have value := congrArg UInt8.toNat byte
    rw [Nat.toUInt8_eq, UInt8.toNat_ofNat', Nat.mod_eq_of_lt (by omega)] at value
    have same : c = '\r' := Char.ext (UInt32.toNat_inj.mp value.symm)
    exact nothing (same ▸ inside)
  · exact absurd (Content.utf8EncodeChar_high (not_lt.mp small) 13 byte) (by decide)

theorem utf8EncodeChar_two {c : Char} (high : 128 ≤ c.toNat) : 2 ≤ (String.utf8EncodeChar c).length := by
  rw [String.length_utf8EncodeChar]
  have positive := c.utf8Size_pos
  have several : c.utf8Size ≠ 1 := by
    rw [ne_eq, Char.utf8Size_eq_one_iff, UInt32.le_iff_toNat_le]
    show ¬ c.toNat ≤ 127
    omega
  omega

/-- Against StandardEncoding, UTF-8 has the right bytes for the characters that ASCII and StandardEncoding
    agree on, and for no others. -/
theorem shows_utf8_iff (text : Str) : Shows standardCode (encode text) text ↔ ∀ c ∈ text,
    showsItself c = true := by
  induction text with
  | nil => exact iff_of_true rfl fun _ member => (nomatch member)
  | cons c text ih =>
    rw [List.forall_mem_cons, Shows, List.map_cons, encode_cons, List.map_append]
    by_cases small : c.toNat < 128
    · rw [utf8EncodeChar_ascii small, List.map_singleton, List.singleton_append, List.cons.injEq,
        standardCode_itself small]
      exact and_congr_right fun _ => ih
    · apply iff_of_false
      · intro same
        have lengths := congrArg List.length same
        have longer := encode_length_ge text
        have two := utf8EncodeChar_two (not_lt.mp small)
        simp only [List.length_cons, List.length_append, List.length_map] at lengths
        omega
      · rintro ⟨itself, _⟩
        simp [showsItself] at itself
        omega

theorem standardCode_return : standardCode '\r' = none := by decide

theorem shows_read_iff (text : Str) : Shows standardCode (Content.readBreaks (encode text)) text ↔ ∀ c ∈ text,
    showsItself c = true := by
  by_cases returns : '\r' ∈ text
  · apply iff_of_false
    · intro shows
      have coded : standardCode '\r' ∈ (Content.readBreaks (encode text)).map some :=
        shows ▸ List.mem_map_of_mem returns
      obtain ⟨b, _, same⟩ := List.mem_map.mp coded
      rw [standardCode_return] at same
      cases same
    · exact fun all => absurd (all '\r' returns) (by decide)
  · rw [readBreaks_same (encode_no_return returns)]
    exact shows_utf8_iff text

end ManifestCV.Foundation.Pdf
