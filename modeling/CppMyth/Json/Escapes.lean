import CppMyth.Json.Value

/-! Strings written in escapes only: what is learned of them is the UTF-8 encoding of their
characters. -/
namespace CppMyth.Sajson
open Library JSON

def hexByte (d : Nat) : UInt8 := .ofNat (if d < 10 then 48 + d else 87 + d)

/-- Four hexadecimal digits. -/
def hexText (n : Nat) : List UInt8 :=
  [hexByte (n / 4096), hexByte (n / 256 % 16), hexByte (n / 16 % 16), hexByte (n % 16)]

/-- A character as an escape, or as two of them where it is behind the basic plane. -/
def escapeText (c : Char) : List UInt8 :=
  if c.toNat < 0x10000 then backslash :: 117 :: hexText c.toNat
  else backslash :: 117 :: (hexText (0xD800 + (c.toNat - 0x10000) / 1024) ++
    backslash :: 117 :: hexText (0xDC00 + (c.toNat - 0x10000) % 1024))

section Bytes

variable {u : UInt32} {n d : Nat}

theorem hexDigit_hexByte (small : d < 16) : hexDigit (hexByte d) = some (.ofNat d) := by
  interval_cases d <;> decide

theorem hexStep (n d : Nat) (small : n * 16 + d < 2 ^ 32) :
    (UInt32.ofNat n <<< 4) + .ofNat d = .ofNat (n * 16 + d) := by
  apply UInt32.toNat_inj.mp
  have shifted : n <<< 4 = n * 16 := by rw [Nat.shiftLeft_eq]
  rw [UInt32.toNat_add, UInt32.toNat_shiftLeft, UInt32.toNat_ofNat', UInt32.toNat_ofNat',
    UInt32.toNat_ofNat', Nat.mod_eq_of_lt (show n < 2 ^ 32 by omega),
    Nat.mod_eq_of_lt (show d < 2 ^ 32 by omega), Nat.mod_eq_of_lt small]
  show (n <<< 4 % 2 ^ 32 + d) % 2 ^ 32 = _
  rw [shifted, Nat.mod_eq_of_lt (show n * 16 < 2 ^ 32 by omega), Nat.mod_eq_of_lt small]

theorem hexText_read (small : n < 65536) : HexText (.ofNat n) (hexText n) := by
  have first : n / 4096 < 16 := by omega
  have second : n / 256 % 16 < 16 := by omega
  have third : n / 16 % 16 < 16 := by omega
  have last : n % 16 < 16 := by omega
  refine ⟨rfl, ?_, ?_⟩
  · simp [hexText, hexDigit_hexByte, first, second, third, last]
  · have zero : (0 : UInt32) = .ofNat 0 := rfl
    simp only [hexValue, hexText, List.foldl_cons, List.foldl_nil, hexDigit_hexByte first,
      hexDigit_hexByte second, hexDigit_hexByte third, hexDigit_hexByte last, Option.getD_some]
    rw [zero, hexStep _ _ (by omega), hexStep _ _ (by omega), hexStep _ _ (by omega),
      hexStep _ _ (by omega)]
    congr 1
    omega

theorem leadByte_eq {mark k shift : Nat} (marks : mark * 2 ^ k < 256) (inside : shift < 32)
    (small : u.toNat / 2 ^ shift < 2 ^ k) :
    leadByte (.ofNat (mark * 2 ^ k)) u (.ofNat shift) =
      .ofNat (u.toNat / 2 ^ shift % 2 ^ k + mark * 2 ^ k) := by
  apply UInt8.toNat_inj.mp
  have disjoint := Nat.two_pow_add_eq_or_of_lt small mark
  rw [leadByte, UInt32.toNat_toUInt8, UInt32.toNat_or, UInt32.toNat_shiftRight,
    UInt32.toNat_ofNat', UInt32.toNat_ofNat',
    Nat.mod_eq_of_lt (show mark * 2 ^ k < 2 ^ 32 by omega),
    Nat.mod_eq_of_lt (show shift < 2 ^ 32 by omega), Nat.mod_eq_of_lt inside,
    Nat.shiftRight_eq_div_pow, Nat.mul_comm mark, ← disjoint, UInt8.toNat_ofNat',
    Nat.mod_eq_of_lt small, Nat.add_comm]

theorem trailByte_eq {shift : Nat} (inside : shift < 32) :
    trailByte u (.ofNat shift) = .ofNat (u.toNat / 2 ^ shift % 64 + 128) := by
  apply UInt8.toNat_inj.mp
  have low : u.toNat / 2 ^ shift % 64 < 2 ^ 7 := by omega
  have disjoint := Nat.two_pow_add_eq_or_of_lt low 1
  have mask : u.toNat / 2 ^ shift &&& 63 = u.toNat / 2 ^ shift % 64 :=
    Nat.and_two_pow_sub_one_eq_mod _ 6
  rw [trailByte, UInt32.toNat_toUInt8, UInt32.toNat_or, UInt32.toNat_and, UInt32.toNat_shiftRight,
    UInt32.toNat_ofNat', Nat.mod_eq_of_lt (show shift < 2 ^ 32 by omega), Nat.mod_eq_of_lt inside,
    Nat.shiftRight_eq_div_pow]
  show (128 ||| (u.toNat / 2 ^ shift &&& 63)) % 256 = _
  rw [mask, UInt8.toNat_ofNat', Nat.add_comm]
  exact congrArg (· % 256) disjoint.symm

/-- The bytes of a code point are its UTF-8 encoding. -/
theorem writeUtf8_char (c : Char) : writeUtf8 c.val = String.utf8EncodeChar c := by
  have bound : c.val.toNat < 0x110000 := by
    rcases c.valid with basic | ⟨-, above⟩
    · exact basic.trans (by decide)
    · exact above
  unfold writeUtf8 String.utf8EncodeChar
  simp only [UInt32.lt_iff_toNat_lt]
  rw [show (0x80 : UInt32).toNat = 0x80 from rfl, show (0x800 : UInt32).toNat = 0x800 from rfl,
    show (0x10000 : UInt32).toNat = 0x10000 from rfl]
  generalize c.val = u at *
  have trail := fun shift inside => @trailByte_eq u shift inside
  by_cases one : u.toNat < 0x80
  · rw [if_pos one, if_pos (show u.toNat ≤ 0x7f by omega)]
    refine List.cons_eq_cons.mpr ⟨UInt8.toNat_inj.mp ?_, rfl⟩
    rw [UInt32.toNat_toUInt8, UInt8.toNat_ofNat']
  rw [if_neg one, if_neg (show ¬ u.toNat ≤ 0x7f by omega)]
  have last : trailByte u 0 = .ofNat (u.toNat % 0x40 + 0x80) := by
    have step := trail 0 (by decide)
    rwa [Nat.pow_zero, Nat.div_one] at step
  by_cases two : u.toNat < 0x800
  · have lead : leadByte 0xC0 u 6 = .ofNat (u.toNat / 64 % 0x20 + 0xc0) :=
      @leadByte_eq u 6 5 6 (by decide) (by decide) (by omega)
    rw [if_pos two, if_pos (show u.toNat ≤ 0x7ff by omega), lead, last]
  rw [if_neg two, if_neg (show ¬ u.toNat ≤ 0x7ff by omega)]
  have middle : trailByte u 6 = .ofNat (u.toNat / 64 % 0x40 + 0x80) := trail 6 (by decide)
  by_cases three : u.toNat < 0x10000
  · have lead : leadByte 0xE0 u 12 = .ofNat (u.toNat / 4096 % 0x10 + 0xe0) :=
      @leadByte_eq u 14 4 12 (by decide) (by decide) (by omega)
    rw [if_pos three, if_pos (show u.toNat ≤ 0xffff by omega), lead, middle, last]
  · have lead : leadByte 0xF0 u 18 = .ofNat (u.toNat / 262144 % 0x08 + 0xf0) :=
      @leadByte_eq u 30 3 18 (by decide) (by decide) (by omega)
    have second : trailByte u 12 = .ofNat (u.toNat / 4096 % 0x40 + 0x80) := trail 12 (by decide)
    rw [if_neg three, if_neg (show ¬ u.toNat ≤ 0xffff by omega), lead, second, middle, last]

theorem surrogates_eq {h l : Nat} (high : h < 1024) (low : l < 1024) :
    surrogates (.ofNat (0xD800 + h)) (.ofNat (0xDC00 + l)) = .ofNat (0x10000 + h * 1024 + l) := by
  have first : UInt32.ofNat (0xD800 + h) - 0xD800 = .ofNat h := by
    rw [UInt32.ofNat_add, UInt32.add_comm]
    exact UInt32.add_sub_cancel _ _
  have second : UInt32.ofNat (0xDC00 + l) - 0xDC00 = .ofNat l := by
    rw [UInt32.ofNat_add, UInt32.add_comm]
    exact UInt32.add_sub_cancel _ _
  have disjoint := Nat.two_pow_add_eq_or_of_lt (show l < 2 ^ 10 from low) h
  rw [surrogates, first, second]
  apply UInt32.toNat_inj.mp
  rw [UInt32.toNat_add, UInt32.toNat_or, UInt32.toNat_shiftLeft, UInt32.toNat_ofNat',
    UInt32.toNat_ofNat', UInt32.toNat_ofNat', Nat.mod_eq_of_lt (show h < 2 ^ 32 by omega),
    Nat.mod_eq_of_lt (show l < 2 ^ 32 by omega)]
  show (0x10000 + (h <<< 10 % 2 ^ 32 ||| l)) % 2 ^ 32 = _
  rw [Nat.shiftLeft_eq, Nat.mod_eq_of_lt (show h * 2 ^ 10 < 2 ^ 32 by omega), Nat.mul_comm h,
    ← disjoint]
  omega

end Bytes

theorem escape_written (c : Char) {content text : List UInt8} (rest : StringText content text) :
    StringText (String.utf8EncodeChar c ++ content) (escapeText c ++ text) := by
  rw [← writeUtf8_char]
  have code : UInt32.ofNat c.toNat = c.val := UInt32.ofNat_toNat
  unfold escapeText
  by_cases basic : c.toNat < 0x10000
  · have hex := hexText_read basic
    rw [code] at hex
    have single : ¬ (0xD800 ≤ c.val ∧ c.val ≤ 0xDBFF) := by
      rintro ⟨low, high⟩
      have low : 0xD800 ≤ c.val.toNat := UInt32.le_iff_toNat_le.mp low
      have high : c.val.toNat ≤ 0xDBFF := UInt32.le_iff_toNat_le.mp high
      rcases c.valid with below | ⟨above, -⟩
      · exact absurd below (by omega)
      · have above : 0xDFFF < c.val.toNat := above
        omega
    rw [if_pos basic]
    exact .escape (.unicode hex single) rest
  · have bound : c.toNat < 0x110000 := by
      rcases c.valid with below | ⟨-, above⟩
      · exact below.trans (by decide)
      · exact above
    have high : (c.toNat - 0x10000) / 1024 < 1024 := by omega
    have low : (c.toNat - 0x10000) % 1024 < 1024 := Nat.mod_lt _ (by decide)
    have joined := surrogates_eq high low
    rw [show 0x10000 + (c.toNat - 0x10000) / 1024 * 1024 + (c.toNat - 0x10000) % 1024 = c.toNat by
      omega, code] at joined
    have first := @hexText_read (0xD800 + (c.toNat - 0x10000) / 1024) (by omega)
    have second := @hexText_read (0xDC00 + (c.toNat - 0x10000) % 1024) (by omega)
    generalize (c.toNat - 0x10000) / 1024 = h at *
    generalize (c.toNat - 0x10000) % 1024 = l at *
    have lead : 0xD800 ≤ UInt32.ofNat (0xD800 + h) ∧ UInt32.ofNat (0xD800 + h) ≤ 0xDBFF := by
      rw [UInt32.le_iff_toNat_le, UInt32.le_iff_toNat_le, UInt32.toNat_ofNat',
        Nat.mod_eq_of_lt (by omega)]
      exact ⟨Nat.le_add_right _ _, show 0xD800 + h ≤ 0xDBFF by omega⟩
    have trail : ¬ (UInt32.ofNat (0xDC00 + l) < 0xDC00 ∨ UInt32.ofNat (0xDC00 + l) > 0xDFFF) := by
      rw [gt_iff_lt, UInt32.lt_iff_toNat_lt, UInt32.lt_iff_toNat_lt, UInt32.toNat_ofNat',
        Nat.mod_eq_of_lt (by omega)]
      rintro (below | above)
      · exact absurd below (Nat.not_lt.mpr (Nat.le_add_right _ _))
      · have above : 0xDFFF < 0xDC00 + l := above
        omega
    have written := StringText.escape (.surrogates first second lead trail) rest
    rw [joined] at written
    rw [if_neg basic]
    exact written

/-- The escapes of a text are read as its UTF-8 encoding. -/
theorem escapes_written (cs : List Char) :
    StringText (cs.flatMap String.utf8EncodeChar) (cs.flatMap escapeText ++ [quote]) := by
  induction cs with
  | nil => exact .close
  | cons c cs ih =>
    rw [List.flatMap_cons, List.flatMap_cons, List.append_assoc]
    exact escape_written c ih

/-- A document of one string, written in escapes. -/
def escapedDocument (cs : List Char) : List UInt8 :=
  91 :: quote :: (cs.flatMap escapeText ++ [quote, 93])

theorem accepted_escaped (cs : List Char) :
    Accepted (escapedDocument cs) (.array [.string (cs.flatMap String.utf8EncodeChar)]) := by
  have comma : CommaText (.array []) [] := blank_nil
  have inside := Spells.push (.empty (c := .array []) rfl) (.element comma)
    (.scalar (.string (escapes_written cs)))
  exact ⟨[], _, [], [], by simp [escapedDocument, Container.push, Container.opening,
      Container.closing], blank_nil, @Spells.closed _ _ [] inside (.inl blank_nil),
    ⟨.array _, rfl⟩, blank_nil, rfl⟩

/-- A text whose characters are all written as escapes is learned as its UTF-8 encoding, surrogate
pairs and null characters included. -/
theorem openDocument_escaped (sort : StdSort) (cs : List Char)
    (room : (escapedDocument cs).length < 2 ^ 61) :
    ∃ root w, openDocument sort (escapedDocument cs) = some (true, root) ∧
      root.getArrayElement 0 = some w ∧ w.isString = true ∧
      w.getStringValue = some (cs.flatMap String.utf8EncodeChar) ∧
      w.getStringSize = some (cs.flatMap String.utf8EncodeChar).length := by
  obtain ⟨root, opened, represents, bound⟩ :=
    openDocument_accepted sort room (accepted_escaped cs)
  obtain ⟨w, reached, text, represents⟩ := represents.arrayElement bound (Nat.zero_lt_one)
  have facts := represents.facts (text ▸ bound)
  exact ⟨root, w, opened, reached, congrArg Node.Facts.isString facts,
    congrArg Node.Facts.stringValue facts, congrArg Node.Facts.stringSize facts⟩

theorem openDocument_escaped_pair :
    ∃ root w, openDocument .merge (escapedDocument [.ofNat 0x1F600]) = some (true, root) ∧
      root.getArrayElement 0 = some w ∧ w.isString = true ∧
      w.getStringValue = some [0xF0, 0x9F, 0x98, 0x80] ∧ w.getStringSize = some 4 :=
  openDocument_escaped .merge [.ofNat 0x1F600] (by decide)

end CppMyth.Sajson
