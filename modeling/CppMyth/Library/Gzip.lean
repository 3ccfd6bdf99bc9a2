import CppMyth.Library.Stored

/-! The gzip container around stored blocks: a header without options, the blocks, and the check
value and the size of the text. Nothing here mentions a program. -/
namespace CppMyth.Library

def crcBit (crc : UInt32) : UInt32 :=
  if crc &&& 1 = 1 then (crc >>> 1) ^^^ 0xEDB88320 else crc >>> 1

def crcByte (crc : UInt32) (byte : UInt8) : UInt32 :=
  (List.range 8).foldl (fun crc _ => crcBit crc) (crc ^^^ byte.toUInt32)

def crc32 (text : List UInt8) : UInt32 := text.foldl crcByte 0xFFFFFFFF ^^^ 0xFFFFFFFF

example : crc32 [49, 50, 51, 52, 53, 54, 55, 56, 57] = 0xCBF43926 := by decide +kernel

/-- Four bytes, the low one first. -/
def fourBytes (n : Nat) : List UInt8 :=
  [UInt8.ofNat n, UInt8.ofNat (n / 2 ^ 8), UInt8.ofNat (n / 2 ^ 16), UInt8.ofNat (n / 2 ^ 24)]

/-- Deflate, no flags, no time, an unknown system. -/
def gzipHeader : List UInt8 := [0x1f, 0x8b, 8, 0, 0, 0, 0, 0, 0, 255]

def gzipTrailer (text : List UInt8) : List UInt8 :=
  fourBytes (crc32 text).toNat ++ fourBytes text.length

def gzip (text : List UInt8) : List UInt8 := gzipHeader ++ (store text ++ gzipTrailer text)

def gunzip (input : List UInt8) : Option (List UInt8 × Nat) :=
  if input.take 10 = gzipHeader then
    match unstore (input.drop 10) with
    | none => none
    | some (text, n) =>
      if (input.drop (10 + n)).take 8 = gzipTrailer text then some (text, 10 + n + 8) else none
  else none

theorem gzipTrailer_length (text : List UInt8) : (gzipTrailer text).length = 8 := rfl

theorem gunzip_header (rest : List UInt8) :
    gunzip (gzipHeader ++ rest) =
      match unstore rest with
      | none => none
      | some (text, n) => if (rest.drop n).take 8 = gzipTrailer text then some (text, 10 + n + 8)
        else none := by
  have front : (gzipHeader ++ rest).take 10 = gzipHeader := List.take_left' rfl
  have back : (gzipHeader ++ rest).drop 10 = rest := List.drop_left' rfl
  unfold gunzip
  rw [if_pos front, back]
  cases unstore rest with
  | none => rfl
  | some r =>
    simp only
    rw [← List.drop_drop, back]

theorem gzip_length (text : List UInt8) : (gzip text).length = (store text).length + 18 := by
  simp only [gzip, List.length_append, gzipTrailer_length, gzipHeader, List.length_cons,
    List.length_nil]
  omega

theorem gunzip_gzip (text : List UInt8) : gunzip (gzip text) = some (text, (gzip text).length) := by
  have trailer : (gzipTrailer text).take 8 = gzipTrailer text :=
    List.take_of_length_le (Nat.le_of_eq (gzipTrailer_length text))
  rw [gzip_length, gzip, gunzip_header, unstore_store_append]
  simp only [List.drop_left, trailer, if_true, Option.some.injEq, Prod.mk.injEq, true_and]
  omega

theorem gunzip_le (input text : List UInt8) (n : Nat) (found : gunzip input = some (text, n)) :
    n ≤ input.length := by
  unfold gunzip at found
  split at found
  · cases inner : unstore (input.drop 10) with
    | none =>
      rw [inner] at found
      cases found
    | some r =>
      simp only [inner] at found
      split at found
      · rename_i trailer
        obtain ⟨-, rfl⟩ := Prod.mk.inj (Option.some.inj found)
        have whole := congrArg List.length trailer
        rw [gzipTrailer_length, List.length_take, List.length_drop] at whole
        omega
      · cases found
  · cases found

theorem gunzip_front (text input : List UInt8) (front : input <+: gzip text)
    (part : input ≠ gzip text) : gunzip input = none := by
  rcases front_append front with ⟨-, short⟩ | ⟨rest, rfl, front'⟩
  · apply if_neg
    intro header
    have whole := congrArg List.length header
    rw [List.length_take] at whole
    omega
  · rw [gunzip_header]
    rcases front_append front' with ⟨within, short⟩ | ⟨foot, rfl, within⟩
    · rw [unstore_front text rest within (fun same => Nat.ne_of_lt short (congrArg _ same))]
    · have less : foot ≠ gzipTrailer text := fun same => part (by rw [same]; rfl)
      have fits := within.length_le
      rw [gzipTrailer_length] at fits
      rw [unstore_store_append]
      simp only [List.drop_left]
      apply if_neg
      rwa [List.take_of_length_le fits]

def gzipCode : PrefixCode UInt8 where
  encode := gzip
  decode := gunzip
  bound n := 6 * n + 23
  bound_mono a b h := by
    simp only
    omega
  encode_le text := by
    have le := store_le text
    rw [gzip_length]
    omega
  decode_le := gunzip_le
  decode_encode := gunzip_gzip
  decode_front := gunzip_front

end CppMyth.Library
