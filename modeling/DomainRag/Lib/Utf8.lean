import DomainRag.Lib.Reader

/-! # Decoding UTF-8 as it arrives

The decoder of the Encoding Standard takes one byte after the other. Between two bytes of a
character it keeps the bits that it has, the number of bytes that are missing and the bounds of
the next one; a byte out of the bounds gives a replacement character and is looked at once more.
-/

namespace Utf8

def encode (text : List Char) : List UInt8 := text.flatMap String.utf8EncodeChar

structure Decoder where
  codePoint : Nat := 0
  missing : Nat := 0
  lower : Nat := 0x80
  upper : Nat := 0xBF
  deriving DecidableEq, Repr

def replacement : Char := Char.ofNat 0xFFFD

/-- A byte at the beginning of a character. -/
def Decoder.begin (byte : Nat) : Decoder × List Char :=
  if byte ≤ 0x7F then ({}, [Char.ofNat byte])
  else if 0xC2 ≤ byte ∧ byte ≤ 0xDF then ({ codePoint := byte % 0x20, missing := 1 }, [])
  else if 0xE0 ≤ byte ∧ byte ≤ 0xEF then
    ({ codePoint := byte % 0x10
       missing := 2
       lower := if byte = 0xE0 then 0xA0 else 0x80
       upper := if byte = 0xED then 0x9F else 0xBF }, [])
  else if 0xF0 ≤ byte ∧ byte ≤ 0xF4 then
    ({ codePoint := byte % 0x08
       missing := 3
       lower := if byte = 0xF0 then 0x90 else 0x80
       upper := if byte = 0xF4 then 0x8F else 0xBF }, [])
  else ({}, [replacement])

def Decoder.push (decoder : Decoder) (byte : UInt8) : Decoder × List Char :=
  match decoder.missing with
  | 0 => begin byte.toNat
  | missing + 1 =>
    if byte.toNat < decoder.lower ∨ decoder.upper < byte.toNat then
      ((begin byte.toNat).1, replacement :: (begin byte.toNat).2)
    else
      let codePoint := decoder.codePoint * 0x40 + byte.toNat % 0x40
      match missing with
      | 0 => ({}, [Char.ofNat codePoint])
      | missing + 1 => ({ codePoint := codePoint, missing := missing + 1 }, [])

def byteOrderMark : Char := Char.ofNat 0xFEFF

/-- A decoder that drops a byte order mark at the beginning of its stream. -/
structure StreamDecoder where
  decoder : Decoder := {}
  begun : Bool := false
  deriving DecidableEq, Repr

def StreamDecoder.push (d : StreamDecoder) (byte : UInt8) : StreamDecoder × List Char :=
  let pushed := d.decoder.push byte
  match d.begun, pushed.2 with
  | false, [] => (⟨pushed.1, false⟩, [])
  | false, c :: cs => (⟨pushed.1, true⟩, if c = byteOrderMark then cs else c :: cs)
  | true, cs => (⟨pushed.1, true⟩, cs)

def reader : Reader StreamDecoder UInt8 Char := .ofStep StreamDecoder.push

open Reader (stepAll)

theorem toNat_ofNat_of_lt {n : Nat} (h : n < 256) : (UInt8.ofNat n).toNat = n := by
  rw [UInt8.toNat_ofNat', Nat.mod_eq_of_lt h]

theorem Decoder.push_between (byte : UInt8) : Decoder.push {} byte = begin byte.toNat := rfl

theorem Decoder.push_last {decoder : Decoder} {byte : UInt8} (h : decoder.missing = 1)
    (hlower : decoder.lower ≤ byte.toNat) (hupper : byte.toNat ≤ decoder.upper) :
    decoder.push byte = ({}, [Char.ofNat (decoder.codePoint * 0x40 + byte.toNat % 0x40)]) := by
  have hbounds : ¬ (byte.toNat < decoder.lower ∨ decoder.upper < byte.toNat) := by omega
  simp only [push, h, if_neg hbounds]

theorem Decoder.push_more {decoder : Decoder} {byte : UInt8} (missing : Nat)
    (h : decoder.missing = missing + 2) (hlower : decoder.lower ≤ byte.toNat)
    (hupper : byte.toNat ≤ decoder.upper) :
    decoder.push byte = ({ codePoint := decoder.codePoint * 0x40 + byte.toNat % 0x40
                           missing := missing + 1 }, []) := by
  have hbounds : ¬ (byte.toNat < decoder.lower ∨ decoder.upper < byte.toNat) := by omega
  simp only [push, h, if_neg hbounds]

section Lead

variable {byte : Nat}

theorem begin_one (h : byte ≤ 0x7F) : Decoder.begin byte = ({}, [Char.ofNat byte]) := by
  rw [Decoder.begin, if_pos h]

theorem begin_two (hlower : 0xC2 ≤ byte) (hupper : byte ≤ 0xDF) :
    Decoder.begin byte = ({ codePoint := byte % 0x20, missing := 1 }, []) := by
  rw [Decoder.begin, if_neg (by omega), if_pos ⟨hlower, hupper⟩]

theorem begin_three (hlower : 0xE0 ≤ byte) (hupper : byte ≤ 0xEF) :
    Decoder.begin byte = ({ codePoint := byte % 0x10
                            missing := 2
                            lower := if byte = 0xE0 then 0xA0 else 0x80
                            upper := if byte = 0xED then 0x9F else 0xBF }, []) := by
  rw [Decoder.begin, if_neg (by omega), if_neg (by omega), if_pos ⟨hlower, hupper⟩]

theorem begin_four (hlower : 0xF0 ≤ byte) (hupper : byte ≤ 0xF4) :
    Decoder.begin byte = ({ codePoint := byte % 0x08
                            missing := 3
                            lower := if byte = 0xF0 then 0x90 else 0x80
                            upper := if byte = 0xF4 then 0x8F else 0xBF }, []) := by
  rw [Decoder.begin, if_neg (by omega), if_neg (by omega), if_neg (by omega),
    if_pos ⟨hlower, hupper⟩]

end Lead

section Character

variable {v : Nat}

theorem stepAll_one (h : v ≤ 0x7F) :
    stepAll Decoder.push {} [UInt8.ofNat v] = ({}, [Char.ofNat v]) := by
  have hbyte : (UInt8.ofNat v).toNat = v := toNat_ofNat_of_lt (by omega)
  simp only [stepAll, Decoder.push_between, hbyte, begin_one h, List.append_nil]

theorem stepAll_two (hlower : 0x7F < v) (hupper : v ≤ 0x7FF) :
    stepAll Decoder.push {} [UInt8.ofNat (v / 64 % 0x20 + 0xC0), UInt8.ofNat (v % 0x40 + 0x80)] =
      ({}, [Char.ofNat v]) := by
  have hlead : (UInt8.ofNat (v / 64 % 0x20 + 0xC0)).toNat = v / 64 % 0x20 + 0xC0 :=
    toNat_ofNat_of_lt (by omega)
  have hlast : (UInt8.ofNat (v % 0x40 + 0x80)).toNat = v % 0x40 + 0x80 :=
    toNat_ofNat_of_lt (by omega)
  have hvalue : (v / 64 % 0x20 + 0xC0) % 0x20 * 0x40 + (v % 0x40 + 0x80) % 0x40 = v := by omega
  rw [stepAll, Decoder.push_between, hlead, begin_two (by omega) (by omega), stepAll,
    Decoder.push_last rfl (by rw [hlast]; simp only; omega) (by rw [hlast]; simp only; omega),
    hlast, hvalue]
  rfl

theorem stepAll_three (hlower : 0x7FF < v) (hupper : v ≤ 0xFFFF)
    (hvalid : v < 0xD800 ∨ 0xDFFF < v) :
    stepAll Decoder.push {} [UInt8.ofNat (v / 4096 % 0x10 + 0xE0),
      UInt8.ofNat (v / 64 % 0x40 + 0x80), UInt8.ofNat (v % 0x40 + 0x80)] =
      ({}, [Char.ofNat v]) := by
  have hlead : (UInt8.ofNat (v / 4096 % 0x10 + 0xE0)).toNat = v / 4096 % 0x10 + 0xE0 :=
    toNat_ofNat_of_lt (by omega)
  have hnext : (UInt8.ofNat (v / 64 % 0x40 + 0x80)).toNat = v / 64 % 0x40 + 0x80 :=
    toNat_ofNat_of_lt (by omega)
  have hlast : (UInt8.ofNat (v % 0x40 + 0x80)).toNat = v % 0x40 + 0x80 :=
    toNat_ofNat_of_lt (by omega)
  have hvalue : ((v / 4096 % 0x10 + 0xE0) % 0x10 * 0x40 + (v / 64 % 0x40 + 0x80) % 0x40) * 0x40 +
      (v % 0x40 + 0x80) % 0x40 = v := by omega
  rw [stepAll, Decoder.push_between, hlead, begin_three (by omega) (by omega), stepAll,
    Decoder.push_more 0 rfl (by rw [hnext]; simp only; split <;> omega)
      (by rw [hnext]; simp only; split <;> omega), stepAll,
    Decoder.push_last rfl (by rw [hlast]; simp only; omega) (by rw [hlast]; simp only; omega),
    hnext, hlast, hvalue]
  rfl

theorem stepAll_four (hlower : 0xFFFF < v) (hupper : v < 0x110000) :
    stepAll Decoder.push {} [UInt8.ofNat (v / 262144 % 0x08 + 0xF0),
      UInt8.ofNat (v / 4096 % 0x40 + 0x80), UInt8.ofNat (v / 64 % 0x40 + 0x80),
      UInt8.ofNat (v % 0x40 + 0x80)] = ({}, [Char.ofNat v]) := by
  have hlead : (UInt8.ofNat (v / 262144 % 0x08 + 0xF0)).toNat = v / 262144 % 0x08 + 0xF0 :=
    toNat_ofNat_of_lt (by omega)
  have hsecond : (UInt8.ofNat (v / 4096 % 0x40 + 0x80)).toNat = v / 4096 % 0x40 + 0x80 :=
    toNat_ofNat_of_lt (by omega)
  have hthird : (UInt8.ofNat (v / 64 % 0x40 + 0x80)).toNat = v / 64 % 0x40 + 0x80 :=
    toNat_ofNat_of_lt (by omega)
  have hlast : (UInt8.ofNat (v % 0x40 + 0x80)).toNat = v % 0x40 + 0x80 :=
    toNat_ofNat_of_lt (by omega)
  have hvalue : (((v / 262144 % 0x08 + 0xF0) % 0x08 * 0x40 + (v / 4096 % 0x40 + 0x80) % 0x40) *
      0x40 + (v / 64 % 0x40 + 0x80) % 0x40) * 0x40 + (v % 0x40 + 0x80) % 0x40 = v := by omega
  rw [stepAll, Decoder.push_between, hlead, begin_four (by omega) (by omega), stepAll,
    Decoder.push_more 1 rfl (by rw [hsecond]; simp only; split <;> omega)
      (by rw [hsecond]; simp only; split <;> omega), stepAll,
    Decoder.push_more 0 rfl (by rw [hthird]; simp only; omega)
      (by rw [hthird]; simp only; omega), stepAll,
    Decoder.push_last rfl (by rw [hlast]; simp only; omega) (by rw [hlast]; simp only; omega),
    hsecond, hthird, hlast, hvalue]
  rfl

end Character

/-- The bytes of a character bring a decoder from between two characters to there again. -/
theorem stepAll_encodeChar (c : Char) :
    stepAll Decoder.push {} (String.utf8EncodeChar c) = ({}, [c]) := by
  have hvalid : c.val.toNat < 0xD800 ∨ 0xDFFF < c.val.toNat ∧ c.val.toNat < 0x110000 := c.valid
  have hchar : Char.ofNat c.val.toNat = c := Char.ofNat_toNat c
  rw [String.utf8EncodeChar]
  split
  · rw [stepAll_one (by omega), hchar]
  · split
    · rw [stepAll_two (by omega) (by omega), hchar]
    · split
      · rw [stepAll_three (by omega) (by omega) (by omega), hchar]
      · rw [stepAll_four (by omega) (by omega), hchar]

theorem stepAll_encode (text : List Char) : stepAll Decoder.push {} (encode text) = ({}, text) := by
  induction text with
  | nil => rfl
  | cons c text ih =>
    rw [encode, List.flatMap_cons, Reader.stepAll_append, stepAll_encodeChar]
    simp only
    rw [← encode, ih]
    rfl

section Mark

def dropMark (text : List Char) : List Char :=
  if text.head? = some byteOrderMark then text.tail else text

theorem dropMark_of_head? {text : List Char} (h : text.head? ≠ some byteOrderMark) :
    dropMark text = text := if_neg h

theorem stepAll_begun (decoder : Decoder) (bytes : List UInt8) :
    stepAll StreamDecoder.push ⟨decoder, true⟩ bytes =
      (⟨(stepAll Decoder.push decoder bytes).1, true⟩, (stepAll Decoder.push decoder bytes).2) := by
  induction bytes generalizing decoder with
  | nil => rfl
  | cons byte bytes ih => simp only [stepAll, StreamDecoder.push, ih]

/-- The mark is looked for at the first character that comes out. -/
theorem stepAll_fresh (decoder : Decoder) (bytes : List UInt8) :
    stepAll StreamDecoder.push ⟨decoder, false⟩ bytes =
      (⟨(stepAll Decoder.push decoder bytes).1, !(stepAll Decoder.push decoder bytes).2.isEmpty⟩,
        dropMark (stepAll Decoder.push decoder bytes).2) := by
  induction bytes generalizing decoder with
  | nil => rfl
  | cons byte bytes ih =>
    rw [stepAll, stepAll, StreamDecoder.push]
    cases hpush : (decoder.push byte).2 with
    | nil => simp only [ih, List.nil_append]
    | cons c cs =>
      simp only [stepAll_begun, dropMark, List.cons_append, List.head?_cons, List.tail_cons,
        List.isEmpty_cons, Bool.not_false, Option.some.injEq]
      split <;> rfl

/-- A text comes out of the decoder as it went into the encoder, unless it begins with the mark. -/
theorem read_encode {text : List Char} (begun : Bool)
    (h : text.head? ≠ some byteOrderMark) :
    reader.read ⟨{}, begun⟩ (encode text) = (⟨{}, begun || !text.isEmpty⟩, text) := by
  change stepAll StreamDecoder.push _ _ = _
  cases begun with
  | true => rw [stepAll_begun, stepAll_encode, Bool.true_or]
  | false => rw [stepAll_fresh, stepAll_encode, dropMark_of_head? h, Bool.false_or]

end Mark

theorem encode_append (text text' : List Char) :
    encode (text ++ text') = encode text ++ encode text' := List.flatMap_append

/-- The beginning of the bytes of a text gives a beginning of the text. -/
theorem read_encode_prefix {text : List Char} {part : List UInt8} (begun : Bool)
    (h : text.head? ≠ some byteOrderMark) (hpart : part <+: encode text) :
    (reader.read ⟨{}, begun⟩ part).2 <+: text := by
  have hprefix := Reader.read_prefix (r := reader) ⟨{}, begun⟩ hpart
  rwa [read_encode begun h] at hprefix

end Utf8
