import Brainfuck.Text.Encoding
import Mathlib.Data.List.TakeWhile

/-!
A text that is written in an encoding is read back as it is.

`Encoding.encode` writes a text in each of the encodings. For those that have several bytes for a
character the argument is one step of the decoder: the bytes of a character, in front of any others,
take the decoder from between two characters to between two characters again, with that character
read (`Utf8.decodeFrom_encodeChar`, `Utf16.decodeFrom_encodeChar`). A text is read by induction from
it, which is the same for both (`decode_flatMap`), and `Encoding.decode_encode` is said of every
encoding.
-/

namespace Brainfuck.Text

/-- A decoder that reads the bytes of one character, wherever they stand, reads those of a text. -/
theorem decode_flatMap {ε : Type}
    (decodeFrom : Nat → List Char → List UInt8 → Except ε (List Char)) (bytes : Char → List UInt8)
    (hend : ∀ position read, decodeFrom position read [] = .ok read.reverse)
    (hchar : ∀ c position read rest, decodeFrom position read (bytes c ++ rest) =
      decodeFrom (position + (bytes c).length) (c :: read) rest)
    (text : List Char) (position : Nat) (read : List Char) :
    decodeFrom position read (text.flatMap bytes) = .ok (read.reverse ++ text) := by
  induction text generalizing position read with
  | nil => rw [List.flatMap_nil, hend, List.append_nil]
  | cons c text ih =>
    rw [List.flatMap_cons, hchar, ih, List.reverse_cons, List.append_assoc, List.singleton_append]

/-! ## One byte for one character -/

namespace SingleByte

/-- The bytes of a text, where every character has one. -/
def encode (text : List Char) : List UInt8 :=
  text.map fun c => UInt8.ofNat c.toNat

theorem decodeLatin_encode {text : List Char} (h : ∀ c ∈ text, c.toNat < 256) :
    decodeLatin (encode text) = text := by
  rw [decodeLatin, encode, List.map_map]
  refine (List.map_congr_left fun c hc => ?_).trans (List.map_id text)
  rw [Function.comp_apply, UInt8.toNat_ofNat_of_lt' (h c hc), Char.ofNat_toNat, id]

theorem decodeAscii_encode {text : List Char} (h : ∀ c ∈ text, c.toNat < 0x80) :
    decodeAscii (encode text) = .ok text := by
  have hlatin : ∀ c ∈ text, c.toNat < 256 := fun c hc => Nat.lt_trans (h c hc) (by decide)
  have hfind : (encode text).zipIdx.find? (fun entry => decide (0x80 ≤ entry.1)) = none := by
    refine List.find?_eq_none.mpr fun entry hentry => ?_
    obtain ⟨c, hc, hbyte⟩ := List.mem_map.mp (List.fst_mem_of_mem_zipIdx hentry)
    have hlt : entry.1.toNat < 0x80 := by
      rw [← hbyte, UInt8.toNat_ofNat_of_lt' (hlatin c hc)]
      exact h c hc
    rw [decide_eq_true_eq, UInt8.le_iff_toNat_le]
    exact Nat.not_le.mpr hlt
  rw [decodeAscii, hfind, decodeLatin_encode hlatin]

end SingleByte

/-! ## UTF-8 -/

namespace Utf8

/-- The bytes of a text. -/
def encode (text : List Char) : List UInt8 :=
  text.flatMap String.utf8EncodeChar

variable {position start owed low high code : Nat} {lead : UInt8} {read : List Char}

theorem decodeFrom_single {byte : Nat} (h : byte < 0x80) (rest : List UInt8) :
    decodeFrom position .between read (UInt8.ofNat byte :: rest) =
      decodeFrom (position + 1) .between (Char.ofNat byte :: read) rest := by
  have hbyte : (UInt8.ofNat byte).toNat = byte :=
    UInt8.toNat_ofNat_of_lt' (Nat.lt_trans h (by decide))
  have hfirst : first byte = .single byte := if_pos h
  simp only [decodeFrom, hbyte, hfirst]

theorem decodeFrom_several {byte : Nat} (hlt : byte < 256)
    (hfirst : first byte = .several owed low high code) (rest : List UInt8) :
    decodeFrom position .between read (UInt8.ofNat byte :: rest) =
      decodeFrom (position + 1) (.inside position (UInt8.ofNat byte) owed low high code) read
        rest := by
  have hbyte : (UInt8.ofNat byte).toNat = byte := UInt8.toNat_ofNat_of_lt' hlt
  simp only [decodeFrom, hbyte, hfirst]

/-- A later byte of a character, `payload` being the part of the code that it spells. -/
theorem decodeFrom_inside {payload : Nat} (hpayload : payload < 64) (hlow : low ≤ payload + 128)
    (hhigh : payload + 128 ≤ high) (rest : List UInt8) :
    decodeFrom position (.inside start lead owed low high code) read
        (UInt8.ofNat (payload + 128) :: rest) =
      if owed ≤ 1 then
        decodeFrom (position + 1) .between (Char.ofNat (code * 64 + payload) :: read) rest
      else decodeFrom (position + 1)
        (.inside start lead (owed - 1) 0x80 0xBF (code * 64 + payload)) read rest := by
  have hlt : payload + 128 < 256 := by omega
  have hbyte : (UInt8.ofNat (payload + 128)).toNat = payload + 128 := UInt8.toNat_ofNat_of_lt' hlt
  simp only [decodeFrom, hbyte, hlow, hhigh, and_self, if_true, Nat.add_sub_cancel]

/-! What the first byte of a character says: the code it begins, and the range of the next byte,
which leaves out the codes of shorter characters, the surrogates and what is past the last code. -/

theorem first_of_two {code : Nat} (hlow : 0x80 ≤ code) (hhigh : code < 0x800) :
    first (code / 64 % 32 + 192) = .several 1 0x80 0xBF (code / 64) := by
  have hbyte : code / 64 % 32 + 192 = 0xC0 + code / 64 := by omega
  have hbounds : 0xC2 ≤ 0xC0 + code / 64 ∧ 0xC0 + code / 64 < 0xE0 := by omega
  rw [hbyte, first, if_neg (by omega), if_neg (by omega), if_pos hbounds.2, Nat.add_sub_cancel_left]

theorem first_of_three {code : Nat} (hhigh : code < 0x10000) :
    first (code / 4096 % 16 + 224) =
      .several 2 (if code < 0x1000 then 0xA0 else 0x80) (if code / 4096 = 13 then 0x9F else 0xBF)
        (code / 4096) := by
  have hbyte : code / 4096 % 16 + 224 = 0xE0 + code / 4096 := by omega
  have hbounds : 0xE0 ≤ 0xE0 + code / 4096 ∧ 0xE0 + code / 4096 < 0xF0 := by omega
  have hleast : (0xE0 + code / 4096 = 0xE0) = (code < 0x1000) := by
    rw [eq_iff_iff]
    omega
  have hsurrogate : (0xE0 + code / 4096 = 0xED) = (code / 4096 = 13) := by
    rw [eq_iff_iff]
    omega
  rw [hbyte, first, if_neg (by omega), if_neg (by omega), if_neg (by omega), if_pos hbounds.2,
    Nat.add_sub_cancel_left]
  simp only [hleast, hsurrogate]

theorem first_of_four {code : Nat} (hhigh : code < 0x110000) :
    first (code / 262144 % 8 + 240) =
      .several 3 (if code < 0x40000 then 0x90 else 0x80) (if 0x100000 ≤ code then 0x8F else 0xBF)
        (code / 262144) := by
  have hbyte : code / 262144 % 8 + 240 = 0xF0 + code / 262144 := by omega
  have hbounds : 0xF0 ≤ 0xF0 + code / 262144 ∧ 0xF0 + code / 262144 < 0xF5 := by omega
  have hleast : (0xF0 + code / 262144 = 0xF0) = (code < 0x40000) := by
    rw [eq_iff_iff]
    omega
  have hlast : (0xF0 + code / 262144 = 0xF4) = (0x100000 ≤ code) := by
    rw [eq_iff_iff]
    omega
  rw [hbyte, first, if_neg (by omega), if_neg (by omega), if_neg (by omega), if_neg (by omega),
    if_pos hbounds.2, Nat.add_sub_cancel_left]
  simp only [hleast, hlast]

/-- The bytes of a character, in front of any others, are read as the character. -/
theorem decodeFrom_encodeChar (c : Char) (position : Nat) (read : List Char) (rest : List UInt8) :
    decodeFrom position .between read (String.utf8EncodeChar c ++ rest) =
      decodeFrom (position + (String.utf8EncodeChar c).length) .between (c :: read) rest := by
  have hvalid : c.toNat < 0xD800 ∨ 0xDFFF < c.toNat ∧ c.toNat < 0x110000 := c.valid
  have hread : ∀ {code : Nat}, code = c.toNat → Char.ofNat code = c := by
    intro code hcode
    rw [hcode, Char.ofNat_toNat]
  simp only [String.utf8EncodeChar, Char.toNat_val]
  generalize c.toNat = code at hvalid hread
  -- The cases are those of the length; the ranges of the bytes follow from the bounds of the code.
  split
  · next hone =>
    rw [List.singleton_append, decodeFrom_single (by omega), hread rfl]
    rfl
  · split
    · next hmore htwo =>
      rw [List.cons_append, decodeFrom_several (by omega) (first_of_two (by omega) (by omega)),
        List.singleton_append, decodeFrom_inside (by omega) (by omega) (by omega),
        if_pos (Nat.le_refl 1), hread (by omega)]
      rfl
    · split
      · next hmore hthree =>
        rw [List.cons_append, decodeFrom_several (by omega) (first_of_three (by omega)),
          List.cons_append, decodeFrom_inside (by omega) (by split <;> omega) (by split <;> omega),
          if_neg (by decide), List.singleton_append,
          decodeFrom_inside (by omega) (by omega) (by omega), if_pos (by decide), hread (by omega)]
        rfl
      · next hmore =>
        rw [List.cons_append, decodeFrom_several (by omega) (first_of_four (by omega)),
          List.cons_append, decodeFrom_inside (by omega) (by split <;> omega) (by split <;> omega),
          if_neg (by decide), List.cons_append, decodeFrom_inside (by omega) (by omega) (by omega),
          if_neg (by decide), List.singleton_append,
          decodeFrom_inside (by omega) (by omega) (by omega), if_pos (by decide), hread (by omega)]
        rfl

theorem decode_encode (text : List Char) : decode (encode text) = .ok text := by
  have hend : ∀ position read, decodeFrom position .between read [] = .ok read.reverse :=
    fun _ _ => rfl
  exact decode_flatMap (decodeFrom · .between ·) _ hend decodeFrom_encodeChar text 0 []

theorem decodeSigned_encode (text : List Char) :
    decodeSigned (signature ++ encode text) = .ok text := by
  cases text with
  | nil => rfl
  | cons c text =>
    have hlong : ¬ (signature ++ encode (c :: text)).isPrefixOf signature = true := by
      intro hfront
      have hle := (List.isPrefixOf_iff_prefix.mp hfront).length_le
      have hchar : 0 < (String.utf8EncodeChar c).length := by
        rw [String.length_utf8EncodeChar]
        exact c.utf8Size_pos
      rw [encode, List.flatMap_cons, List.length_append, List.length_append] at hle
      omega
    have hfront : signature.isPrefixOf (signature ++ encode (c :: text)) = true :=
      List.isPrefixOf_iff_prefix.mpr (List.prefix_append _ _)
    rw [decodeSigned, if_neg hlong, if_pos hfront, List.drop_left, decode_encode]

end Utf8

/-! ## UTF-16 -/

namespace Utf16

/-- The two bytes of a unit. -/
def Order.bytes (order : Order) (unit : Nat) : List UInt8 :=
  match order with
  | .littleEndian => [UInt8.ofNat (unit % 256), UInt8.ofNat (unit / 256)]
  | .bigEndian => [UInt8.ofNat (unit / 256), UInt8.ofNat (unit % 256)]

/-- The first half of the pair that spells a code past the units. -/
def highHalf (code : Nat) : Nat :=
  0xD800 + (code - 0x10000) / 0x400

/-- The second half. -/
def lowHalf (code : Nat) : Nat :=
  0xDC00 + (code - 0x10000) % 0x400

/-- The bytes of a character: those of one unit, or of a pair. -/
def encodeChar (order : Order) (c : Char) : List UInt8 :=
  if c.toNat < 0x10000 then order.bytes c.toNat
  else order.bytes (highHalf c.toNat) ++ order.bytes (lowHalf c.toNat)

/-- The bytes of a text. -/
def encode (order : Order) (text : List Char) : List UInt8 :=
  text.flatMap (encodeChar order)

theorem Order.exists_bytes (order : Order) {unit : Nat} (h : unit < 0x10000) :
    ∃ a b, order.bytes unit = [a, b] ∧ order.unit a b = unit := by
  have hbounds : unit % 256 < 256 ∧ unit / 256 < 256 := by omega
  have hlow : (UInt8.ofNat (unit % 256)).toNat = unit % 256 := UInt8.toNat_ofNat_of_lt' hbounds.1
  have hhigh : (UInt8.ofNat (unit / 256)).toNat = unit / 256 := UInt8.toNat_ofNat_of_lt' hbounds.2
  cases order with
  | littleEndian =>
    refine ⟨_, _, rfl, ?_⟩
    rw [Order.unit, hlow, hhigh]
    omega
  | bigEndian =>
    refine ⟨_, _, rfl, ?_⟩
    rw [Order.unit, hlow, hhigh]
    omega

theorem ofPair_halves {code : Nat} (h : 0x10000 ≤ code) :
    ofPair (highHalf code) (lowHalf code) = code := by
  unfold ofPair highHalf lowHalf
  omega

theorem isHigh_eq_false {unit : Nat} (h : unit < 0xD800 ∨ 0xDC00 ≤ unit) : isHigh unit = false := by
  rw [isHigh, Bool.and_eq_false_iff, decide_eq_false_iff_not, decide_eq_false_iff_not]
  omega

theorem isLow_eq_false {unit : Nat} (h : unit < 0xDC00 ∨ 0xE000 ≤ unit) : isLow unit = false := by
  rw [isLow, Bool.and_eq_false_iff, decide_eq_false_iff_not, decide_eq_false_iff_not]
  omega

variable {position : Nat} {read : List Char}

theorem decodeFrom_single (order : Order) {unit : Nat}
    (h : unit < 0xD800 ∨ 0xDFFF < unit ∧ unit < 0x10000) (rest : List UInt8) :
    decodeFrom order position none read (order.bytes unit ++ rest) =
      decodeFrom order (position + 2) none (Char.ofNat unit :: read) rest := by
  have hlt : unit < 0x10000 := by omega
  obtain ⟨a, b, hbytes, hunit⟩ := order.exists_bytes hlt
  have hhigh : isHigh unit = false := isHigh_eq_false (by omega)
  have hlow : isLow unit = false := isLow_eq_false (by omega)
  rw [hbytes, List.cons_append, List.singleton_append, decodeFrom]
  simp only [hunit, hhigh, hlow, Bool.false_eq_true, if_false]

theorem decodeFrom_pair (order : Order) {high low : Nat}
    (hhigh : 0xD800 ≤ high ∧ high < 0xDC00) (hlow : 0xDC00 ≤ low ∧ low < 0xE000)
    (rest : List UInt8) :
    decodeFrom order position none read (order.bytes high ++ (order.bytes low ++ rest)) =
      decodeFrom order (position + 4) none (Char.ofNat (ofPair high low) :: read) rest := by
  obtain ⟨a, b, hfirst, hunit⟩ := order.exists_bytes (Nat.lt_trans hhigh.2 (by decide))
  obtain ⟨a', b', hsecond, hunit'⟩ := order.exists_bytes (Nat.lt_trans hlow.2 (by decide))
  have hishigh : isHigh high = true := by
    rw [isHigh, decide_eq_true hhigh.1, decide_eq_true hhigh.2, Bool.and_self]
  have hislow : isLow low = true := by
    rw [isLow, decide_eq_true hlow.1, decide_eq_true hlow.2, Bool.and_self]
  rw [hfirst, hsecond, List.cons_append, List.singleton_append, List.cons_append,
    List.singleton_append, decodeFrom]
  simp only [hunit, hishigh, if_true]
  rw [decodeFrom]
  simp only [hunit', hislow, if_true]

/-- The bytes of a character, in front of any others, are read as the character. -/
theorem decodeFrom_encodeChar (order : Order) (c : Char) (position : Nat) (read : List Char)
    (rest : List UInt8) :
    decodeFrom order position none read (encodeChar order c ++ rest) =
      decodeFrom order (position + (encodeChar order c).length) none (c :: read) rest := by
  have hvalid : c.toNat < 0xD800 ∨ 0xDFFF < c.toNat ∧ c.toNat < 0x110000 := c.valid
  have hlength : ∀ unit, (order.bytes unit).length = 2 := by
    intro unit
    cases order <;> rfl
  rw [encodeChar]
  split
  · next hsingle =>
    rw [decodeFrom_single order (by omega), Char.ofNat_toNat, hlength]
  · next hpair =>
    have hhigh : 0xD800 ≤ highHalf c.toNat ∧ highHalf c.toNat < 0xDC00 := by
      rw [highHalf]
      omega
    have hlow : 0xDC00 ≤ lowHalf c.toNat ∧ lowHalf c.toNat < 0xE000 := by
      rw [lowHalf]
      omega
    rw [List.append_assoc, decodeFrom_pair order hhigh hlow, ofPair_halves (Nat.not_lt.mp hpair),
      Char.ofNat_toNat, List.length_append, hlength, hlength]

theorem decode_encode (order : Order) (text : List Char) :
    decode order (encode order text) = .ok text := by
  have hend : ∀ position read, decodeFrom order position none read [] = .ok read.reverse := by
    intro position read
    rw [decodeFrom]
  exact decode_flatMap (decodeFrom order · none ·) _ hend (decodeFrom_encodeChar order) text 0 []

end Utf16

/-! ## Every encoding -/

namespace Encoding

/-- Whether an encoding has bytes for a character. -/
def covers (encoding : Encoding) (c : Char) : Prop :=
  match encoding with
  | .utf8 | .utf8Signed | .utf16 _ => True
  | .latin => c.toNat < 0x100
  | .ascii => c.toNat < 0x80

/-- The bytes of a text whose characters the encoding covers. -/
def encode (encoding : Encoding) (text : List Char) : List UInt8 :=
  match encoding with
  | .utf8 => Utf8.encode text
  | .utf8Signed => Utf8.signature ++ Utf8.encode text
  | .latin | .ascii => SingleByte.encode text
  | .utf16 order => Utf16.encode order text

theorem decode_encode (encoding : Encoding) {text : List Char}
    (h : ∀ c ∈ text, encoding.covers c) : encoding.decode (encoding.encode text) = .ok text := by
  cases encoding with
  | utf8 => exact Utf8.decode_encode text
  | utf8Signed => exact Utf8.decodeSigned_encode text
  | latin => exact congrArg Except.ok (SingleByte.decodeLatin_encode h)
  | ascii => exact SingleByte.decodeAscii_encode h
  | utf16 order => exact Utf16.decode_encode order text

end Encoding

end Brainfuck.Text
