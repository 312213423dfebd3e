import Pagewright.Text.Percent

/-!
# Percent coding is undone by decoding

The bytes of a text are read back as the text, and a percent-coded text is
decoded as what it was, whichever characters were permitted, as long as the
percent sign is not one of them. A text in ASCII is its own decoding exactly
when nothing in it reads as an escape.

## Main results

* `Utf8.decodeLossy_encodeAll` — reading the bytes of a text.
* `Percent.decode_encode` — decoding undoes coding.
* `Percent.decode_eq_self_iff` — which texts are decoded as themselves.
-/

namespace Pagewright.Text

namespace Utf8

/-! ## Bytes of a text -/

theorem toNat_toUInt8 {n : Nat} (h : n < 256) : n.toUInt8.toNat = n :=
  UInt8.toNat_ofNat_of_lt' h

/-- One more byte of a character. -/
theorem continuation_cons {b low high : Nat} (hLow : low ≤ b) (hHigh : b ≤ high)
    (hByte : b < 256) (count value : Nat) (rest : List UInt8) :
    continuation (count + 1) value low high (b.toUInt8 :: rest) =
      continuation count (value * 64 + (b - 0x80)) 0x80 0xbf rest := by
  rw [continuation, toNat_toUInt8 hByte, if_pos ⟨hLow, hHigh⟩]

/-- A character whose bytes do not break off. -/
theorem decodeLossy_cons {b count value low high : Nat} (hByte : b < 256)
    (hLead : lead? b = some (count, value, low, high)) {rest after : List UInt8} {c : Char}
    (hRest : continuation count value low high rest = (some c, after)) :
    decodeLossy (b.toUInt8 :: rest) = c :: decodeLossy after := by
  rw [decodeLossy, toNat_toUInt8 hByte, hLead]
  simp only [hRest, Option.getD_some]

theorem lead?_two {k : Nat} (hLow : 2 ≤ k) (hHigh : k < 32) :
    lead? (0xc0 + k) = some (1, k, 0x80, 0xbf) := by
  have hAll : ∀ k : Fin 32, 2 ≤ k.val → lead? (0xc0 + k) = some (1, k.val, 0x80, 0xbf) := by
    decide
  exact hAll ⟨k, hHigh⟩ hLow

theorem lead?_three {k : Nat} (hHigh : k < 16) : lead? (0xe0 + k) =
    some (2, k, if k = 0 then 0xa0 else 0x80, if k = 0xd then 0x9f else 0xbf) := by
  have hAll : ∀ k : Fin 16, lead? (0xe0 + k) =
      some (2, k.val, if k.val = 0 then 0xa0 else 0x80, if k.val = 0xd then 0x9f else 0xbf) := by
    decide
  exact hAll ⟨k, hHigh⟩

theorem lead?_four {k : Nat} (hHigh : k < 5) : lead? (0xf0 + k) =
    some (3, k, if k = 0 then 0x90 else 0x80, if k = 4 then 0x8f else 0xbf) := by
  have hAll : ∀ k : Fin 5, lead? (0xf0 + k) =
      some (3, k.val, if k.val = 0 then 0x90 else 0x80, if k.val = 4 then 0x8f else 0xbf) := by
    decide
  exact hAll ⟨k, hHigh⟩

/-- A number below the surrogates or above them. -/
theorem toNat_valid (c : Char) : c.toNat < 0xd800 ∨ 0xdfff < c.toNat ∧ c.toNat < 0x110000 :=
  c.valid

/-- The bytes of a character are read as the character. Their number depends on the size of
the character, and the narrower ranges of a second byte on which numbers are left for it. -/
theorem decodeLossy_encode_append (c : Char) (bytes : List UInt8) :
    decodeLossy (encode c ++ bytes) = c :: decodeLossy bytes := by
  have hValid := toNat_valid c
  have hChar := Char.ofNat_toNat c
  unfold encode
  generalize c.toNat = n at hValid hChar
  by_cases hOne : n < 0x80
  · rw [if_pos hOne, List.cons_append, List.nil_append]
    have hLead : lead? n = some (0, n, 0, 0) := if_pos hOne
    exact decodeLossy_cons (by omega) hLead (by rw [continuation, hChar])
  by_cases hTwo : n < 0x800
  · rw [if_neg hOne, if_pos hTwo, List.cons_append, List.cons_append, List.nil_append]
    refine decodeLossy_cons (by omega) (lead?_two (by omega) (by omega)) ?_
    rw [continuation_cons (by omega) (by omega) (by omega),
      continuation, show n / 64 * 64 + (0x80 + n % 64 - 0x80) = n by omega, hChar]
  by_cases hThree : n < 0x10000
  · rw [if_neg hOne, if_neg hTwo, if_pos hThree]
    simp only [List.cons_append, List.nil_append]
    refine decodeLossy_cons (by omega) (lead?_three (by omega)) ?_
    rw [continuation_cons (by split <;> omega) (by split <;> omega) (by omega),
      continuation_cons (by omega) (by omega) (by omega), continuation,
      show (n / 4096 * 64 + (0x80 + n / 64 % 64 - 0x80)) * 64 + (0x80 + n % 64 - 0x80) = n by
        omega, hChar]
  · rw [if_neg hOne, if_neg hTwo, if_neg hThree]
    simp only [List.cons_append, List.nil_append]
    refine decodeLossy_cons (by omega) (lead?_four (by omega)) ?_
    rw [continuation_cons (by split <;> omega) (by split <;> omega) (by omega),
      continuation_cons (by omega) (by omega) (by omega),
      continuation_cons (by omega) (by omega) (by omega), continuation,
      show ((n / 262144 * 64 + (0x80 + n / 4096 % 64 - 0x80)) * 64 +
        (0x80 + n / 64 % 64 - 0x80)) * 64 + (0x80 + n % 64 - 0x80) = n by omega, hChar]

theorem encodeAll_append (text rest : List Char) :
    encodeAll (text ++ rest) = encodeAll text ++ encodeAll rest := List.flatMap_append

/-- The bytes of a text are read as the text. -/
theorem decodeLossy_encodeAll (text : List Char) : decodeLossy (encodeAll text) = text := by
  induction text with
  | nil => rw [encodeAll, List.flatMap_nil, decodeLossy]
  | cons c rest ih =>
    rw [encodeAll, List.flatMap_cons, decodeLossy_encode_append]
    exact congrArg (c :: ·) ih

/-- No text has more characters than bytes. -/
theorem length_decodeLossy_le (bytes : List UInt8) :
    (decodeLossy bytes).length ≤ bytes.length := by
  fun_induction decodeLossy bytes with
  | case1 => exact Nat.le_refl 0
  | case2 b rest hLead ih =>
    rw [List.length_cons, List.length_cons]
    omega
  | case3 b rest count value low high hLead ih =>
    have hAfter := continuation_length_le count value low high rest
    rw [List.length_cons, List.length_cons]
    omega

theorem encode_ne_nil (c : Char) : encode c ≠ [] := by
  intro hNil
  have hRead := decodeLossy_encode_append c []
  rw [hNil, List.append_nil, decodeLossy] at hRead
  cases hRead

theorem encode_of_ascii {c : Char} (hAscii : c.toNat < 0x80) : encode c = [c.toNat.toUInt8] :=
  if_pos hAscii

end Utf8

namespace Percent

open Utf8 (encodeAll)

/-! ## Escapes -/

theorem hexValue?_hexDigit {n : Nat} (h : n < 16) : hexValue? (hexDigit n) = some n := by
  have hAll : ∀ n : Fin 16, hexValue? (hexDigit n.val) = some n.val := by decide
  exact hAll ⟨n, h⟩

/-- An escape is read as its byte. -/
theorem decodeBytes_escapeByte_append (b : UInt8) (rest : List Char) :
    decodeBytes (escapeByte b ++ rest) = b :: decodeBytes rest := by
  have hByte : b.toNat < 256 := b.toNat_lt
  have hHigh := hexValue?_hexDigit (show b.toNat / 16 < 16 by omega)
  have hLow := hexValue?_hexDigit (show b.toNat % 16 < 16 by omega)
  rw [escapeByte, List.cons_append, List.cons_append, List.cons_append, List.nil_append,
    decodeBytes, hHigh, hLow]
  show (16 * (b.toNat / 16) + b.toNat % 16).toUInt8 :: decodeBytes rest = b :: decodeBytes rest
  rw [Nat.div_add_mod]
  exact congrArg (· :: decodeBytes rest) UInt8.ofNat_toNat

theorem decodeBytes_escapes_append (bytes : List UInt8) (rest : List Char) :
    decodeBytes (bytes.flatMap escapeByte ++ rest) = bytes ++ decodeBytes rest := by
  induction bytes with
  | nil => rfl
  | cons b bytes ih =>
    rw [List.flatMap_cons, List.append_assoc, decodeBytes_escapeByte_append, ih,
      List.cons_append]

theorem decodeBytes_cons_of_ne {c : Char} (hNot : c ≠ '%') (rest : List Char) :
    decodeBytes (c :: rest) = Utf8.encode c ++ decodeBytes rest := by
  rw [decodeBytes]
  rintro high low rest rfl
  exact absurd rfl hNot

/-- Text without percent signs stands for its own bytes. -/
theorem decodeBytes_append {text : List Char} (hNot : '%' ∉ text) (rest : List Char) :
    decodeBytes (text ++ rest) = encodeAll text ++ decodeBytes rest := by
  induction text with
  | nil => rfl
  | cons c text ih =>
    rw [List.mem_cons, not_or] at hNot
    rw [List.cons_append, decodeBytes_cons_of_ne (Ne.symm hNot.1), ih hNot.2, encodeAll, encodeAll,
      List.flatMap_cons, List.append_assoc]

/-- A coded text stands for the bytes of the text, as long as percent signs are coded. -/
theorem decodeBytes_encode {permitted : Char → Bool} (hPercent : permitted '%' = false)
    (text : List Char) : decodeBytes (encode permitted text) = encodeAll text := by
  induction text with
  | nil => rfl
  | cons c text ih =>
    rw [encode, List.flatMap_cons, encodeAll, List.flatMap_cons, encodeChar]
    by_cases hPermitted : permitted c = true
    · have hNot : c ≠ '%' := by
        rintro rfl
        rw [hPercent] at hPermitted
        cases hPermitted
      rw [if_pos hPermitted, List.cons_append, List.nil_append, decodeBytes_cons_of_ne hNot]
      exact congrArg (Utf8.encode c ++ ·) ih
    · rw [if_neg hPermitted, decodeBytes_escapes_append]
      exact congrArg (Utf8.encode c ++ ·) ih

/-- Decoding undoes coding. -/
theorem decode_encode {permitted : Char → Bool} (hPercent : permitted '%' = false)
    (text : List Char) : decode (encode permitted text) = text := by
  rw [decode, decodeBytes_encode hPercent, Utf8.decodeLossy_encodeAll]

/-- A coded text holds permitted characters and escapes. -/
theorem mem_encode {permitted : Char → Bool} {text : List Char} {c : Char}
    (hMem : c ∈ encode permitted text) :
    (permitted c = true ∧ c ∈ text) ∨ c = '%' ∨ ∃ n < 16, c = hexDigit n := by
  obtain ⟨d, hText, hMem⟩ := List.mem_flatMap.1 hMem
  rw [encodeChar] at hMem
  by_cases hPermitted : permitted d = true
  · rw [if_pos hPermitted, List.mem_singleton] at hMem
    exact .inl ⟨hMem ▸ hPermitted, hMem ▸ hText⟩
  · rw [if_neg hPermitted] at hMem
    obtain ⟨b, -, hMem⟩ := List.mem_flatMap.1 hMem
    have hByte : b.toNat < 256 := b.toNat_lt
    simp only [escapeByte, List.mem_cons, List.not_mem_nil, or_false] at hMem
    rcases hMem with rfl | rfl | rfl
    · exact .inr (.inl rfl)
    · exact .inr (.inr ⟨b.toNat / 16, by omega, rfl⟩)
    · exact .inr (.inr ⟨b.toNat % 16, by omega, rfl⟩)

/-- A text of permitted characters stands for itself. -/
theorem encode_of_permitted {permitted : Char → Bool} {text : List Char}
    (hPermitted : ∀ c ∈ text, permitted c = true) : encode permitted text = text := by
  induction text with
  | nil => rfl
  | cons c text ih =>
    obtain ⟨hFirst, hRest⟩ := List.forall_mem_cons.1 hPermitted
    rw [encode, List.flatMap_cons, encodeChar, if_pos hFirst, ← encode, ih hRest,
      List.singleton_append]

/-- A coded text without percent signs is the text itself. -/
theorem encode_eq_self {permitted : Char → Bool} {text : List Char}
    (hNot : '%' ∉ encode permitted text) : encode permitted text = text := by
  induction text with
  | nil => rfl
  | cons c text ih =>
    rw [encode, List.flatMap_cons, List.mem_append, not_or] at hNot
    rw [encode, List.flatMap_cons]
    have hOwn : encodeChar permitted c = [c] := by
      rw [encodeChar]
      by_cases hPermitted : permitted c = true
      · exact if_pos hPermitted
      · refine absurd ?_ hNot.1
        rw [encodeChar, if_neg hPermitted]
        obtain ⟨b, bytes, hBytes⟩ := List.exists_cons_of_ne_nil (Utf8.encode_ne_nil c)
        rw [hBytes]
        exact List.mem_flatMap.2 ⟨b, List.mem_cons_self, List.mem_cons_self⟩
    rw [hOwn]
    exact congrArg (c :: ·) (ih hNot.2)

theorem decodeBytes_of_not_mem {text : List Char} (hNot : '%' ∉ text) :
    decodeBytes text = encodeAll text := by
  have hBytes := decodeBytes_append hNot []
  rwa [List.append_nil, decodeBytes, List.append_nil] at hBytes

theorem decode_of_not_mem {text : List Char} (hNot : '%' ∉ text) : decode text = text := by
  rw [decode, decodeBytes_of_not_mem hNot, Utf8.decodeLossy_encodeAll]

/-! ## Texts that stand for themselves -/

/-- Whether something in a text reads as an escape. -/
def HasEscape (text : List Char) : Prop :=
  ∃ before high low after, text = before ++ '%' :: high :: low :: after ∧
    (hexValue? high).isSome = true ∧ (hexValue? low).isSome = true

/-- An escape stands at the front or further on. -/
theorem hasEscape_cons_iff {c : Char} {rest : List Char} :
    HasEscape (c :: rest) ↔
      (c = '%' ∧ ∃ high low after, rest = high :: low :: after ∧
        (hexValue? high).isSome = true ∧ (hexValue? low).isSome = true) ∨ HasEscape rest := by
  constructor
  · rintro ⟨before, high, low, after, hText, hDigits⟩
    cases before with
    | nil =>
      obtain ⟨rfl, rfl⟩ := List.cons.inj hText
      exact .inl ⟨rfl, high, low, after, rfl, hDigits⟩
    | cons first before =>
      obtain ⟨rfl, rfl⟩ := List.cons.inj hText
      exact .inr ⟨before, high, low, after, rfl, hDigits⟩
  · rintro (⟨rfl, high, low, after, rfl, hDigits⟩ | ⟨before, high, low, after, rfl, hDigits⟩)
    · exact ⟨[], high, low, after, rfl, hDigits⟩
    · exact ⟨c :: before, high, low, after, rfl, hDigits⟩

theorem decodeBytes_of_not_hasEscape {text : List Char} (hNone : ¬ HasEscape text) :
    decodeBytes text = encodeAll text := by
  fun_induction decodeBytes text with
  | case1 high low rest hi lo hLow hHigh ih =>
    refine absurd (hasEscape_cons_iff.2 (.inl ⟨rfl, high, low, rest, rfl, ?_⟩)) hNone
    rw [hHigh, hLow]
    exact ⟨rfl, rfl⟩
  | case2 high low rest hOther ih =>
    rw [ih fun hRest => hNone (hasEscape_cons_iff.2 (.inr hRest))]
    rfl
  | case3 c rest hOther ih =>
    rw [ih fun hRest => hNone (hasEscape_cons_iff.2 (.inr hRest))]
    rfl
  | case4 => rfl

/-- An escape in ASCII stands for one byte with three characters, all else for itself. -/
theorem length_decodeBytes {text : List Char} (hAscii : ∀ c ∈ text, c.toNat < 0x80) :
    (decodeBytes text).length ≤ text.length ∧
      (HasEscape text → (decodeBytes text).length < text.length) := by
  fun_induction decodeBytes text with
  | case1 high low rest hi lo hLow hHigh ih =>
    obtain ⟨hLe, -⟩ := ih fun c hMem => hAscii c (by simp [hMem])
    simp only [List.length_cons]
    exact ⟨by omega, fun _ => by omega⟩
  | case2 high low rest hOther ih =>
    obtain ⟨hLe, hLt⟩ := ih fun c hMem => hAscii c (List.mem_cons_of_mem _ hMem)
    rw [Utf8.encode_of_ascii (hAscii '%' List.mem_cons_self), List.cons_append, List.nil_append,
      List.length_cons, List.length_cons]
    refine ⟨by omega, fun hEscape => ?_⟩
    rcases hasEscape_cons_iff.1 hEscape with ⟨-, _, _, _, hRest, hHigh, hLow⟩ | hRest
    · obtain ⟨rfl, rfl, rfl⟩ : _ = _ ∧ _ = _ ∧ _ = _ := by simpa using hRest
      obtain ⟨hi, hHi⟩ := Option.isSome_iff_exists.1 hHigh
      obtain ⟨lo, hLo⟩ := Option.isSome_iff_exists.1 hLow
      exact (hOther hi lo hHi hLo).elim
    · have := hLt hRest
      omega
  | case3 c rest hOther ih =>
    obtain ⟨hLe, hLt⟩ := ih fun d hMem => hAscii d (List.mem_cons_of_mem _ hMem)
    rw [Utf8.encode_of_ascii (hAscii c List.mem_cons_self), List.cons_append, List.nil_append,
      List.length_cons, List.length_cons]
    refine ⟨by omega, fun hEscape => ?_⟩
    rcases hasEscape_cons_iff.1 hEscape with ⟨hPercent, high, low, after, hRest, -⟩ | hRest
    · exact (hOther high low after hPercent hRest).elim
    · have := hLt hRest
      omega
  | case4 => exact ⟨Nat.le_refl 0, fun ⟨before, _, _, _, hText, _⟩ => by simp at hText⟩

/-- A text in ASCII is decoded as itself exactly when nothing in it reads as an escape: an
escape would make it shorter. -/
theorem decode_eq_self_iff {text : List Char} (hAscii : ∀ c ∈ text, c.toNat < 0x80) :
    decode text = text ↔ ¬ HasEscape text := by
  constructor
  · intro hSame hEscape
    have hShorter := (length_decodeBytes hAscii).2 hEscape
    have hLength := Utf8.length_decodeLossy_le (decodeBytes text)
    rw [← decode, hSame] at hLength
    omega
  · intro hNone
    rw [decode, decodeBytes_of_not_hasEscape hNone, Utf8.decodeLossy_encodeAll]

end Percent

end Pagewright.Text
