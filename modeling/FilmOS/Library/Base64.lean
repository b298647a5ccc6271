import Mathlib.Data.List.Basic
import Mathlib.Data.Nat.Notation
import Mathlib.Tactic.SplitIfs

/-!
# Base64

The encoding of bytes as text in the alphabet that is safe in a URL, as Python's `base64` writes and
reads it. Three bytes are four characters, and the last group is filled up with `=`.

The decoder is that of `binascii`, which takes characters as they come: it skips those of neither
alphabet, keeps the bits that are left of a group, and stops where the padding completes one. A byte
string is read back from its encoding (`urlsafeDecode_urlsafeEncode`), group by group.
-/

set_option autoImplicit false
set_option relaxedAutoImplicit false

namespace FilmOS.Base64

/-- The alphabet of `urlsafe_b64encode`. -/
def alphabet : List Char :=
  "ABCDEFGHIJKLMNOPQRSTUVWXYZabcdefghijklmnopqrstuvwxyz0123456789-_".toList

/-- The character of six bits. -/
def sextetChar (bits : ℕ) : Char := alphabet.getD bits 'A'

/-- The six bits of a character of the alphabet, or of the other one with `+` and `/`, which
`urlsafe_b64decode` reads as well. -/
def sextet? (c : Char) : Option ℕ :=
  if c = '+' then some 62
  else if c = '/' then some 63
  else if c ∈ alphabet then some (alphabet.idxOf c)
  else none

/-- `base64.urlsafe_b64encode`. -/
def urlsafeEncode : List ℕ → List Char
  | [] => []
  | [a] => [sextetChar (a / 4), sextetChar (a % 4 * 16), '=', '=']
  | [a, b] =>
    [sextetChar (a / 4), sextetChar (a % 4 * 16 + b / 16), sextetChar (b % 16 * 4), '=']
  | a :: b :: c :: rest =>
    sextetChar (a / 4) :: sextetChar (a % 4 * 16 + b / 16) :: sextetChar (b % 16 * 4 + c / 64) ::
      sextetChar (c % 64) :: urlsafeEncode rest

/-- The bytes of a text from within a group on: the place in the group, the bits that are left of
the last character, and how many padding characters followed it. -/
def decodeFrom (place left pads : ℕ) : List Char → Option (List ℕ)
  | [] => if place = 0 then some [] else none
  | c :: rest =>
    if c = '=' then
      if place < 2 then decodeFrom place left pads rest
      else if 4 ≤ place + (pads + 1) then some []
      else decodeFrom place left (pads + 1) rest
    else
      match sextet? c with
      | none => decodeFrom place left pads rest
      | some bits =>
        if place = 0 then decodeFrom 1 bits 0 rest
        else if place = 1 then (decodeFrom 2 (bits % 16) 0 rest).map ((left * 4 + bits / 16) :: ·)
        else if place = 2 then (decodeFrom 3 (bits % 4) 0 rest).map ((left * 16 + bits / 4) :: ·)
        else (decodeFrom 0 0 0 rest).map ((left * 64 + bits) :: ·)

/-- `base64.urlsafe_b64decode` of a text: it must be ASCII. -/
def urlsafeDecode (text : List Char) : Option (List ℕ) :=
  if text.all (fun c ↦ c.toNat < 128) then decodeFrom 0 0 0 text else none

/-! ### The alphabet -/

/-- A character stands for the bits that it was written for, and is no padding. -/
theorem sextet?_sextetChar {bits : ℕ} (h : bits < 64) :
    sextet? (sextetChar bits) = some bits ∧ sextetChar bits ≠ '=' ∧
      (sextetChar bits).toNat < 128 := by
  have hall : ∀ bits : Fin 64, sextet? (sextetChar bits) = some bits.val ∧
      sextetChar bits ≠ '=' ∧ (sextetChar bits).toNat < 128 := by decide +kernel
  exact hall ⟨bits, h⟩

variable {left pads bits : ℕ} {rest : List Char}

theorem decodeFrom_first (h : bits < 64) :
    decodeFrom 0 left pads (sextetChar bits :: rest) = decodeFrom 1 bits 0 rest := by
  obtain ⟨hbits, hpadding, -⟩ := sextet?_sextetChar h
  rw [decodeFrom, if_neg hpadding, hbits]
  rfl

theorem decodeFrom_second (h : bits < 64) :
    decodeFrom 1 left pads (sextetChar bits :: rest) =
      (decodeFrom 2 (bits % 16) 0 rest).map ((left * 4 + bits / 16) :: ·) := by
  obtain ⟨hbits, hpadding, -⟩ := sextet?_sextetChar h
  rw [decodeFrom, if_neg hpadding, hbits]
  rfl

theorem decodeFrom_third (h : bits < 64) :
    decodeFrom 2 left pads (sextetChar bits :: rest) =
      (decodeFrom 3 (bits % 4) 0 rest).map ((left * 16 + bits / 4) :: ·) := by
  obtain ⟨hbits, hpadding, -⟩ := sextet?_sextetChar h
  rw [decodeFrom, if_neg hpadding, hbits]
  rfl

theorem decodeFrom_fourth (h : bits < 64) :
    decodeFrom 3 left pads (sextetChar bits :: rest) =
      (decodeFrom 0 0 0 rest).map ((left * 64 + bits) :: ·) := by
  obtain ⟨hbits, hpadding, -⟩ := sextet?_sextetChar h
  rw [decodeFrom, if_neg hpadding, hbits]
  rfl

/-! ### The round trip -/

theorem decodeFrom_urlsafeEncode {bytes : List ℕ} (h : ∀ byte ∈ bytes, byte < 256) :
    decodeFrom 0 0 0 (urlsafeEncode bytes) = some bytes := by
  induction bytes using urlsafeEncode.induct with
  | case1 => rfl
  | case2 a =>
    have ha := h a (by simp)
    rw [urlsafeEncode, decodeFrom_first (by omega), decodeFrom_second (by omega)]
    change some [a / 4 * 4 + a % 4 * 16 / 16] = _
    rw [show a / 4 * 4 + a % 4 * 16 / 16 = a by omega]
  | case3 a b =>
    have ha := h a (by simp)
    have hb := h b (by simp)
    rw [urlsafeEncode, decodeFrom_first (by omega), decodeFrom_second (by omega),
      decodeFrom_third (by omega)]
    change some [a / 4 * 4 + (a % 4 * 16 + b / 16) / 16,
      (a % 4 * 16 + b / 16) % 16 * 16 + b % 16 * 4 / 4] = _
    rw [show a / 4 * 4 + (a % 4 * 16 + b / 16) / 16 = a by omega,
      show (a % 4 * 16 + b / 16) % 16 * 16 + b % 16 * 4 / 4 = b by omega]
  | case4 a b c rest ih =>
    have ha := h a (by simp)
    have hb := h b (by simp)
    have hc := h c (by simp)
    have hrest : ∀ byte ∈ rest, byte < 256 := fun byte hbyte ↦ h byte (by simp [hbyte])
    rw [urlsafeEncode, decodeFrom_first (by omega), decodeFrom_second (by omega),
      decodeFrom_third (by omega), decodeFrom_fourth (by omega), ih hrest]
    change some (_ :: _ :: _ :: rest) = _
    rw [show a / 4 * 4 + (a % 4 * 16 + b / 16) / 16 = a by omega,
      show (a % 4 * 16 + b / 16) % 16 * 16 + (b % 16 * 4 + c / 64) / 4 = b by omega,
      show (b % 16 * 4 + c / 64) % 4 * 64 + c % 64 = c by omega]

/-- The characters of an encoding are ASCII. -/
theorem toNat_lt_of_mem_urlsafeEncode {bytes : List ℕ} (h : ∀ byte ∈ bytes, byte < 256) {d : Char}
    (hd : d ∈ urlsafeEncode bytes) : d.toNat < 128 := by
  have hpadding : '='.toNat < 128 := by decide
  have hchar : ∀ bits < 64, (sextetChar bits).toNat < 128 := fun bits hbits ↦
    (sextet?_sextetChar hbits).2.2
  induction bytes using urlsafeEncode.induct with
  | case1 => cases hd
  | case2 a =>
    have ha := h a (by simp)
    simp only [urlsafeEncode, List.mem_cons, List.not_mem_nil, or_false] at hd
    rcases hd with rfl | rfl | rfl | rfl
    · exact hchar _ (by omega)
    · exact hchar _ (by omega)
    · exact hpadding
    · exact hpadding
  | case3 a b =>
    have ha := h a (by simp)
    have hb := h b (by simp)
    simp only [urlsafeEncode, List.mem_cons, List.not_mem_nil, or_false] at hd
    rcases hd with rfl | rfl | rfl | rfl
    · exact hchar _ (by omega)
    · exact hchar _ (by omega)
    · exact hchar _ (by omega)
    · exact hpadding
  | case4 a b c rest ih =>
    have ha := h a (by simp)
    have hb := h b (by simp)
    have hc := h c (by simp)
    simp only [urlsafeEncode, List.mem_cons] at hd
    rcases hd with rfl | rfl | rfl | rfl | hd
    · exact hchar _ (by omega)
    · exact hchar _ (by omega)
    · exact hchar _ (by omega)
    · exact hchar _ (by omega)
    · exact ih (fun byte hbyte ↦ h byte (by simp [hbyte])) hd

/-- Bytes are read back from their encoding. -/
theorem urlsafeDecode_urlsafeEncode {bytes : List ℕ} (h : ∀ byte ∈ bytes, byte < 256) :
    urlsafeDecode (urlsafeEncode bytes) = some bytes := by
  unfold urlsafeDecode
  rw [if_pos, decodeFrom_urlsafeEncode h]
  exact List.all_eq_true.mpr fun c hc ↦ decide_eq_true (toNat_lt_of_mem_urlsafeEncode h hc)

/-- Some bytes are some text. -/
theorem urlsafeEncode_ne_nil {bytes : List ℕ} (h : bytes ≠ []) : urlsafeEncode bytes ≠ [] := by
  rcases bytes with _ | ⟨a, _ | ⟨b, _ | ⟨c, rest⟩⟩⟩
  · exact absurd rfl h
  · simp [urlsafeEncode]
  · simp [urlsafeEncode]
  · simp [urlsafeEncode]

end FilmOS.Base64
