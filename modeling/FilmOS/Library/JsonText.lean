import FilmOS.Library.PythonText
import Mathlib.Tactic.Common
import Mathlib.Tactic.IntervalCases

/-!
# Strings in JSON

A text as Python's `json.dumps` writes it, in ASCII: quotation marks, backslashes and five control
characters have an escape of their own, any other character outside the printable ones of ASCII is
written by its number, in two surrogates where it has more than four digits. `json.loads` reads the
characters one by one, and whatever a text is written as is read back as the text, in front of any
rest (`readString_dumpsString`).

A surrogate that stands alone is a character of a Python string, but of no text, and is not read.
-/

set_option autoImplicit false
set_option relaxedAutoImplicit false

namespace FilmOS.JsonText

open PythonText

/-! ### Writing -/

/-- The characters with an escape of their own, and its letter. -/
def shortEscapes : List (Char × Char) :=
  [('"', '"'), ('\\', '\\'), ('\n', 'n'), ('\r', 'r'), ('\t', 't'), (Char.ofNat 12, 'f'),
    (Char.ofNat 8, 'b')]

/-- A code unit by its four digits. -/
def unicodeEscape (unit : ℕ) : List Char :=
  ['\\', 'u', Nat.digitChar (unit / 4096), Nat.digitChar (unit / 256 % 16),
    Nat.digitChar (unit / 16 % 16), Nat.digitChar (unit % 16)]

/-- A character between quotation marks. -/
def escape (c : Char) : List Char :=
  match shortEscapes.lookup c with
  | some letter => ['\\', letter]
  | none =>
    if ' ' ≤ c ∧ c ≤ '~' then [c]
    else if c.toNat < 0x10000 then unicodeEscape c.toNat
    else
      unicodeEscape (0xd800 + (c.toNat - 0x10000) / 0x400) ++
        unicodeEscape (0xdc00 + (c.toNat - 0x10000) % 0x400)

/-- `json.dumps` of a text. -/
def dumpsString (text : String) : List Char := '"' :: (text.toList.flatMap escape ++ ['"'])

/-! ### Reading -/

/-- The value of a hexadecimal digit. -/
def hexValue? (c : Char) : Option ℕ :=
  if '0' ≤ c ∧ c ≤ '9' then some (c.toNat - 48)
  else if 'a' ≤ c ∧ c ≤ 'f' then some (c.toNat - 87)
  else if 'A' ≤ c ∧ c ≤ 'F' then some (c.toNat - 55)
  else none

/-- Four hexadecimal digits, and the rest. -/
def readUnit (text : List Char) : Option (ℕ × List Char) :=
  match text with
  | a :: b :: c :: d :: rest => do
    let a ← hexValue? a
    let b ← hexValue? b
    let c ← hexValue? c
    let d ← hexValue? d
    return (a * 4096 + b * 256 + c * 16 + d, rest)
  | _ => none

/-- The second half of a character of two surrogates, and the rest. -/
def readLow (high : ℕ) (text : List Char) : Option (Char × List Char) := do
  let text ← ['\\', 'u'].isPrefixOf? text
  let (low, rest) ← readUnit text
  if 0xdc00 ≤ low ∧ low < 0xe000 then
    return (Char.ofNat (0x10000 + (high - 0xd800) * 0x400 + (low - 0xdc00)), rest)
  else none

/-- The character that is written by its number, and the rest. -/
def readUnicode (text : List Char) : Option (Char × List Char) := do
  let (unit, rest) ← readUnit text
  if 0xd800 ≤ unit ∧ unit < 0xdc00 then readLow unit rest
  else if 0xdc00 ≤ unit ∧ unit < 0xe000 then none
  else return (Char.ofNat unit, rest)

/-- The character of the letter of an escape. -/
def unescape? (letter : Char) : Option Char :=
  if letter = '/' then some '/' else (shortEscapes.find? (·.2 = letter)).map (·.1)

/-- One character of a string, and the rest. Control characters must be escaped. -/
def readChar (text : List Char) : Option (Char × List Char) :=
  match text with
  | [] => none
  | c :: rest =>
    if c = '\\' then
      match rest with
      | [] => none
      | letter :: rest =>
        if letter = 'u' then readUnicode rest else (unescape? letter).map (fun c ↦ (c, rest))
    else if c < ' ' then none
    else some (c, rest)

/-- The characters up to the quotation mark, and the rest behind it. -/
def readChars : ℕ → List Char → Option (List Char × List Char)
  | 0, _ => none
  | fuel + 1, text =>
    if text.head? = some '"' then some ([], text.tail)
    else do
      let (c, rest) ← readChar text
      let (cs, rest) ← readChars fuel rest
      return (c :: cs, rest)

/-- The string at the start of a text, and the rest. -/
def readString (text : List Char) : Option (String × List Char) := do
  let text ← ['"'].isPrefixOf? text
  let (cs, rest) ← readChars text.length text
  return (String.ofList cs, rest)

/-! ### The round trip -/

theorem hexValue?_digitChar {digit : ℕ} (h : digit < 16) :
    hexValue? (Nat.digitChar digit) = some digit := by
  interval_cases digit <;> decide

theorem readUnit_unicodeEscape {unit : ℕ} (h : unit < 0x10000) (rest : List Char) :
    readUnit ((unicodeEscape unit).drop 2 ++ rest) = some (unit, rest) := by
  change (do
    let a ← hexValue? (Nat.digitChar (unit / 4096))
    let b ← hexValue? (Nat.digitChar (unit / 256 % 16))
    let c ← hexValue? (Nat.digitChar (unit / 16 % 16))
    let d ← hexValue? (Nat.digitChar (unit % 16))
    return (a * 4096 + b * 256 + c * 16 + d, rest) : Option (ℕ × List Char)) = _
  rw [hexValue?_digitChar (by omega), hexValue?_digitChar (by omega),
    hexValue?_digitChar (by omega), hexValue?_digitChar (by omega)]
  change some (unit / 4096 * 4096 + unit / 256 % 16 * 256 + unit / 16 % 16 * 16 + unit % 16,
    rest) = _
  rw [show unit / 4096 * 4096 + unit / 256 % 16 * 256 + unit / 16 % 16 * 16 + unit % 16 = unit by
    omega]

/-- A character is no surrogate. -/
theorem toNat_valid (c : Char) :
    c.toNat < 0xd800 ∨ (0xdfff < c.toNat ∧ c.toNat < 0x110000) := by
  have h := c.valid
  unfold UInt32.isValidChar Nat.isValidChar at h
  exact h

theorem readUnicode_unit {c : Char} (h : c.toNat < 0x10000) (rest : List Char) :
    readUnicode ((unicodeEscape c.toNat).drop 2 ++ rest) = some (c, rest) := by
  have hvalid := toNat_valid c
  unfold readUnicode
  rw [readUnit_unicodeEscape h, Option.bind_eq_bind, Option.bind_some]
  dsimp only
  rw [if_neg (by omega), if_neg (by omega), Char.ofNat_toNat]
  rfl

theorem readLow_unicodeEscape (high : ℕ) {low : ℕ} (h : 0xdc00 ≤ low ∧ low < 0xe000)
    (rest : List Char) : readLow high (unicodeEscape low ++ rest) =
      some (Char.ofNat (0x10000 + (high - 0xd800) * 0x400 + (low - 0xdc00)), rest) := by
  have hunicode : ['\\', 'u'].isPrefixOf? (unicodeEscape low ++ rest) =
      some ((unicodeEscape low).drop 2 ++ rest) := rfl
  unfold readLow
  rw [hunicode, Option.bind_eq_bind, Option.bind_some, readUnit_unicodeEscape (by omega),
    Option.bind_eq_bind, Option.bind_some]
  dsimp only
  rw [if_pos h]
  rfl

theorem readUnicode_surrogates {c : Char} (h : ¬ c.toNat < 0x10000) (rest : List Char) :
    readUnicode ((unicodeEscape (0xd800 + (c.toNat - 0x10000) / 0x400)).drop 2 ++
      (unicodeEscape (0xdc00 + (c.toNat - 0x10000) % 0x400) ++ rest)) = some (c, rest) := by
  have hvalid := toNat_valid c
  unfold readUnicode
  rw [readUnit_unicodeEscape (by omega), Option.bind_eq_bind, Option.bind_some]
  dsimp only
  rw [if_pos (by omega), readLow_unicodeEscape _ (by omega)]
  rw [show 0x10000 + (0xd800 + (c.toNat - 0x10000) / 0x400 - 0xd800) * 0x400 +
    (0xdc00 + (c.toNat - 0x10000) % 0x400 - 0xdc00) = c.toNat by omega, Char.ofNat_toNat]

theorem unescape?_of_lookup {c letter : Char} (h : shortEscapes.lookup c = some letter) :
    letter ≠ 'u' ∧ unescape? letter = some c := by
  have hall : ∀ pair ∈ shortEscapes, pair.2 ≠ 'u' ∧ unescape? pair.2 = some pair.1 := by
    decide +kernel
  obtain ⟨before, after, heq, -⟩ := List.lookup_eq_some_iff.mp h
  exact hall (c, letter) (heq ▸ List.mem_append_right _ List.mem_cons_self)

/-- A character is read back from what it is written as. -/
theorem readChar_escape (c : Char) (rest : List Char) :
    readChar (escape c ++ rest) = some (c, rest) := by
  unfold escape
  cases hlookup : shortEscapes.lookup c with
  | some letter =>
    obtain ⟨hletter, hunescape⟩ := unescape?_of_lookup hlookup
    change (if letter = 'u' then _ else (unescape? letter).map (fun c ↦ (c, rest))) = _
    rw [if_neg hletter, hunescape]
    rfl
  | none =>
    dsimp only
    split_ifs with hplain hunit
    · have hbackslash : c ≠ '\\' := by
        rintro rfl
        exact absurd hlookup (by decide)
      change (if c = '\\' then _ else if c < ' ' then none else some (c, rest)) = _
      rw [if_neg hbackslash, if_neg (Char.not_lt.mpr hplain.1)]
    · exact readUnicode_unit hunit rest
    · rw [List.append_assoc]
      exact readUnicode_surrogates hunit rest

/-- What a character is written as does not begin with a quotation mark. -/
theorem head?_escape (c : Char) : (escape c).head? ≠ some '"' ∧ escape c ≠ [] := by
  have hbackslash : some '\\' ≠ some '"' := by decide
  unfold escape
  cases hlookup : shortEscapes.lookup c with
  | some letter => exact ⟨hbackslash, List.cons_ne_nil _ _⟩
  | none =>
    dsimp only
    split_ifs
    · refine ⟨fun h ↦ ?_, List.cons_ne_nil _ _⟩
      rw [Option.some.inj h] at hlookup
      exact absurd hlookup (by decide)
    · exact ⟨hbackslash, List.cons_ne_nil _ _⟩
    · exact ⟨hbackslash, List.cons_ne_nil _ _⟩

theorem readChars_escape (text rest : List Char) {fuel : ℕ} (h : text.length < fuel) :
    readChars fuel (text.flatMap escape ++ '"' :: rest) = some (text, rest) := by
  induction text generalizing fuel with
  | nil =>
    obtain ⟨fuel, rfl⟩ := Nat.exists_eq_add_one_of_ne_zero (Nat.ne_zero_of_lt h)
    rfl
  | cons c text ih =>
    obtain ⟨fuel, rfl⟩ := Nat.exists_eq_add_one_of_ne_zero (Nat.ne_zero_of_lt h)
    obtain ⟨hhead, hne⟩ := head?_escape c
    rw [List.flatMap_cons, List.append_assoc, readChars, if_neg, readChar_escape]
    · change ((readChars fuel (text.flatMap escape ++ '"' :: rest)).bind fun read ↦
        some (c :: read.1, read.2)) = _
      rw [ih (Nat.lt_of_succ_lt_succ h)]
      rfl
    · rwa [List.head?_append_of_ne_nil _ hne]

/-- A text is no longer than what it is written as. -/
theorem length_le_flatMap_escape (text : List Char) :
    text.length ≤ (text.flatMap escape).length := by
  induction text with
  | nil => exact Nat.le_refl 0
  | cons c text ih =>
    rw [List.flatMap_cons, List.length_append, List.length_cons]
    have hpos := List.length_pos_iff.mpr (head?_escape c).2
    omega

/-- A text is read back from what it is written as. -/
theorem readString_dumpsString (text : String) (rest : List Char) :
    readString (dumpsString text ++ rest) = some (text, rest) := by
  have hlength := length_le_flatMap_escape text.toList
  unfold readString dumpsString
  rw [List.cons_append, List.append_assoc]
  change ((readChars (text.toList.flatMap escape ++ '"' :: rest).length
    (text.toList.flatMap escape ++ '"' :: rest)).bind fun read ↦
      some (String.ofList read.1, read.2)) = _
  rw [readChars_escape]
  · rw [Option.bind_some, String.ofList_toList]
  · rw [List.length_append, List.length_cons]
    omega

theorem toNat_lt_of_mem_unicodeEscape {unit : ℕ} (hunit : unit < 0x10000) {d : Char}
    (h : d ∈ unicodeEscape unit) : d.toNat < 128 := by
  have hdigit : ∀ digit < 16, (Nat.digitChar digit).toNat < 128 := by decide
  simp only [unicodeEscape, List.mem_cons, List.not_mem_nil, or_false] at h
  rcases h with rfl | rfl | rfl | rfl | rfl | rfl
  · decide
  · decide
  · exact hdigit _ (by omega)
  · exact hdigit _ (by omega)
  · exact hdigit _ (by omega)
  · exact hdigit _ (by omega)

/-- A character is written in ASCII. -/
theorem toNat_lt_of_mem_escape {c d : Char} (h : d ∈ escape c) : d.toNat < 128 := by
  have hvalid := toNat_valid c
  unfold escape at h
  cases hlookup : shortEscapes.lookup c with
  | some letter =>
    rw [hlookup] at h
    obtain ⟨before, after, heq, -⟩ := List.lookup_eq_some_iff.mp hlookup
    have hall : ∀ pair ∈ shortEscapes, pair.2.toNat < 128 := by decide
    have hmem : (c, letter) ∈ shortEscapes := heq ▸ List.mem_append_right _ List.mem_cons_self
    rcases List.mem_cons.mp h with rfl | h
    · decide
    · exact List.mem_singleton.mp h ▸ hall _ hmem
  | none =>
    rw [hlookup] at h
    dsimp only at h
    split_ifs at h with hplain hsmall
    · rw [List.mem_singleton.mp h]
      exact Nat.lt_of_le_of_lt hplain.2 (by decide)
    · exact toNat_lt_of_mem_unicodeEscape hsmall h
    · rcases List.mem_append.mp h with h | h
      · exact toNat_lt_of_mem_unicodeEscape (by omega) h
      · exact toNat_lt_of_mem_unicodeEscape (by omega) h

/-- What is written is ASCII. -/
theorem toNat_lt_of_mem_dumpsString {text : String} {d : Char} (h : d ∈ dumpsString text) :
    d.toNat < 128 := by
  rcases List.mem_cons.mp h with rfl | h
  · decide
  · rcases List.mem_append.mp h with h | h
    · obtain ⟨c, -, hd⟩ := List.mem_flatMap.mp h
      exact toNat_lt_of_mem_escape hd
    · rw [List.mem_singleton.mp h]
      decide

end FilmOS.JsonText
