import LiTimeGateway.Lib.Lines
import Mathlib.Data.Rat.Floor
import Mathlib.Tactic.NormNum
/-!
# What the firmware uses of the Arduino core

An Arduino `String` is a list of bytes. `Stream::readStringUntil` and
`String::trim` are `Lib.Lines.readUntil` and `Lib.Lines.strip`; a loop that
reads lines while `available()` runs over `readLines`. Numbers become text the
way `String(unsigned)` and `String(float, decimals)` (the core's `dtostrf`)
write them, in exact arithmetic: half a unit of the last place is added to the
absolute value and the rest is cut off.
-/

namespace LiTimeGateway

open Lib.Lines

abbrev Bytes := List UInt8

/-- What is said of every byte of a text is decided along the text, not over all 256 bytes. -/
instance (p : UInt8 → Prop) [DecidablePred p] (t : Bytes) : Decidable (∀ b ∈ t, p b) := List.decidableBAll p t

/-- The byte of an ASCII character. -/
def ch (c : Char) : UInt8 := c.toUInt8

/-- The bytes of an ASCII literal. -/
def ascii (s : String) : Bytes := s.toList.map ch

/-- C's `isspace`: blank, tab, newline, vertical tab, form feed, carriage return. -/
def isspace (b : UInt8) : Bool := b == 32 || (9 ≤ b && b ≤ 13)

/-- `String::trim`. -/
def trim (line : Bytes) : Bytes := strip isspace line

/-- `Stream::readStringUntil('\n')`: the line, and what is left of the file. -/
def readStringUntilNewline (file : Bytes) : Bytes × Bytes := readUntil (ch '\n') file

/-- The lines `while (file.available()) file.readStringUntil('\n')` reads. -/
def readLines (file : Bytes) : List Bytes := lines (ch '\n') file

/-- One turn of that loop. -/
theorem readLines_eq {file : Bytes} (h : file ≠ []) :
    readLines file = (readStringUntilNewline file).1 :: readLines (readStringUntilNewline file).2 :=
  lines_eq_readUntil (ch '\n') h

/-- What `println(line)` writes. -/
def println (line : Bytes) : Bytes := line ++ ascii "\r\n"

theorem println_eq (line : Bytes) : println line = (line ++ [ch '\r']) ++ [ch '\n'] := by
  simp [println, ascii]

theorem readLines_flatMap_println {ls : List Bytes} (h : ∀ l ∈ ls, ch '\n' ∉ l) :
    readLines (ls.flatMap println) = ls.map (· ++ [ch '\r']) := by
  have hcr : ∀ l ∈ ls.map (· ++ [ch '\r']), ch '\n' ∉ l := by
    intro l hl
    obtain ⟨m, hm, rfl⟩ := List.mem_map.1 hl
    rw [List.mem_append, not_or]
    exact ⟨h m hm, by decide⟩
  have hread := lines_flatMap_terminated (ch '\n') hcr []
  rw [List.flatMap_map, List.append_nil, lines_nil, List.append_nil] at hread
  rw [readLines, ← hread]
  congr 2
  funext l
  exact println_eq l

/-- `String(unsigned)`. -/
def decimal (n : Nat) : Bytes := (Nat.toDigits 10 n).map ch

/-- `n` in exactly `width` digits, the low ones. -/
def paddedDigits : (width : Nat) → Nat → Bytes
  | 0, _ => []
  | width + 1, n => paddedDigits width (n / 10) ++ [ch (Nat.digitChar (n % 10))]

/-- `String(value, decimals)` for a float. -/
def floatText (value : ℚ) (decimals : Nat) : Bytes :=
  let scaled := ⌊|value| * 10 ^ decimals + 1 / 2⌋.toNat
  (if value < 0 then ascii "-" else []) ++ decimal (scaled / 10 ^ decimals) ++ ascii "." ++
    paddedDigits decimals scaled

/-! ## Texts without white space -/

/-- No byte of the text is white space. -/
def Plain (t : Bytes) : Prop := ∀ b ∈ t, isspace b = false

instance (t : Bytes) : Decidable (Plain t) := inferInstanceAs (Decidable (∀ b ∈ t, _))

@[simp] theorem plain_nil : Plain [] := by simp [Plain]

theorem plain_append {s t : Bytes} : Plain (s ++ t) ↔ Plain s ∧ Plain t := by
  simp only [Plain, List.mem_append]
  exact ⟨fun h => ⟨fun b hb => h b (.inl hb), fun b hb => h b (.inr hb)⟩,
    fun h b hb => hb.elim (h.1 b) (h.2 b)⟩

theorem Plain.newline_not_mem {t : Bytes} (h : Plain t) : ch '\n' ∉ t := fun hm => by
  have := h _ hm
  simp only [show isspace (ch '\n') = true from rfl, reduceCtorEq] at this

theorem Plain.trim_eq {t : Bytes} (h : Plain t) : trim t = t := by
  cases t with
  | nil => exact strip_nil isspace
  | cons b bs =>
    exact strip_of_ends isspace (List.cons_ne_nil b bs) (h _ List.mem_cons_self)
      (h _ (List.getLast_mem _))

theorem toNat_digit {c : Char} (h : c.isDigit = true) : 48 ≤ (ch c).toNat ∧ (ch c).toNat ≤ 57 := by
  simp only [Char.isDigit, Bool.and_eq_true, decide_eq_true_eq] at h
  obtain ⟨h1, h2⟩ := h
  have h3 : (ch c).toNat = c.val.toNat % 256 := UInt32.toNat_toUInt8 c.val
  have h4 : 48 ≤ c.val.toNat := h1
  have h5 : c.val.toNat ≤ 57 := h2
  omega

theorem isspace_digit {c : Char} (h : c.isDigit = true) : isspace (ch c) = false := by
  have h6 := (toNat_digit h).1
  simp only [isspace, Bool.or_eq_false_iff, Bool.and_eq_false_iff, beq_eq_false_iff_ne, ne_eq,
    decide_eq_false_iff_not, UInt8.le_iff_toNat_le, ← UInt8.toNat_inj]
  refine ⟨?_, .inr ?_⟩
  · intro he
    rw [he] at h6
    exact absurd h6 (by decide)
  · intro he
    exact absurd (h6.trans he) (by decide)

theorem plain_decimal (n : Nat) : Plain (decimal n) := by
  intro b hb
  obtain ⟨c, hc, rfl⟩ := List.mem_map.1 hb
  exact isspace_digit (Nat.isDigit_of_mem_toDigits (by decide) (by decide) hc)

theorem plain_paddedDigits (width n : Nat) : Plain (paddedDigits width n) := by
  induction width generalizing n with
  | zero => exact plain_nil
  | succ width ih =>
    refine plain_append.2 ⟨ih _, ?_⟩
    intro b hb
    rw [List.mem_singleton] at hb
    subst hb
    have : ∀ d < 10, isspace (ch (Nat.digitChar d)) = false := by decide
    exact this _ (Nat.mod_lt _ (by decide))

theorem plain_floatText (value : ℚ) (decimals : Nat) : Plain (floatText value decimals) := by
  simp only [floatText, plain_append]
  refine ⟨⟨⟨?_, plain_decimal _⟩, by decide⟩, plain_paddedDigits _ _⟩
  split
  · decide
  · exact plain_nil

example : floatText (-1263 / 100) 1 = ascii "-12.6" := by decide +kernel

end LiTimeGateway
