import Mathlib.Algebra.Ring.Int.Defs
import Mathlib.Algebra.Ring.Nat
import Mathlib.Data.List.Basic
/-!
# Bytes — `std::string`, decimal text and `strtoull`

A `std::string` is a list of bytes.  Every literal of the source is ASCII, so `bytes` reads a Lean literal one byte a
character.
-/
namespace Mcp

/-- `std::string`. -/
abbrev Bytes := List UInt8

/-- The byte of an ASCII character literal. -/
def ch (c : Char) : UInt8 := UInt8.ofNat c.toNat

/-- The bytes of an ASCII string literal. -/
def bytes (s : String) : Bytes := s.toList.map ch

/-- `s.rfind(p, 0) == 0`. -/
def startsWith (s p : Bytes) : Bool := p.isPrefixOf s

/-- `std::to_string` of an unsigned number. -/
def decimal (n : Nat) : Bytes := (Nat.toDigits 10 n).map ch

/-- `std::to_string` of a signed number. -/
def decimalInt (n : Int) : Bytes := if n < 0 then ch '-' :: decimal n.natAbs else decimal n.natAbs

def isDigit (b : UInt8) : Bool := ch '0' ≤ b && b ≤ ch '9'

/-- `isspace` in the C locale. -/
def isSpace (b : UInt8) : Bool := b == ch ' ' || (9 ≤ b && b ≤ 13)

/-- The number the leading digits denote, after `acc`. -/
def digitsValue : Nat → Bytes → Nat
  | acc, [] => acc
  | acc, b :: s => if isDigit b then digitsValue (acc * 10 + (b.toNat - 48)) s else acc

def ullongMax : Nat := 2 ^ 64 - 1

/-- `std::strtoull(s, nullptr, 10)`: leading blanks, an optional sign, then digits; saturates, and a minus sign negates
modulo `2 ^ 64`. -/
def strtoull (s : Bytes) : Nat :=
  match s.dropWhile isSpace with
  | [] => 0
  | b :: t =>
    if b = ch '-' then
      let n := digitsValue 0 t
      if n > ullongMax then ullongMax else (2 ^ 64 - n) % 2 ^ 64
    else
      min ullongMax (digitsValue 0 (if b = ch '+' then t else b :: t))

/-- `std::strtol(s, nullptr, 10)` into a 64-bit `long`: leading blanks, an optional sign, then digits; saturates. -/
def strtol (s : Bytes) : Int :=
  match s.dropWhile isSpace with
  | [] => 0
  | b :: t =>
    if b = ch '-' then max (-2 ^ 63) (-(digitsValue 0 t : Int))
    else min (2 ^ 63 - 1) (digitsValue 0 (if b = ch '+' then t else b :: t))

/-- `std::atoi`: `strtol` cut to an `int`. -/
def atoi (s : Bytes) : Int32 := Int32.ofInt (strtol s)

/-! ## Decimal text reads back -/

theorem isDigit_ch {c : Char} (h : c.isDigit = true) : isDigit (ch c) = true ∧ (ch c).toNat = c.toNat := by
  have hc : 48 ≤ c.toNat ∧ c.toNat ≤ 57 := by simpa [Char.isDigit, UInt32.le_iff_toNat_le] using h
  have hn : (ch c).toNat = c.toNat := by
    unfold ch
    rw [UInt8.toNat_ofNat']
    exact Nat.mod_eq_of_lt (by omega)
  refine ⟨?_, hn⟩
  simp only [isDigit, Bool.and_eq_true, decide_eq_true_eq, UInt8.le_iff_toNat_le, hn]
  exact ⟨hc.1, hc.2⟩

theorem digitsValue_map_ch : ∀ (cs : List Char) (acc : Nat), (∀ c ∈ cs, c.isDigit = true) →
    digitsValue acc (cs.map ch) = Nat.ofDigitChars 10 cs acc
  | [], acc, _ => rfl
  | c :: cs, acc, h => by
    obtain ⟨hd, hn⟩ := isDigit_ch (h c List.mem_cons_self)
    rw [List.map_cons, digitsValue, if_pos hd, digitsValue_map_ch cs _ (fun x hx => h x (List.mem_cons_of_mem _ hx)),
      Nat.ofDigitChars_cons, hn, Nat.mul_comm acc]
    rfl

theorem digitsValue_decimal (n : Nat) : digitsValue 0 (decimal n) = n := by
  unfold decimal
  rw [digitsValue_map_ch _ _ (fun c hc => Nat.isDigit_of_mem_toDigits (by decide) (by decide) hc)]
  exact Nat.ofDigitChars_toDigits (by decide) (by decide)

theorem isDigit_of_mem_decimal {n : Nat} {b : UInt8} (h : b ∈ decimal n) : isDigit b = true := by
  obtain ⟨c, hc, rfl⟩ := List.mem_map.1 h
  exact (isDigit_ch (Nat.isDigit_of_mem_toDigits (by decide) (by decide) hc)).1

theorem decimal_ne_nil (n : Nat) : decimal n ≠ [] := by
  simp [decimal, Nat.toDigits_ne_nil]

/-- A digit is no blank and no sign. -/
theorem plain_digit {b : UInt8} (h : isDigit b = true) : isSpace b = false ∧ b ≠ ch '-' ∧ b ≠ ch '+' := by
  have hrange : 48 ≤ b.toNat ∧ b.toNat ≤ 57 := by
    simp only [isDigit, Bool.and_eq_true, decide_eq_true_eq, UInt8.le_iff_toNat_le] at h
    exact h
  refine ⟨?_, ?_, ?_⟩
  · simp only [isSpace, Bool.or_eq_false_iff, beq_eq_false_iff_ne, ne_eq, Bool.and_eq_false_imp, decide_eq_true_eq,
      decide_eq_false_iff_not, UInt8.le_iff_toNat_le, ← UInt8.toNat_inj]
    refine ⟨?_, fun _ => ?_⟩
    · show b.toNat ≠ 32; omega
    · show ¬ b.toNat ≤ 13; omega
  · rw [ne_eq, ← UInt8.toNat_inj]; show b.toNat ≠ 45; omega
  · rw [ne_eq, ← UInt8.toNat_inj]; show b.toNat ≠ 43; omega

theorem strtoull_digits {s : Bytes} (hne : s ≠ []) (hdigits : ∀ b ∈ s, isDigit b = true) :
    strtoull s = min ullongMax (digitsValue 0 s) := by
  obtain ⟨b, t, rfl⟩ := List.exists_cons_of_ne_nil hne
  obtain ⟨hspace, hminus, hplus⟩ := plain_digit (hdigits b List.mem_cons_self)
  unfold strtoull
  rw [List.dropWhile_cons_of_neg (by simp [hspace])]
  simp only [if_neg hminus, if_neg hplus]

theorem digitsValue_append {t : Bytes} (ht : ∀ b ∈ t.head?, isDigit b = false) : ∀ {s : Bytes} (n : Nat),
    (∀ b ∈ s, isDigit b = true) → digitsValue n (s ++ t) = digitsValue n s
  | [], n, _ => by
    cases t with
    | nil => rfl
    | cons b t =>
      have hb : ¬ isDigit b = true := by simp [ht b rfl]
      simp only [List.nil_append, digitsValue, if_neg hb]
  | b :: s, n, h => by
    have hb := h b List.mem_cons_self
    rw [List.cons_append, digitsValue, if_pos hb, digitsValue, if_pos hb,
      digitsValue_append ht _ (fun x hx => h x (List.mem_cons_of_mem b hx))]

/-- Digits are read up to something else. -/
theorem strtol_digits_append {s t : Bytes} (hne : s ≠ []) (hdigits : ∀ b ∈ s, isDigit b = true)
    (ht : ∀ b ∈ t.head?, isDigit b = false) : strtol (s ++ t) = min (2 ^ 63 - 1) (digitsValue 0 s : Int) := by
  obtain ⟨b, rest, rfl⟩ := List.exists_cons_of_ne_nil hne
  obtain ⟨hspace, hminus, hplus⟩ := plain_digit (hdigits b List.mem_cons_self)
  unfold strtol
  rw [List.cons_append, List.dropWhile_cons_of_neg (by simp [hspace])]
  simp only [if_neg hminus, if_neg hplus]
  rw [← List.cons_append, digitsValue_append ht 0 hdigits]

theorem strtol_digits {s : Bytes} (hne : s ≠ []) (hdigits : ∀ b ∈ s, isDigit b = true) :
    strtol s = min (2 ^ 63 - 1) (digitsValue 0 s : Int) := by
  simpa using strtol_digits_append (t := []) hne hdigits (fun b hb => by cases hb)

/-- **`atoi` of digits**: saturated to a `long` and cut to an `int`. -/
theorem toInt_atoi_digits {s : Bytes} (hne : s ≠ []) (hdigits : ∀ b ∈ s, isDigit b = true) :
    (atoi s).toInt = Int.bmod (min (2 ^ 63 - 1) (digitsValue 0 s : Int)) (2 ^ 32) := by
  unfold atoi
  rw [strtol_digits hne hdigits]
  exact Int32.toInt_ofInt

/-- **`strtoull` undoes `std::to_string`** within 64 bits. -/
theorem strtoull_decimal {n : Nat} (h : n < 2 ^ 64) : strtoull (decimal n) = n := by
  rw [strtoull_digits (decimal_ne_nil n) (fun b hb => isDigit_of_mem_decimal hb), digitsValue_decimal]
  unfold ullongMax
  omega

/-- **And `atoi` does** within an `int`, up to something else. -/
theorem atoi_decimalInt_append {r : Int32} (h : 0 ≤ r.toInt) {t : Bytes} (ht : ∀ b ∈ t.head?, isDigit b = false) :
    atoi (decimalInt r.toInt ++ t) = r := by
  have hlt := Int32.toInt_lt r
  unfold atoi decimalInt
  rw [if_neg (by omega), strtol_digits_append (decimal_ne_nil _) (fun b hb => isDigit_of_mem_decimal hb) ht, digitsValue_decimal]
  have hmin : min (2 ^ 63 - 1) (r.toInt.natAbs : Int) = r.toInt := by omega
  rw [hmin, Int32.ofInt_toInt]

theorem atoi_decimalInt {r : Int32} (h : 0 ≤ r.toInt) : atoi (decimalInt r.toInt) = r := by
  simpa using atoi_decimalInt_append h (t := []) (fun b hb => by cases hb)

end Mcp
