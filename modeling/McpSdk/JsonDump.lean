import McpSdk.Encoding
/-!
# JsonDump — the compact text of a value

`dump()` without indentation: UTF-8 passes through, `"`, `\` and control characters are escaped.  How a double is
printed stays a parameter.  `tableText` pairs it with a parser that knows the given texts.
-/
namespace Mcp

def escapeByte (b : UInt8) : Bytes :=
  if b = 0x22 then [0x5C, 0x22]
  else if b = 0x5C then [0x5C, 0x5C]
  else if b = 8 then [0x5C, ch 'b']
  else if b = 12 then [0x5C, ch 'f']
  else if b = 10 then [0x5C, ch 'n']
  else if b = 13 then [0x5C, ch 'r']
  else if b = 9 then [0x5C, ch 't']
  else if b < 0x20 then [0x5C, ch 'u', ch '0', ch '0'] ++ (if b < 0x10 then [ch '0'] else []) ++ (Nat.toDigits 16 b.toNat).map ch
  else [b]

def quoted (s : Bytes) : Bytes := 0x22 :: (s.flatMap escapeByte ++ [0x22])

mutual

def Json.compact (double : Double → Bytes) : Json → Bytes
  | .null => bytes "null"
  | .boolean b => if b then bytes "true" else bytes "false"
  | .numberInteger n => decimalInt n.toInt
  | .numberUnsigned n => decimal n.toNat
  | .numberFloat x => double x
  | .string s => quoted s
  | .array items => ch '[' :: (compactItems double items ++ [ch ']'])
  | .object members => 0x7B :: (compactMembers double members ++ [0x7D])

def compactItems (double : Double → Bytes) : List Json → Bytes
  | [] => []
  | [j] => j.compact double
  | j :: items => j.compact double ++ ch ',' :: compactItems double items

def compactMembers (double : Double → Bytes) : List (Bytes × Json) → Bytes
  | [] => []
  | [(k, j)] => quoted k ++ ch ':' :: j.compact double
  | (k, j) :: members => quoted k ++ ch ':' :: j.compact double ++ ch ',' :: compactMembers double members

end

/-! ## No control characters -/

theorem escapeByte_printable (b : UInt8) : ∀ x ∈ escapeByte b, 32 ≤ x := by
  have h : ∀ n < 256, ∀ x ∈ escapeByte (UInt8.ofNat n), 32 ≤ x := by decide +kernel
  simpa using h b.toNat b.toNat_lt

theorem quoted_printable (s : Bytes) : ∀ b ∈ quoted s, 32 ≤ b := by
  intro b hb
  simp only [quoted, List.mem_cons, List.mem_append, List.mem_flatMap, List.not_mem_nil, or_false] at hb
  rcases hb with rfl | ⟨x, -, hx⟩ | rfl
  · decide
  · exact escapeByte_printable x b hx
  · decide

theorem decimal_printable (n : Nat) : ∀ b ∈ decimal n, 32 ≤ b := by
  intro b hb
  have hdigit := isDigit_of_mem_decimal hb
  simp only [isDigit, Bool.and_eq_true, decide_eq_true_eq] at hdigit
  exact UInt8.le_trans (by decide) hdigit.1

theorem decimalInt_printable (n : Int) : ∀ b ∈ decimalInt n, 32 ≤ b := by
  unfold decimalInt
  split
  · intro b hb
    rcases List.mem_cons.1 hb with rfl | hb
    · decide
    · exact decimal_printable _ b hb
  · exact decimal_printable _

section Printable

variable {double : Double → Bytes}

mutual

/-- **A dumped value is one line**: no control character is printed. -/
theorem compact_printable (hdouble : ∀ x, ∀ b ∈ double x, 32 ≤ b) : ∀ j : Json, ∀ b ∈ j.compact double, 32 ≤ b
  | .null => by
    simp only [Json.compact]
    decide +kernel
  | .boolean true => by
    simp only [Json.compact]
    decide +kernel
  | .boolean false => by
    simp only [Json.compact]
    decide +kernel
  | .numberInteger n => decimalInt_printable n.toInt
  | .numberUnsigned n => decimal_printable n.toNat
  | .numberFloat x => hdouble x
  | .string s => quoted_printable s
  | .array items => by
    intro b hb
    simp only [Json.compact, List.mem_cons, List.mem_append, List.not_mem_nil, or_false] at hb
    rcases hb with rfl | hb | rfl
    · decide
    · exact compactItems_printable hdouble items b hb
    · decide
  | .object members => by
    intro b hb
    simp only [Json.compact, List.mem_cons, List.mem_append, List.not_mem_nil, or_false] at hb
    rcases hb with rfl | hb | rfl
    · decide
    · exact compactMembers_printable hdouble members b hb
    · decide

theorem compactItems_printable (hdouble : ∀ x, ∀ b ∈ double x, 32 ≤ b) :
    ∀ items : List Json, ∀ b ∈ compactItems double items, 32 ≤ b
  | [] => fun _ hb => by cases hb
  | [j] => compact_printable hdouble j
  | j :: k :: items => by
    intro b hb
    simp only [compactItems, List.mem_append, List.mem_cons] at hb
    rcases hb with hb | rfl | hb
    · exact compact_printable hdouble j b hb
    · decide
    · exact compactItems_printable hdouble (k :: items) b hb

theorem compactMembers_printable (hdouble : ∀ x, ∀ b ∈ double x, 32 ≤ b) :
    ∀ members : List (Bytes × Json), ∀ b ∈ compactMembers double members, 32 ≤ b
  | [] => fun _ hb => by cases hb
  | [(k, j)] => by
    intro b hb
    simp only [compactMembers, List.mem_append, List.mem_cons] at hb
    rcases hb with hb | rfl | hb
    · exact quoted_printable k b hb
    · decide
    · exact compact_printable hdouble j b hb
  | (k, j) :: m :: members => by
    intro b hb
    simp only [compactMembers, List.mem_append, List.mem_cons] at hb
    rcases hb with (hb | rfl | hb) | rfl | hb
    · exact quoted_printable k b hb
    · decide
    · exact compact_printable hdouble j b hb
    · decide
    · exact compactMembers_printable hdouble (m :: members) b hb

end

theorem compact_ne_nil (hdouble : ∀ x, double x ≠ []) (j : Json) : j.compact double ≠ [] := by
  cases j with
  | null => simp [Json.compact, bytes]
  | boolean b => cases b <;> simp [Json.compact, bytes]
  | numberInteger n =>
    simp only [Json.compact, decimalInt]
    split
    · exact List.cons_ne_nil _ _
    · exact decimal_ne_nil _
  | numberUnsigned n => exact decimal_ne_nil n.toNat
  | numberFloat x => exact hdouble x
  | string s => exact List.cons_ne_nil _ _
  | array items | object members =>
    rw [Json.compact]
    exact List.cons_ne_nil _ _

end Printable

/-- `dump()`, and a parser of the texts in `table`. -/
def tableText (double : Double → Bytes) (table : List (Bytes × Json)) : JsonText Bytes where
  parse t := (table.lookup t).filter Json.validUtf8
  dump j := if j.validUtf8 then .ok (j.compact double) else .error (typeError 316 (bytes "invalid UTF-8 byte"))

theorem tableText_lawful (double : Double → Bytes) (table : List (Bytes × Json)) : (tableText double table).Lawful where
  parse := fun _ _ h => (Option.filter_eq_some_iff.1 h).2
  dump := fun j h => ⟨j.compact double, if_pos h⟩

end Mcp
