import McpSdk.Router
/-!
# Pagination — `detail::paginate`

Cursors are decimal indices into a snapshot.  Indices are `std::size_t`: `start + page_size` wraps at `2 ^ 64`, and a
range that ends before it starts makes `vector::assign` throw.
-/
namespace Mcp

structure Page (T : Type) where
  items : List T
  nextCursor : Option Bytes := none

/-- The second loop over the cursor's digits, which stops as soon as the index passes the end. -/
def cursorIndex (size : Nat) : Nat → Bytes → Option Nat
  | start, [] => some start
  | start, c :: cursor =>
    let start := start * 10 + (c.toNat - 48)
    if size < start then none else cursorIndex size start cursor

def pageStart (size : Nat) : Option Bytes → Result Nat
  | none => .ok 0
  | some cursor =>
    if cursor.isEmpty || !cursor.all isDigit then .error (Error.of .paginationError (bytes "invalid cursor"))
    else
      match cursorIndex size 0 cursor with
      | some start => .ok start
      | none => .error (Error.of .paginationError (bytes "cursor out of range"))

/-- What `vector::assign` throws on a negative length. -/
def assignError : Exn := .std (bytes "cannot create std::vector larger than max_size()")

variable {T : Type}

def paginate (items : List T) (cursor : Option Bytes) (pageSize : UInt64) : Except Exn (Result (Page T)) :=
  match pageStart items.length cursor with
  | .error e => .ok (.error e)
  | .ok start =>
    let stop := min ((start + pageSize.toNat) % 2 ^ 64) items.length
    if stop < start then .error assignError
    else
      .ok (.ok {
        items := (items.drop start).take (stop - start)
        nextCursor := if stop < items.length then some (decimal stop) else none })

def pageToJson (toJson : T → Json) (itemsKey : Bytes) (page : Page T) : Json :=
  .object ([(itemsKey, .array (page.items.map toJson))] |> setOptional (bytes "nextCursor") .string page.nextCursor)

/-- `set_page_size`. -/
def clampPageSize (pageSize : UInt64) : UInt64 := if pageSize = 0 then 1 else pageSize

/-! ## What a page is -/

/-- Where the page starts that a cursor asks for. -/
def startOf : Option Bytes → Nat
  | none => 0
  | some cursor => digitsValue 0 cursor

/-- The cursor is empty, has something else than digits, or denotes a number past the end. -/
def BadCursor (size : Nat) : Option Bytes → Prop
  | none => False
  | some cursor => cursor = [] ∨ (∃ b ∈ cursor, isDigit b = false) ∨ size < digitsValue 0 cursor

/-- Where the page ends, in mathematical integers. -/
def pageStop (size : Nat) (cursor : Option Bytes) (pageSize : UInt64) : Nat := min (startOf cursor + pageSize.toNat) size

/-- The page, in mathematical integers: `items[start .. stop)`. -/
def pageAt (items : List T) (cursor : Option Bytes) (pageSize : UInt64) : Page T where
  items := (items.take (pageStop items.length cursor pageSize)).drop (startOf cursor)
  nextCursor :=
    if pageStop items.length cursor pageSize < items.length then some (decimal (pageStop items.length cursor pageSize))
    else none

/-- **`paginate` as it should be**: an error exactly for a bad cursor, else that page; and no range that ends before it
starts. -/
structure PaginatesExactly (items : List T) (cursor : Option Bytes) (pageSize : UInt64) : Prop where
  error : (∃ e, paginate items cursor pageSize = .ok (.error e) ∧ e.code = ErrorCode.paginationError.toInt) ↔
    BadCursor items.length cursor
  page : ¬ BadCursor items.length cursor → paginate items cursor pageSize = .ok (.ok (pageAt items cursor pageSize))
  forward : paginate items cursor pageSize ≠ .error assignError

theorem le_digitsValue : ∀ {s : Bytes} {n : Nat}, (∀ b ∈ s, isDigit b = true) → n ≤ digitsValue n s
  | [], _, _ => Nat.le_refl _
  | b :: s, n, h => by
    rw [digitsValue, if_pos (h b List.mem_cons_self)]
    have hrest : n * 10 + (b.toNat - 48) ≤ digitsValue (n * 10 + (b.toNat - 48)) s :=
      le_digitsValue (fun x hx => h x (List.mem_cons_of_mem b hx))
    omega

/-- The loop that stops early finds the number, or that it is too large. -/
theorem cursorIndex_eq (size : Nat) : ∀ {s : Bytes} {n : Nat}, (∀ b ∈ s, isDigit b = true) → n ≤ size →
    cursorIndex size n s = if size < digitsValue n s then none else some (digitsValue n s)
  | [], n, _, hn => by
    rw [digitsValue, if_neg (Nat.not_lt.2 hn)]
    rfl
  | b :: s, n, h, _ => by
    have hrest : ∀ x ∈ s, isDigit x = true := fun x hx => h x (List.mem_cons_of_mem b hx)
    rw [digitsValue, if_pos (h b List.mem_cons_self), cursorIndex]
    by_cases hlt : size < n * 10 + (b.toNat - 48)
    · rw [if_pos hlt, if_pos (Nat.lt_of_lt_of_le hlt (le_digitsValue hrest))]
    · rw [if_neg hlt, cursorIndex_eq size hrest (Nat.not_lt.1 hlt)]

theorem pageStart_bad {size : Nat} {cursor : Option Bytes} (h : BadCursor size cursor) :
    ∃ e, pageStart size cursor = .error e ∧ e.code = ErrorCode.paginationError.toInt := by
  cases cursor with
  | none => exact h.elim
  | some cursor =>
    simp only [pageStart]
    by_cases hbad : (cursor.isEmpty || !cursor.all isDigit) = true
    · rw [if_pos hbad]
      exact ⟨_, rfl, rfl⟩
    · rw [if_neg hbad]
      obtain ⟨hne, hdigits⟩ : cursor ≠ [] ∧ ∀ b ∈ cursor, isDigit b = true := by simpa using hbad
      have hlarge : size < digitsValue 0 cursor := by
        rcases h with h | ⟨b, hb, hdigit⟩ | h
        · exact absurd h hne
        · rw [hdigits b hb] at hdigit
          cases hdigit
        · exact h
      rw [cursorIndex_eq size hdigits (Nat.zero_le _), if_pos hlarge]
      exact ⟨_, rfl, rfl⟩

theorem pageStart_good {size : Nat} {cursor : Option Bytes} (h : ¬ BadCursor size cursor) :
    pageStart size cursor = .ok (startOf cursor) ∧ startOf cursor ≤ size := by
  cases cursor with
  | none => exact ⟨rfl, Nat.zero_le _⟩
  | some cursor =>
    simp only [BadCursor, not_or, not_exists, not_and, Bool.not_eq_false] at h
    obtain ⟨hne, hdigits, hle⟩ := h
    have hgood : ¬ (cursor.isEmpty || !cursor.all isDigit) = true := by simpa using ⟨hne, hdigits⟩
    simp only [pageStart]
    rw [if_neg hgood, cursorIndex_eq size hdigits (Nat.zero_le _), if_neg hle]
    exact ⟨rfl, Nat.not_lt.1 hle⟩

/-- A bad cursor is refused. -/
theorem paginate_bad {items : List T} {cursor : Option Bytes} (pageSize : UInt64) (h : BadCursor items.length cursor) :
    ∃ e, paginate items cursor pageSize = .ok (.error e) ∧ e.code = ErrorCode.paginationError.toInt := by
  obtain ⟨e, he, hcode⟩ := pageStart_bad h
  exact ⟨e, by rw [paginate, he], hcode⟩

/-- **As long as the sum fits, the page is the mathematical one.** -/
theorem paginate_fits {items : List T} {cursor : Option Bytes} {pageSize : UInt64} (h : ¬ BadCursor items.length cursor)
    (hfits : startOf cursor + pageSize.toNat < 2 ^ 64) :
    paginate items cursor pageSize = .ok (.ok (pageAt items cursor pageSize)) := by
  obtain ⟨hstart, hle⟩ := pageStart_good h
  have hstop : min ((startOf cursor + pageSize.toNat) % 2 ^ 64) items.length = pageStop items.length cursor pageSize := by
    rw [Nat.mod_eq_of_lt hfits]
    rfl
  have hforward : ¬ pageStop items.length cursor pageSize < startOf cursor := by
    unfold pageStop
    omega
  rw [paginate, hstart]
  simp only [hstop, if_neg hforward, pageAt, List.drop_take]

/-- **Once the sum wraps, the range ends before it starts.** -/
theorem paginate_wraps {items : List T} {cursor : Option Bytes} {pageSize : UInt64} (h : ¬ BadCursor items.length cursor)
    (hwraps : 2 ^ 64 ≤ startOf cursor + pageSize.toNat) : paginate items cursor pageSize = .error assignError := by
  have hsize := pageSize.toNat_lt
  have hback : (startOf cursor + pageSize.toNat) % 2 ^ 64 < startOf cursor := by omega
  rw [paginate, (pageStart_good h).1]
  exact if_pos (Nat.lt_of_le_of_lt (Nat.min_le_left _ _) hback)

/-- **`paginate` is as it should be exactly when the cursor is bad or the sum of start and page size fits 64 bits.** -/
theorem paginatesExactly_iff (items : List T) (cursor : Option Bytes) (pageSize : UInt64) :
    PaginatesExactly items cursor pageSize ↔
      BadCursor items.length cursor ∨ startOf cursor + pageSize.toNat < 2 ^ 64 := by
  by_cases hbad : BadCursor items.length cursor
  · obtain ⟨e, he, hcode⟩ := paginate_bad pageSize hbad
    refine iff_of_true ⟨iff_of_true ⟨e, he, hcode⟩ hbad, fun h => absurd hbad h, fun h => ?_⟩ (.inl hbad)
    rw [he] at h
    cases h
  · constructor
    · intro hexact
      by_contra hcond
      exact hexact.forward (paginate_wraps hbad (Nat.not_lt.1 (fun hlt => hcond (.inr hlt))))
    · intro hcond
      have hpage := paginate_fits hbad (hcond.resolve_left hbad)
      refine ⟨iff_of_false (fun ⟨e, he, _⟩ => ?_) hbad, fun _ => hpage, fun h => ?_⟩
      · rw [hpage] at he
        cases he
      · rw [hpage] at h
        cases h

/-- Two items, the cursor at the second and the largest page size. -/
theorem largePage_wraps : ¬ PaginatesExactly [10, 20] (some (bytes "1")) 18446744073709551615 :=
  fun hexact => hexact.forward rfl

/-- Pages of any items are pages of what the items are sent as. -/
theorem paginate_map {S : Type} (f : T → S) (items : List T) (cursor : Option Bytes) (pageSize : UInt64) :
    paginate (items.map f) cursor pageSize =
      (paginate items cursor pageSize).map (Except.map fun page => { items := page.items.map f, nextCursor := page.nextCursor }) := by
  unfold paginate
  rw [List.length_map]
  cases pageStart items.length cursor with
  | error e => rfl
  | ok start =>
    simp only
    split
    · rfl
    · simp only [Except.map, List.map_take, List.map_drop]

end Mcp
