import Mathlib.Data.List.Nodup
/-!
# CursorWalk — reading a list by positions while it changes

A reader has `seen` some items and stands at `pos`; the next page is `items[pos .. stop)` of the list as it is by then.
Items appended, and items removed from `pos` on, leave the reader where it was (`Steady`).  An item removed before `pos`
moves the rest back, past the reader: something is then missed, and stays missed (`Missed`).
-/
namespace CursorWalk

variable {ι : Type*} {items seen : List ι} {pos stop : Nat} {p : ι → Bool}

/-- What was read is what stands before the position. -/
structure Steady (items seen : List ι) (pos : Nat) : Prop where
  read : seen = items.take pos
  within : pos ≤ items.length

theorem Steady.start (items : List ι) : Steady items [] 0 := ⟨rfl, Nat.zero_le _⟩

theorem Steady.snoc (h : Steady items seen pos) (x : ι) : Steady (items ++ [x]) seen pos where
  read := by rw [List.take_append_of_le_length h.within, h.read]
  within := by
    rw [List.length_append]
    exact Nat.le_add_right_of_le h.within

/-- Where the removal falls from the position on, the part before it stays. -/
theorem eraseP_split (hp : ∀ x ∈ items.take pos, ¬ p x = true) :
    items.eraseP p = items.take pos ++ (items.drop pos).eraseP p := by
  conv_lhs => rw [← List.take_append_drop pos items]
  exact List.eraseP_append_right _ hp

theorem Steady.eraseP (h : Steady items seen pos) (hp : ∀ x ∈ items.take pos, ¬ p x = true) :
    Steady (items.eraseP p) seen pos := by
  have hlength : (items.take pos).length = pos := List.length_take_of_le h.within
  rw [eraseP_split hp]
  constructor
  · rw [List.take_append_of_le_length (Nat.le_of_eq hlength.symm), List.take_take, Nat.min_self]
    exact h.read
  · rw [List.length_append, hlength]
    exact Nat.le_add_right _ _

theorem Steady.page (h : Steady items seen pos) (hle : pos ≤ stop) (hstop : stop ≤ items.length) :
    Steady items (seen ++ (items.take stop).drop pos) stop where
  read := by
    have hbefore : (items.take stop).take pos = items.take pos := by rw [List.take_take, Nat.min_eq_left hle]
    rw [h.read, ← hbefore, List.take_append_drop]
  within := hstop

/-- At the end of the list everything was read. -/
theorem Steady.all (h : Steady items seen items.length) : seen = items := by rw [h.read, List.take_length]

/-! ## What is missed -/

/-- No item is there twice, and none from the position on was read. -/
structure Unread (items seen : List ι) (pos : Nat) : Prop where
  nodup : items.Nodup
  unread : ∀ x ∈ items.drop pos, x ∉ seen

/-- Some item before the position was not read, or the position is past the end. -/
def Missed (items seen : List ι) (pos : Nat) : Prop := (∃ x ∈ items.take pos, x ∉ seen) ∨ items.length < pos

theorem Unread.start (h : items.Nodup) : Unread items [] 0 := ⟨h, fun _ _ => List.not_mem_nil⟩

theorem drop_eraseP_sublist : ∀ (items : List ι) (pos : Nat), ((items.eraseP p).drop pos).Sublist (items.drop pos)
  | [], _ => List.Sublist.refl _
  | x :: items, 0 => List.eraseP_sublist
  | x :: items, pos + 1 => by
    by_cases hx : p x = true
    · rw [List.eraseP_cons_of_pos hx, List.drop_succ_cons]
      exact List.drop_sublist_drop_left items (Nat.le_succ pos)
    · rw [List.eraseP_cons_of_neg hx, List.drop_succ_cons, List.drop_succ_cons]
      exact drop_eraseP_sublist items pos

theorem Unread.eraseP (h : Unread items seen pos) : Unread (items.eraseP p) seen pos where
  nodup := h.nodup.sublist List.eraseP_sublist
  unread := fun x hx => h.unread x ((drop_eraseP_sublist items pos).subset hx)

theorem Unread.page (h : Unread items seen pos) (hle : pos ≤ stop) :
    Unread items (seen ++ (items.take stop).drop pos) stop where
  nodup := h.nodup
  unread := by
    intro x hx hseen
    rcases List.mem_append.1 hseen with hseen | hpage
    · exact h.unread x ((List.drop_sublist_drop_left items hle).subset hx) hseen
    · exact List.disjoint_take_drop h.nodup (Nat.le_refl stop) (List.mem_of_mem_drop hpage) hx

/-- **An item removed before the position** takes the next one back past the reader, or leaves it past the end. -/
theorem Unread.missed (h : Unread items seen pos) (hx : ∃ x ∈ items.take pos, p x = true) :
    Missed (items.eraseP p) seen pos := by
  obtain ⟨x, hx, hpx⟩ := hx
  have hsplit : items.eraseP p = (items.take pos).eraseP p ++ items.drop pos := by
    conv_lhs => rw [← List.take_append_drop pos items]
    exact List.eraseP_append_left hpx _ hx
  have hpos : 0 < (items.take pos).length := List.length_pos_of_mem hx
  have hshort := List.length_eraseP_of_mem hx hpx
  have hlength := List.length_take (i := pos) (l := items)
  unfold Missed
  rw [hsplit]
  cases hdrop : items.drop pos with
  | nil =>
    refine .inr ?_
    rw [List.append_nil]
    omega
  | cons y rest =>
    have hy : y ∈ items.drop pos := by
      rw [hdrop]
      exact List.mem_cons_self
    refine .inl ⟨y, ?_, h.unread y hy⟩
    have hroom : 0 < pos - ((items.take pos).eraseP p).length := by omega
    obtain ⟨n, hn⟩ : ∃ n, pos - ((items.take pos).eraseP p).length = n + 1 := ⟨_, (Nat.succ_pred_eq_of_pos hroom).symm⟩
    rw [List.take_append, hn, List.take_succ_cons]
    exact List.mem_append_right _ List.mem_cons_self

/-- **What is missed stays missed** when items are removed. -/
theorem Missed.eraseP (hm : Missed items seen pos) (h : Unread items seen pos) : Missed (items.eraseP p) seen pos := by
  by_cases hbefore : ∃ x ∈ items.take pos, p x = true
  · exact h.missed hbefore
  · have hkept : ∀ x ∈ items.take pos, ¬ p x = true := fun x hx hpx => hbefore ⟨x, hx, hpx⟩
    rcases hm with ⟨x, hx, hseen⟩ | hpast
    · refine .inl ⟨x, ?_, hseen⟩
      rw [eraseP_split hkept, List.take_append, List.take_take, Nat.min_self]
      exact List.mem_append_left _ hx
    · exact .inr (Nat.lt_of_le_of_lt List.length_eraseP_le hpast)

/-- ... and when a page is read. -/
theorem Missed.page (hm : Missed items seen pos) (h : Unread items seen pos) (hle : pos ≤ stop)
    (hstop : stop ≤ items.length) : Missed items (seen ++ (items.take stop).drop pos) stop := by
  rcases hm with ⟨x, hx, hseen⟩ | hpast
  · refine .inl ⟨x, ?_, fun hmem => ?_⟩
    · rw [← Nat.min_eq_left hle, ← List.take_take] at hx
      exact List.mem_of_mem_take hx
    · rcases List.mem_append.1 hmem with hmem | hpage
      · exact hseen hmem
      · rw [List.drop_take] at hpage
        exact List.disjoint_take_drop h.nodup (Nat.le_refl pos) hx (List.mem_of_mem_take hpage)
  · omega

/-- At the end of the list something was not read. -/
theorem Missed.not_all (hm : Missed items seen items.length) : ∃ x ∈ items, x ∉ seen := by
  rcases hm with ⟨x, hx, hseen⟩ | hpast
  · exact ⟨x, List.mem_of_mem_take hx, hseen⟩
  · exact absurd hpast (Nat.lt_irrefl _)

end CursorWalk
