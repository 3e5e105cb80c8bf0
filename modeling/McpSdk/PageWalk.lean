import McpSdk.Lib.CursorWalk
import McpSdk.Listing
/-!
# PageWalk — a client follows the cursors of a listing

The position where a page ended goes to the client and comes back as text, and between two requests the application calls
whatever it likes.  What is registered goes to the end of the list, past the cursor.  What is removed moves the rest back:
from the cursor on that is harmless, before it the walk misses an item or its cursor ends up past the end.
-/
namespace Mcp

open Attached (ApiCall applyCall)
open CursorWalk (Steady Unread Missed)

/-- `max_size()` of a vector: no allocation is larger than `PTRDIFF_MAX`. -/
def maxSize : Nat := 2 ^ 63 - 1

/-- The server, and the client's side of the walk: the cursor it holds and the pages it read. -/
structure Walk (α : Type) where
  server : Server α
  cursor : Option Bytes := none
  pages : List (List Json) := []
  finished : Bool := false
  failed : Bool := false

inductive WalkLabel (α : Type) where
  | call (c : ApiCall α)
  | request

namespace Walk

variable {α : Type}

/-- The position the cursor stands for. -/
def position (s : Walk α) : Nat := startOf s.cursor

def ended (s : Walk α) : Bool := s.finished || s.failed

/-- What the client makes of a reply; it is done when no cursor came along. -/
def read (s : Walk α) : Result (Client.ListResult Json) → Walk α
  | .ok page =>
    { s with cursor := page.nextCursor, pages := s.pages ++ [page.items], finished := page.nextCursor.isNone }
  | .error _ => { s with failed := true }

/-- A call of the API, or the next page request; nothing happens once the walk is over. -/
def step (l : Listing) (s : Walk α) (i : WalkLabel α) : Option (Walk α) :=
  if s.ended then none
  else
    match i with
    | .call c =>
      if maxSize < (l.items (applyCall s.server c).1).length then none
      else some { s with server := (applyCall s.server c).1 }
    | .request => some (s.read (l.reply s.server s.cursor))

/-- **A server as calls of the API leave it**, from its construction on, its list in a vector. -/
def Built (l : Listing) (w : Server α) : Prop :=
  (∃ (info : Implementation) (app : α) (calls : List (ApiCall α)),
    w = calls.foldl (fun w c => (applyCall w c).1) { info, app }) ∧ (l.items w).length ≤ maxSize

/-- A call may set the page size, to a size that a vector can have. -/
def Modest (l : Listing) : WalkLabel α → Prop
  | .call c => ∀ n, l.resizes c = some n → n.toNat ≤ maxSize
  | .request => True

/-- **No call removes an item that the cursor has passed.** -/
def Ahead (l : Listing) (s : Walk α) : WalkLabel α → Prop
  | .call c => ∀ k, l.removes c = some k → some k ∉ (l.names s.server).take s.position
  | .request => True

/-- **No request failed, and at the end every item that is still there is on a page.** -/
structure Covers (l : Listing) (w : Server α) (t : Walk α) : Prop where
  answered : t.failed = false
  returned : t.finished = true → ∀ item ∈ l.items w, item ∈ l.items t.server → item ∈ t.pages.flatten

/-! ## Cursors -/

theorem badCursor_decimal {size n : Nat} : BadCursor size (some (decimal n)) ↔ size < n := by
  simp only [BadCursor, digitsValue_decimal]
  constructor
  · rintro (hnil | ⟨b, hb, hdigit⟩ | hlt)
    · exact absurd hnil (decimal_ne_nil n)
    · rw [isDigit_of_mem_decimal hb] at hdigit
      cases hdigit
    · exact hlt
  · exact fun hlt => .inr (.inr hlt)

/-- What holds of a walk whatever the application does: names are distinct, and a cursor is a position in a vector. -/
structure Sound (l : Listing) (s : Walk α) : Prop where
  nodup : (l.names s.server).Nodup
  positive : 0 < (l.pageSize s.server).toNat
  fits : (l.items s.server).length ≤ maxSize
  issued : ∀ cursor, s.cursor = some cursor → ∃ n, cursor = decimal n ∧ n ≤ maxSize ∧ (l.pageSize s.server).toNat ≤ maxSize

variable {l : Listing} {s t : Walk α}

theorem Sound.nodup_items (h : Sound l s) : (l.items s.server).Nodup := List.Nodup.of_map _ h.nodup

/-- Where the next page ends. -/
def stop (l : Listing) (s : Walk α) : Nat := pageStop (l.items s.server).length s.cursor (l.pageSize s.server)

theorem Sound.badCursor (h : Sound l s) :
    BadCursor (l.items s.server).length s.cursor ↔ (l.items s.server).length < s.position := by
  unfold position
  cases hcursor : s.cursor with
  | none => exact iff_of_false id (Nat.not_lt_zero _)
  | some cursor =>
    obtain ⟨n, rfl, -, -⟩ := h.issued cursor hcursor
    rw [badCursor_decimal, startOf, digitsValue_decimal]

/-- A cursor past the end is refused. -/
theorem Sound.reply_past (h : Sound l s) (hpast : (l.items s.server).length < s.position) :
    ∃ e, l.reply s.server s.cursor = .error e := by
  obtain ⟨e, he, -⟩ := paginate_bad (l.pageSize s.server) (h.badCursor.2 hpast)
  exact ⟨e, by rw [Listing.reply_eq, he]; rfl⟩

/-- **Every other cursor gets its page**: the sum of position and page size never wraps. -/
theorem Sound.reply_page (h : Sound l s) (hwithin : s.position ≤ (l.items s.server).length) :
    l.reply s.server s.cursor = .ok {
      items := ((l.items s.server).take (stop l s)).drop s.position
      nextCursor := if stop l s < (l.items s.server).length then some (decimal (stop l s)) else none } := by
  have hgood : ¬ BadCursor (l.items s.server).length s.cursor := fun hbad => Nat.not_lt.2 hwithin (h.badCursor.1 hbad)
  have hsum : startOf s.cursor + (l.pageSize s.server).toNat < 2 ^ 64 := by
    cases hcursor : s.cursor with
    | none =>
      have hsize := (l.pageSize s.server).toNat_lt
      rw [startOf]
      omega
    | some cursor =>
      obtain ⟨n, rfl, hn, hsize⟩ := h.issued cursor hcursor
      unfold maxSize at hn hsize
      rw [startOf, digitsValue_decimal]
      omega
  rw [Listing.reply_eq, paginate_fits hgood hsum]
  rfl

theorem position_le_stop (hwithin : s.position ≤ (l.items s.server).length) : s.position ≤ stop l s := by
  unfold position stop pageStop at *
  omega

theorem stop_le (l : Listing) (s : Walk α) : stop l s ≤ (l.items s.server).length := Nat.min_le_right _ _

/-- The reader moves on, unless the list is at its end. -/
theorem Sound.position_lt_stop (h : Sound l s) (hmore : stop l s < (l.items s.server).length) : s.position < stop l s := by
  have hpositive := h.positive
  unfold position stop pageStop at *
  omega

/-! ## One step -/

/-- What a step can do. -/
theorem step_cases {i : WalkLabel α} (h : step l s i = some t) :
    s.ended = false ∧
      ((∃ c, i = .call c ∧ (l.items (applyCall s.server c).1).length ≤ maxSize ∧
          t = { s with server := (applyCall s.server c).1 }) ∨
        (i = .request ∧ t = s.read (l.reply s.server s.cursor))) := by
  unfold step at h
  by_cases hended : s.ended = true
  · rw [if_pos hended] at h
    cases h
  · rw [if_neg hended] at h
    refine ⟨Bool.not_eq_true _ ▸ hended, ?_⟩
    cases i with
    | call c =>
      by_cases hfits : maxSize < (l.items (applyCall s.server c).1).length
      · simp only [if_pos hfits] at h
        cases h
      · simp only [if_neg hfits, Option.some.injEq] at h
        exact .inl ⟨c, rfl, Nat.not_lt.1 hfits, h.symm⟩
    | request => exact .inr ⟨rfl, (Option.some.inj h).symm⟩

/-- **What a request comes to**: it is refused, or gets a page with more to come, or gets the last page. -/
inductive Requested (l : Listing) (s t : Walk α) : Prop
  | refused (past : (l.items s.server).length < s.position) (failed : t = { s with failed := true })
  | more (within : s.position ≤ (l.items s.server).length) (before : stop l s < (l.items s.server).length)
      (server : t.server = s.server) (answered : t.failed = s.failed) (unfinished : t.finished = false)
      (cursor : t.cursor = some (decimal (stop l s)))
      (pages : t.pages.flatten = s.pages.flatten ++ ((l.items s.server).take (stop l s)).drop s.position)
  | last (within : s.position ≤ (l.items s.server).length) (atEnd : stop l s = (l.items s.server).length)
      (server : t.server = s.server) (answered : t.failed = s.failed) (finished : t.finished = true) (cursor : t.cursor = none)
      (pages : t.pages.flatten = s.pages.flatten ++ ((l.items s.server).take (stop l s)).drop s.position)

theorem position_eq {n : Nat} (h : s.cursor = some (decimal n)) : s.position = n := by
  rw [position, h, startOf, digitsValue_decimal]

theorem Sound.requested (h : Sound l s) : Requested l s (s.read (l.reply s.server s.cursor)) := by
  by_cases hpast : (l.items s.server).length < s.position
  · obtain ⟨e, he⟩ := h.reply_past hpast
    rw [he]
    exact .refused hpast rfl
  · have hwithin := Nat.not_lt.1 hpast
    have hpages : ∀ page : List Json, (s.pages ++ [page]).flatten = s.pages.flatten ++ page := by simp
    rw [h.reply_page hwithin]
    by_cases hmore : stop l s < (l.items s.server).length
    · rw [if_pos hmore]
      exact .more hwithin hmore rfl rfl rfl rfl (hpages _)
    · rw [if_neg hmore]
      exact .last hwithin (Nat.le_antisymm (stop_le l s) (Nat.not_lt.1 hmore)) rfl rfl rfl rfl (hpages _)

/-- A call leaves names distinct. -/
theorem names_applyCall {w : Server α} (h : (l.names w).Nodup) (c : ApiCall α) : (l.names (applyCall w c).1).Nodup := by
  unfold Listing.names at *
  cases hremoves : l.removes c with
  | some k =>
    rw [Listing.items_of_removes hremoves]
    exact h.sublist (List.eraseP_sublist.map _)
  | none =>
    cases hregisters : l.registers c with
    | true =>
      rcases Listing.items_of_registers hregisters w with hsame | ⟨j, hfresh, hnew⟩
      · rwa [hsame]
      · rw [hnew, List.map_append, List.nodup_append]
        refine ⟨h, List.nodup_singleton _, fun a ha b hb hab => hfresh ?_⟩
        rw [List.map_singleton, List.mem_singleton] at hb
        rwa [← hb, ← hab]
    | false => rwa [Listing.items_of_other hregisters hremoves]

theorem clampPageSize_toNat (n : UInt64) : 0 < (clampPageSize n).toNat ∧ (clampPageSize n).toNat ≤ max n.toNat 1 := by
  unfold clampPageSize
  by_cases hzero : n = 0
  · rw [if_pos hzero]
    simp
  · rw [if_neg hzero]
    have hne : n.toNat ≠ 0 := fun h => hzero (UInt64.toNat_inj.1 h)
    omega

theorem pageSize_positive {w : Server α} (h : 0 < (l.pageSize w).toNat) (c : ApiCall α) :
    0 < (l.pageSize (applyCall w c).1).toNat := by
  rw [Listing.pageSize_applyCall]
  cases l.resizes c with
  | none => exact h
  | some n => exact (clampPageSize_toNat n).1

/-- **A built server has distinct names and a page size of at least 1.** -/
theorem Built.names_nodup {w : Server α} (h : Built l w) : (l.names w).Nodup ∧ 0 < (l.pageSize w).toNat := by
  obtain ⟨⟨info, app, calls, rfl⟩, -⟩ := h
  induction calls using List.reverseRecOn with
  | nil =>
    have hdefault : 0 < (100 : UInt64).toNat := by decide
    cases l <;> exact ⟨List.nodup_nil, hdefault⟩
  | append_singleton calls c ih =>
    rw [List.foldl_append]
    exact ⟨names_applyCall ih.1 c, pageSize_positive ih.2 c⟩

/-- **Every step keeps a walk sound**, as long as no page size is set that no vector can have. -/
theorem Sound.step {i : WalkLabel α} (h : Sound l s) (hmodest : Modest l i) (hstep : step l s i = some t) : Sound l t := by
  obtain ⟨-, ⟨c, rfl, hfits, rfl⟩ | ⟨rfl, rfl⟩⟩ := step_cases hstep
  · refine ⟨names_applyCall h.nodup c, pageSize_positive h.positive c, hfits, fun cursor hcursor => ?_⟩
    obtain ⟨n, hn, hle, hsize⟩ := h.issued cursor hcursor
    refine ⟨n, hn, hle, ?_⟩
    rw [Listing.pageSize_applyCall]
    cases hresizes : l.resizes c with
    | none => exact hsize
    | some m =>
      have hm := hmodest m hresizes
      have hclamp := (clampPageSize_toNat m).2
      simp only [Option.map_some, Option.getD_some]
      unfold maxSize at *
      omega
  · cases h.requested with
    | refused past failed =>
      rw [failed]
      exact ⟨h.nodup, h.positive, h.fits, h.issued⟩
    | more within before server answered unfinished cursor pages =>
      have hfits := h.fits
      have hsize : (l.pageSize s.server).toNat ≤ maxSize := by
        unfold stop pageStop at before
        omega
      constructor
      case issued =>
        intro c hc
        rw [cursor] at hc
        rw [server]
        exact ⟨stop l s, (Option.some.inj hc).symm, by omega, hsize⟩
      all_goals rw [server]
      · exact h.nodup
      · exact h.positive
      · exact h.fits
    | last within atEnd server answered finished cursor pages =>
      constructor
      case issued =>
        intro c hc
        rw [cursor] at hc
        cases hc
      all_goals rw [server]
      · exact h.nodup
      · exact h.positive
      · exact h.fits

/-! ## Walks that miss nothing -/

/-- What was read is what stands before the cursor, and the whole list once the walk is over. -/
structure OnTrack (l : Listing) (s : Walk α) : Prop where
  answered : s.failed = false
  steady : s.finished = false → Steady (l.items s.server) s.pages.flatten s.position
  complete : s.finished = true → s.pages.flatten = l.items s.server

theorem OnTrack.call (h : OnTrack l s) (hunfinished : s.finished = false) {c : ApiCall α} (hahead : Ahead l s (.call c)) :
    OnTrack l { s with server := (applyCall s.server c).1 } := by
  have hsteady := h.steady hunfinished
  refine ⟨h.answered, fun _ => ?_, fun hfinished => ?_⟩
  · show Steady (l.items (applyCall s.server c).1) s.pages.flatten s.position
    cases hremoves : l.removes c with
    | some k =>
      rw [Listing.items_of_removes hremoves]
      refine hsteady.eraseP fun item hitem hk => hahead k hremoves ?_
      rw [Listing.names, ← List.map_take, ← beq_iff_eq.1 hk]
      exact List.mem_map_of_mem hitem
    | none =>
      cases hregisters : l.registers c with
      | true =>
        rcases Listing.items_of_registers hregisters s.server with hsame | ⟨j, -, hnew⟩
        · rwa [hsame]
        · rw [hnew]
          exact hsteady.snoc j
      | false => rwa [Listing.items_of_other hregisters hremoves]
  · rw [hunfinished] at hfinished
    cases hfinished

theorem OnTrack.request (h : OnTrack l s) (hsound : Sound l s) (hunfinished : s.finished = false) :
    OnTrack l (s.read (l.reply s.server s.cursor)) := by
  have hsteady := h.steady hunfinished
  have hanswered := h.answered
  cases hsound.requested with
  | refused past failed => exact absurd hsteady.within (Nat.not_le.2 past)
  | more within before server answered unfinished cursor pages =>
    refine ⟨answered.trans hanswered, fun _ => ?_, fun hfinished => ?_⟩
    · rw [server, pages, position_eq cursor]
      exact hsteady.page (position_le_stop within) (stop_le l s)
    · rw [unfinished] at hfinished
      cases hfinished
  | last within atEnd server answered finished cursor pages =>
    refine ⟨answered.trans hanswered, fun hgoes => ?_, fun _ => ?_⟩
    · rw [finished] at hgoes
      cases hgoes
    · have hpage := hsteady.page (position_le_stop within) (stop_le l s)
      rw [server, pages]
      rw [atEnd] at hpage ⊢
      exact hpage.all

/-- **A step that stays ahead of the cursor keeps the walk on track.** -/
theorem OnTrack.step {i : WalkLabel α} (h : OnTrack l s) (hsound : Sound l s) (hahead : Ahead l s i)
    (hstep : step l s i = some t) : OnTrack l t := by
  obtain ⟨hended, ⟨c, rfl, -, rfl⟩ | ⟨rfl, rfl⟩⟩ := step_cases hstep
  · exact h.call (Bool.or_eq_false_iff.1 hended).1 hahead
  · exact h.request hsound (Bool.or_eq_false_iff.1 hended).1

/-- **A run whose calls stay ahead of the cursor stays on track.** -/
theorem OnTrack.run : ∀ {acts : List (WalkLabel α)} {s : Walk α}, Sound l s → OnTrack l s → (∀ i ∈ acts, Modest l i) →
    Lts.Meets (Walk.step l) (Ahead l) s acts → Lts.run (Walk.step l) s acts = some t → Sound l t ∧ OnTrack l t
  | [], s, hsound, htrack, _, _, hrun => by
    obtain rfl : s = t := by simpa using hrun
    exact ⟨hsound, htrack⟩
  | i :: acts, s, hsound, htrack, hmodest, hahead, hrun => by
    obtain ⟨u, hstep, hrun⟩ := Lts.run_cons_eq_some.1 hrun
    exact OnTrack.run (hsound.step (hmodest i List.mem_cons_self) hstep) (htrack.step hsound hahead.1 hstep)
      (fun j hj => hmodest j (List.mem_cons_of_mem i hj)) (hahead.2 u hstep) hrun

theorem Built.sound {w : Server α} (h : Built l w) : Sound l { server := w } :=
  ⟨h.names_nodup.1, h.names_nodup.2, h.2, fun _ h => by cases h⟩

theorem OnTrack.start (l : Listing) (w : Server α) : OnTrack l { server := w } :=
  ⟨rfl, fun _ => Steady.start _, fun h => by cases h⟩

/-- **Requests alone finish a walk** that is on track. -/
theorem OnTrack.finishes : ∀ (left : Nat) {s : Walk α}, Sound l s → OnTrack l s →
    (l.items s.server).length - s.position < left →
      ∃ n t, Lts.run (Walk.step l) s (List.replicate n .request) = some t ∧ t.finished = true
  | 0, s, _, _, hleft => absurd hleft (Nat.not_lt_zero _)
  | left + 1, s, hsound, htrack, hleft => by
    by_cases hfinished : s.finished = true
    · exact ⟨0, s, rfl, hfinished⟩
    · have hunfinished : s.finished = false := by simpa using hfinished
      have hstep : Walk.step l s .request = some (s.read (l.reply s.server s.cursor)) := by
        rw [Walk.step, ended, hunfinished, htrack.answered]
        rfl
      have htrack' := htrack.request hsound hunfinished
      have hsound' := hsound.step (i := .request) trivial hstep
      cases hsound.requested with
      | refused past failed => exact absurd (htrack.steady hunfinished).within (Nat.not_le.2 past)
      | more within before server answered unfinished cursor pages =>
        -- the next page starts further on
        have hforward := hsound.position_lt_stop before
        have hcloser : (l.items (s.read (l.reply s.server s.cursor)).server).length -
            (s.read (l.reply s.server s.cursor)).position < left := by
          rw [server, position_eq cursor]
          omega
        obtain ⟨n, t, hrun, ht⟩ := OnTrack.finishes left hsound' htrack' hcloser
        exact ⟨n + 1, t, Lts.run_cons_eq_some.2 ⟨_, hstep, hrun⟩, ht⟩
      | last within atEnd server answered finished cursor pages =>
        exact ⟨1, _, Lts.run_cons_eq_some.2 ⟨_, hstep, rfl⟩, finished⟩

/-- **A walk during which items are only registered reads the list as it is at its last request.** -/
theorem walk_complete (l : Listing) {w : Server α} (hbuilt : Built l w) {acts : List (WalkLabel α)} {t : Walk α}
    (hcalls : ∀ c, .call c ∈ acts → l.removes c = none) (hsizes : ∀ i ∈ acts, Modest l i)
    (hrun : Lts.run (step l) { server := w } acts = some t) :
    t.failed = false ∧
      (t.finished = true → t.pages.flatten = l.items t.server ∧ t.pages.flatten.Nodup) ∧
      ∃ n u, Lts.run (step l) t (List.replicate n .request) = some u ∧ u.finished = true := by
  have hahead : ∀ {acts : List (WalkLabel α)} {s : Walk α}, (∀ c, .call c ∈ acts → l.removes c = none) →
      Lts.Meets (step l) (Ahead l) s acts := by
    intro acts
    induction acts with
    | nil => exact fun _ => trivial
    | cons i acts ih =>
      intro s hcalls
      refine ⟨?_, fun u _ => ih fun c hc => hcalls c (List.mem_cons_of_mem i hc)⟩
      cases i with
      | call c =>
        intro k hk
        rw [hcalls c List.mem_cons_self] at hk
        cases hk
      | request => trivial
  obtain ⟨hsound, htrack⟩ := OnTrack.run hbuilt.sound (OnTrack.start l w) hsizes (hahead hcalls) hrun
  refine ⟨htrack.answered, fun hfinished => ?_, OnTrack.finishes _ hsound htrack (Nat.lt_succ_self _)⟩
  rw [htrack.complete hfinished]
  exact ⟨rfl, hsound.nodup_items⟩

def toolCall (name : Bytes) : ApiCall Unit := .registerTool { name } (some fun _ app => (.ok { content := [] }, app))

def walkServer (calls : List (ApiCall Unit)) : Server Unit :=
  calls.foldl (fun w c => (applyCall w c).1) { info := { name := bytes "server", version := bytes "1" }, app := () }

/-- Tools `a` and `b`, one to a page. -/
def twoTools : Server Unit := walkServer [toolCall (bytes "a"), toolCall (bytes "b"), .setToolPageSize 1]

/-- `c` is registered after the first page. -/
theorem walk_complete_grown :
    ∃ t, Lts.run (step .tools) { server := twoTools } [.request, .call (toolCall (bytes "c")), .request, .request] = some t ∧
      t.finished = true ∧ t.failed = false ∧ t.pages.flatten = Listing.tools.items t.server ∧ t.pages.length = 3 := by
  have hends : (Lts.run (step .tools) { server := twoTools }
      [.request, .call (toolCall (bytes "c")), .request, .request]).map (fun t => (t.finished, t.pages.length)) =
        some (true, 3) := by decide
  obtain ⟨t, hrun, ht⟩ := Option.map_eq_some_iff.1 hends
  obtain ⟨hfinished, hlength⟩ := Prod.mk.inj ht
  have hcomplete := walk_complete .tools (w := twoTools) ⟨⟨_, _, _, rfl⟩, by decide⟩
    (by simp [toolCall, Listing.removes]) (by simp [toolCall, Modest, Listing.resizes]) hrun
  exact ⟨t, hrun, hfinished, hcomplete.1, (hcomplete.2.1 hfinished).1, hlength⟩

/-! ## Walks that miss something -/

/-- Nothing from the cursor on was read, as long as the walk goes on. -/
def UnreadAhead (l : Listing) (s : Walk α) : Prop := s.ended = false → Unread (l.items s.server) s.pages.flatten s.position

/-- A request failed, or the walk ended without an item of the list, or it will. -/
def Strays (l : Listing) (s : Walk α) : Prop :=
  s.failed = true ∨ (s.finished = true ∧ ∃ item ∈ l.items s.server, item ∉ s.pages.flatten) ∨
    (s.ended = false ∧ Missed (l.items s.server) s.pages.flatten s.position)

/-- A call that registers nothing takes an item out, or nothing. -/
theorem items_unregistered {c : ApiCall α} (hregisters : l.registers c = false) (w : Server α) :
    ∃ p, l.items (applyCall w c).1 = (l.items w).eraseP p := by
  cases hremoves : l.removes c with
  | some k => exact ⟨_, Listing.items_of_removes hremoves w⟩
  | none =>
    refine ⟨fun _ => false, ?_⟩
    rw [Listing.items_of_other hregisters hremoves, List.eraseP_of_forall_not (by simp)]

theorem UnreadAhead.step {i : WalkLabel α} (h : UnreadAhead l s) (hsound : Sound l s)
    (hcalls : ∀ c, i = .call c → l.registers c = false) (hstep : step l s i = some t) : UnreadAhead l t := by
  obtain ⟨hended, ⟨c, rfl, -, rfl⟩ | ⟨rfl, rfl⟩⟩ := step_cases hstep
  · obtain ⟨p, hp⟩ := items_unregistered (hcalls c rfl) s.server
    intro _
    show Unread (l.items (applyCall s.server c).1) s.pages.flatten s.position
    rw [hp]
    exact (h hended).eraseP
  · intro hgoes
    cases hsound.requested with
    | refused past failed =>
      rw [failed, ended, Bool.or_true] at hgoes
      cases hgoes
    | more within before server answered unfinished cursor pages =>
      rw [server, pages, position_eq cursor]
      exact (h hended).page (position_le_stop within)
    | last within atEnd server answered finished cursor pages =>
      rw [ended, finished] at hgoes
      cases hgoes

/-- **A walk that is astray stays astray.** -/
theorem Strays.step {i : WalkLabel α} (hs : Strays l s) (h : UnreadAhead l s) (hsound : Sound l s)
    (hcalls : ∀ c, i = .call c → l.registers c = false) (hstep : step l s i = some t) : Strays l t := by
  obtain ⟨hended, hcases⟩ := step_cases hstep
  obtain ⟨hunfinished, hanswered⟩ := Bool.or_eq_false_iff.1 hended
  have hmissed : Missed (l.items s.server) s.pages.flatten s.position := by
    rcases hs with hfailed | ⟨hfinished, -⟩ | ⟨-, hmissed⟩
    · rw [hanswered] at hfailed
      cases hfailed
    · rw [hunfinished] at hfinished
      cases hfinished
    · exact hmissed
  obtain ⟨c, rfl, -, rfl⟩ | ⟨rfl, rfl⟩ := hcases
  · obtain ⟨p, hp⟩ := items_unregistered (hcalls c rfl) s.server
    refine .inr (.inr ⟨hended, ?_⟩)
    show Missed (l.items (applyCall s.server c).1) s.pages.flatten s.position
    rw [hp]
    exact hmissed.eraseP (h hended)
  · cases hsound.requested with
    | refused past failed =>
      rw [failed]
      exact .inl rfl
    | more within before server answered unfinished cursor pages =>
      refine .inr (.inr ⟨?_, ?_⟩)
      · rw [ended, unfinished, answered, hanswered]
        rfl
      · rw [server, pages, position_eq cursor]
        exact hmissed.page (h hended) (position_le_stop within) (stop_le l s)
    | last within atEnd server answered finished cursor pages =>
      have hpage := hmissed.page (h hended) (position_le_stop within) (stop_le l s)
      refine .inr (.inl ⟨finished, ?_⟩)
      rw [server, pages]
      rw [atEnd] at hpage ⊢
      exact hpage.not_all

theorem Strays.run : ∀ {acts : List (WalkLabel α)} {s : Walk α}, Strays l s → UnreadAhead l s → Sound l s →
    (∀ c, .call c ∈ acts → l.registers c = false) → (∀ i ∈ acts, Modest l i) →
      Lts.run (Walk.step l) s acts = some t → Strays l t
  | [], s, hs, _, _, _, _, hrun => by
    obtain rfl : s = t := by simpa using hrun
    exact hs
  | i :: acts, s, hs, h, hsound, hcalls, hmodest, hrun => by
    obtain ⟨u, hstep, hrun⟩ := Lts.run_cons_eq_some.1 hrun
    have hcall : ∀ c, i = .call c → l.registers c = false := fun c hc => hcalls c (hc ▸ List.mem_cons_self)
    exact Strays.run (hs.step h hsound hcall hstep) (h.step hsound hcall hstep)
      (hsound.step (hmodest i List.mem_cons_self) hstep)
      (fun c hc => hcalls c (List.mem_cons_of_mem i hc)) (fun j hj => hmodest j (List.mem_cons_of_mem i hj)) hrun

end Walk

end Mcp
