import McpSdk.LineTransport
/-!
# LineReader — the two line loops

`LineReader` cuts the client's side of the stdio transport into lines and `StdioTransport::read_loop` the server's.  Both
give the complete lines whatever the reads (`lines_eq`, `readLoop_eq`); the last line, if its end is missing, comes out
of `LineReader` only (`lines_agree_iff`).
-/
namespace Mcp

/-! ## `LineReader` -/

/-- The descriptor is not in the state: `reads` are the results of the reads to come, `none` a failed one and no more of
them the end of the stream. -/
structure LineReader where
  buffer : Bytes := []
  eof : Bool := false

inductive LineStatus where
  | line (out : Bytes)
  | eof
  | ioError

namespace LineReader

def next (r : LineReader) (reads : List (Option Bytes)) : LineStatus × LineReader × List (Option Bytes) :=
  match Search.indexOf [10] r.buffer with
  | some pos => (.line (stripCr (r.buffer.take pos)), { r with buffer := r.buffer.drop (pos + 1) }, reads)
  | none =>
    if _h : r.eof then
      -- a final line without its end
      if r.buffer ≠ [] then (.line r.buffer, { r with buffer := [] }, reads) else (.eof, r, reads)
    else
      match reads with
      | [] => next { r with eof := true } []
      | some chunk :: reads => next { r with buffer := r.buffer ++ chunk } reads
      | none :: reads => (.ioError, r, reads)
termination_by 2 * reads.length + if r.eof then 0 else 1
decreasing_by
  · simp [_h]
  · simp only [List.length_cons]
    omega

/-- The bytes not yet in a line. -/
def pending (r : LineReader) (reads : List (Option Bytes)) : Bytes := r.buffer ++ reads.flatMap (·.getD [])

theorem pending_next (r : LineReader) (reads : List (Option Bytes)) :
    ∀ out, (r.next reads).1 = .line out → ((r.next reads).2.1.pending (r.next reads).2.2).length < (r.pending reads).length := by
  fun_induction next r reads with
  | case1 r reads pos hpos =>
    intro out _
    have hle : pos + 1 ≤ r.buffer.length := Search.indexOf_le hpos
    simp only [pending, List.length_append, List.length_drop]
    omega
  | case2 r reads hnone heof hbuffer =>
    intro out _
    have hpos := List.length_pos_iff.2 hbuffer
    simp only [pending, List.length_append, List.length_nil]
    omega
  | case3 r reads hnone heof hbuffer =>
    intro out h
    cases h
  | case4 r hnone heof ih => exact ih
  | case5 r hnone heof chunk reads ih =>
    have hsame : pending { r with buffer := r.buffer ++ chunk } reads = r.pending (some chunk :: reads) := by
      simp [pending]
    rwa [hsame] at ih
  | case6 r hnone heof reads =>
    intro out h
    cases h

/-- The lines up to the end of the stream or an error. -/
def lines (r : LineReader) (reads : List (Option Bytes)) : List Bytes :=
  match _h : r.next reads with
  | (.line out, r', reads') => out :: r'.lines reads'
  | (.eof, _, _) => []
  | (.ioError, _, _) => []
termination_by (r.pending reads).length
decreasing_by
  have hless := pending_next r reads out (by rw [_h])
  rwa [_h] at hless

/-- The line without its end, if there is one. -/
def finalLine (rest : Bytes) : List Bytes := if rest = [] then [] else [rest]

theorem lines_line {r r' : LineReader} {reads reads' : List (Option Bytes)} {out : Bytes}
    (h : r.next reads = (.line out, r', reads')) : r.lines reads = out :: r'.lines reads' := by
  rw [lines]
  split
  · rename_i hnext
    rw [h] at hnext
    cases hnext
    rfl
  · rename_i hnext
    rw [h] at hnext
    cases hnext
  · rename_i hnext
    rw [h] at hnext
    cases hnext

theorem lines_eof {r r' : LineReader} {reads reads' : List (Option Bytes)} (h : r.next reads = (.eof, r', reads')) :
    r.lines reads = [] := by
  rw [lines]
  split
  · rename_i hnext
    rw [h] at hnext
    cases hnext
  · rfl
  · rfl

/-- **What `next` gives**: the first line of what is pending, wherever it was cut. -/
theorem next_chunks : ∀ (chunks : List Bytes) (r : LineReader), r.eof = false →
    match Search.indexOf [10] (r.buffer ++ chunks.flatten) with
    | some pos => ∃ (buffer : Bytes) (rest : List Bytes),
        r.next (chunks.map some) = (.line (stripCr ((r.buffer ++ chunks.flatten).take pos)), { buffer }, rest.map some) ∧
          buffer ++ rest.flatten = (r.buffer ++ chunks.flatten).drop (pos + 1)
    | none => r.next (chunks.map some) =
        (if r.buffer ++ chunks.flatten ≠ [] then .line (r.buffer ++ chunks.flatten) else .eof, { eof := true }, [])
  | chunks, ⟨buffer, eof⟩, heof => by
    obtain rfl : eof = false := heof
    cases hline : Search.indexOf [10] buffer with
    | some pos =>
      have hle : pos + 1 ≤ buffer.length := Search.indexOf_le hline
      rw [Search.indexOf_append hline]
      refine ⟨buffer.drop (pos + 1), chunks, ?_, ?_⟩
      · rw [next.eq_def, List.take_append_of_le_length (Nat.le_of_succ_le hle)]
        simp only [hline]
      · rw [List.drop_append_of_le_length hle]
    | none =>
      cases chunks with
      | nil =>
        rw [List.flatten_nil, List.append_nil, hline]
        simp only [List.map_nil]
        rw [next]
        simp only [hline]
        rw [dif_neg Bool.false_ne_true, next]
        simp only [hline, dif_pos]
        by_cases hbuffer : buffer = []
        · simp [hbuffer]
        · simp [hbuffer]
      | cons chunk chunks =>
        have ih := next_chunks chunks ⟨buffer ++ chunk, false⟩ rfl
        have hnext : next ⟨buffer, false⟩ ((chunk :: chunks).map some) = next ⟨buffer ++ chunk, false⟩ (chunks.map some) := by
          rw [List.map_cons, next]
          simp only [hline]
          rw [dif_neg Bool.false_ne_true]
        rw [hnext, List.flatten_cons, ← List.append_assoc]
        exact ih

/-- **The complete lines, and the last one without its end**, whatever the reads. -/
theorem lines_eq (chunks : List Bytes) (r : LineReader) (heof : r.eof = false) :
    r.lines (chunks.map some) = (Search.drain 10 (r.buffer ++ chunks.flatten)).1.map stripCr ++
      finalLine (Search.drain 10 (r.buffer ++ chunks.flatten)).2 := by
  induction hlen : (r.buffer ++ chunks.flatten).length using Nat.strong_induction_on generalizing r chunks with
  | _ length ih =>
    have hnext := next_chunks chunks r heof
    cases hline : Search.indexOf [10] (r.buffer ++ chunks.flatten) with
    | some pos =>
      rw [hline] at hnext
      obtain ⟨buffer, rest, hnext, hrest⟩ := hnext
      obtain ⟨line, t, hsplit, hnone, rfl⟩ := Search.exists_split (List.cons_ne_nil _ _) hline
      have hclean := Search.indexOf_singleton_eq_none.1 hnone
      rw [hsplit] at hnext hrest hlen ⊢
      rw [List.append_assoc, List.singleton_append] at hnext hrest hlen ⊢
      rw [List.take_left] at hnext
      have htail : buffer ++ rest.flatten = t := by rw [hrest, ← List.drop_drop, List.drop_left]; rfl
      have ih := ih t.length (by rw [← hlen]; simp; omega) rest { buffer } rfl (by rw [htail])
      rw [htail] at ih
      rw [lines_line hnext, ih, Search.drain_line hclean]
      rfl
    | none =>
      rw [hline] at hnext
      rw [Search.drain_of_not_mem (Search.indexOf_singleton_eq_none.1 hline)]
      have hlast : next { eof := true } [] = (.eof, { eof := true }, []) := by
        rw [next]
        rfl
      have hend : lines { eof := true } [] = [] := lines_eof hlast
      unfold finalLine
      by_cases hempty : r.buffer ++ chunks.flatten = []
      · simp only [hempty, ne_eq, not_true_eq_false, if_false] at hnext
        rw [lines_eof hnext, if_pos hempty]
        rfl
      · simp only [ne_eq, hempty, not_false_eq_true, if_true] at hnext
        rw [lines_line hnext, hend, if_neg hempty]
        rfl

end LineReader

/-! ## `read_loop` -/

namespace LineTransport

/-- The lines `read_loop` passes to `process_line`. -/
def readLoop (buffer : Bytes) : List (Option Bytes) → List Bytes
  | [] => []
  | none :: _ => []
  | some chunk :: reads =>
    let cut := Search.drain 10 (buffer ++ chunk)
    cut.1.map stripCr ++ readLoop cut.2 reads

/-- **The complete lines**, whatever the reads. -/
theorem readLoop_eq : ∀ (chunks : List Bytes) {buffer : Bytes}, (10 : UInt8) ∉ buffer →
    readLoop buffer (chunks.map some) = (Search.drain 10 (buffer ++ chunks.flatten)).1.map stripCr
  | [], buffer, h => by
    rw [List.flatten_nil, List.append_nil, Search.drain_of_not_mem h]
    rfl
  | chunk :: chunks, buffer, h => by
    have ih := readLoop_eq chunks (Search.not_mem_drain 10 (buffer ++ chunk))
    rw [List.map_cons, readLoop, ih, List.flatten_cons, ← List.append_assoc, Search.drain_append (buffer ++ chunk), List.map_append]

theorem each_map {α β σ : Type} (call : β → Call σ) (f : α → β) : ∀ (as : List α) (s : σ),
    each call (as.map f) s = each (fun a => call (f a)) as s
  | [], _ => rfl
  | a :: as, s => by
    rw [List.map_cons, each, each]
    cases call (f a) s with
    | mk s' e =>
      cases e with
      | none => exact each_map call f as s'
      | some x => rfl

theorem foldl_feed_escaped {σ : Type} (text : JsonText Bytes) (handlers : Handlers σ) {r : Reader σ} {x : Exn}
    (h : r.escaped = some x) : ∀ chunks : List Bytes, chunks.foldl (Reader.feed text handlers) r = r
  | [] => rfl
  | chunk :: chunks => by
    have hsame : r.feed text handlers chunk = r := by
      unfold Reader.feed
      rw [h]
    rw [List.foldl_cons, hsame]
    exact foldl_feed_escaped text handlers h chunks

/-- **The loop hands these lines to `process_line`**, until one of them throws. -/
theorem foldl_feed {σ : Type} (text : JsonText Bytes) (handlers : Handlers σ) : ∀ (chunks : List Bytes) (r : Reader σ),
    r.escaped = none →
      ((chunks.foldl (Reader.feed text handlers) r).state, (chunks.foldl (Reader.feed text handlers) r).escaped) =
        each (processLine text handlers) (readLoop r.buffer (chunks.map some)) r.state
  | [], r, h => by rw [List.foldl_nil, h]; rfl
  | chunk :: chunks, r, h => by
    have hfeed : r.feed text handlers chunk =
        { buffer := (Search.drain 10 (r.buffer ++ chunk)).2
          state := (each (processLine text handlers) ((Search.drain 10 (r.buffer ++ chunk)).1.map stripCr) r.state).1
          escaped := (each (processLine text handlers) ((Search.drain 10 (r.buffer ++ chunk)).1.map stripCr) r.state).2 } := by
      unfold Reader.feed
      rw [h, each_map]
    rw [List.foldl_cons, List.map_cons, readLoop, each_append, hfeed]
    cases each (processLine text handlers) ((Search.drain 10 (r.buffer ++ chunk)).1.map stripCr) r.state with
    | mk s e =>
      cases e with
      | none => exact foldl_feed text handlers chunks _ rfl
      | some x => rw [foldl_feed_escaped text handlers rfl]

end LineTransport

/-! ## Both on one stream -/

/-- A stream as its reads bring it. -/
structure Reads (stream : Bytes) where
  chunks : List Bytes
  nonempty : ∀ chunk ∈ chunks, chunk ≠ []
  flatten : chunks.flatten = stream

/-- **The two loops give the same lines exactly when the stream ends with a line end**, or is empty. -/
theorem lines_agree_iff (stream : Bytes) (p q : Reads stream) :
    ({} : LineReader).lines (p.chunks.map some) = LineTransport.readLoop [] (q.chunks.map some) ↔
      stream = [] ∨ stream.getLast? = some 10 := by
  rw [LineReader.lines_eq p.chunks {} rfl, LineTransport.readLoop_eq q.chunks List.not_mem_nil, List.nil_append, List.nil_append,
    p.flatten, q.flatten, ← Search.drain_rest_eq_nil]
  unfold LineReader.finalLine
  by_cases hrest : (Search.drain 10 stream).2 = []
  · simp [hrest]
  · simp [hrest]

/-- **A last line without its end is lost** on the server's side. -/
theorem final_line_lost :
    ({} : LineReader).lines [some (bytes "a")] = [bytes "a"] ∧ LineTransport.readLoop [] [some (bytes "a")] = [] := by
  refine ⟨?_, rfl⟩
  exact LineReader.lines_eq [bytes "a"] {} rfl

end Mcp
