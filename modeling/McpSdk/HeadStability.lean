import McpSdk.HttpHead
/-!
# HeadStability — heads parsed before the stream has all been read

`parseHead` looks for `\r\n\r\n` in all of the buffer before it settles for `\n\n`.  So an incomplete head was incomplete
before and a refused one stays refused, but a head that ends with `\n\n` gets longer when a `\r\n\r\n` arrives in what
was its body (`stable_iff`).
-/
namespace Mcp

/-! ## What is read as a head -/

/-- `METHOD SP TARGET SP HTTP/1.x`. -/
def RequestLine (start : Bytes) : Prop :=
  ∃ method target version, start = method ++ [ch ' '] ++ (target ++ [ch ' '] ++ version) ∧ ch ' ' ∉ method ∧ ch ' ' ∉ target ∧
    bytes "HTTP/1." <+: version

/-- `HTTP/1.x SP STATUS ...`. -/
def StatusLine (start : Bytes) : Prop :=
  ∃ version status, start = version ++ [ch ' '] ++ status ∧ ch ' ' ∉ version ∧ bytes "HTTP/1." <+: start ∧ 3 ≤ status.length ∧
    100 ≤ atoi status ∧ atoi status ≤ 599

def StartLine (requestMode : Bool) (start : Bytes) : Prop := if requestMode then RequestLine start else StatusLine start

/-- The lines up to an empty one. -/
def headerLines (lines : List Bytes) : List Bytes := lines.takeWhile (fun line => !line.isEmpty)

/-- The lines begin with a start line and headers up to an empty line. -/
def Readable (requestMode : Bool) : List Bytes → Prop
  | [] => False
  | start :: lines => StartLine requestMode start ∧ ∀ line ∈ headerLines lines, ch ':' ∈ line

theorem take_eq_iff {p s : Bytes} {n : Nat} (hn : n = p.length) : s.take n = p ↔ p <+: s := by
  rw [List.prefix_iff_eq_take, hn, eq_comm]

theorem requestLine_iff (start : Bytes) :
    (RequestLine start ∧ ∃ head, parseRequestLine start = .ok head) ∨
      (¬ RequestLine start ∧ ∃ e, e ≠ [] ∧ parseRequestLine start = .error e) := by
  by_cases hline : RequestLine start
  · refine Or.inl ⟨hline, ?_⟩
    obtain ⟨method, target, version, rfl, hmethod, htarget, hversion⟩ := hline
    unfold parseRequestLine
    rw [List.append_assoc, List.singleton_append, Search.indexOf_singleton hmethod]
    have hrest : (method ++ ch ' ' :: (target ++ [ch ' '] ++ version)).drop (method.length + 1) = target ++ ch ' ' :: version := by
      simp [← List.drop_drop]
    simp only [hrest, Search.indexOf_singleton htarget]
    rw [if_neg]
    · exact ⟨_, rfl⟩
    · rw [not_not, ← List.drop_drop, List.drop_left, List.drop_one, List.tail_cons]
      exact (take_eq_iff rfl).2 hversion
  · refine Or.inr ⟨hline, bytes "malformed request line", by decide, ?_⟩
    unfold parseRequestLine
    cases hfirst : Search.indexOf [ch ' '] start with
    | none => rfl
    | some sp1 =>
      obtain ⟨method, rest, rfl, hmethod, rfl⟩ := Search.exists_split (List.cons_ne_nil _ _) hfirst
      have hdrop : (method ++ [ch ' '] ++ rest).drop (method.length + 1) = rest := by simp [← List.drop_drop]
      simp only [hdrop]
      cases hsecond : Search.indexOf [ch ' '] rest with
      | none => rfl
      | some n =>
        obtain ⟨target, version, rfl, htarget, rfl⟩ := Search.exists_split (List.cons_ne_nil _ _) hsecond
        have hdrop : (target ++ [ch ' '] ++ version).drop (target.length + 1) = version := by simp [← List.drop_drop]
        simp only [hdrop]
        rw [if_pos]
        intro hversion
        exact hline ⟨method, target, version, rfl, Search.indexOf_singleton_eq_none.1 hmethod,
          Search.indexOf_singleton_eq_none.1 htarget, (take_eq_iff rfl).1 hversion⟩

/-- The parts of a status line are those at its first space. -/
theorem statusLine_parts {version status : Bytes} (hspace : ch ' ' ∉ version)
    (hversion : (version ++ [ch ' '] ++ status).take 7 = bytes "HTTP/1.") :
    StatusLine (version ++ [ch ' '] ++ status) ↔ 3 ≤ status.length ∧ ¬ (atoi status < 100 ∨ 599 < atoi status) := by
  rw [not_or, Int32.not_lt, Int32.not_lt]
  constructor
  · rintro ⟨version', status', heq, hspace', -, hlong, hrange⟩
    have hfirst : Search.indexOf [ch ' '] (version ++ [ch ' '] ++ status) = some version.length := by
      rw [List.append_assoc, List.singleton_append, Search.indexOf_singleton hspace]
    rw [heq, List.append_assoc, List.singleton_append, Search.indexOf_singleton hspace'] at hfirst
    rw [List.append_assoc, List.append_assoc] at heq
    obtain ⟨-, hstatus⟩ := List.append_inj heq (Option.some.inj hfirst).symm
    rw [List.append_cancel_left hstatus]
    exact ⟨hlong, hrange⟩
  · rintro ⟨hlong, hrange⟩
    exact ⟨version, status, rfl, hspace, (take_eq_iff rfl).1 hversion, hlong, hrange⟩

theorem statusLine_iff (start : Bytes) :
    (StatusLine start ∧ ∃ head, parseStatusLine start = .ok head) ∨
      (¬ StatusLine start ∧ ∃ e, e ≠ [] ∧ parseStatusLine start = .error e) := by
  unfold parseStatusLine
  by_cases hversion : start.take 7 = bytes "HTTP/1."
  · rw [if_neg (not_not.2 hversion)]
    cases hfirst : Search.indexOf [ch ' '] start with
    | none =>
      refine Or.inr ⟨?_, bytes "malformed status line", by decide, rfl⟩
      rintro ⟨version, status, rfl, hspace, -⟩
      rw [List.append_assoc, List.singleton_append, Search.indexOf_singleton hspace] at hfirst
      cases hfirst
    | some sp1 =>
      obtain ⟨version, status, rfl, hnone, rfl⟩ := Search.exists_split (List.cons_ne_nil _ _) hfirst
      have hspace := Search.indexOf_singleton_eq_none.1 hnone
      have hdrop : (version ++ [ch ' '] ++ status).drop (version.length + 1) = status := by simp [← List.drop_drop]
      rw [statusLine_parts hspace hversion]
      simp only [hdrop]
      by_cases hshort : (version ++ [ch ' '] ++ status).length < version.length + 4
      · have hlength : ¬ 3 ≤ status.length := by
          simp only [List.length_append, List.length_singleton] at hshort
          omega
        rw [if_pos hshort]
        exact Or.inr ⟨fun h => hlength h.1, bytes "malformed status line", by decide, rfl⟩
      · have hlength : 3 ≤ status.length := by
          simp only [List.length_append, List.length_singleton] at hshort
          omega
        rw [if_neg hshort]
        by_cases hrange : atoi status < 100 ∨ 599 < atoi status
        · rw [if_pos hrange]
          exact Or.inr ⟨fun h => h.2 hrange, bytes "invalid status code", by decide, rfl⟩
        · rw [if_neg hrange]
          exact Or.inl ⟨⟨hlength, hrange⟩, _, rfl⟩
  · refine Or.inr ⟨?_, bytes "malformed status line", by decide, if_pos hversion⟩
    rintro ⟨version, status, rfl, -, hprefix, -⟩
    exact hversion ((take_eq_iff rfl).2 hprefix)

theorem headers_iff : ∀ (lines : List Bytes) (head : HttpHead),
    ((∀ line ∈ headerLines lines, ch ':' ∈ line) ∧ ∃ head', parseHeaders lines head = .ok head') ∨
      (¬ (∀ line ∈ headerLines lines, ch ':' ∈ line) ∧ ∃ e, e ≠ [] ∧ parseHeaders lines head = .error e)
  | [], head => Or.inl ⟨List.forall_mem_nil _, head, rfl⟩
  | [] :: lines, head => Or.inl ⟨List.forall_mem_nil _, head, rfl⟩
  | (b :: line) :: lines, head => by
    have hlines : headerLines ((b :: line) :: lines) = (b :: line) :: headerLines lines := rfl
    rw [hlines, List.forall_mem_cons, parseHeaders.eq_3 _ _ _ (List.cons_ne_nil b line)]
    cases hcolon : Search.indexOf [ch ':'] (b :: line) with
    | none =>
      exact Or.inr ⟨fun h => Search.indexOf_singleton_eq_none.1 hcolon h.1, bytes "malformed header line", by decide, rfl⟩
    | some colon =>
      have hmem : ch ':' ∈ b :: line := by
        by_contra hnone
        rw [Search.indexOf_singleton_eq_none.2 hnone] at hcolon
        cases hcolon
      exact (headers_iff lines _).imp (And.imp_left (And.intro hmem)) (And.imp_left (mt And.right))

theorem startLine_iff (requestMode : Bool) (start : Bytes) :
    (StartLine requestMode start ∧ ∃ head, (if requestMode then parseRequestLine start else parseStatusLine start) = .ok head) ∨
      (¬ StartLine requestMode start ∧
        ∃ e, e ≠ [] ∧ (if requestMode then parseRequestLine start else parseStatusLine start) = .error e) := by
  cases requestMode with
  | true => exact requestLine_iff start
  | false => exact statusLine_iff start

theorem not_startLine_nil (requestMode : Bool) : ¬ StartLine requestMode [] := by
  cases requestMode with
  | true =>
    rintro ⟨method, target, version, heq, -⟩
    have hlength := congrArg List.length heq
    simp at hlength
  | false =>
    rintro ⟨version, status, heq, -⟩
    have hlength := congrArg List.length heq
    simp at hlength

/-- **A complete head is parsed exactly when its lines read as one**; the error says so otherwise. -/
theorem parseHead_complete (requestMode : Bool) {buffer : Bytes} {consumed : Nat} (h : headEnd buffer = some consumed) :
    (Readable requestMode (headLines buffer consumed) ∧ ∃ head, parseHead requestMode buffer = .parsed head consumed) ∨
      (¬ Readable requestMode (headLines buffer consumed) ∧ ∃ e, e ≠ [] ∧ parseHead requestMode buffer = .malformed e) := by
  unfold parseHead
  rw [h]
  simp only
  cases headLines buffer consumed with
  | nil => exact Or.inr ⟨id, bytes "empty start line", by decide, rfl⟩
  | cons start lines =>
    cases start with
    | nil => exact Or.inr ⟨fun hread => not_startLine_nil requestMode hread.1, bytes "empty start line", by decide, rfl⟩
    | cons b start =>
      rcases startLine_iff requestMode (b :: start) with ⟨hstart, head, hok⟩ | ⟨hstart, e, he, herror⟩
      · simp only [hok]
        rcases headers_iff lines head with ⟨hlines, head', hok⟩ | ⟨hlines, e, he, herror⟩
        · exact Or.inl ⟨⟨hstart, hlines⟩, head', by rw [hok]⟩
        · exact Or.inr ⟨fun hread => hlines hread.2, e, he, by rw [herror]⟩
      · simp only [herror]
        exact Or.inr ⟨fun hread => hstart hread.1, e, he, rfl⟩

/-! ## More of the stream -/

/-- The lines up to a `\n\n` are the same whatever comes after it. -/
theorem exists_lines (front : Bytes) :
    ∃ lines, ∀ (rest : Bytes) (consumed : Nat), front.length + 2 ≤ consumed →
      ∃ more, headLines (front ++ [10, 10] ++ rest) consumed = lines ++ [[]] ++ more := by
  have hdrain : Search.drain 10 (front ++ [10, 10]) =
      ((Search.drain 10 front).1 ++ [(Search.drain 10 front).2] ++ [[]], []) := by
    rw [Search.drain_append, Search.drain_line (Search.not_mem_drain 10 front) [10]]
    simp [Search.drain]
  refine ⟨((Search.drain 10 front).1 ++ [(Search.drain 10 front).2]).map stripCr, fun rest consumed hle => ?_⟩
  have hsplit : (front ++ [10, 10] ++ rest).take consumed = (front ++ [10, 10]) ++ rest.take (consumed - (front.length + 2)) := by
    have hlen : (front ++ [10, 10]).length ≤ consumed := by simpa using hle
    rw [List.take_append, List.take_of_length_le hlen, List.length_append]
    rfl
  refine ⟨(Search.drain 10 (rest.take (consumed - (front.length + 2)))).1.map stripCr, ?_⟩
  unfold headLines
  rw [hsplit, Search.drain_append, hdrain]
  simp only [List.map_append, List.map_cons, List.map_nil, List.nil_append]
  rfl

theorem headerLines_append (more : List Bytes) : ∀ lines : List Bytes, headerLines (lines ++ [[]] ++ more) = headerLines (lines ++ [[]])
  | [] => rfl
  | [] :: _ => rfl
  | (b :: line) :: lines => congrArg ((b :: line) :: ·) (headerLines_append more lines)

/-- **What comes after an empty line is not read.** -/
theorem readable_append (requestMode : Bool) (lines more : List Bytes) :
    Readable requestMode (lines ++ [[]] ++ more) ↔ Readable requestMode (lines ++ [[]]) := by
  cases lines with
  | nil => exact iff_of_false (fun h => not_startLine_nil requestMode h.1) (fun h => not_startLine_nil requestMode h.1)
  | cons start lines =>
    simp only [List.cons_append, Readable]
    rw [headerLines_append]

/-- **What was read of the buffer is read of the stream.** -/
theorem readable_stream {buffer : Bytes} {j : Nat} (h : Search.indexOf [10, 10] buffer = some j) {consumed : Nat}
    (hle : j + 2 ≤ consumed) (requestMode : Bool) (x : Bytes) :
    Readable requestMode (headLines (buffer ++ x) consumed) ↔ Readable requestMode (headLines buffer buffer.length) := by
  obtain ⟨front, rest, rfl, -, rfl⟩ := Search.exists_split (List.cons_ne_nil _ _) h
  obtain ⟨lines, hlines⟩ := exists_lines front
  obtain ⟨more, hstream⟩ := hlines (rest ++ x) consumed hle
  obtain ⟨more', hbuffer⟩ := hlines rest (front ++ [10, 10] ++ rest).length (by simp)
  rw [List.append_assoc, hstream, hbuffer, readable_append, readable_append]

/-! ## Stability -/

/-- **The head does not depend on how much has been read**: more of the stream leaves a parsed head and its end as they
were and a refused one refused, and less of it leaves an incomplete one incomplete. -/
structure Stable (requestMode : Bool) (buffer : Bytes) : Prop where
  parsed : ∀ head consumed, parseHead requestMode buffer = .parsed head consumed →
    ∀ x, parseHead requestMode (buffer ++ x) = .parsed head consumed
  malformed : ∀ e, parseHead requestMode buffer = .malformed e →
    ∀ x, ∃ e', e' ≠ [] ∧ parseHead requestMode (buffer ++ x) = .malformed e'
  incomplete : parseHead requestMode buffer = .incomplete → ∀ p, p <+: buffer → parseHead requestMode p = .incomplete

/-- A head that reads as one and ends with `\n\n`, nowhere a `\r\n\r\n`. -/
def BareLf (requestMode : Bool) (buffer : Bytes) : Prop :=
  ¬ crlf ++ crlf <:+: buffer ∧ [10, 10] <:+: buffer ∧ Readable requestMode (headLines buffer buffer.length)

theorem headEnd_eq_none_iff {buffer : Bytes} : headEnd buffer = none ↔ ¬ crlf ++ crlf <:+: buffer ∧ ¬ [10, 10] <:+: buffer := by
  unfold headEnd
  rw [← Search.indexOf_eq_none_iff, ← Search.indexOf_eq_none_iff]
  cases Search.indexOf (crlf ++ crlf) buffer with
  | none => simp
  | some i => simp

theorem incomplete_iff {requestMode : Bool} {buffer : Bytes} : parseHead requestMode buffer = .incomplete ↔ headEnd buffer = none := by
  constructor
  · intro h
    cases hend : headEnd buffer with
    | none => rfl
    | some consumed =>
      rcases parseHead_complete requestMode hend with ⟨-, head, hparse⟩ | ⟨-, e, -, hparse⟩
      · rw [h] at hparse
        cases hparse
      · rw [h] at hparse
        cases hparse
  · intro h
    unfold parseHead
    rw [h]

theorem incomplete_prefix {requestMode : Bool} {buffer p : Bytes} (h : parseHead requestMode buffer = .incomplete) (hp : p <+: buffer) :
    parseHead requestMode p = .incomplete := by
  rw [incomplete_iff, headEnd_eq_none_iff] at h ⊢
  exact ⟨fun hin => h.1 (hin.trans hp.isInfix), fun hin => h.2 (hin.trans hp.isInfix)⟩

/-- **What is refused stays refused**: the lines up to the end of the head stay the first ones. -/
theorem malformed_append {requestMode : Bool} {buffer e : Bytes} (h : parseHead requestMode buffer = .malformed e) (x : Bytes) :
    ∃ e', e' ≠ [] ∧ parseHead requestMode (buffer ++ x) = .malformed e' := by
  cases hend : headEnd buffer with
  | none =>
    rw [incomplete_iff.2 hend] at h
    cases h
  | some consumed =>
    rcases parseHead_complete requestMode hend with ⟨-, head, hparse⟩ | ⟨hbad, e', he', hparse⟩
    · rw [h] at hparse
      cases hparse
    · cases hcrlf : Search.indexOf (crlf ++ crlf) buffer with
      | some i => exact ⟨e', he', by rw [parseHead_append hcrlf, hparse]⟩
      | none =>
        obtain ⟨j, hj, hconsumed⟩ : ∃ j, Search.indexOf [10, 10] buffer = some j ∧ j + 2 = consumed := by
          unfold headEnd at hend
          rw [hcrlf] at hend
          exact Option.map_eq_some_iff.1 hend
        obtain ⟨later, hlater, hle⟩ : ∃ later, headEnd (buffer ++ x) = some later ∧ j + 2 ≤ later := by
          unfold headEnd
          cases hfound : Search.indexOf (crlf ++ crlf) (buffer ++ x) with
          | none => exact ⟨j + 2, by rw [Search.indexOf_append hj]; rfl, Nat.le_refl _⟩
          | some i =>
            have hlate : buffer.length < i + 4 := Search.length_lt_of_append hcrlf hfound
            have hin : j + 2 ≤ buffer.length := Search.indexOf_le hj
            exact ⟨i + 4, rfl, by omega⟩
        have hsame := readable_stream hj hle requestMode x
        have hfirst := readable_stream hj (Nat.le_refl (j + 2)) requestMode []
        rw [List.append_nil, hconsumed] at hfirst
        rcases parseHead_complete requestMode hlater with ⟨hread, -⟩ | ⟨-, hrefused⟩
        · exact absurd (hfirst.2 (hsame.1 hread)) hbad
        · exact hrefused

/-- A head that is read without a `\r\n\r\n` ends with a bare `\n\n`. -/
theorem found_of_parsed {requestMode : Bool} {buffer : Bytes} (hbare : ¬ BareLf requestMode buffer) {head : HttpHead} {consumed : Nat}
    (hparse : parseHead requestMode buffer = .parsed head consumed) : ∃ i, Search.indexOf (crlf ++ crlf) buffer = some i := by
  cases hcrlf : Search.indexOf (crlf ++ crlf) buffer with
  | some i => exact ⟨i, rfl⟩
  | none =>
    cases hlf : Search.indexOf [10, 10] buffer with
    | none =>
      have hnone := headEnd_eq_none_iff.2 ⟨Search.indexOf_eq_none_iff.1 hcrlf, Search.indexOf_eq_none_iff.1 hlf⟩
      rw [incomplete_iff.2 hnone] at hparse
      cases hparse
    | some j =>
      have hend : headEnd buffer = some (j + 2) := by
        unfold headEnd
        rw [hcrlf, hlf]
        rfl
      rcases parseHead_complete requestMode hend with ⟨hread, -⟩ | ⟨-, e, -, hbad⟩
      · have hread' := (readable_stream hlf (Nat.le_refl (j + 2)) requestMode []).1 (by rwa [List.append_nil])
        exact absurd ⟨Search.indexOf_eq_none_iff.1 hcrlf, Search.infix_of_indexOf hlf, hread'⟩ hbare
      · rw [hparse] at hbad
        cases hbad

/-- **A head is stable exactly when it does not end with a bare `\n\n`.** -/
theorem stable_iff (requestMode : Bool) (buffer : Bytes) : Stable requestMode buffer ↔ ¬ BareLf requestMode buffer := by
  constructor
  · rintro hstable ⟨hcrlf, hlf, hread⟩
    have hnone := Search.indexOf_eq_none_iff.2 hcrlf
    obtain ⟨j, hj⟩ := Search.exists_indexOf hlf
    have hend : headEnd buffer = some (j + 2) := by
      unfold headEnd
      rw [hnone, hj]
      rfl
    have hle : j + 2 ≤ buffer.length := Search.indexOf_le hj
    -- a `\r\n\r\n` of the body moves the end behind the buffer
    obtain ⟨i, hi⟩ := Search.exists_indexOf (List.suffix_append buffer (crlf ++ crlf)).isInfix
    have hlate : buffer.length < i + 4 := Search.length_lt_of_append hnone hi
    have hend' : headEnd (buffer ++ (crlf ++ crlf)) = some (i + 4) := by
      simpa using headEnd_append hi []
    have hread' := (readable_stream hj (Nat.le_refl (j + 2)) requestMode []).2 hread
    rw [List.append_nil] at hread'
    rcases parseHead_complete requestMode hend with ⟨-, head, hparse⟩ | ⟨hbad, -⟩
    · have hparse' := hstable.parsed head (j + 2) hparse (crlf ++ crlf)
      rcases parseHead_complete requestMode hend' with ⟨-, head', hlonger⟩ | ⟨-, e, -, hlonger⟩
      · rw [hparse'] at hlonger
        cases hlonger
        omega
      · rw [hparse'] at hlonger
        cases hlonger
    · exact hbad hread'
  · intro hbare
    refine ⟨fun head consumed hparse x => ?_, fun e hparse x => malformed_append hparse x, fun h p hp => incomplete_prefix h hp⟩
    obtain ⟨i, hi⟩ := found_of_parsed hbare hparse
    rw [parseHead_append hi, hparse]

/-- A request with bare line feeds, as far as its empty line. -/
def bareRequest : Bytes := bytes "GET / HTTP/1.1\n\n"

/-- **A `\r\n\r\n` after it moves the start of the body.** -/
theorem bareRequest_moves :
    parseHead true bareRequest = .parsed { method := bytes "GET", target := bytes "/" } 16 ∧
      parseHead true (bareRequest ++ crlf ++ crlf) = .parsed { method := bytes "GET", target := bytes "/" } 20 ∧
      ¬ Stable true bareRequest := by
  have hparse : parseHead true bareRequest = .parsed { method := bytes "GET", target := bytes "/" } 16 := by rfl
  have hmoved : parseHead true (bareRequest ++ crlf ++ crlf) = .parsed { method := bytes "GET", target := bytes "/" } 20 := by rfl
  refine ⟨hparse, hmoved, fun hstable => ?_⟩
  have hsame := hstable.parsed _ _ hparse (crlf ++ crlf)
  rw [← List.append_assoc, hmoved] at hsame
  cases hsame

end Mcp
