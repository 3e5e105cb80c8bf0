import McpSdk.HttpEndpoint
/-!
# HttpStream — a request on the byte stream, however it is cut into reads

The head is found where it ends, whatever the reads (`readHead_stream`); the body is what has arrived by the read that
brings it to its length (`reached`).  Nothing cuts off what that read brings beyond the length, so the body is the
request's exactly when a read ends with it (`handleConnection_body_iff`).
-/
namespace Mcp

/-! ## A head of CRLF lines -/

/-- Lines ended by CRLF, and an empty one. -/
def headBytes (lines : List Bytes) : Bytes := lines.flatMap (· ++ crlf) ++ crlf

/-- Lines without line ends of their own, none empty. -/
structure Framed (lines : List Bytes) : Prop where
  nonempty : lines ≠ []
  line : ∀ line ∈ lines, line ≠ [] ∧ (13 : UInt8) ∉ line ∧ (10 : UInt8) ∉ line

theorem headBytes_cons (line : Bytes) (lines : List Bytes) : headBytes (line :: lines) = line ++ (13 :: 10 :: headBytes lines) := by
  simp [headBytes, crlf]

theorem indexOf_crlf_headBytes : ∀ {lines : List Bytes}, Framed lines →
    Search.indexOf (crlf ++ crlf) (headBytes lines) = some ((headBytes lines).length - 4) ∧ 4 ≤ (headBytes lines).length
  | [], h => absurd rfl h.nonempty
  | [line], h => by
    have hcr := (h.line line List.mem_cons_self).2.1
    have hfound : Search.indexOf (13 :: [10, 13, 10]) (13 :: 10 :: headBytes []) = some 0 := by decide
    rw [headBytes_cons]
    show Search.indexOf (13 :: [10, 13, 10]) _ = _ ∧ _
    rw [Search.indexOf_skip hcr, hfound]
    simp [headBytes, crlf]
  | line :: next :: lines, h => by
    have hcr := (h.line line List.mem_cons_self).2.1
    obtain ⟨hne, hnextCr, -⟩ := h.line next (by simp)
    obtain ⟨ih, hlen⟩ := @indexOf_crlf_headBytes (next :: lines)
      ⟨List.cons_ne_nil next lines, fun l hl => h.line l (List.mem_cons_of_mem line hl)⟩
    obtain ⟨b, rest, rfl⟩ := List.exists_cons_of_ne_nil hne
    have hb : b ≠ 13 := fun he => hnextCr (he ▸ List.mem_cons_self)
    -- the CRLF after `line` is not followed by another one
    have hhere : Search.indexOf (13 :: [10, 13, 10]) (13 :: 10 :: headBytes ((b :: rest) :: lines)) =
        (Search.indexOf (13 :: [10, 13, 10]) (headBytes ((b :: rest) :: lines))).map (· + 2) := by
      have hprefix : ¬ (13 :: [10, 13, 10] : Bytes).isPrefixOf (13 :: 10 :: headBytes ((b :: rest) :: lines)) = true := by
        rw [headBytes_cons]
        simp [List.isPrefixOf, Ne.symm hb]
      rw [Search.indexOf, if_neg hprefix, Search.indexOf_cons_of_ne (by decide), Option.map_map]
      rfl
    rw [headBytes_cons]
    show Search.indexOf (13 :: [10, 13, 10]) _ = _ ∧ _
    rw [Search.indexOf_skip hcr, hhere]
    have ih' : Search.indexOf (13 :: [10, 13, 10]) (headBytes ((b :: rest) :: lines)) =
        some ((headBytes ((b :: rest) :: lines)).length - 4) := ih
    rw [ih']
    simp only [Option.map_some, List.length_append, List.length_cons]
    refine ⟨congrArg some ?_, ?_⟩ <;> omega

theorem indexOf_lf_headBytes : ∀ {lines : List Bytes}, Framed lines → Search.indexOf [10, 10] (headBytes lines) = none
  | [], h => absurd rfl h.nonempty
  | [line], h => by
    have hlf := (h.line line List.mem_cons_self).2.2
    have hmissing : Search.indexOf (10 :: [10]) (13 :: 10 :: headBytes []) = none := by decide
    rw [headBytes_cons, Search.indexOf_skip hlf, hmissing]
    rfl
  | line :: next :: lines, h => by
    have hlf := (h.line line List.mem_cons_self).2.2
    obtain ⟨hne, -, hnextLf⟩ := h.line next (by simp)
    have ih := @indexOf_lf_headBytes (next :: lines)
      ⟨List.cons_ne_nil next lines, fun l hl => h.line l (List.mem_cons_of_mem line hl)⟩
    obtain ⟨b, rest, rfl⟩ := List.exists_cons_of_ne_nil hne
    have hb : b ≠ 10 := fun he => hnextLf (he ▸ List.mem_cons_self)
    have hprefix : ¬ (10 :: [10] : Bytes).isPrefixOf (10 :: headBytes ((b :: rest) :: lines)) = true := by
      rw [headBytes_cons]
      simp [List.isPrefixOf, Ne.symm hb]
    rw [headBytes_cons, Search.indexOf_skip hlf, Search.indexOf_cons_of_ne (by decide), Search.indexOf, if_neg hprefix, ih]
    rfl

/-- **A framed head ends where it ends**, whatever follows it. -/
theorem headEnd_framed {lines : List Bytes} (h : Framed lines) (t : Bytes) :
    headEnd (headBytes lines ++ t) = some (headBytes lines).length := by
  obtain ⟨hfound, hlen⟩ := indexOf_crlf_headBytes h
  rw [headEnd_append hfound]
  congr 1
  omega

/-- **And is not taken for complete before.** -/
theorem parseHead_incomplete {lines : List Bytes} (h : Framed lines) {buffer rest : Bytes}
    (hbuffer : buffer ++ rest = headBytes lines) (hrest : rest ≠ []) (requestMode : Bool) :
    parseHead requestMode buffer = .incomplete := by
  obtain ⟨hfound, hlen⟩ := indexOf_crlf_headBytes h
  have hshort : buffer.length < (headBytes lines).length := by
    have hpos := List.length_pos_iff.2 hrest
    rw [← hbuffer, List.length_append]
    omega
  have hlf := indexOf_lf_headBytes h
  rw [← hbuffer] at hfound hlf hlen hshort
  have hend : headEnd buffer = none := headEnd_eq_none hfound hlf (by omega)
  unfold parseHead
  rw [hend]

theorem parseHead_framed {lines : List Bytes} (h : Framed lines) (requestMode : Bool) (t : Bytes) :
    parseHead requestMode (headBytes lines ++ t) = parseHead requestMode (headBytes lines) :=
  parseHead_append (indexOf_crlf_headBytes h).1 requestMode t

theorem consumed_framed {lines : List Bytes} (h : Framed lines) {requestMode : Bool} {head : HttpHead} {consumed : Nat}
    (hparse : parseHead requestMode (headBytes lines) = .parsed head consumed) : consumed = (headBytes lines).length := by
  have hend : headEnd (headBytes lines) = some (headBytes lines).length := by simpa using headEnd_framed h []
  unfold parseHead at hparse
  rw [hend] at hparse
  simp only at hparse
  split at hparse
  · cases hparse
  · cases hparse
  · split at hparse
    · cases hparse
    · split at hparse
      · cases hparse
      · cases hparse
        rfl

/-! ## A buffer of the stream -/

/-- **While the head arrives, the buffer holds no complete head.** -/
theorem parseHead_awaited {lines : List Bytes} (h : Framed lines) {buffer more tail : Bytes}
    (hstream : buffer ++ more = headBytes lines ++ tail) (hlen : buffer.length < (headBytes lines).length)
    (requestMode : Bool) : parseHead requestMode buffer = .incomplete := by
  obtain ⟨rest, hrest⟩ : ∃ rest, buffer ++ rest = headBytes lines :=
    List.prefix_of_prefix_length_le (hstream ▸ List.prefix_append buffer more) (List.prefix_append (headBytes lines) tail)
      (Nat.le_of_lt hlen)
  have hmore : rest ≠ [] := by
    rintro rfl
    rw [List.append_nil] at hrest
    rw [hrest] at hlen
    exact Nat.lt_irrefl _ hlen
  exact parseHead_incomplete h hrest hmore requestMode

/-- **Once it has arrived, the buffer is the head and what comes after it.** -/
theorem parseHead_arrived {lines : List Bytes} (h : Framed lines) {requestMode : Bool} {head : HttpHead} {consumed : Nat}
    (hparse : parseHead requestMode (headBytes lines) = .parsed head consumed) {buffer more tail : Bytes}
    (hstream : buffer ++ more = headBytes lines ++ tail) (hlen : (headBytes lines).length ≤ buffer.length) :
    parseHead requestMode buffer = .parsed head (headBytes lines).length ∧
      ∃ rest, headBytes lines ++ rest = buffer := by
  obtain ⟨rest, rfl⟩ := List.prefix_of_prefix_length_le (List.prefix_append (headBytes lines) tail)
    (hstream ▸ List.prefix_append buffer more) hlen
  refine ⟨?_, rest, rfl⟩
  rw [parseHead_framed h, hparse, consumed_framed h hparse]

/-! ## Reads -/

/-- What has arrived by the read that brings it to `n` bytes, and the reads to come. -/
def readUntil (n : Nat) : Bytes → List Bytes → Bytes × List Bytes
  | buffer, [] => (buffer, [])
  | buffer, chunk :: reads => if n ≤ buffer.length then (buffer, chunk :: reads) else readUntil n (buffer ++ chunk) reads

theorem readUntil_of_le {n : Nat} {buffer : Bytes} (h : n ≤ buffer.length) (reads : List Bytes) :
    readUntil n buffer reads = (buffer, reads) := by
  cases reads with
  | nil => rfl
  | cons chunk reads => rw [readUntil, if_pos h]

theorem readUntil_join (n : Nat) : ∀ (buffer : Bytes) (reads : List Bytes),
    (readUntil n buffer reads).1 ++ (readUntil n buffer reads).2.flatten = buffer ++ reads.flatten
  | buffer, [] => rfl
  | buffer, chunk :: reads => by
    by_cases hn : n ≤ buffer.length
    · rw [readUntil, if_pos hn]
    · rw [readUntil, if_neg hn, readUntil_join n (buffer ++ chunk) reads]
      simp

theorem readUntil_reads {P : Bytes → Prop} (n : Nat) : ∀ (buffer : Bytes) (reads : List Bytes), (∀ c ∈ reads, P c) →
    ∀ c ∈ (readUntil n buffer reads).2, P c
  | buffer, [], h => h
  | buffer, chunk :: reads, h => by
    by_cases hn : n ≤ buffer.length
    · rw [readUntil, if_pos hn]
      exact h
    · rw [readUntil, if_neg hn]
      exact readUntil_reads n _ _ (fun c hc => h c (List.mem_cons_of_mem chunk hc))

theorem le_readUntil (n : Nat) : ∀ (buffer : Bytes) (reads : List Bytes), n ≤ (buffer ++ reads.flatten).length →
    n ≤ (readUntil n buffer reads).1.length
  | buffer, [], h => by simpa [readUntil] using h
  | buffer, chunk :: reads, h => by
    by_cases hn : n ≤ buffer.length
    · rw [readUntil, if_pos hn]
      exact hn
    · rw [readUntil, if_neg hn]
      exact le_readUntil n _ _ (by simpa using h)

theorem readUntil_trans {n m : Nat} (hnm : n ≤ m) : ∀ (buffer : Bytes) (reads : List Bytes),
    readUntil m (readUntil n buffer reads).1 (readUntil n buffer reads).2 = readUntil m buffer reads
  | buffer, [] => rfl
  | buffer, chunk :: reads => by
    by_cases hn : n ≤ buffer.length
    · rw [readUntil_of_le hn]
    · have hm : ¬ m ≤ buffer.length := by omega
      have ih := readUntil_trans hnm (buffer ++ chunk) reads
      rw [readUntil, if_neg hn, ih]
      conv => rhs; rw [readUntil, if_neg hm]

theorem readUntil_append (a : Bytes) (n : Nat) : ∀ (buffer : Bytes) (reads : List Bytes),
    readUntil (a.length + n) (a ++ buffer) reads = (a ++ (readUntil n buffer reads).1, (readUntil n buffer reads).2)
  | buffer, [] => rfl
  | buffer, chunk :: reads => by
    have ih := readUntil_append a n (buffer ++ chunk) reads
    by_cases hn : n ≤ buffer.length
    · have hsum : a.length + n ≤ (a ++ buffer).length := by simpa using hn
      rw [readUntil_of_le hn, readUntil_of_le hsum]
    · have hsum : ¬ a.length + n ≤ (a ++ buffer).length := by simpa using hn
      rw [readUntil, if_neg hsum, readUntil, if_neg hn, List.append_assoc, ih]

/-- **Where reading to a mark stops**: at the first boundary between reads that is not before it. -/
theorem length_readUntil {n m : Nat} (hnm : n ≤ m) : ∀ (buffer : Bytes) (reads : List Bytes),
    (readUntil n buffer reads).1.length = m ↔
      ∃ k, buffer.length + (reads.take k).flatten.length = m ∧ ∀ j < k, buffer.length + (reads.take j).flatten.length < n
  | buffer, [] => by
    constructor
    · intro h
      exact ⟨0, by simpa [readUntil] using h, fun j hj => absurd hj (Nat.not_lt_zero j)⟩
    · rintro ⟨k, hk, -⟩
      simpa [readUntil] using hk
  | buffer, chunk :: reads => by
    by_cases hn : n ≤ buffer.length
    · rw [readUntil_of_le hn]
      constructor
      · intro h
        exact ⟨0, by simpa using h, fun j hj => absurd hj (Nat.not_lt_zero j)⟩
      · rintro ⟨k, hk, hbefore⟩
        cases k with
        | zero => simpa using hk
        | succ k =>
          have hzero := hbefore 0 (Nat.succ_pos k)
          simp at hzero
          omega
    · have ih := length_readUntil hnm (buffer ++ chunk) reads
      rw [readUntil, if_neg hn, ih]
      constructor
      · rintro ⟨k, hk, hbefore⟩
        refine ⟨k + 1, ?_, fun j hj => ?_⟩
        · simp only [List.take_succ_cons, List.flatten_cons, List.length_append] at hk ⊢
          omega
        · cases j with
          | zero =>
            simp
            omega
          | succ j =>
            have hj' := hbefore j (by omega)
            simp only [List.take_succ_cons, List.flatten_cons, List.length_append] at hj' ⊢
            omega
      · rintro ⟨k, hk, hbefore⟩
        cases k with
        | zero =>
          simp at hk
          omega
        | succ k =>
          refine ⟨k, ?_, fun j hj => ?_⟩
          · simp only [List.take_succ_cons, List.flatten_cons, List.length_append] at hk ⊢
            omega
          · have hj' := hbefore (j + 1) (by omega)
            simp only [List.take_succ_cons, List.flatten_cons, List.length_append] at hj' ⊢
            omega

/-- The whole stream, when the mark is its end. -/
theorem readUntil_all {stream : Bytes} {reads : List Bytes} (h : reads.flatten = stream) :
    (readUntil stream.length [] reads).1 = stream := by
  have hreach := le_readUntil stream.length [] reads (by simp [h])
  have hjoin := readUntil_join stream.length [] reads
  rw [List.nil_append, h] at hjoin
  exact List.IsPrefix.eq_of_length_le ⟨_, hjoin⟩ hreach

namespace HttpEndpoint

/-! ## The head and the body -/

/-- **The head is read at its end**, whatever the reads. -/
theorem readHead_stream {lines : List Bytes} (hlines : Framed lines) {head : HttpHead} {consumed : Nat}
    (hparse : parseHead true (headBytes lines) = .parsed head consumed) :
    ∀ (reads : List Bytes) (buffer tail : Bytes), (∀ c ∈ reads, c ≠ []) → buffer ++ reads.flatten = headBytes lines ++ tail →
      readHead buffer reads =
        .ok (head, (headBytes lines).length, readUntil (headBytes lines).length buffer reads)
  | reads, buffer, tail, hne, hstream => by
    by_cases hlen : (headBytes lines).length ≤ buffer.length
    · rw [readUntil_of_le hlen, readHead.eq_def, (parseHead_arrived hlines hparse hstream hlen).1]
    · have hincomplete := parseHead_awaited hlines hstream (Nat.lt_of_not_le hlen) true
      cases reads with
      | nil =>
        have hshort := congrArg List.length hstream
        simp at hshort
        omega
      | cons chunk reads =>
        have hchunk : chunk ≠ [] := hne chunk List.mem_cons_self
        obtain ⟨b, t, rfl⟩ := List.exists_cons_of_ne_nil hchunk
        have ih := readHead_stream hlines hparse reads (buffer ++ b :: t) tail
          (fun c hc => hne c (List.mem_cons_of_mem _ hc)) (by simpa using hstream)
        rw [readHead.eq_def, hincomplete, readUntil, if_neg hlen]
        exact ih

theorem readBody_stream (n : Nat) : ∀ (reads : List Bytes) (body : Bytes), (∀ c ∈ reads, c ≠ []) →
    n ≤ (body ++ reads.flatten).length → readBody n body reads = some (readUntil n body reads).1
  | reads, body, hne, hlen => by
    by_cases hn : n ≤ body.length
    · rw [readUntil_of_le hn, readBody.eq_def, if_pos hn]
    · cases reads with
      | nil =>
        simp at hlen
        omega
      | cons chunk reads =>
        have hchunk : chunk ≠ [] := hne chunk List.mem_cons_self
        obtain ⟨b, t, rfl⟩ := List.exists_cons_of_ne_nil hchunk
        have ih := readBody_stream n reads (body ++ b :: t)
          (fun c hc => hne c (List.mem_cons_of_mem _ hc)) (by simpa using hlen)
        rw [readBody.eq_def, if_neg hn, readUntil, if_neg hn]
        exact ih

/-- **What a connection hands on**: the head, and everything that has arrived when the body has its length. -/
theorem handleConnection_stream (o : HttpServerOptions) {lines : List Bytes} (hlines : Framed lines) {head : HttpHead}
    {consumed : Nat} (hparse : parseHead true (headBytes lines) = .parsed head consumed) {reads : List Bytes} {tail : Bytes}
    (hne : ∀ c ∈ reads, c ≠ []) (hstream : reads.flatten = headBytes lines ++ tail) (hlen : contentLength head ≤ tail.length) :
    handleConnection o reads =
      match refusal o head with
      | some outcome => outcome
      | none =>
        .handled head ((readUntil ((headBytes lines).length + contentLength head) [] reads).1.drop (headBytes lines).length) := by
  have hhead := readHead_stream hlines hparse reads [] tail hne (by simpa using hstream)
  unfold handleConnection
  rw [hhead]
  simp only
  cases refusal o head with
  | some outcome => rfl
  | none =>
    have hjoin := readUntil_join (headBytes lines).length [] reads
    have hreads := readUntil_reads (P := (· ≠ [])) (headBytes lines).length [] reads hne
    have htrans := readUntil_trans (Nat.le_add_right (headBytes lines).length (contentLength head)) [] reads
    have hreach := le_readUntil (headBytes lines).length [] reads (by simp [hstream])
    rw [List.nil_append, hstream] at hjoin
    obtain ⟨rest, hrest⟩ := List.prefix_of_prefix_length_le (List.prefix_append (headBytes lines) tail)
      (hjoin ▸ List.prefix_append _ _) hreach
    generalize readUntil (headBytes lines).length [] reads = cut at *
    rw [← hrest] at hjoin htrans ⊢
    rw [readUntil_append] at htrans
    have henough : contentLength head ≤ (rest ++ cut.2.flatten).length := by
      rw [List.append_assoc] at hjoin
      rw [List.append_cancel_left hjoin]
      exact hlen
    rw [← htrans, List.drop_left, List.drop_left, readBody_stream _ _ _ hreads henough]

theorem refusal_ne_handled {o : HttpServerOptions} {head : HttpHead} {outcome : Outcome} (h : refusal o head = some outcome)
    (head' : HttpHead) (body : Bytes) : outcome ≠ .handled head' body := by
  unfold refusal at h
  rintro rfl
  split at h
  · cases h
  · split at h
    · cases h
    · split at h
      · cases h
      · cases h

theorem contentLength_digits {head : HttpHead} (hne : head.header (bytes "content-length") ≠ [])
    (hdigits : ∀ b ∈ head.header (bytes "content-length"), isDigit b = true) :
    contentLength head = min ullongMax (digitsValue 0 (head.header (bytes "content-length"))) :=
  strtoull_digits hne hdigits

/-- **The handler gets exactly the body** when the request passes the endpoint's checks and a read ends with the body:
some beginning of the reads has the length of the head and the body, and no shorter one reaches the number of bytes that
`handle_connection` waits for. -/
theorem handleConnection_body_iff (o : HttpServerOptions) {lines : List Bytes} (hlines : Framed lines) {head : HttpHead}
    {consumed : Nat} (hparse : parseHead true (headBytes lines) = .parsed head consumed)
    (hne : head.header (bytes "content-length") ≠ [])
    (hdigits : ∀ b ∈ head.header (bytes "content-length"), isDigit b = true) {n : Nat}
    (hn : n = digitsValue 0 (head.header (bytes "content-length"))) {reads : List Bytes} {tail : Bytes}
    (hreads : ∀ c ∈ reads, c ≠ []) (hstream : reads.flatten = headBytes lines ++ tail) (hlen : n ≤ tail.length) :
    handleConnection o reads = .handled head (tail.take n) ↔
      refusal o head = none ∧ ∃ k, (reads.take k).flatten.length = (headBytes lines).length + n ∧
        ∀ j < k, (reads.take j).flatten.length < (headBytes lines).length + min ullongMax n := by
  have hlength : contentLength head = min ullongMax n := by rw [contentLength_digits hne hdigits, hn]
  have hmin : min ullongMax n ≤ n := Nat.min_le_right _ _
  rw [handleConnection_stream o hlines hparse hreads hstream (by omega), hlength]
  cases hrefusal : refusal o head with
  | some outcome =>
    have hsimple := refusal_ne_handled hrefusal head (tail.take n)
    simp [hsimple]
  | none =>
    have hreach := length_readUntil (n := (headBytes lines).length + min ullongMax n)
      (m := (headBytes lines).length + n) (by omega) [] reads
    have hmark := le_readUntil ((headBytes lines).length + min ullongMax n) [] reads
      (by simp [hstream]; omega)
    have hprefix : (readUntil ((headBytes lines).length + min ullongMax n) [] reads).1 <+: headBytes lines ++ tail := by
      rw [← hstream]
      exact ⟨_, by simpa using readUntil_join ((headBytes lines).length + min ullongMax n) [] reads⟩
    generalize (readUntil ((headBytes lines).length + min ullongMax n) [] reads).1 = arrived at *
    obtain ⟨body, rfl⟩ := List.prefix_of_prefix_length_le (List.prefix_append (headBytes lines) tail) hprefix (by omega)
    have hbody : body <+: tail := (List.prefix_append_right_inj _).1 hprefix
    simp only [List.length_nil, Nat.zero_add, List.length_append, Nat.add_left_cancel_iff] at hreach
    simp only [true_and, Outcome.handled.injEq, List.drop_left]
    rw [← hreach]
    constructor
    · intro h
      rw [h, List.length_take]
      omega
    · intro h
      rw [← h]
      exact List.prefix_iff_eq_take.1 hbody

def oneByteLines : List Bytes := [bytes "POST /mcp HTTP/1.1", bytes "Content-Length: 1"]

theorem framed_oneByteLines : Framed oneByteLines where
  nonempty := List.cons_ne_nil _ _
  line := by decide +kernel

theorem parseHead_oneByteLines :
    ∃ head, parseHead true (headBytes oneByteLines) = .parsed head (headBytes oneByteLines).length ∧
      head.header (bytes "content-length") = bytes "1" ∧ refusal {} head = none := by
  have hparsed : (match parseHead true (headBytes oneByteLines) with
      | .parsed head _ => head.header (bytes "content-length") == bytes "1" && (refusal {} head).isNone
      | _ => false) = true := by decide +kernel
  cases hp : parseHead true (headBytes oneByteLines) with
  | parsed head consumed =>
    rw [hp] at hparsed
    simp only [Bool.and_eq_true, beq_iff_eq, Option.isNone_iff_eq_none] at hparsed
    have hconsumed := consumed_framed framed_oneByteLines hp
    exact ⟨head, by rw [hconsumed], hparsed.1, hparsed.2⟩
  | incomplete =>
    rw [hp] at hparsed
    cases hparsed
  | malformed e =>
    rw [hp] at hparsed
    cases hparsed

/-- The byte after the body is handed on with it when one read brings both. -/
theorem bodyOverrun_handled :
    ∃ head, Framed oneByteLines ∧ parseHead true (headBytes oneByteLines) = .parsed head (headBytes oneByteLines).length ∧
      head.header (bytes "content-length") = bytes "1" ∧
      handleConnection {} [headBytes oneByteLines ++ bytes "ab"] = .handled head (bytes "ab") ∧
      bytes "ab" ≠ (bytes "ab").take 1 := by
  obtain ⟨head, hparse, hheader, hrefusal⟩ := parseHead_oneByteLines
  have hlength : contentLength head = 1 := by
    rw [contentLength, hheader]
    decide +kernel
  have hreads : ∀ c ∈ [headBytes oneByteLines ++ bytes "ab"], c ≠ [] := by decide +kernel
  have hjoined : [headBytes oneByteLines ++ bytes "ab"].flatten = headBytes oneByteLines ++ bytes "ab" := by simp
  have hstream := handleConnection_stream {} framed_oneByteLines hparse hreads hjoined (by rw [hlength]; decide)
  have harrived : (readUntil ((headBytes oneByteLines).length + 1) [] [headBytes oneByteLines ++ bytes "ab"]).1.drop
      (headBytes oneByteLines).length = bytes "ab" := by decide +kernel
  rw [hrefusal, hlength] at hstream
  simp only [harrived] at hstream
  exact ⟨head, framed_oneByteLines, hparse, hheader, hstream, by decide⟩

/-- A read that ends with the body keeps the byte after it out. -/
theorem handleConnection_body_iff_oneByte :
    ∃ head, parseHead true (headBytes oneByteLines) = .parsed head (headBytes oneByteLines).length ∧
      handleConnection {} [headBytes oneByteLines, bytes "a", bytes "b"] = .handled head (bytes "a") := by
  obtain ⟨head, hparse, hheader, hrefusal⟩ := parseHead_oneByteLines
  have hvalue : digitsValue 0 (head.header (bytes "content-length")) = 1 := by
    rw [hheader]
    decide +kernel
  have hreads : ∀ c ∈ [headBytes oneByteLines, bytes "a", bytes "b"], c ≠ [] := by decide +kernel
  have hjoined : [headBytes oneByteLines, bytes "a", bytes "b"].flatten = headBytes oneByteLines ++ bytes "ab" := by
    decide +kernel
  exact ⟨head, hparse, (handleConnection_body_iff {} framed_oneByteLines hparse (by rw [hheader]; decide)
    (by rw [hheader]; decide +kernel) hvalue.symm hreads hjoined (by decide)).2
    ⟨hrefusal, 2, by decide +kernel, by decide +kernel⟩⟩

end HttpEndpoint

end Mcp
