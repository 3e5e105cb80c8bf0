import McpSdk.HttpClient
import McpSdk.HttpStream
/-!
# Chunked — what `ChunkedDecoder` accepts

The decoder takes lines and data off the front of its buffer, so a call for each piece comes to one call for the whole
(`decodePieces_eq`).  It decodes the chunked bodies of the grammar and refuses everything else, as long as the sizes fit
(`decodes_iff_fits`): a size is added up modulo `2 ^ 64`, so a larger one is taken for another.
-/
namespace Mcp

/-! ## Lines -/

/-- **A line without `\r\n` ends at the one that follows it.** -/
theorem indexOf_crlf : ∀ {line : Bytes}, Search.indexOf crlf line = none → ∀ t, Search.indexOf crlf (line ++ crlf ++ t) = some line.length
  | [], _, t => by simp [crlf, Search.indexOf]
  | x :: line, h, t => by
    unfold Search.indexOf at h
    split at h
    · cases h
    · rename_i hprefix
      have ih := indexOf_crlf (Option.map_eq_none_iff.1 h) t
      -- a `\r` at the end of the line is followed by another one
      have hnot : ¬ crlf.isPrefixOf (x :: (line ++ crlf ++ t)) = true := by
        cases line with
        | nil => simp [crlf]
        | cons y line => simpa [crlf] using hprefix
      rw [List.cons_append, List.cons_append, Search.indexOf, if_neg hnot, ih]
      rfl

theorem Plain.indexOf_crlf {line : Bytes} (h : Plain line) : Search.indexOf crlf line = none := by
  have hskip := Search.indexOf_skip (p := [10]) h.2 []
  rw [List.append_nil] at hskip
  exact hskip

theorem take_line (line t : Bytes) : (line ++ crlf ++ t).take line.length = line := by simp

theorem drop_line (line t : Bytes) : (line ++ crlf ++ t).drop (line.length + 2) = t := by
  rw [show line.length + 2 = (line ++ crlf).length by simp [crlf]]
  exact List.drop_left

theorem length_lt_line (line t : Bytes) : t.length < (line ++ crlf ++ t).length := by
  simp [crlf]
  omega

/-- **The first line of a buffer.** -/
theorem exists_line {s : Bytes} {n : Nat} (h : Search.indexOf crlf s = some n) :
    ∃ line t, s = line ++ crlf ++ t ∧ Search.indexOf crlf line = none ∧ line.length = n :=
  Search.exists_split (List.cons_ne_nil _ _) h

/-! ## Steps of the decoder -/

/-- A size line that arrived whole. -/
theorem decodeChunks_size {line : Bytes} (h : Search.indexOf crlf line = none) {n : Nat} (hsize : chunkSize 0 false line = some n)
    (t out : Bytes) :
    decodeChunks .size (line ++ crlf ++ t) out = decodeChunks (if n = 0 then .trailers else .data n) t out := by
  rw [decodeChunks]
  split
  · rename_i hnone
    rw [indexOf_crlf h] at hnone
    cases hnone
  · rename_i nl hsome
    rw [indexOf_crlf h] at hsome
    cases hsome
    rw [take_line, drop_line, hsize]
    cases n with
    | zero => rfl
    | succ n => rfl

/-- And one that is none. -/
theorem decodeChunks_badSize {line : Bytes} (h : Search.indexOf crlf line = none) (hsize : chunkSize 0 false line = none)
    (t out : Bytes) : decodeChunks .size (line ++ crlf ++ t) out = (.error, .size, t, out) := by
  rw [decodeChunks]
  split
  · rename_i hnone
    rw [indexOf_crlf h] at hnone
    cases hnone
  · rename_i nl hsome
    rw [indexOf_crlf h] at hsome
    cases hsome
    rw [take_line, drop_line, hsize]

theorem decodeChunks_noSize {buffer : Bytes} (h : Search.indexOf crlf buffer = none) (out : Bytes) :
    decodeChunks .size buffer out = (.needMore, .size, buffer, out) := by
  rw [decodeChunks]
  split
  · rfl
  · rename_i nl hsome
    rw [h] at hsome
    cases hsome

/-- **Data is taken as it comes.** -/
theorem decodeChunks_take {n : Nat} {data : Bytes} (h : data.length ≤ n) (t out : Bytes) :
    decodeChunks (.data n) (data ++ t) out = decodeChunks (.data (n - data.length)) t (out ++ data) := by
  have hmin : min n (data ++ t).length = data.length + min (n - data.length) t.length := by
    rw [List.length_append]
    omega
  have hleft : n - (data.length + min (n - data.length) t.length) = n - data.length - min (n - data.length) t.length := by
    omega
  rw [decodeChunks.eq_2 _ _ n, decodeChunks.eq_2 _ _ (n - data.length)]
  simp only [hmin, hleft, List.take_length_add_append, List.drop_length_add_append, List.append_assoc]

theorem decodeChunks_taken (t out : Bytes) : decodeChunks (.data 0) t out = decodeChunks .dataCrlf t out := by
  rw [decodeChunks.eq_2]
  simp

theorem decodeChunks_noData (n : Nat) (out : Bytes) : decodeChunks (.data (n + 1)) [] out = (.needMore, .data (n + 1), [], out) := by
  rw [decodeChunks.eq_2]
  simp

/-- Without all its data a chunk waits for the others. -/
theorem decodeChunks_part {n : Nat} {t : Bytes} (h : t.length < n) (out : Bytes) :
    decodeChunks (.data n) t out = (.needMore, .data (n - t.length), [], out ++ t) := by
  have htake := decodeChunks_take (Nat.le_of_lt h) [] out
  have hleft : n - t.length = (n - t.length - 1) + 1 := by omega
  rw [List.append_nil] at htake
  rw [htake, hleft, decodeChunks_noData]

theorem decodeChunks_whole {n : Nat} {t : Bytes} (h : n ≤ t.length) (out : Bytes) :
    decodeChunks (.data n) t out = decodeChunks .dataCrlf (t.drop n) (out ++ t.take n) := by
  have hlen : (t.take n).length = n := List.length_take_of_le h
  have htake := decodeChunks_take hlen.le (t.drop n) out
  rwa [List.take_append_drop, hlen, Nat.sub_self, decodeChunks_taken] at htake

theorem decodeChunks_data {data : Bytes} (t out : Bytes) :
    decodeChunks (.data data.length) (data ++ crlf ++ t) out = decodeChunks .size t (out ++ data) := by
  rw [List.append_assoc, decodeChunks_take (Nat.le_refl _), Nat.sub_self, decodeChunks_taken, decodeChunks.eq_3]
  simp [crlf]

theorem decodeChunks_noTrailer {buffer : Bytes} (h : Search.indexOf crlf buffer = none) (out : Bytes) :
    decodeChunks .trailers buffer out = (.needMore, .trailers, buffer, out) := by
  rw [decodeChunks]
  split
  · rfl
  · rename_i nl hsome
    rw [h] at hsome
    cases hsome

theorem decodeChunks_trailer {line : Bytes} (h : Search.indexOf crlf line = none) (t out : Bytes) :
    decodeChunks .trailers (line ++ crlf ++ t) out =
      if line = [] then (.done, .trailers, t, out) else decodeChunks .trailers t out := by
  rw [decodeChunks]
  split
  · rename_i hnone
    rw [indexOf_crlf h] at hnone
    cases hnone
  · rename_i nl hsome
    rw [indexOf_crlf h] at hsome
    cases hsome
    rw [drop_line]
    simp only [List.length_eq_zero_iff]

/-! ## Pieces -/

/-- A call for each piece appended to the buffer, up to the first that is done or fails: the status, the output and what
is left, the pieces not appended included. -/
def decodePieces (state : ChunkState) (buffer out : Bytes) : List Bytes → ChunkStatus × Bytes × Bytes
  | [] => (.needMore, out, buffer)
  | piece :: pieces =>
    match decodeChunks state (buffer ++ piece) out with
    | (.needMore, state, buffer, out) => decodePieces state buffer out pieces
    | (status, _, rest, out) => (status, out, rest ++ pieces.flatten)

/-- The call on more of the stream: it goes on where the one before needed more, and is as done or failed as that one. -/
def Continues (t : Bytes) (whole : ChunkStatus × ChunkState × Bytes × Bytes) : ChunkStatus × ChunkState × Bytes × Bytes → Prop
  | (.needMore, state, buffer, out) => whole = decodeChunks state (buffer ++ t) out
  | (status, state, rest, out) => whole = (status, state, rest ++ t, out)

/-- **A later call goes on where the earlier one stopped.** -/
theorem decodeChunks_append (t : Bytes) (state : ChunkState) (buffer out : Bytes) :
    Continues t (decodeChunks state (buffer ++ t) out) (decodeChunks state buffer out) := by
  have hassoc : ∀ line rest : Bytes, line ++ crlf ++ rest ++ t = line ++ crlf ++ (rest ++ t) := fun line rest => by simp
  fun_induction decodeChunks state buffer out with
  | case1 buffer out hnone => rfl
  | case2 buffer out nl hsome hsize =>
    obtain ⟨line, rest, rfl, hline, rfl⟩ := exists_line hsome
    rw [take_line] at hsize
    rw [hassoc, decodeChunks_badSize hline hsize, drop_line]
    rfl
  | case3 buffer out nl hsome hsize ih =>
    obtain ⟨line, rest, rfl, hline, rfl⟩ := exists_line hsome
    rw [take_line] at hsize
    rw [drop_line] at ih
    rwa [hassoc, decodeChunks_size hline hsize, if_pos rfl, drop_line]
  | case4 buffer out nl hsome n hsize ih =>
    obtain ⟨line, rest, rfl, hline, rfl⟩ := exists_line hsome
    rw [take_line] at hsize
    rw [drop_line] at ih
    rwa [hassoc, decodeChunks_size hline hsize, if_neg (Nat.succ_ne_zero n), drop_line]
  | case5 buffer out remaining take hpart =>
    have htake : take = buffer.length := by omega
    have hle : buffer.length ≤ remaining := by omega
    rw [decodeChunks_take hle, htake, List.take_length, List.drop_length]
    rfl
  | case6 buffer out remaining take hwhole ih =>
    have htake : take = remaining := by omega
    have hle : remaining ≤ buffer.length := by omega
    have hlonger : remaining ≤ (buffer ++ t).length := by
      rw [List.length_append]
      omega
    rw [htake] at ih ⊢
    rwa [decodeChunks_whole hlonger, List.drop_append_of_le_length hle, List.take_append_of_le_length hle]
  | case7 buffer out hshort => rfl
  | case8 buffer out hlong hcrlf =>
    have htwo : 2 ≤ buffer.length := Nat.le_of_not_lt hlong
    rw [decodeChunks.eq_3, if_neg (by rw [List.length_append]; omega), List.take_append_of_le_length htwo, if_pos hcrlf]
    rfl
  | case9 buffer out hlong hcrlf ih =>
    have htwo : 2 ≤ buffer.length := Nat.le_of_not_lt hlong
    rw [decodeChunks.eq_3, if_neg (by rw [List.length_append]; omega), List.take_append_of_le_length htwo, if_neg hcrlf,
      List.drop_append_of_le_length htwo]
    exact ih
  | case10 buffer out hnone => rfl
  | case11 buffer out hsome =>
    obtain ⟨line, rest, rfl, hline, hnil⟩ := exists_line hsome
    obtain rfl := List.length_eq_zero_iff.1 hnil
    rw [hassoc, decodeChunks_trailer hline, if_pos rfl]
    rfl
  | case12 buffer out nl hsome hpos ih =>
    obtain ⟨line, rest, rfl, hline, rfl⟩ := exists_line hsome
    rw [drop_line] at ih
    rwa [hassoc, decodeChunks_trailer hline, if_neg (fun h => hpos (by rw [h]; rfl)), drop_line]

/-- What a caller sees of a call: the status, the output and what is left. -/
def seen (r : ChunkStatus × ChunkState × Bytes × Bytes) : ChunkStatus × Bytes × Bytes := (r.1, r.2.2.2, r.2.2.1)

theorem decodePieces_cons : ∀ (pieces : List Bytes) (state : ChunkState) (buffer out piece : Bytes),
    decodePieces state buffer out (piece :: pieces) =
      seen (decodeChunks state (buffer ++ (piece :: pieces).flatten) out) := by
  intro pieces
  induction pieces with
  | nil =>
    intro state buffer out piece
    rw [decodePieces, List.flatten_cons, List.flatten_nil, List.append_nil]
    obtain ⟨status, state, rest, out⟩ := decodeChunks state (buffer ++ piece) out
    cases status with
    | needMore => rfl
    | done => simp [seen]
    | error => simp [seen]
  | cons next pieces ih =>
    intro state buffer out piece
    have happend := decodeChunks_append (next :: pieces).flatten state (buffer ++ piece) out
    rw [List.append_assoc] at happend
    rw [decodePieces, show (piece :: next :: pieces).flatten = piece ++ (next :: pieces).flatten from rfl]
    generalize decodeChunks state (buffer ++ piece) out = part at happend ⊢
    obtain ⟨status, state, rest, out⟩ := part
    cases status with
    | needMore =>
      have hwhole : _ = decodeChunks state (rest ++ (next :: pieces).flatten) out := happend
      rw [hwhole]
      exact ih state rest out next
    | done =>
      have hwhole : _ = (ChunkStatus.done, state, rest ++ (next :: pieces).flatten, out) := happend
      rw [hwhole]
      rfl
    | error =>
      have hwhole : _ = (ChunkStatus.error, state, rest ++ (next :: pieces).flatten, out) := happend
      rw [hwhole]
      rfl

/-- **The pieces do not matter**: a fresh decoder gives for any of them, and any decoder for one or more, what it gives
for the whole. -/
theorem decodePieces_eq :
    (∀ pieces : List Bytes, decodePieces .size [] [] pieces = seen (decodeChunks .size pieces.flatten [])) ∧
      ∀ (state : ChunkState) (buffer out piece : Bytes) (pieces : List Bytes),
        decodePieces state buffer out (piece :: pieces) =
          seen (decodeChunks state (buffer ++ (piece :: pieces).flatten) out) := by
  refine ⟨fun pieces => ?_, fun state buffer out piece pieces => decodePieces_cons pieces state buffer out piece⟩
  cases pieces with
  | nil =>
    rw [List.flatten_nil, decodeChunks_noSize (by rfl)]
    rfl
  | cons piece pieces => rw [decodePieces_cons, List.nil_append]

/-! ## The grammar -/

/-- The value of hexadecimal digits. -/
def hexValue (digits : Bytes) : Nat := digits.foldl (fun n b => n * 16 + (hexDigit b).getD 0) 0

/-- `1*HEXDIG`, the digits of `n`, and an extension. -/
structure SizeLine (line : Bytes) (n : Nat) : Prop where
  plain : Search.indexOf crlf line = none
  digits : ∃ digits extension, line = digits ++ extension ∧ digits ≠ [] ∧ (∀ b ∈ digits, hexDigit b ≠ none) ∧
    (extension = [] ∨ extension.head? = some (ch ';')) ∧ hexValue digits = n

/-- Chunks with data, and what their data come to. -/
inductive Chunks : Bytes → Bytes → Prop
  | nil : Chunks [] []
  | cons {line data text payload : Bytes} (size : SizeLine line data.length) (nonempty : data ≠ []) (fits : data.length < 2 ^ 64)
      (chunks : Chunks text payload) : Chunks (line ++ crlf ++ (data ++ crlf ++ text)) (data ++ payload)

/-- **A chunked body**: chunks, a zero-size line, trailer lines and an empty line. -/
inductive Body : Bytes → Bytes → Prop
  | mk {text payload line : Bytes} {trailers : List Bytes} (chunks : Chunks text payload) (size : SizeLine line 0)
      (trailer : ∀ line ∈ trailers, line ≠ [] ∧ Search.indexOf crlf line = none) :
      Body (text ++ (line ++ crlf ++ headBytes trailers)) payload

/-- What must not be taken for chunks, after the chunks before it: a line that is no size line, a size that does not fit
`size_t`, data without a line end.  The data so far are those of the chunks. -/
inductive Refused : Bytes → Bytes → Prop
  | line {text payload line : Bytes} (chunks : Chunks text payload) (plain : Search.indexOf crlf line = none)
      (size : ∀ n, ¬ SizeLine line n) (t : Bytes) : Refused (text ++ (line ++ crlf ++ t)) payload
  | size {text payload line : Bytes} {n : Nat} (chunks : Chunks text payload) (size : SizeLine line n) (large : 2 ^ 64 ≤ n)
      (t : Bytes) : Refused (text ++ (line ++ crlf ++ t)) payload
  | data {text payload line data t : Bytes} (chunks : Chunks text payload) (size : SizeLine line data.length) (nonempty : data ≠ [])
      (fits : data.length < 2 ^ 64) (arrived : 2 ≤ t.length) (end_ : t.take 2 ≠ crlf) :
      Refused (text ++ (line ++ crlf ++ (data ++ t))) (payload ++ data)

/-- The decoder meets a size of `2 ^ 64` or more. -/
def Oversized (s : Bytes) : Prop :=
  ∃ text payload line n t, s = text ++ (line ++ crlf ++ t) ∧ Chunks text payload ∧ SizeLine line n ∧ 2 ^ 64 ≤ n

/-- What a fresh decoder owes the grammar. -/
structure Decodes (s : Bytes) : Prop where
  done : ∀ p r, seen (decodeChunks .size s []) = (.done, p, r) ↔ ∃ c, s = c ++ r ∧ Body c p
  refused : ∀ p, Refused s p → (decodeChunks .size s []).1 = .error ∧ (decodeChunks .size s []).2.2.2 = p

/-! ## Sizes -/

/-- **The size is the value modulo `2 ^ 64`.** -/
theorem chunkSize_digits {extension : Bytes} (hext : extension = [] ∨ extension.head? = some (ch ';')) :
    ∀ {digits : Bytes} {size n : Nat} {any : Bool}, (∀ b ∈ digits, hexDigit b ≠ none) → (any = true ∨ digits ≠ []) →
      size = n % 2 ^ 64 →
        chunkSize size any (digits ++ extension) =
          some (digits.foldl (fun n b => n * 16 + (hexDigit b).getD 0) n % 2 ^ 64)
  | [], size, n, any, _, hany, hsize => by
    have hany' : any = true := hany.resolve_right (fun h => h rfl)
    subst hany' hsize
    cases extension with
    | nil => rfl
    | cons b extension =>
      have hb : b = ch ';' := Option.some.inj (hext.resolve_left (List.cons_ne_nil b extension))
      rw [hb]
      simp [chunkSize]
  | b :: digits, size, n, any, hhex, _, hsize => by
    obtain ⟨digit, hdigit⟩ := Option.ne_none_iff_exists'.1 (hhex b List.mem_cons_self)
    have hsemi : b ≠ ch ';' := by
      rintro rfl
      exact hhex _ List.mem_cons_self (by decide)
    have hnext : (size * 16 + digit) % 2 ^ 64 = (n * 16 + (hexDigit b).getD 0) % 2 ^ 64 := by
      rw [hsize, hdigit, Option.getD_some]
      omega
    rw [List.cons_append, chunkSize, if_neg hsemi, hdigit]
    exact chunkSize_digits hext (fun x hx => hhex x (List.mem_cons_of_mem b hx)) (Or.inl rfl) hnext

/-- And of a size line only. -/
theorem digits_of_chunkSize : ∀ {line : Bytes} {size n m : Nat} {any : Bool}, chunkSize size any line = some m →
    size = n % 2 ^ 64 → ∃ digits extension, line = digits ++ extension ∧ (any = true ∨ digits ≠ []) ∧
      (∀ b ∈ digits, hexDigit b ≠ none) ∧ (extension = [] ∨ extension.head? = some (ch ';')) ∧
      m = digits.foldl (fun n b => n * 16 + (hexDigit b).getD 0) n % 2 ^ 64
  | [], size, n, m, any, h, hsize => by
    unfold chunkSize at h
    split at h
    · rename_i hany
      exact ⟨[], [], rfl, Or.inl hany, List.forall_mem_nil _, Or.inl rfl, by rw [← Option.some.inj h, hsize]; rfl⟩
    · cases h
  | b :: line, size, n, m, any, h, hsize => by
    rw [chunkSize] at h
    by_cases hsemi : b = ch ';'
    · rw [if_pos hsemi] at h
      split at h
      · rename_i hany
        exact ⟨[], b :: line, rfl, Or.inl hany, List.forall_mem_nil _, Or.inr (congrArg some hsemi),
          by rw [← Option.some.inj h, hsize]; rfl⟩
      · cases h
    · rw [if_neg hsemi] at h
      cases hdigit : hexDigit b with
      | none =>
        rw [hdigit] at h
        cases h
      | some digit =>
        rw [hdigit] at h
        have hnext : (size * 16 + digit) % 2 ^ 64 = (n * 16 + (hexDigit b).getD 0) % 2 ^ 64 := by
          rw [hsize, hdigit, Option.getD_some]
          omega
        obtain ⟨digits, extension, rfl, -, hhex, hext, hm⟩ := digits_of_chunkSize h hnext
        refine ⟨b :: digits, extension, rfl, Or.inr (List.cons_ne_nil b digits), ?_, hext, hm⟩
        intro x hx
        rcases List.mem_cons.1 hx with rfl | hx
        · rw [hdigit]
          exact Option.some_ne_none digit
        · exact hhex x hx

theorem SizeLine.chunkSize {line : Bytes} {n : Nat} (h : SizeLine line n) : chunkSize 0 false line = some (n % 2 ^ 64) := by
  obtain ⟨digits, extension, rfl, hne, hhex, hext, rfl⟩ := h.digits
  exact chunkSize_digits hext hhex (Or.inr hne) rfl

theorem exists_sizeLine {line : Bytes} (hplain : Search.indexOf crlf line = none) {m : Nat} (h : chunkSize 0 false line = some m) :
    ∃ n, SizeLine line n ∧ m = n % 2 ^ 64 := by
  obtain ⟨digits, extension, rfl, hne, hhex, hext, hm⟩ := digits_of_chunkSize h (n := 0) rfl
  exact ⟨hexValue digits, ⟨hplain, digits, extension, rfl, hne.resolve_left Bool.false_ne_true, hhex, hext, rfl⟩, hm⟩

theorem SizeLine.chunkSize_fits {line : Bytes} {n : Nat} (h : SizeLine line n) (hfits : n < 2 ^ 64) :
    Mcp.chunkSize 0 false line = some n := by
  rw [h.chunkSize, Nat.mod_eq_of_lt hfits]

/-! ## What the grammar gives -/

theorem Chunks.decode {text payload : Bytes} (h : Chunks text payload) (t : Bytes) :
    ∀ out, decodeChunks .size (text ++ t) out = decodeChunks .size t (out ++ payload) := by
  induction h with
  | nil => intro out; simp
  | cons size nonempty fits chunks ih =>
    rename_i line data text payload
    intro out
    have hpos : data.length ≠ 0 := fun h => nonempty (List.eq_nil_of_length_eq_zero h)
    have hassoc : line ++ crlf ++ (data ++ crlf ++ text) ++ t = line ++ crlf ++ (data ++ crlf ++ (text ++ t)) := by simp
    rw [hassoc, decodeChunks_size size.plain (size.chunkSize_fits fits), if_neg hpos, decodeChunks_data, ih,
      List.append_assoc]

theorem decodeChunks_trailers : ∀ {trailers : List Bytes}, (∀ line ∈ trailers, line ≠ [] ∧ Search.indexOf crlf line = none) →
    ∀ t out : Bytes, decodeChunks .trailers (headBytes trailers ++ t) out = (.done, .trailers, t, out)
  | [], _, t, out => by
    have hempty : Search.indexOf crlf ([] : Bytes) = none := by rfl
    exact decodeChunks_trailer hempty t out
  | line :: trailers, h, t, out => by
    obtain ⟨hne, hplain⟩ := h line List.mem_cons_self
    have hassoc : headBytes (line :: trailers) ++ t = line ++ crlf ++ (headBytes trailers ++ t) := by simp [headBytes]
    rw [hassoc, decodeChunks_trailer hplain, if_neg hne]
    exact decodeChunks_trailers (fun l hl => h l (List.mem_cons_of_mem line hl)) t out

/-- **A chunked body is decoded**, whatever follows it. -/
theorem Body.decode {c p : Bytes} (h : Body c p) (r : Bytes) : seen (decodeChunks .size (c ++ r) []) = (.done, p, r) := by
  obtain ⟨chunks, size, trailer⟩ := h
  rename_i text line trailers
  have hassoc : text ++ (line ++ crlf ++ headBytes trailers) ++ r = text ++ (line ++ crlf ++ (headBytes trailers ++ r)) := by
    simp
  rw [hassoc, chunks.decode, decodeChunks_size size.plain (size.chunkSize_fits (by decide)), if_pos rfl,
    decodeChunks_trailers trailer]
  rfl

/-- **What the grammar refuses is an error**, unless it is a size. -/
theorem Refused.decode {s p : Bytes} (h : Refused s p) (hfits : ¬ Oversized s) :
    (decodeChunks .size s []).1 = .error ∧ (decodeChunks .size s []).2.2.2 = p := by
  cases h with
  | line chunks plain size t =>
    rename_i line
    have hnone : chunkSize 0 false line = none := by
      refine Option.eq_none_iff_forall_ne_some.2 (fun m hm => ?_)
      obtain ⟨n, hn, -⟩ := exists_sizeLine plain hm
      exact size n hn
    rw [chunks.decode, decodeChunks_badSize plain hnone]
    exact ⟨rfl, rfl⟩
  | size chunks size large t => exact absurd ⟨_, _, _, _, t, rfl, chunks, size, large⟩ hfits
  | data chunks size nonempty fits arrived end_ =>
    rename_i payload line data t
    have hpos : data.length ≠ 0 := fun h => nonempty (List.eq_nil_of_length_eq_zero h)
    rw [chunks.decode, decodeChunks_size size.plain (size.chunkSize_fits fits), if_neg hpos, decodeChunks_take (Nat.le_refl _),
      Nat.sub_self, decodeChunks_taken, decodeChunks.eq_3, if_neg (Nat.not_lt.2 arrived), if_pos end_]
    exact ⟨rfl, rfl⟩

/-! ## What the decoder takes -/

theorem trailers_of_done {t r out p : Bytes} {state : ChunkState} (h : decodeChunks .trailers t out = (.done, state, r, p)) :
    p = out ∧ ∃ trailers, t = headBytes trailers ++ r ∧ ∀ line ∈ trailers, line ≠ [] ∧ Search.indexOf crlf line = none := by
  induction hlen : t.length using Nat.strong_induction_on generalizing t with
  | _ length ih =>
    cases hline : Search.indexOf crlf t with
    | none =>
      rw [decodeChunks_noTrailer hline] at h
      cases h
    | some n =>
      obtain ⟨line, t, rfl, hplain, -⟩ := exists_line hline
      rw [decodeChunks_trailer hplain] at h
      by_cases hnil : line = []
      · rw [if_pos hnil] at h
        cases h
        exact ⟨rfl, [], by rw [hnil]; rfl, List.forall_mem_nil _⟩
      · rw [if_neg hnil] at h
        have hshorter : t.length < length := hlen ▸ length_lt_line line t
        obtain ⟨hp, trailers, rfl, htrailers⟩ := ih t.length hshorter h rfl
        refine ⟨hp, line :: trailers, by simp [headBytes], ?_⟩
        intro l hl
        rcases List.mem_cons.1 hl with rfl | hl
        · exact ⟨hnil, hplain⟩
        · exact htrailers l hl

/-- The data of a chunk, from a decoder that got past them. -/
theorem data_of_done {n : Nat} {t r out p : Bytes} {state : ChunkState}
    (h : decodeChunks (.data n) t out = (.done, state, r, p)) :
    ∃ data t', t = data ++ crlf ++ t' ∧ data.length = n ∧ decodeChunks .size t' (out ++ data) = (.done, state, r, p) := by
  by_cases hshort : t.length < n
  · rw [decodeChunks_part hshort] at h
    cases h
  · have hle : n ≤ t.length := Nat.le_of_not_lt hshort
    rw [decodeChunks_whole hle, decodeChunks.eq_3] at h
    split at h
    · cases h
    · split at h
      · cases h
      · rename_i hcrlf
        refine ⟨t.take n, (t.drop n).drop 2, ?_, List.length_take_of_le hle, h⟩
        rw [← not_not.1 hcrlf, List.append_assoc, List.take_append_drop, List.take_append_drop]

theorem Oversized.chunk {line data t : Bytes} (size : SizeLine line data.length) (nonempty : data ≠ [])
    (fits : data.length < 2 ^ 64) (h : Oversized t) : Oversized (line ++ crlf ++ (data ++ crlf ++ t)) := by
  obtain ⟨text, payload, large, n, rest, rfl, chunks, hsize, hlarge⟩ := h
  exact ⟨_, _, large, n, rest, by simp, chunks.cons size nonempty fits, hsize, hlarge⟩

/-- **What is decoded is a chunked body**, unless a size does not fit. -/
theorem body_of_done {s r out p : Bytes} {state : ChunkState} (h : decodeChunks .size s out = (.done, state, r, p))
    (hfits : ¬ Oversized s) : ∃ c payload, s = c ++ r ∧ Body c payload ∧ p = out ++ payload := by
  induction hlen : s.length using Nat.strong_induction_on generalizing s out with
  | _ length ih =>
    cases hline : Search.indexOf crlf s with
    | none =>
      rw [decodeChunks_noSize hline] at h
      cases h
    | some i =>
      obtain ⟨line, t, rfl, hplain, -⟩ := exists_line hline
      cases hsize : chunkSize 0 false line with
      | none =>
        rw [decodeChunks_badSize hplain hsize] at h
        cases h
      | some m =>
        obtain ⟨n, hn, rfl⟩ := exists_sizeLine hplain hsize
        have hsmall : n < 2 ^ 64 :=
          Nat.lt_of_not_le (fun hlarge => hfits ⟨[], [], line, n, t, rfl, Chunks.nil, hn, hlarge⟩)
        rw [Nat.mod_eq_of_lt hsmall] at hsize
        rw [decodeChunks_size hplain hsize] at h
        by_cases hzero : n = 0
        · rw [if_pos hzero] at h
          obtain ⟨rfl, trailers, rfl, htrailers⟩ := trailers_of_done h
          exact ⟨_, [], by simp, Body.mk Chunks.nil (hzero ▸ hn) htrailers, by simp⟩
        · rw [if_neg hzero] at h
          obtain ⟨data, t, rfl, rfl, hrest⟩ := data_of_done h
          have hne : data ≠ [] := fun hnil => hzero (by rw [hnil]; rfl)
          have hshorter : t.length < length := hlen ▸ (length_lt_line data t).trans (length_lt_line line _)
          obtain ⟨c, payload, rfl, hbody, rfl⟩ := ih t.length hshorter hrest (fun ho => hfits (ho.chunk hn hne hsmall)) rfl
          obtain ⟨chunks, size, trailer⟩ := hbody
          exact ⟨_, data ++ payload, by simp, Body.mk (chunks.cons hn hne hsmall) size trailer, by simp⟩

/-! ## Sizes that do not fit -/

/-- The output only grows. -/
theorem prefix_decodeChunks (state : ChunkState) (buffer out : Bytes) : out <+: (decodeChunks state buffer out).2.2.2 := by
  fun_induction decodeChunks state buffer out with
  | case1 => exact List.prefix_refl _
  | case2 => exact List.prefix_refl _
  | case3 _ _ _ _ _ ih => exact ih
  | case4 _ _ _ _ _ _ ih => exact ih
  | case5 => exact List.prefix_append _ _
  | case6 _ _ _ _ _ ih => exact (List.prefix_append _ _).trans ih
  | case7 => exact List.prefix_refl _
  | case8 => exact List.prefix_refl _
  | case9 _ _ _ _ ih => exact ih
  | case10 => exact List.prefix_refl _
  | case11 => exact List.prefix_refl _
  | case12 _ _ _ _ _ ih => exact ih

theorem trailers_ne_error (t out : Bytes) : (decodeChunks .trailers t out).1 ≠ .error := by
  induction hlen : t.length using Nat.strong_induction_on generalizing t with
  | _ length ih =>
    cases hline : Search.indexOf crlf t with
    | none =>
      rw [decodeChunks_noTrailer hline]
      exact ChunkStatus.noConfusion
    | some n =>
      obtain ⟨line, t, rfl, hplain, -⟩ := exists_line hline
      rw [decodeChunks_trailer hplain]
      by_cases hnil : line = []
      · rw [if_pos hnil]
        exact ChunkStatus.noConfusion
      · rw [if_neg hnil]
        have hshorter : t.length < length := hlen ▸ length_lt_line line t
        exact ih t.length hshorter t rfl

/-- **Data that were taken for a size that wrapped are there to stay.** -/
theorem data_ne_error {n : Nat} (hpos : n ≠ 0) (t out : Bytes) :
    ¬ ((decodeChunks (.data n) t out).1 = .error ∧ (decodeChunks (.data n) t out).2.2.2 = out) := by
  rintro ⟨herror, hout⟩
  by_cases hshort : t.length < n
  · rw [decodeChunks_part hshort] at herror
    cases herror
  · have hle : n ≤ t.length := Nat.le_of_not_lt hshort
    rw [decodeChunks_whole hle] at hout
    have hgrown := (prefix_decodeChunks .dataCrlf (t.drop n) (out ++ t.take n)).length_le
    rw [hout, List.length_append, List.length_take_of_le hle] at hgrown
    omega

/-- **The decoder keeps to the grammar exactly when no size it meets reaches `2 ^ 64`.** -/
theorem decodes_iff (s : Bytes) : Decodes s ↔ ¬ Oversized s := by
  constructor
  · rintro hdecodes ⟨text, payload, line, n, t, rfl, chunks, size, hlarge⟩
    have herror := hdecodes.refused payload (Refused.size chunks size hlarge t)
    rw [chunks.decode, decodeChunks_size size.plain size.chunkSize] at herror
    by_cases hzero : n % 2 ^ 64 = 0
    · rw [if_pos hzero] at herror
      exact trailers_ne_error t _ herror.1
    · rw [if_neg hzero] at herror
      exact data_ne_error hzero t _ herror
  · intro hfits
    refine ⟨fun p r => ⟨fun h => ?_, ?_⟩, fun p hrefused => hrefused.decode hfits⟩
    · cases hresult : decodeChunks .size s [] with
      | mk status rest =>
        obtain ⟨state, rest, out⟩ := rest
        rw [hresult] at h
        cases h
        obtain ⟨c, payload, rfl, hbody, rfl⟩ := body_of_done hresult hfits
        exact ⟨c, rfl, hbody⟩
    · rintro ⟨c, rfl, hbody⟩
      exact hbody.decode r

/-- A size of `2 ^ 64 + 1`, and data of one byte. -/
def wrapped : Bytes := bytes "10000000000000001\r\nx\r\n0\r\n\r\n"

theorem sizeLine_wrapped : SizeLine (bytes "10000000000000001") (2 ^ 64 + 1) := by
  have hdigits : (bytes "10000000000000001").all (fun b => (hexDigit b).isSome) = true := by decide
  refine ⟨by decide, bytes "10000000000000001", [], by decide, by decide, fun b hb => ?_, Or.inl rfl, by decide⟩
  exact Option.isSome_iff_ne_none.1 (List.all_eq_true.1 hdigits b hb)

/-- **A size of `2 ^ 64 + 1` is taken for 1**, and the body is accepted. -/
theorem wrapped_accepted :
    seen (decodeChunks .size wrapped []) = (.done, bytes "x", []) ∧ Oversized wrapped ∧ ¬ Decodes wrapped := by
  have hlines : wrapped = bytes "10000000000000001" ++ crlf ++ (bytes "x" ++ crlf ++ (bytes "0" ++ crlf ++ headBytes [])) := by
    decide
  have hseen : seen (decodeChunks .size wrapped []) = (.done, bytes "x", []) := by
    have htrailers := decodeChunks_trailers (List.forall_mem_nil _) [] (bytes "x")
    rw [List.append_nil] at htrailers
    rw [hlines, decodeChunks_size (n := 1) sizeLine_wrapped.plain (by decide), if_neg Nat.one_ne_zero]
    show seen (decodeChunks (.data (bytes "x").length) _ _) = _
    rw [decodeChunks_data, decodeChunks_size (n := 0) (by decide) (by decide), if_pos rfl]
    exact congrArg seen htrailers
  have hlarge : 2 ^ 64 ≤ 2 ^ 64 + 1 := Nat.le_succ _
  refine ⟨hseen, ⟨[], [], _, _, _, hlines, Chunks.nil, sizeLine_wrapped, hlarge⟩, fun hdecodes => ?_⟩
  have hrefused : Refused wrapped [] := hlines ▸ Refused.size Chunks.nil sizeLine_wrapped hlarge _
  have herror := (hdecodes.refused [] hrefused).1
  have hdone : (decodeChunks .size wrapped []).1 = .done := congrArg Prod.fst hseen
  rw [hdone] at herror
  cases herror

end Mcp
