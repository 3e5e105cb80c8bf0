import McpSdk.UriTemplate
import Mathlib.Data.List.Chain
/-!
# UriMatch — what a URI template matches

`match_uri_template` goes through the template once and gives each expression the shortest value that can stand there: what
lies before the first occurrence of the next literal.  `matchUriTemplate_iff` says which URIs that accepts, and with which
values.  The source works on positions in two strings; `matchAt` keeps them, with every read that `std::string` checks.
-/
namespace Mcp
namespace UriTemplate

/-! ## Positions -/

/-- `s.substr(pos, n)`; `none`: `std::out_of_range` is thrown. -/
def substr (s : Bytes) (pos n : Nat) : Option Bytes := if pos ≤ s.length then some ((s.drop pos).take n) else none

/-- `s.compare(pos, n, text) == 0`; `none`: `std::out_of_range` is thrown. -/
def compare (s : Bytes) (pos n : Nat) (text : Bytes) : Option Bool := (substr s pos n).map (· == text)

/-- `s.find(text, pos)`; `none` is `npos`. -/
def find (s text : Bytes) (pos : Nat) : Option Nat :=
  if pos ≤ s.length then (Search.indexOf text (s.drop pos)).map (pos + ·) else none

theorem le_find {s text : Bytes} {pos i : Nat} (h : find s text pos = some i) : pos ≤ i := by
  unfold find at h
  split at h
  · obtain ⟨j, -, rfl⟩ := Option.map_eq_some_iff.1 h
    exact Nat.le_add_right pos j
  · cases h

/-- `tokenize` from position `i`; the outer `none`: `std::out_of_range` is thrown. -/
def tokenizeAt (uriTemplate : Bytes) (i : Nat) (segments : List Segment) (current : Bytes) : Option (Option (List Segment)) :=
  if hi : i < uriTemplate.length then
    if uriTemplate[i] = 0x7B then
      match hclose : find uriTemplate [0x7D] i with
      | none => some none
      | some close =>
        if close = i + 1 then some none
        else
          (substr uriTemplate (i + 1) (close - i - 1)).bind fun name =>
            tokenizeAt uriTemplate (close + 1) (segments ++ literal current ++ [{ text := name, isVariable := true }]) []
    else tokenizeAt uriTemplate (i + 1) segments (current ++ [uriTemplate[i]])
  else some (some (segments ++ literal current))
termination_by uriTemplate.length - i
decreasing_by
  · have := le_find hclose
    omega
  · omega

/-- Where the value of a variable at `pos` ends; `none`: no match. -/
def valueEndAt (uri : Bytes) (pos : Nat) : List Segment → Option Nat
  | [] => some uri.length
  | next :: _ => if next.isVariable then none else find uri next.text pos

/-- The loop over the segments from position `pos`. -/
def matchAt (uri : Bytes) : List Segment → Nat → Dict Bytes Bytes → Option (Option (Dict Bytes Bytes))
  | [], pos, vars => some (if pos = uri.length then some vars else none)
  | segment :: segments, pos, vars =>
    if segment.isVariable then
      match valueEndAt uri pos segments with
      | none => some none
      | some stop =>
        if stop = pos then some none
        else (substr uri pos (stop - pos)).bind fun value => matchAt uri segments stop (vars.insert segment.text value)
    else
      (compare uri pos segment.text.length segment.text).bind fun same =>
        if same then matchAt uri segments (pos + segment.text.length) vars else some none

/-- `match_uri_template` on positions. -/
def matchTemplateAt (uriTemplate uri : Bytes) : Option (Option (Dict Bytes Bytes)) :=
  (tokenizeAt uriTemplate 0 [] []).bind fun
    | none => some none
    | some segments => matchAt uri segments 0 ∅

/-! ## Every read is inside -/

theorem substr_of_le {s : Bytes} {pos : Nat} (h : pos ≤ s.length) (n : Nat) : substr s pos n = some ((s.drop pos).take n) :=
  if_pos h

/-- The scan of an expression ends at the first closing brace. -/
theorem tokenizeFrom_inside : ∀ (rest current : Bytes), tokenizeFrom true current rest =
    match Search.indexOf [0x7D] rest with
    | none => none
    | some k =>
      if current ++ rest.take k = [] then none
      else (tokenizeFrom false [] (rest.drop (k + 1))).map ({ text := current ++ rest.take k, isVariable := true } :: ·)
  | [], current => rfl
  | c :: rest, current => by
    by_cases hc : c = 0x7D
    · subst hc
      have hfound : Search.indexOf [(0x7D : UInt8)] (0x7D :: rest) = some 0 := by simp [Search.indexOf]
      rw [hfound, tokenizeFrom]
      simp
    · rw [tokenizeFrom, if_pos rfl, if_neg hc, tokenizeFrom_inside rest (current ++ [c]), Search.indexOf_cons_of_ne hc]
      cases Search.indexOf [0x7D] rest with
      | none => rfl
      | some k => simp

/-- The closing brace of the expression opened at `i`. -/
theorem find_brace {s : Bytes} {i : Nat} (hi : i < s.length) (hopen : s[i] = 0x7B) :
    find s [0x7D] i = (Search.indexOf [0x7D] (s.drop (i + 1))).map (i + 1 + ·) := by
  have hne : (0x7B : UInt8) ≠ 0x7D := by decide
  rw [find, if_pos (Nat.le_of_lt hi), List.drop_eq_getElem_cons hi, hopen, Search.indexOf_cons_of_ne hne, Option.map_map]
  congr 1
  funext k
  simp only [Function.comp_apply]
  omega

theorem tokenizeAt_eq (uriTemplate : Bytes) : ∀ (i : Nat) (segments : List Segment) (current : Bytes),
    tokenizeAt uriTemplate i segments current =
      some ((tokenizeFrom false current (uriTemplate.drop i)).map (segments ++ ·)) := by
  intro i segments current
  fun_induction tokenizeAt uriTemplate i segments current with
  | case1 i segments current hi hopen hclose =>
    rw [find_brace hi hopen, Option.map_eq_none_iff] at hclose
    rw [List.drop_eq_getElem_cons hi, hopen, tokenizeFrom, if_neg Bool.false_ne_true, if_pos rfl, tokenizeFrom_inside, hclose]
    rfl
  | case2 i segments current hi hopen hclose =>
    rw [find_brace hi hopen] at hclose
    obtain ⟨k, hk, hki⟩ := Option.map_eq_some_iff.1 hclose
    obtain rfl : k = 0 := by omega
    rw [List.drop_eq_getElem_cons hi, hopen, tokenizeFrom, if_neg Bool.false_ne_true, if_pos rfl, tokenizeFrom_inside, hk]
    rfl
  | case3 i segments current hi hopen close hclose hne ih =>
    rw [find_brace hi hopen] at hclose
    obtain ⟨k, hk, rfl⟩ := Option.map_eq_some_iff.1 hclose
    have hin := Search.indexOf_le hk
    have hlen : i + 1 ≤ uriTemplate.length := hi
    have hname : i + 1 + k - i - 1 = k := by omega
    have hrest : i + 1 + (k + 1) = i + 1 + k + 1 := by omega
    have hnonempty : [] ++ (uriTemplate.drop (i + 1)).take k ≠ [] := by
      rw [List.nil_append, ← List.length_pos_iff, List.length_take]
      simp only [List.length_singleton] at hin
      omega
    rw [substr_of_le hlen, hname, Option.bind_some, ih, List.drop_eq_getElem_cons hi, hopen, tokenizeFrom,
      if_neg Bool.false_ne_true, if_pos rfl, tokenizeFrom_inside, hk]
    simp only [if_neg hnonempty, List.drop_drop, hrest, Option.map_map]
    congr 2
    funext rest
    simp
  | case4 i segments current hi hopen ih =>
    rw [ih, List.drop_eq_getElem_cons hi, tokenizeFrom, if_neg Bool.false_ne_true, if_neg hopen]
  | case5 i segments current hi =>
    rw [List.drop_eq_nil_of_le (Nat.le_of_not_lt hi)]
    rfl

/-- The end of a value as a position and as a length. -/
theorem valueEndAt_eq {uri : Bytes} {pos : Nat} (hpos : pos ≤ uri.length) (segments : List Segment) :
    valueEndAt uri pos segments = (valueEnd (uri.drop pos) segments).map (pos + ·) := by
  cases segments with
  | nil =>
    simp only [valueEndAt, valueEnd, Option.map_some, List.length_drop]
    congr 1
    omega
  | cons next segments =>
    simp only [valueEndAt, valueEnd]
    by_cases hnext : next.isVariable = true
    · rw [if_pos hnext, if_pos hnext]
      rfl
    · rw [if_neg hnext, if_neg hnext, find, if_pos hpos]

theorem valueEnd_le {rest : Bytes} {segments : List Segment} {n : Nat} (h : valueEnd rest segments = some n) :
    n ≤ rest.length := by
  cases segments with
  | nil => exact Nat.le_of_eq (Option.some.inj h).symm
  | cons next segments =>
    simp only [valueEnd] at h
    split at h
    · cases h
    · exact Nat.le_trans (Nat.le_add_right _ _) (Search.indexOf_le h)

/-- A literal is there when the bytes at its place are its own. -/
theorem startsWith_eq_take (rest text : Bytes) : startsWith rest text = (rest.take text.length == text) := by
  rw [Bool.eq_iff_iff, startsWith, List.isPrefixOf_iff_prefix, beq_iff_eq, List.prefix_iff_eq_take, eq_comm]

/-- **The loop reads inside the URI**, from any position inside it. -/
theorem matchAt_eq (uri : Bytes) : ∀ (segments : List Segment) (pos : Nat) (vars : Dict Bytes Bytes), pos ≤ uri.length →
    matchAt uri segments pos vars = some (matchSegments segments (uri.drop pos) vars)
  | [], pos, vars, hpos => by
    have hend : (pos = uri.length) = (uri.drop pos = []) := by
      rw [List.drop_eq_nil_iff]
      exact propext ⟨fun h => Nat.le_of_eq h.symm, fun h => Nat.le_antisymm hpos h⟩
    unfold matchAt matchSegments
    simp only [hend]
  | segment :: segments, pos, vars, hpos => by
    unfold matchAt matchSegments
    by_cases hvariable : segment.isVariable = true
    · rw [if_pos hvariable, if_pos hvariable, valueEndAt_eq hpos]
      cases hend : valueEnd (uri.drop pos) segments with
      | none => rfl
      | some n =>
        have hn := valueEnd_le hend
        cases n with
        | zero => simp
        | succ n =>
          have hne : pos + (n + 1) ≠ pos := by omega
          have hlen : pos + (n + 1) - pos = n + 1 := by omega
          rw [List.length_drop] at hn
          have hin : pos + (n + 1) ≤ uri.length := by omega
          simp only [Option.map_some]
          rw [if_neg hne, substr_of_le hpos, Option.bind_some, hlen, matchAt_eq uri segments _ _ hin, List.drop_drop]
    · rw [if_neg hvariable, if_neg hvariable, compare, substr_of_le hpos, Option.map_some, Option.bind_some,
        startsWith_eq_take]
      by_cases hsame : ((uri.drop pos).take segment.text.length == segment.text) = true
      · have hlen := congrArg List.length (eq_of_beq hsame)
        rw [List.length_take, List.length_drop] at hlen
        have hin : pos + segment.text.length ≤ uri.length := by omega
        rw [if_pos hsame, if_pos hsame, matchAt_eq uri segments _ _ hin, List.drop_drop]
      · rw [if_neg hsame, if_neg hsame]

/-- **No read is outside either string**, and the result is that on the rests of the texts. -/
theorem matchTemplateAt_eq (uriTemplate uri : Bytes) : matchTemplateAt uriTemplate uri = some (matchUriTemplate uriTemplate uri) := by
  unfold matchTemplateAt matchUriTemplate tokenize
  rw [tokenizeAt_eq, List.drop_zero, Option.bind_some]
  cases tokenizeFrom false [] uriTemplate with
  | none => rfl
  | some segments => exact matchAt_eq uri segments 0 ∅ (Nat.zero_le _)

/-! ## Well-formed templates -/

/-- The template the segments make up. -/
def templateText (segments : List Segment) : Bytes :=
  segments.flatMap fun segment => if segment.isVariable then 0x7B :: (segment.text ++ [0x7D]) else segment.text

/-- **A well-formed template**: literals without an opening brace and expressions with a name, in turn. -/
structure WellFormed (segments : List Segment) : Prop where
  nonempty : ∀ segment ∈ segments, segment.text ≠ []
  literals : ∀ segment ∈ segments, segment.isVariable = false → 0x7B ∉ segment.text
  names : ∀ segment ∈ segments, segment.isVariable = true → 0x7D ∉ segment.text
  inTurn : segments.IsChain (fun a b => a.isVariable ≠ b.isVariable)

theorem WellFormed.tail {segment : Segment} {segments : List Segment} (h : WellFormed (segment :: segments)) : WellFormed segments where
  nonempty := fun s hs => h.nonempty s (List.mem_cons_of_mem _ hs)
  literals := fun s hs => h.literals s (List.mem_cons_of_mem _ hs)
  names := fun s hs => h.names s (List.mem_cons_of_mem _ hs)
  inTurn := h.inTurn.tail

theorem tokenizeFrom_literal : ∀ (text rest current : Bytes), 0x7B ∉ text →
    tokenizeFrom false current (text ++ rest) = tokenizeFrom false (current ++ text) rest
  | [], rest, current, _ => by rw [List.nil_append, List.append_nil]
  | c :: text, rest, current, h => by
    have hc : c ≠ 0x7B := fun heq => h (heq ▸ List.mem_cons_self)
    rw [List.cons_append, tokenizeFrom, if_neg Bool.false_ne_true, if_neg hc,
      tokenizeFrom_literal text rest _ (fun hmem => h (List.mem_cons_of_mem c hmem)), List.append_assoc]
    rfl

theorem tokenizeFrom_expression {name rest current : Bytes} (hne : name ≠ []) (h : 0x7D ∉ name) :
    tokenizeFrom false current (0x7B :: (name ++ 0x7D :: rest)) =
      (tokenizeFrom false [] rest).map (fun segments => literal current ++ { text := name, isVariable := true } :: segments) := by
  have hclose : Search.indexOf [0x7D] (name ++ 0x7D :: rest) = some name.length := Search.indexOf_singleton h rest
  rw [tokenizeFrom, if_neg Bool.false_ne_true, if_pos rfl, tokenizeFrom_inside, hclose]
  simp [hne, Option.map_map, Function.comp_def]

/-- **A well-formed template is read back as its segments.** -/
theorem tokenize_text : ∀ {segments : List Segment}, WellFormed segments → ∀ {current : Bytes},
    (∀ segment ∈ segments.head?, segment.isVariable = false → current = []) →
      tokenizeFrom false current (templateText segments) = some (literal current ++ segments)
  | [], _, current, _ => by
    rw [List.append_nil]
    rfl
  | segment :: segments, h, current, hcurrent => by
    have htext : segment.text ≠ [] := h.nonempty segment List.mem_cons_self
    cases hvariable : segment.isVariable with
    | true =>
      have hsegment : segment = { text := segment.text, isVariable := true } := by rw [← hvariable]
      have hsplit : templateText (segment :: segments) = 0x7B :: (segment.text ++ 0x7D :: templateText segments) := by
        simp [templateText, hvariable]
      rw [hsplit, tokenizeFrom_expression htext (h.names segment List.mem_cons_self hvariable),
        tokenize_text h.tail (fun _ _ _ => rfl), ← hsegment]
      rfl
    | false =>
      obtain rfl : current = [] := hcurrent segment rfl hvariable
      have hsegment : literal segment.text = [segment] := by
        rw [literal, if_neg htext, ← hvariable]
      have hsplit : templateText (segment :: segments) = segment.text ++ templateText segments := by
        simp [templateText, hvariable]
      rw [hsplit, tokenizeFrom_literal _ _ _ (h.literals segment List.mem_cons_self hvariable), List.nil_append,
        tokenize_text h.tail, hsegment]
      · rfl
      · intro next hnext hliteral
        have hturn := h.inTurn.rel_head? hnext
        rw [hvariable, hliteral] at hturn
        exact absurd rfl hturn

/-! ## What is matched -/

/-- The names of the expressions, from left to right. -/
def names (segments : List Segment) : List Bytes := (segments.filter Segment.isVariable).map Segment.text

/-- The template with its expressions replaced, from left to right. -/
def fill : List Segment → List Bytes → Bytes
  | [], _ => []
  | segment :: segments, values =>
    if segment.isVariable then values.headD [] ++ fill segments values.tail else segment.text ++ fill segments values

/-- The next literal occurs in the value and itself only at the end: nothing shorter could have stood there. -/
def Shortest (value : Bytes) (next : Option Segment) : Prop :=
  ∀ segment ∈ next, Search.indexOf segment.text (value ++ segment.text) = some value.length

/-- **The values that are found**: one for each expression, not empty and as short as the next literal allows. -/
def Fits : List Segment → List Bytes → Prop
  | [], values => values = []
  | segment :: segments, values =>
    if segment.isVariable then
      ∃ value rest, values = value :: rest ∧ value ≠ [] ∧ Shortest value segments.head? ∧ Fits segments rest
    else Fits segments values

/-- The values under the names; of two under one name the last stays. -/
def bind (vars : Dict Bytes Bytes) (segments : List Segment) (values : List Bytes) : Dict Bytes Bytes :=
  ((names segments).zip values).foldl (fun vars entry => vars.insert entry.1 entry.2) vars

theorem names_literal {segment : Segment} (h : segment.isVariable = false) (segments : List Segment) :
    names (segment :: segments) = names segments := by simp [names, h]

theorem names_variable {segment : Segment} (h : segment.isVariable = true) (segments : List Segment) :
    names (segment :: segments) = segment.text :: names segments := by simp [names, h]

theorem startsWith_iff {s p : Bytes} : startsWith s p = true ↔ ∃ rest, s = p ++ rest := by
  rw [startsWith, List.isPrefixOf_iff_prefix]
  exact ⟨fun ⟨rest, h⟩ => ⟨rest, h.symm⟩, fun ⟨rest, h⟩ => ⟨rest, h.symm⟩⟩

/-- A value ends where the next literal is found. -/
theorem valueEnd_shortest {segments : List Segment} {uri : Bytes} {stop : Nat} (h : valueEnd uri segments = some stop) :
    stop ≤ uri.length ∧ Shortest (uri.take stop) segments.head? := by
  cases segments with
  | nil =>
    obtain rfl := Option.some.inj h
    exact ⟨Nat.le_refl _, fun _ hnone => by cases hnone⟩
  | cons next segments =>
    simp only [valueEnd] at h
    split at h
    · cases h
    · have hin := Search.indexOf_le h
      have hlen : (uri.take stop).length = stop := List.length_take_of_le (Nat.le_of_add_right_le hin)
      refine ⟨Nat.le_of_add_right_le hin, fun segment hsegment => ?_⟩
      obtain rfl := Option.some.inj hsegment
      have hcut := Search.indexOf_eq_some h
      rw [← List.append_assoc] at hcut
      rw [hlen]
      refine Search.indexOf_of_append (hcut ▸ h) ?_
      rw [List.length_append, hlen]

/-- And where it ends is found again. -/
theorem valueEnd_fill {segment : Segment} {segments : List Segment} (h : WellFormed (segment :: segments))
    (hvariable : segment.isVariable = true) {value : Bytes} {values : List Bytes} (hfits : Fits segments values)
    (hshortest : Shortest value segments.head?) : valueEnd (value ++ fill segments values) segments = some value.length := by
  cases segments with
  | nil => simp [valueEnd, fill]
  | cons next segments =>
    have hturn := h.inTurn.rel_head? (y := next) rfl
    rw [hvariable] at hturn
    have hliteral : next.isVariable = false := by simpa using hturn.symm
    have hfound := hshortest next rfl
    simp only [valueEnd, fill, hliteral, Bool.false_eq_true, if_false]
    rw [← List.append_assoc]
    exact Search.indexOf_append hfound _

theorem matchSegments_variable {segment : Segment} (hvariable : segment.isVariable = true) (segments : List Segment) (uri : Bytes)
    (vars result : Dict Bytes Bytes) :
    matchSegments (segment :: segments) uri vars = some result ↔
      ∃ stop, valueEnd uri segments = some stop ∧ stop ≠ 0 ∧
        matchSegments segments (uri.drop stop) (vars.insert segment.text (uri.take stop)) = some result := by
  rw [matchSegments, if_pos hvariable]
  cases valueEnd uri segments with
  | none => simp
  | some stop =>
    cases stop with
    | zero => simp
    | succ n => simp

/-- **What the loop accepts, and with which values.** -/
theorem matchSegments_iff : ∀ {segments : List Segment}, WellFormed segments → ∀ {uri : Bytes} {vars result : Dict Bytes Bytes},
    matchSegments segments uri vars = some result ↔
      ∃ values, Fits segments values ∧ uri = fill segments values ∧ result = bind vars segments values
  | [], _, uri, vars, result => by
    unfold matchSegments
    constructor
    · intro h
      split at h
      · rename_i huri
        exact ⟨[], rfl, huri, (Option.some.inj h).symm⟩
      · cases h
    · rintro ⟨values, rfl, rfl, rfl⟩
      rfl
  | segment :: segments, h, uri, vars, result => by
    cases hvariable : segment.isVariable with
    | false =>
      have hfits : ∀ values, Fits (segment :: segments) values ↔ Fits segments values := fun values => by simp [Fits, hvariable]
      have hfill : ∀ values, fill (segment :: segments) values = segment.text ++ fill segments values := fun values => by
        simp [fill, hvariable]
      have hbind : ∀ values, bind vars (segment :: segments) values = bind vars segments values := fun values => by
        simp [bind, names_literal hvariable]
      rw [matchSegments, hvariable]
      simp only [Bool.false_eq_true, if_false, hfits, hfill, hbind]
      by_cases hstarts : startsWith uri segment.text = true
      · obtain ⟨rest, rfl⟩ := startsWith_iff.1 hstarts
        rw [if_pos hstarts, List.drop_left, matchSegments_iff h.tail]
        simp only [List.append_cancel_left_eq]
      · rw [if_neg hstarts]
        refine iff_of_false (by simp) ?_
        rintro ⟨values, -, rfl, -⟩
        exact hstarts (startsWith_iff.2 ⟨_, rfl⟩)
    | true =>
      have hbind : ∀ value values, bind vars (segment :: segments) (value :: values) =
          bind (vars.insert segment.text value) segments values :=
        fun value values => by simp [bind, names_variable hvariable]
      have hfill : ∀ value values, fill (segment :: segments) (value :: values) = value ++ fill segments values :=
        fun value values => by simp [fill, hvariable]
      have hfits : ∀ values, Fits (segment :: segments) values ↔
          ∃ value rest, values = value :: rest ∧ value ≠ [] ∧ Shortest value segments.head? ∧ Fits segments rest :=
        fun values => by rw [Fits, if_pos hvariable]
      rw [matchSegments_variable hvariable]
      simp only [hfits]
      constructor
      · rintro ⟨stop, hend, hstop, hmatch⟩
        obtain ⟨hin, hshortest⟩ := valueEnd_shortest hend
        obtain ⟨values, hvalues, hrest, rfl⟩ := (matchSegments_iff h.tail).1 hmatch
        have hvalue : uri.take stop ≠ [] := by
          rw [← List.length_pos_iff, List.length_take_of_le hin]
          exact Nat.pos_of_ne_zero hstop
        refine ⟨uri.take stop :: values, ⟨_, _, rfl, hvalue, hshortest, hvalues⟩, ?_, (hbind _ _).symm⟩
        rw [hfill, ← hrest, List.take_append_drop]
      · rintro ⟨_, ⟨value, values, rfl, hvalue, hshortest, hvalues⟩, rfl, rfl⟩
        rw [hfill, hbind]
        refine ⟨value.length, valueEnd_fill h hvariable hvalues hshortest, List.length_eq_zero_iff.not.2 hvalue, ?_⟩
        rw [List.drop_left, List.take_left]
        exact (matchSegments_iff h.tail).2 ⟨values, hvalues, rfl, rfl⟩

/-! ## Names and values -/

theorem Fits.length_eq : ∀ {segments : List Segment} {values : List Bytes}, Fits segments values →
    (names segments).length = values.length
  | [], values, h => by
    obtain rfl : values = [] := h
    rfl
  | segment :: segments, values, h => by
    unfold Fits at h
    cases hvariable : segment.isVariable with
    | false =>
      rw [hvariable, if_neg Bool.false_ne_true] at h
      rw [names_literal hvariable, Fits.length_eq h]
    | true =>
      rw [if_pos hvariable] at h
      obtain ⟨value, rest, rfl, -, -, hrest⟩ := h
      rw [names_variable hvariable, List.length_cons, List.length_cons, Fits.length_eq hrest]

theorem mem_insertAll {name : Bytes} : ∀ (entries : List (Bytes × Bytes)) (vars : Dict Bytes Bytes),
    name ∈ entries.foldl (fun vars entry => vars.insert entry.1 entry.2) vars ↔ name ∈ entries.map Prod.fst ∨ name ∈ vars
  | [], vars => by simp
  | entry :: entries, vars => by
    rw [List.foldl_cons, mem_insertAll entries, AList.mem_insert, List.map_cons, List.mem_cons]
    tauto

/-- **The names found are those of the template.** -/
theorem mem_bind {segments : List Segment} {values : List Bytes} (h : Fits segments values) (name : Bytes) :
    name ∈ bind ∅ segments values ↔ name ∈ names segments := by
  rw [bind, mem_insertAll, List.map_fst_zip (Nat.le_of_eq h.length_eq)]
  simp

/-- **If no name is used twice, the map gives the values back.** -/
theorem values_of_bind {segments : List Segment} {values : List Bytes} (h : Fits segments values) (hnodup : (names segments).Nodup) :
    (names segments).map (fun name => ((bind ∅ segments values).lookup name).getD []) = values := by
  have hlength := h.length_eq
  have hkeys : (((names segments).zip values).map Prod.fst).Nodup := by
    rwa [List.map_fst_zip (Nat.le_of_eq hlength)]
  refine List.ext_getElem (by rw [List.length_map, hlength]) fun i hi hi' => ?_
  rw [List.length_map] at hi
  have hmem : ((names segments)[i], values[i]) ∈ (names segments).zip values := by
    rw [List.mem_iff_getElem]
    exact ⟨i, by rw [List.length_zip]; omega, by simp⟩
  have hlookup : (bind ∅ segments values).lookup (names segments)[i] = some values[i] :=
    (Dict.lookup_insertAll ∅ hkeys).2 (.inl hmem)
  rw [List.getElem_map, hlookup]
  rfl

/-- **What a template matches.**  The result is a map exactly when the URI is the template with its expressions replaced from
left to right by values that are not empty and end where the next literal first occurs; the map then has the template's
names, and gives the values back unless a name is used twice.  No read is outside either string. -/
theorem matchUriTemplate_iff {segments : List Segment} (h : WellFormed segments) (uri : Bytes) (m : Dict Bytes Bytes) :
    (matchUriTemplate (templateText segments) uri = some m ↔
      ∃ values, Fits segments values ∧ uri = fill segments values ∧ m = bind ∅ segments values) ∧
    (matchUriTemplate (templateText segments) uri = some m →
      (∀ name, name ∈ m ↔ name ∈ names segments) ∧
        ((names segments).Nodup → uri = fill segments ((names segments).map fun name => (m.lookup name).getD []))) ∧
    (∀ t u, matchTemplateAt t u = some (matchUriTemplate t u)) := by
  have hmatch : matchUriTemplate (templateText segments) uri = some m ↔
      ∃ values, Fits segments values ∧ uri = fill segments values ∧ m = bind ∅ segments values := by
    rw [matchUriTemplate, tokenize, tokenize_text h (fun _ _ _ => rfl), Option.bind_some]
    exact matchSegments_iff h
  refine ⟨hmatch, fun hsome => ?_, matchTemplateAt_eq⟩
  obtain ⟨values, hfits, rfl, rfl⟩ := hmatch.1 hsome
  exact ⟨mem_bind hfits, fun hnodup => by rw [values_of_bind hfits hnodup]⟩

/-- `db://{table}/{id}`. -/
def tableAndId : List Segment :=
  [{ text := bytes "db://" }, { text := bytes "table", isVariable := true }, { text := bytes "/" },
    { text := bytes "id", isVariable := true }]

theorem matchUriTemplate_iff_tableAndId :
    ∃ m, matchUriTemplate (templateText tableAndId) (bytes "db://users/42") = some m ∧
      m.lookup (bytes "table") = some (bytes "users") ∧ ∀ name, name ∈ m ↔ name ∈ names tableAndId :=
  ⟨_, rfl, by decide,
    ((@matchUriTemplate_iff tableAndId ⟨by decide, by decide, by decide, by decide⟩ (bytes "db://users/42") _).2.1 rfl).1⟩

/-- The URI is the template with every `{name}` replaced by `f name`, which is not empty. -/
def IsInstance (segments : List Segment) (uri : Bytes) (f : Bytes → Bytes) : Prop :=
  (∀ name ∈ names segments, f name ≠ []) ∧ uri = fill segments ((names segments).map f)

/-- `{a}b` does not match `bb`, where `a` could stand for `b`; and `{a}/{a}` matches `x/y`, where no one value would do. -/
theorem instances_differ :
    (∃ segments uri f, WellFormed segments ∧ IsInstance segments uri f ∧ matchUriTemplate (templateText segments) uri = none) ∧
    (∃ segments uri m, WellFormed segments ∧ matchUriTemplate (templateText segments) uri = some m ∧
      ∀ f, ¬ IsInstance segments uri f) := by
  refine ⟨⟨[{ text := bytes "a", isVariable := true }, { text := bytes "b" }], bytes "bb", fun _ => bytes "b",
      ⟨by decide, by decide, by decide, by decide⟩, ⟨by decide, by decide⟩, by decide⟩,
    ⟨[{ text := bytes "a", isVariable := true }, { text := bytes "/" }, { text := bytes "a", isVariable := true }], bytes "x/y", _,
      ⟨by decide, by decide, by decide, by decide⟩, rfl, fun f hf => ?_⟩⟩
  have heq : f (bytes "a") ++ (bytes "/" ++ (f (bytes "a") ++ [])) = bytes "x/y" := hf.2.symm
  generalize f (bytes "a") = value at heq
  rcases value with _ | ⟨c, _ | ⟨d, value⟩⟩
  · exact absurd heq (by decide)
  · have hfirst : c = ch 'x' := Option.some.inj (congrArg List.head? heq)
    have hlast : c = ch 'y' := Option.some.inj (congrArg List.getLast? heq)
    exact absurd (hfirst.symm.trans hlast) (by decide)
  · have hlength := congrArg List.length heq
    have hslash : (bytes "/").length = 1 := rfl
    have hwhole : (bytes "x/y").length = 3 := rfl
    simp only [List.length_append, List.length_cons, List.length_nil, hslash, hwhole] at hlength
    omega

end UriTemplate
end Mcp
