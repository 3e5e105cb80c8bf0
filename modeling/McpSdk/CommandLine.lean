import McpSdk.Bytes
import Mathlib.Data.List.TakeWhile
/-!
# CommandLine — the arguments of a spawned process on win32

`CreateProcess` takes one string, which the C runtime of the new process splits again.  `append_quoted` writes an argument
so that the splitter gives it back: in quotes when it is empty or has a byte that could end it, with every run of
backslashes doubled where a quote follows.
-/
namespace Mcp
namespace CommandLine

def backslash : UInt8 := ch '\\'

def quote : UInt8 := ch '"'

/-! ## Writing -/

/-- One of `" \t\n\v\""`. -/
def isSpecial (c : UInt8) : Bool := c == ch ' ' || c == 9 || c == 10 || c == 11 || c == quote

/-- The loop of `append_quoted`, after a run of `backslashes`. -/
def appendEscaped (out : Bytes) (backslashes : Nat) : Bytes → Bytes
  | [] => out ++ List.replicate (backslashes * 2) backslash
  | c :: arg =>
    if c = backslash then appendEscaped out (backslashes + 1) arg
    else if c = quote then appendEscaped (out ++ List.replicate (backslashes * 2 + 1) backslash ++ [quote]) 0 arg
    else appendEscaped (out ++ List.replicate backslashes backslash ++ [c]) 0 arg

def appendQuoted (out arg : Bytes) : Bytes :=
  if !arg.isEmpty && !arg.any isSpecial then out ++ arg
  else appendEscaped (out ++ [quote]) 0 arg ++ [quote]

/-- `command_line` in `spawn`. -/
def commandLine (command : Bytes) (args : List Bytes) : Bytes :=
  args.foldl (fun line arg => appendQuoted (line ++ [ch ' ']) arg) (appendQuoted [] command)

/-! ## Splitting -/

/-- What `CreateProcess` sees of a `std::string`. -/
def cString (s : Bytes) : Bytes := s.takeWhile (· != 0)

def isBlank (c : UInt8) : Bool := c == ch ' ' || c == 9

/-- The rules of the Microsoft C runtime: `backslashes` are held back until it is known whether a quote follows.  There
is no argument between two. -/
def split (quoted : Bool) (backslashes : Nat) (argument : Option Bytes) : Bytes → List Bytes
  | [] => (argument.map (· ++ List.replicate backslashes backslash)).toList
  | c :: text =>
    if c = backslash then split quoted (backslashes + 1) (some (argument.getD [])) text
    else if c = quote then
      if backslashes % 2 = 0 then
        split (!quoted) 0 (some (argument.getD [] ++ List.replicate (backslashes / 2) backslash)) text
      else split quoted 0 (some (argument.getD [] ++ List.replicate (backslashes / 2) backslash ++ [quote])) text
    else if !quoted && isBlank c then
      (argument.map (· ++ List.replicate backslashes backslash)).toList ++ split false 0 none text
    else split quoted 0 (some (argument.getD [] ++ List.replicate backslashes backslash ++ [c])) text

def splitArguments (text : Bytes) : List Bytes := split false 0 none text

/-! ## What is written -/

theorem appendEscaped_append (out : Bytes) : ∀ (arg start : Bytes) (backslashes : Nat),
    appendEscaped (out ++ start) backslashes arg = out ++ appendEscaped start backslashes arg
  | [], start, backslashes => List.append_assoc _ _ _
  | c :: arg, start, backslashes => by
    simp only [appendEscaped, List.append_assoc]
    by_cases hback : c = backslash
    · rw [if_pos hback, if_pos hback]
      exact appendEscaped_append out arg start _
    rw [if_neg hback, if_neg hback]
    by_cases hquote : c = quote
    · rw [if_pos hquote, if_pos hquote]
      exact appendEscaped_append out arg _ 0
    · rw [if_neg hquote, if_neg hquote]
      exact appendEscaped_append out arg _ 0

theorem appendEscaped_eq (out arg : Bytes) (backslashes : Nat) :
    appendEscaped out backslashes arg = out ++ appendEscaped [] backslashes arg := by
  have h := appendEscaped_append out arg [] backslashes
  rwa [List.append_nil] at h

theorem appendQuoted_eq (out arg : Bytes) : appendQuoted out arg = out ++ appendQuoted [] arg := by
  unfold appendQuoted
  split
  · rfl
  · rw [List.nil_append, appendEscaped_append, List.append_assoc]

/-- The text after the command. -/
def appended (args : List Bytes) : Bytes := args.flatMap (fun arg => ch ' ' :: appendQuoted [] arg)

theorem foldl_appendQuoted : ∀ (args : List Bytes) (line : Bytes),
    args.foldl (fun line arg => appendQuoted (line ++ [ch ' ']) arg) line = line ++ appended args
  | [], line => (List.append_nil line).symm
  | arg :: args, line => by
    rw [List.foldl_cons, foldl_appendQuoted args, appendQuoted_eq]
    simp [appended]

theorem commandLine_eq (command : Bytes) (args : List Bytes) :
    commandLine command args = appendQuoted [] command ++ appended args := foldl_appendQuoted args _

/-- Nothing but the bytes of the argument, backslashes and quotes. -/
theorem forall_appendEscaped {P : UInt8 → Prop} (hback : P backslash) (hquote : P quote) : ∀ {arg out : Bytes} {n : Nat},
    (∀ c ∈ out, P c) → (∀ c ∈ arg, P c) → ∀ c ∈ appendEscaped out n arg, P c
  | [], out, n, hout, _ => by
    intro c hc
    rcases List.mem_append.1 hc with hc | hc
    · exact hout c hc
    · rw [List.eq_of_mem_replicate hc]
      exact hback
  | d :: arg, out, n, hout, harg => by
    obtain ⟨hd, harg⟩ := List.forall_mem_cons.1 harg
    have hnext : ∀ k e, P e → ∀ c ∈ out ++ List.replicate k backslash ++ [e], P c := by
      intro k e he c hc
      rcases List.mem_append.1 hc with hc | hc
      · rcases List.mem_append.1 hc with hc | hc
        · exact hout c hc
        · rw [List.eq_of_mem_replicate hc]
          exact hback
      · rw [List.mem_singleton.1 hc]
        exact he
    unfold appendEscaped
    split
    · exact forall_appendEscaped hback hquote hout harg
    split
    · exact forall_appendEscaped hback hquote (hnext _ _ hquote) harg
    · exact forall_appendEscaped hback hquote (hnext _ _ hd) harg

theorem forall_appended {P : UInt8 → Prop} (hback : P backslash) (hquote : P quote) (hblank : P (ch ' ')) {args : List Bytes}
    (hargs : ∀ arg ∈ args, ∀ c ∈ arg, P c) : ∀ c ∈ appended args, P c := by
  intro c hc
  obtain ⟨arg, harg, hc⟩ := List.mem_flatMap.1 hc
  rcases List.mem_cons.1 hc with rfl | hc
  · exact hblank
  unfold appendQuoted at hc
  split at hc
  · exact hargs arg harg c hc
  rcases List.mem_append.1 hc with hc | hc
  · refine forall_appendEscaped hback hquote ?_ (hargs arg harg) c hc
    rintro d hd
    rw [List.mem_singleton.1 hd]
    exact hquote
  · rw [List.mem_singleton.1 hc]
    exact hquote

/-! ## What is read back -/

theorem split_backslashes (quoted : Bool) (current text : Bytes) : ∀ (n backslashes : Nat),
    split quoted backslashes (some current) (List.replicate n backslash ++ text) =
      split quoted (backslashes + n) (some current) text
  | 0, _ => rfl
  | n + 1, backslashes => by
    rw [List.replicate_succ, List.cons_append, split, if_pos rfl, Option.getD_some, split_backslashes quoted current text n]
    congr 1
    omega

/-- An even run before a quote. -/
theorem split_toggle (quoted : Bool) (n : Nat) (current text : Bytes) :
    split quoted 0 (some current) (List.replicate (n * 2) backslash ++ quote :: text) =
      split (!quoted) 0 (some (current ++ List.replicate n backslash)) text := by
  rw [split_backslashes, Nat.zero_add, split, if_neg (by decide), if_pos rfl, if_pos (Nat.mul_mod_left n 2),
    Nat.mul_div_cancel n (by decide), Option.getD_some]

/-- An odd run before a quote. -/
theorem split_literal (quoted : Bool) (n : Nat) (current text : Bytes) :
    split quoted 0 (some current) (List.replicate (n * 2 + 1) backslash ++ quote :: text) =
      split quoted 0 (some (current ++ List.replicate n backslash ++ [quote])) text := by
  have hodd : ¬ (n * 2 + 1) % 2 = 0 := by omega
  have hhalf : (n * 2 + 1) / 2 = n := by omega
  rw [split_backslashes, Nat.zero_add, split, if_neg (by decide), if_pos rfl, if_neg hodd, hhalf, Option.getD_some]

/-- A run before another byte. -/
theorem split_plain {quoted : Bool} {c : UInt8} (hback : c ≠ backslash) (hquote : c ≠ quote)
    (hblank : (!quoted && isBlank c) = false) (n : Nat) (current text : Bytes) :
    split quoted n (some current) (c :: text) =
      split quoted 0 (some (current ++ List.replicate n backslash ++ [c])) text := by
  rw [split, if_neg hback, if_neg hquote, hblank]
  rfl

/-- **Between the quotes** the splitter reads the argument back, the run before it included. -/
theorem split_escaped (text : Bytes) : ∀ (arg current : Bytes) (backslashes : Nat),
    split true 0 (some current) (appendEscaped [] backslashes arg ++ quote :: text) =
      split false 0 (some (current ++ List.replicate backslashes backslash ++ arg)) text
  | [], current, backslashes => by
    rw [List.append_nil]
    exact split_toggle true backslashes current text
  | c :: arg, current, backslashes => by
    unfold appendEscaped
    by_cases hback : c = backslash
    · rw [if_pos hback, split_escaped text arg current, List.replicate_succ', hback]
      simp
    rw [if_neg hback]
    by_cases hquote : c = quote
    · rw [if_pos hquote, appendEscaped_eq]
      simp only [List.nil_append, List.append_assoc, List.cons_append]
      rw [split_literal, split_escaped text arg, hquote]
      simp
    · rw [if_neg hquote, appendEscaped_eq]
      simp only [List.nil_append, List.append_assoc, List.cons_append]
      rw [split_backslashes, split_plain hback hquote rfl, split_escaped text arg]
      simp

theorem isBlank_of_not_special {c : UInt8} (h : isSpecial c = false) : c ≠ quote ∧ isBlank c = false := by
  unfold isSpecial at h
  simp only [Bool.or_eq_false_iff, beq_eq_false_iff_ne] at h
  obtain ⟨⟨⟨⟨hspace, htab⟩, -⟩, -⟩, hquote⟩ := h
  refine ⟨hquote, ?_⟩
  simp [isBlank, hspace, htab]

/-- **Without quotes**: what the splitter holds back is the run at the end. -/
theorem split_unquoted (text : Bytes) : ∀ {arg : Bytes} (current : Bytes) (backslashes : Nat),
    (∀ c ∈ arg, isSpecial c = false) → ∃ before held,
      split false backslashes (some current) (arg ++ text) = split false held (some before) text ∧
      before ++ List.replicate held backslash = current ++ List.replicate backslashes backslash ++ arg
  | [], current, backslashes, _ => ⟨current, backslashes, rfl, (List.append_nil _).symm⟩
  | c :: arg, current, backslashes, h => by
    obtain ⟨hc, harg⟩ := List.forall_mem_cons.1 h
    by_cases hback : c = backslash
    · obtain ⟨before, held, hsplit, heq⟩ := split_unquoted text current (backslashes + 1) harg
      refine ⟨before, held, ?_, ?_⟩
      · rw [List.cons_append, split, if_pos hback]
        exact hsplit
      · rw [heq, List.replicate_succ', hback]
        simp
    · obtain ⟨hquote, hblank⟩ := isBlank_of_not_special hc
      obtain ⟨before, held, hsplit, heq⟩ :=
        split_unquoted text (current ++ List.replicate backslashes backslash ++ [c]) 0 harg
      refine ⟨before, held, ?_, ?_⟩
      · rw [List.cons_append, split_plain hback hquote (by rw [hblank]; rfl)]
        exact hsplit
      · rw [heq]
        simp

/-- The first byte of an argument starts it. -/
theorem split_start {quoted : Bool} {c : UInt8} (hblank : isBlank c = false) (n : Nat) (text : Bytes) :
    split quoted n none (c :: text) = split quoted n (some []) (c :: text) := by
  simp [split, hblank]

/-- **One argument**, up to what ends it. -/
theorem split_appendQuoted (arg text : Bytes) : ∃ before held,
    splitArguments (appendQuoted [] arg ++ text) = split false held (some before) text ∧
      before ++ List.replicate held backslash = arg := by
  unfold splitArguments appendQuoted
  split
  · rename_i hplain
    rw [Bool.and_eq_true, Bool.not_eq_true', Bool.not_eq_true', List.any_eq_false] at hplain
    obtain ⟨hne, hspecial⟩ := hplain
    have hnone : ∀ c ∈ arg, isSpecial c = false := fun c hc => Bool.eq_false_iff.2 (hspecial c hc)
    cases arg with
    | nil => cases hne
    | cons c rest =>
      obtain ⟨before, held, hsplit, heq⟩ := split_unquoted text [] 0 hnone
      refine ⟨before, held, ?_, heq⟩
      rw [List.nil_append, List.cons_append, split_start (isBlank_of_not_special (hnone c List.mem_cons_self)).2]
      exact hsplit
  · refine ⟨arg, 0, ?_, List.append_nil arg⟩
    have hescaped := split_escaped text arg [] 0
    rw [List.nil_append, appendEscaped_eq, List.append_assoc, List.append_assoc, List.singleton_append, split_start rfl]
    exact (split_toggle false 0 [] _).trans hescaped

/-- **The arguments come back.** -/
theorem splitArguments_appended : ∀ args : List Bytes, splitArguments (appended args) = args
  | [] => rfl
  | arg :: args => by
    have hblank : splitArguments (appended (arg :: args)) = splitArguments (appendQuoted [] arg ++ appended args) := rfl
    obtain ⟨before, held, hsplit, rfl⟩ := split_appendQuoted arg (appended args)
    rw [hblank, hsplit]
    cases args with
    | nil => rfl
    | cons next rest =>
      have hnext := splitArguments_appended (next :: rest)
      show (before ++ List.replicate held backslash) :: splitArguments (appendQuoted [] next ++ appended rest) = _
      rw [← hnext]
      rfl

theorem cString_eq {s : Bytes} (h : ∀ c ∈ s, c ≠ 0) : cString s = s := by
  unfold cString
  rw [List.takeWhile_eq_self_iff]
  intro c hc
  exact bne_iff_ne.2 (h c hc)

/-- **The spawned process gets the arguments it was given**: the text after the command, split, is the list. -/
theorem split_commandLine (command : Bytes) (args : List Bytes) (hnul : ∀ arg ∈ args, ∀ c ∈ arg, c ≠ 0) :
    splitArguments (cString ((commandLine command args).drop (appendQuoted [] command).length)) = args := by
  rw [commandLine_eq, List.drop_left, cString_eq (forall_appended (by decide) (by decide) (by decide) hnul)]
  exact splitArguments_appended args

/-- An empty argument, a directory with a blank, quotes, a tab and a line end, a plain path. -/
theorem split_commandLine_special :
    splitArguments (cString ((commandLine (bytes "server.exe")
      [[], bytes "C:\\my dir\\", bytes "say \"hi\\\"", bytes "a\tb\n", bytes "C:\\dir\\"]).drop 10)) =
      [[], bytes "C:\\my dir\\", bytes "say \"hi\\\"", bytes "a\tb\n", bytes "C:\\dir\\"] :=
  split_commandLine (bytes "server.exe") _ (by decide +kernel)

end CommandLine
end Mcp
