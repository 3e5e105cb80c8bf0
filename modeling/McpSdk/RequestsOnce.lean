import McpSdk.Requests
/-!
# RequestsOnce — every callback is called once, with its own answer

Whoever wants to call a callback takes it out of the pending table first, so a callback is at all times in one place: in
hand of a thread, pending, or called (`Owned.owned`).  Two calls never share an id, so the entry a section overwrites or
removes is always its own.
-/
namespace Mcp
namespace Requests

open scoped List

/-- The id the `c`-th `send_request` call draws. -/
def idOf (c : Callback) : RequestId := .int (Int64.ofNat (c + 1))

theorem idOf_inj {c d : Nat} (hc : c < 2 ^ 64) (hd : d < 2 ^ 64) (h : idOf c = idOf d) : c = d := by
  have h' : Int64.ofNat (c + 1) = Int64.ofNat (d + 1) := by
    unfold idOf at h
    injection h
  have h64 := congrArg (fun n => n.toUInt64.toNat) h'
  simp only [Int64.toUInt64_ofNat', UInt64.toNat_ofNat'] at h64
  omega

/-- The callbacks a thread has in hand. -/
def Pc.holds : Pc → List Callback
  | sendRegister _ callback _ _ _ => [callback]
  | responseCall callback _ => [callback]
  | cancelNotify _ _ callback => [callback]
  | cancelCall callback => [callback]
  | expireCall callback _ => [callback]
  | closeCalls _ callbacks => callbacks
  | _ => []

/-- The id a thread is about to register. -/
def Pc.registers : Pc → Option RequestId
  | sendRegister id _ _ _ _ => some id
  | _ => none

/-- The callbacks that are pending or were called. -/
def State.placed (s : State) : List Callback := Dict.values s.pending ++ s.invoked.map Prod.fst

/-- The errors the session itself completes a request with. -/
def localErrors : List (Result Json) := [.error cancelledError, .error timedOutError, .error closedError]

/-- `result` is the content of a received response to the `c`-th call, or an error of the session's own. -/
def State.Explains (s : State) (c : Callback) (result : Result Json) : Prop :=
  (∃ r ∈ s.received, r.id = some (idOf c) ∧ result = responseResult r) ∨ result ∈ localErrors

/-- A thread's locals belong together. -/
def Pc.Ok (s : State) : Pc → Prop
  | sendRegister id callback _ _ _ => id = idOf callback
  | responseClear id r => r ∈ s.received ∧ r.id = some id
  | responseTake id r => r ∈ s.received ∧ r.id = some id
  | responseCall callback r => r ∈ s.received ∧ r.id = some (idOf callback)
  | _ => True

/-- **The ownership invariant.** -/
structure Owned (p : Pool State Pc) : Prop where
  next : p.shared.nextRequestId = Int64.ofNat (p.shared.calls + 1)
  issued : p.shared.issued = (List.range p.shared.calls).map (fun c => (c, idOf c))
  passed : p.shared.passed <+ List.range p.shared.calls
  owned : Pool.held Pc.holds p.threads ++ p.shared.placed ~ p.shared.passed
  keyed : ∀ id c, p.shared.pending.lookup id = some c → id = idOf c
  ok : ∀ pc ∈ p.threads, pc.Ok p.shared
  explained : ∀ x ∈ p.shared.invoked, p.shared.Explains x.1 x.2

/-! ## Sections -/

/-- What no section of a thread changes. -/
structure SameCalls (s s' : State) : Prop where
  next : s'.nextRequestId = s.nextRequestId
  calls : s'.calls = s.calls
  issued : s'.issued = s.issued
  passed : s'.passed = s.passed
  received : s'.received = s.received

/-- **What a section does to the callbacks**: nothing; it registers, takes or calls one; or it takes them all. -/
inductive Move (s : State) (pc : Pc) (s' : State) (pc' : Pc) : Prop
  | idle (pending : s'.pending = s.pending) (invoked : s'.invoked = s.invoked) (holds : pc'.holds = pc.holds)
  | register (id : RequestId) (c : Callback) (registers : pc.registers = some id) (own : pc.Ok s → id = idOf c)
      (pending : s'.pending = s.pending.insert id c) (invoked : s'.invoked = s.invoked) (before : pc.holds = [c])
      (after : pc'.holds = [])
  | take (id : RequestId) (c : Callback) (entry : s.pending.lookup id = some c) (pending : s'.pending = s.pending.erase id)
      (invoked : s'.invoked = s.invoked) (before : pc.holds = []) (after : pc'.holds = [c])
  | call (c : Callback) (result : Result Json) (explained : pc.Ok s → s.Explains c result)
      (pending : s'.pending = s.pending) (invoked : s'.invoked = s.invoked ++ [(c, result)])
      (holds : pc.holds = c :: pc'.holds)
  | takeAll (pending : s'.pending = ∅) (invoked : s'.invoked = s.invoked) (before : pc.holds = [])
      (after : pc'.holds = Dict.values s.pending)

theorem Move.calling {s s' : State} {pc pc' : Pc} {c : Callback} {e : Error} (he : .error e ∈ localErrors)
    (pending : s'.pending = s.pending) (invoked : s'.invoked = s.invoked ++ [(c, .error e)])
    (holds : pc.holds = c :: pc'.holds) : Move s pc s' pc' :=
  .call c (.error e) (fun _ => .inr he) pending invoked holds

theorem takePending_cases {s s' : State} {id : RequestId} {pc' : Pc} {found : Callback → Pc} {missing : Pc}
    (h : (match takePending s.pending id with
      | (some callback, pending) => some ({ s with pending }, found callback)
      | (none, pending) => some ({ s with pending }, missing)) = some (s', pc')) :
    SameCalls s s' ∧
      ((∃ c, s.pending.lookup id = some c ∧ s'.pending = s.pending.erase id ∧ s'.invoked = s.invoked ∧ pc' = found c) ∨
        (s' = s ∧ pc' = missing)) := by
  simp only [takePending] at h
  cases hl : s.pending.lookup id with
  | none =>
    rw [hl] at h
    simp only [Option.some.injEq, Prod.mk.injEq] at h
    obtain ⟨rfl, rfl⟩ := h
    rw [Dict.erase_of_lookup_none hl]
    exact ⟨⟨rfl, rfl, rfl, rfl, rfl⟩, .inr ⟨rfl, rfl⟩⟩
  | some c =>
    rw [hl] at h
    simp only [Option.some.injEq, Prod.mk.injEq] at h
    obtain ⟨rfl, rfl⟩ := h
    exact ⟨⟨rfl, rfl, rfl, rfl, rfl⟩, .inl ⟨c, rfl, rfl, rfl, rfl⟩⟩

theorem stop_holds (t : Transport) (own onReader : Bool) : (t.stop own onReader).2.holds = [] := by
  fun_cases Transport.stop <;> rfl

/-- **The spec of a section.** -/
theorem advance_move {s s' : State} {pc pc' : Pc} (h : advance s pc = some (s', pc')) :
    SameCalls s s' ∧ Move s pc s' pc' := by
  cases pc with
  | done => cases h
  | sendRegister id callback method params options =>
    obtain ⟨rfl, rfl⟩ := Pool.section_inj h
    exact ⟨⟨rfl, rfl, rfl, rfl, rfl⟩, .register id callback rfl (fun hok => hok) rfl rfl rfl rfl⟩
  | sendTrack id method params options =>
    obtain ⟨rfl, rfl⟩ := Pool.section_inj h
    exact ⟨⟨rfl, rfl, rfl, rfl, rfl⟩, .idle rfl rfl rfl⟩
  | sendMessage id method params =>
    obtain ⟨rfl, rfl⟩ := Pool.section_inj h
    exact ⟨⟨rfl, rfl, rfl, rfl, rfl⟩, .idle rfl rfl rfl⟩
  | responseClear id r =>
    obtain ⟨rfl, rfl⟩ := Pool.section_inj h
    exact ⟨⟨rfl, rfl, rfl, rfl, rfl⟩, .idle rfl rfl rfl⟩
  | responseTake id r =>
    obtain ⟨hsame, ⟨c, hl, hp, hi, rfl⟩ | ⟨rfl, rfl⟩⟩ := takePending_cases h
    · exact ⟨hsame, .take id c hl hp hi rfl rfl⟩
    · exact ⟨hsame, .idle rfl rfl rfl⟩
  | responseCall callback r =>
    obtain ⟨rfl, rfl⟩ := Pool.section_inj h
    exact ⟨⟨rfl, rfl, rfl, rfl, rfl⟩, .call callback _ (fun hok => .inl ⟨r, hok.1, hok.2, rfl⟩) rfl rfl rfl⟩
  | progressClock note =>
    simp only [advance] at h
    split at h <;> (obtain ⟨rfl, rfl⟩ := Pool.section_inj h; exact ⟨⟨rfl, rfl, rfl, rfl, rfl⟩, .idle rfl rfl rfl⟩)
  | progressCall callback note =>
    obtain ⟨rfl, rfl⟩ := Pool.section_inj h
    exact ⟨⟨rfl, rfl, rfl, rfl, rfl⟩, .idle rfl rfl rfl⟩
  | cancelClear id reason =>
    obtain ⟨rfl, rfl⟩ := Pool.section_inj h
    exact ⟨⟨rfl, rfl, rfl, rfl, rfl⟩, .idle rfl rfl rfl⟩
  | cancelTake id reason =>
    obtain ⟨hsame, ⟨c, hl, hp, hi, rfl⟩ | ⟨rfl, rfl⟩⟩ := takePending_cases h
    · exact ⟨hsame, .take id c hl hp hi rfl rfl⟩
    · exact ⟨hsame, .idle rfl rfl rfl⟩
  | cancelNotify id reason callback =>
    obtain ⟨rfl, rfl⟩ := Pool.section_inj h
    exact ⟨⟨rfl, rfl, rfl, rfl, rfl⟩, .idle rfl rfl rfl⟩
  | cancelCall callback =>
    obtain ⟨rfl, rfl⟩ := Pool.section_inj h
    exact ⟨⟨rfl, rfl, rfl, rfl, rfl⟩, .calling (by simp [localErrors]) rfl rfl rfl⟩
  | expired ids =>
    cases ids <;> (obtain ⟨rfl, rfl⟩ := Pool.section_inj h; exact ⟨⟨rfl, rfl, rfl, rfl, rfl⟩, .idle rfl rfl rfl⟩)
  | expireTake id ids =>
    obtain ⟨hsame, ⟨c, hl, hp, hi, rfl⟩ | ⟨rfl, rfl⟩⟩ := takePending_cases h
    · exact ⟨hsame, .take id c hl hp hi rfl rfl⟩
    · exact ⟨hsame, .idle rfl rfl rfl⟩
  | expireCall callback ids =>
    obtain ⟨rfl, rfl⟩ := Pool.section_inj h
    exact ⟨⟨rfl, rfl, rfl, rfl, rfl⟩, .calling (by simp [localErrors]) rfl rfl rfl⟩
  | closeState k =>
    obtain ⟨rfl, rfl⟩ := Pool.section_inj h
    exact ⟨⟨rfl, rfl, rfl, rfl, rfl⟩, .idle rfl rfl rfl⟩
  | closeClear k =>
    obtain ⟨rfl, rfl⟩ := Pool.section_inj h
    exact ⟨⟨rfl, rfl, rfl, rfl, rfl⟩, .idle rfl rfl rfl⟩
  | closeSwap k =>
    obtain ⟨rfl, rfl⟩ := Pool.section_inj h
    exact ⟨⟨rfl, rfl, rfl, rfl, rfl⟩, .takeAll rfl rfl rfl rfl⟩
  | closeCalls k callbacks =>
    cases callbacks with
    | nil => cases k <;> (obtain ⟨rfl, rfl⟩ := Pool.section_inj h; exact ⟨⟨rfl, rfl, rfl, rfl, rfl⟩, .idle rfl rfl rfl⟩)
    | cons callback callbacks =>
      obtain ⟨rfl, rfl⟩ := Pool.section_inj h
      exact ⟨⟨rfl, rfl, rfl, rfl, rfl⟩, .calling (by simp [localErrors]) rfl rfl rfl⟩
  | transportStop own onReader =>
    obtain ⟨rfl, rfl⟩ := Pool.section_inj h
    refine ⟨⟨rfl, rfl, rfl, rfl, rfl⟩, .idle rfl rfl ?_⟩
    exact stop_holds s.transport own onReader
  | transportJoin own onReader =>
    simp only [advance] at h
    split at h
    · obtain ⟨rfl, rfl⟩ := Pool.section_inj h
      exact ⟨⟨rfl, rfl, rfl, rfl, rfl⟩, .idle rfl rfl rfl⟩
    · cases h
  | transportReturn own =>
    obtain ⟨rfl, rfl⟩ := Pool.section_inj h
    exact ⟨⟨rfl, rfl, rfl, rfl, rfl⟩, .idle rfl rfl rfl⟩

theorem Pc.Ok.mono {s s' : State} (h : ∀ r ∈ s.received, r ∈ s'.received) : ∀ {pc : Pc}, pc.Ok s → pc.Ok s'
  | sendRegister .., hok => hok
  | responseClear .., hok => ⟨h _ hok.1, hok.2⟩
  | responseTake .., hok => ⟨h _ hok.1, hok.2⟩
  | responseCall .., hok => ⟨h _ hok.1, hok.2⟩
  | done, _ | sendTrack .., _ | sendMessage .., _ | progressClock _, _ | progressCall .., _ | cancelClear .., _
  | cancelTake .., _ | cancelNotify .., _ | cancelCall _, _ | expired _, _ | expireTake .., _ | expireCall .., _
  | closeState _, _ | closeClear _, _ | closeSwap _, _ | closeCalls .., _ | transportStop .., _
  | transportJoin .., _ | transportReturn _, _ => trivial

theorem State.Explains.mono {s s' : State} (h : ∀ r ∈ s.received, r ∈ s'.received) {c : Callback}
    {result : Result Json} : s.Explains c result → s'.Explains c result
  | .inl ⟨r, hr, hid, hres⟩ => .inl ⟨r, h r hr, hid, hres⟩
  | .inr hlocal => .inr hlocal

theorem stop_ok (s : State) (t : Transport) (own onReader : Bool) : (t.stop own onReader).2.Ok s := by
  fun_cases Transport.stop <;> trivial

/-- A section leaves its thread's locals belonging together. -/
theorem advance_ok {s s' : State} {pc pc' : Pc} (hkeyed : ∀ id c, s.pending.lookup id = some c → id = idOf c)
    (h : advance s pc = some (s', pc')) (hok : pc.Ok s) : pc'.Ok s' := by
  cases pc with
  | responseClear id r =>
    obtain rfl := congrArg Prod.fst (Option.some.inj h)
    obtain rfl := congrArg Prod.snd (Option.some.inj h)
    exact hok
  | responseTake id r =>
    obtain ⟨hsame, ⟨c, hl, -, -, rfl⟩ | ⟨-, rfl⟩⟩ := takePending_cases h
    · refine ⟨?_, ?_⟩
      · rw [hsame.received]
        exact hok.1
      · rw [hok.2, hkeyed id c hl]
    · trivial
  | transportStop own onReader =>
    obtain rfl := congrArg Prod.snd (Option.some.inj h)
    exact stop_ok s' s.transport own onReader
  | closeCalls k callbacks =>
    cases callbacks with
    | nil => obtain rfl := congrArg Prod.snd (Option.some.inj h); cases k <;> trivial
    | cons c cs => obtain rfl := congrArg Prod.snd (Option.some.inj h); trivial
  | expired ids => cases ids <;> (obtain rfl := congrArg Prod.snd (Option.some.inj h); trivial)
  | _ =>
    simp only [advance] at h
    (repeat' split at h) <;> first
      | (obtain rfl := congrArg Prod.snd (Option.some.inj h); trivial)
      | cases h

/-! ## Steps -/

/-- A change of the state that concerns no callback. -/
structure Quiet (s s' : State) : Prop where
  next : s'.nextRequestId = s.nextRequestId
  calls : s'.calls = s.calls
  issued : s'.issued = s.issued
  passed : s'.passed = s.passed
  pending : s'.pending = s.pending
  invoked : s'.invoked = s.invoked
  received : ∀ r ∈ s.received, r ∈ s'.received

theorem Owned.quiet {p : Pool State Pc} {s' : State} (hp : Owned p) (hs : Quiet p.shared s') :
    Owned ⟨s', p.threads⟩ where
  next := by rw [hs.next, hs.calls, hp.next]
  issued := by rw [hs.issued, hs.calls, hp.issued]
  passed := by rw [hs.passed, hs.calls]; exact hp.passed
  owned := by
    show Pool.held Pc.holds p.threads ++ (Dict.values s'.pending ++ s'.invoked.map Prod.fst) ~ s'.passed
    rw [hs.pending, hs.invoked, hs.passed]
    exact hp.owned
  keyed := by rw [hs.pending]; exact hp.keyed
  ok := fun pc hpc => (hp.ok pc hpc).mono hs.received
  explained := by
    intro x hx
    rw [hs.invoked] at hx
    exact (hp.explained x hx).mono hs.received

theorem Owned.append {p : Pool State Pc} {pc : Pc} (hp : Owned p) (hholds : pc.holds = []) (hok : pc.Ok p.shared) :
    Owned ⟨p.shared, p.threads ++ [pc]⟩ where
  next := hp.next
  issued := hp.issued
  passed := hp.passed
  owned := by
    rw [Pool.held_append_singleton, hholds, List.append_nil]
    exact hp.owned
  keyed := hp.keyed
  ok := Pool.forall_append_singleton hp.ok hok
  explained := hp.explained

/-- A quiet start of a thread with nothing in hand. -/
theorem Owned.spawn {p : Pool State Pc} {s' : State} {pc : Pc} (hp : Owned p) (hs : Quiet p.shared s')
    (hholds : pc.holds = []) (hok : pc.Ok s') : Owned (p.spawn s' pc) :=
  (hp.quiet hs).append hholds hok

/-- The freshly drawn id is the call's own. -/
theorem Owned.drawn {p : Pool State Pc} (hp : Owned p) : RequestId.int p.shared.nextRequestId = idOf p.shared.calls := by
  rw [hp.next]
  rfl

theorem Owned.startSend {p : Pool State Pc} (hp : Owned p) (method : Bytes) (params : Option Json)
    (options : RequestOptions) :
    Owned (p.spawn (startSend p.shared method params options).1 (startSend p.shared method params options).2) := by
  have hnext : p.shared.nextRequestId + 1 = Int64.ofNat (p.shared.calls + 1 + 1) := by
    rw [hp.next, Int64.ofNat_add (p.shared.calls + 1) 1]
    rfl
  have hissued : p.shared.issued ++ [(p.shared.calls, .int p.shared.nextRequestId)] =
      (List.range (p.shared.calls + 1)).map (fun c => (c, idOf c)) := by
    rw [List.range_succ, List.map_append, ← hp.issued, hp.drawn]
    rfl
  unfold Requests.startSend
  cases requestParams params options with
  | error e =>
    exact {
      next := hnext
      issued := hissued
      passed := hp.passed.trans (List.range_sublist.2 (Nat.le_succ _))
      owned := by
        show Pool.held Pc.holds (p.threads ++ [.done]) ++ p.shared.placed ~ p.shared.passed
        rw [Pool.held_append_singleton]
        simpa [Pc.holds] using hp.owned
      keyed := hp.keyed
      ok := Pool.forall_append_singleton (fun pc hpc => (hp.ok pc hpc).mono (fun _ h => h)) trivial
      explained := fun x hx => (hp.explained x hx).mono (fun _ h => h) }
  | ok params =>
    exact {
      next := hnext
      issued := hissued
      passed := by
        show p.shared.passed ++ [p.shared.calls] <+ List.range (p.shared.calls + 1)
        rw [List.range_succ]
        exact hp.passed.append (List.Sublist.refl _)
      owned := by
        show Pool.held Pc.holds (p.threads ++ [.sendRegister _ p.shared.calls method params options]) ++ p.shared.placed ~
          p.shared.passed ++ [p.shared.calls]
        rw [Pool.held_append_singleton, List.append_assoc]
        refine (List.perm_append_comm.append_left _).trans ?_
        rw [← List.append_assoc]
        exact hp.owned.append_right _
      keyed := hp.keyed
      ok := Pool.forall_append_singleton (fun pc hpc => (hp.ok pc hpc).mono (fun _ h => h)) hp.drawn
      explained := fun x hx => (hp.explained x hx).mono (fun _ h => h) }

theorem Owned.nodup {p : Pool State Pc} (hp : Owned p) : (Pool.held Pc.holds p.threads ++ p.shared.placed).Nodup :=
  hp.owned.nodup_iff.2 (hp.passed.nodup List.nodup_range)

theorem Owned.lt_calls {p : Pool State Pc} (hp : Owned p) {c : Callback}
    (hc : c ∈ Pool.held Pc.holds p.threads ++ p.shared.placed) : c < p.shared.calls :=
  List.mem_range.1 (hp.passed.subset (hp.owned.subset hc))

/-- **A callback about to be registered has no entry under its id**, so registering it overwrites nothing. -/
theorem Owned.fresh {p : Pool State Pc} (hp : Owned p) (hbound : p.shared.calls < 2 ^ 63) {pc : Pc} (hpc : pc ∈ p.threads)
    {id : RequestId} (hid : pc.registers = some id) : id ∉ p.shared.pending := by
  obtain ⟨c, hc, rfl⟩ : ∃ c, c ∈ pc.holds ∧ id = idOf c := by
    have hok := hp.ok pc hpc
    cases pc <;> first
      | exact ⟨_, List.mem_singleton_self _, (Option.some.inj hid).symm.trans hok⟩
      | cases hid
  intro hmem
  obtain ⟨d, hd⟩ := Option.isSome_iff_exists.1 (AList.lookup_isSome.2 hmem)
  have hch : c ∈ Pool.held Pc.holds p.threads := Pool.mem_held.2 ⟨pc, hpc, hc⟩
  have hdp : d ∈ p.shared.placed :=
    List.mem_append_left _ ((Dict.values_perm_of_lookup hd).mem_iff.2 List.mem_cons_self)
  have hcl := hp.lt_calls (List.mem_append_left _ hch)
  have hdl := hp.lt_calls (List.mem_append_right _ hdp)
  have hlt : p.shared.calls < 2 ^ 64 := Nat.lt_trans hbound (by decide)
  have hcd : c = d := idOf_inj (Nat.lt_trans hcl hlt) (Nat.lt_trans hdl hlt) (hp.keyed _ _ hd)
  exact List.disjoint_of_nodup_append hp.nodup hch (hcd ▸ hdp)

/-- **A section moves callbacks and loses none.** -/
theorem Move.perm {s s' : State} {pc pc' : Pc} (h : Move s pc s' pc')
    (hfresh : ∀ id, pc.registers = some id → id ∉ s.pending) :
    pc.holds ++ s.placed ~ pc'.holds ++ s'.placed := by
  unfold State.placed
  cases h with
  | idle pending invoked holds => rw [pending, invoked, holds]
  | register id c registers own pending invoked before after =>
    rw [before, after, invoked, pending, Dict.values_insert (hfresh id registers)]
    exact List.Perm.refl _
  | take id c entry pending invoked before after =>
    rw [before, after, invoked, pending]
    exact (Dict.values_perm_of_lookup entry).append_right _
  | call c result explained pending invoked holds =>
    rw [holds, pending, invoked, List.map_append]
    calc (c :: pc'.holds) ++ (Dict.values s.pending ++ s.invoked.map Prod.fst)
        ~ (pc'.holds ++ (Dict.values s.pending ++ s.invoked.map Prod.fst)) ++ [c] :=
          @List.perm_append_comm _ [c] _
      _ = pc'.holds ++ (Dict.values s.pending ++ (s.invoked.map Prod.fst ++ [c])) := by simp
  | takeAll pending invoked before after =>
    rw [before, after, invoked, pending, Dict.values_empty]
    exact List.Perm.refl _

theorem Move.keyed {s s' : State} {pc pc' : Pc} (h : Move s pc s' pc') (hok : pc.Ok s)
    (hkeyed : ∀ id c, s.pending.lookup id = some c → id = idOf c) :
    ∀ id c, s'.pending.lookup id = some c → id = idOf c := by
  intro id c hl
  cases h with
  | idle pending => exact hkeyed id c (pending ▸ hl)
  | register id' c' sending own pending =>
    rw [pending] at hl
    rcases Dict.lookup_insert_eq_some.1 hl with ⟨rfl, rfl⟩ | ⟨-, hold⟩
    · exact own hok
    · exact hkeyed id c hold
  | take id' c' entry pending =>
    rw [pending] at hl
    exact hkeyed id c (Dict.lookup_erase_eq_some.1 hl).2
  | call c' result explained pending => exact hkeyed id c (pending ▸ hl)
  | takeAll pending =>
    rw [pending, AList.lookup_empty] at hl
    cases hl

theorem Move.explained {s s' : State} {pc pc' : Pc} (h : Move s pc s' pc') (hsame : SameCalls s s') (hok : pc.Ok s)
    (hold : ∀ x ∈ s.invoked, s.Explains x.1 x.2) : ∀ x ∈ s'.invoked, s'.Explains x.1 x.2 := by
  intro x hx
  have hrec : ∀ r ∈ s.received, r ∈ s'.received := fun r hr => hsame.received ▸ hr
  apply State.Explains.mono hrec
  cases h with
  | call c result explained pending invoked =>
    rw [invoked] at hx
    rcases List.mem_append.1 hx with hx | hx
    · exact hold x hx
    · rw [List.mem_singleton.1 hx]
      exact explained hok
  | idle pending invoked => exact hold x (invoked ▸ hx)
  | register id c registers own pending invoked => exact hold x (invoked ▸ hx)
  | take id c entry pending invoked => exact hold x (invoked ▸ hx)
  | takeAll pending invoked => exact hold x (invoked ▸ hx)

/-- **Each thread's step keeps the ownership invariant**, unless it registers over an entry. -/
theorem Owned.stepAt {p q : Pool State Pc} {i : Nat} (hp : Owned p)
    (hfresh : ∀ pc id, p.threads[i]? = some pc → pc.registers = some id → id ∉ p.shared.pending)
    (h : Pool.stepAt advance p i = some q) : Owned q := by
  have hperm := Pool.held_stepAt (f := Pc.holds) (g := State.placed) (fun pc s' pc' hpc hadv =>
    (advance_move hadv).2.perm (fun id hid => hfresh pc id hpc hid)) h
  obtain ⟨pc, s', pc', hpc, hadv, rfl⟩ := Pool.stepAt_eq_some.1 h
  obtain ⟨hsame, hmove⟩ := advance_move hadv
  have hok := hp.ok pc (List.mem_of_getElem? hpc)
  exact {
    next := by rw [hsame.next, hsame.calls, hp.next]
    issued := by rw [hsame.issued, hsame.calls, hp.issued]
    passed := by rw [hsame.passed, hsame.calls]; exact hp.passed
    owned := by
      rw [hsame.passed]
      exact hperm.symm.trans hp.owned
    keyed := hmove.keyed hok hp.keyed
    ok := Pool.forall_set (fun x hx => (hp.ok x hx).mono (fun r hr => hsame.received ▸ hr)) i
      (advance_ok hp.keyed hadv hok)
    explained := hmove.explained hsame hok hp.explained }

theorem calls_le_of_step {p q : Pool State Pc} {l : Label} (h : step p l = some q) : p.shared.calls ≤ q.shared.calls := by
  cases l with
  | sendRequest method params options =>
    obtain rfl := Option.some.inj h
    show p.shared.calls ≤ (startSend p.shared method params options).1.calls
    unfold startSend
    cases requestParams params options <;> exact Nat.le_succ _
  | step i =>
    obtain ⟨pc, s', pc', -, hadv, rfl⟩ := Pool.stepAt_eq_some.1 h
    exact le_of_eq (advance_move hadv).1.calls.symm
  | timerScan =>
    simp only [step] at h
    split at h
    · cases h
    · obtain rfl := Option.some.inj h
      exact le_refl _
  | readerCloses | readerReturns =>
    obtain ⟨_, _, rfl⟩ := Option.map_eq_some_iff.1 h
    exact le_refl _
  | connect | response | progress | cancelRequest | tick | disconnect | transportDisconnect =>
    obtain rfl := Option.some.inj h
    exact le_refl _

theorem readerCloses_pc {t t' : Transport} {pc : Pc} (h : t.readerCloses = some (t', pc)) :
    pc = .closeState .reader ∨ pc = .done := by
  revert h
  fun_cases Transport.readerCloses <;> intro h <;> cases h
  · exact .inl rfl
  · exact .inl rfl
  · exact .inr rfl

/-- **The step lemma of the ownership invariant.** -/
theorem Owned.step {p q : Pool State Pc} {l : Label} (hp : Owned p)
    (hfresh : ∀ i pc id, l = .step i → p.threads[i]? = some pc → pc.registers = some id → id ∉ p.shared.pending)
    (h : step p l = some q) : Owned q := by
  cases l with
  | sendRequest method params options =>
    obtain rfl := Option.some.inj h
    exact hp.startSend method params options
  | response r =>
    obtain rfl := Option.some.inj h
    refine hp.spawn ⟨rfl, rfl, rfl, rfl, rfl, rfl, fun x hx => List.mem_append_left _ hx⟩ ?_ ?_
    · cases r.id <;> rfl
    · cases hid : r.id with
      | none => trivial
      | some id => exact ⟨List.mem_append_right _ (List.mem_singleton_self r), hid⟩
  | timerScan =>
    simp only [Requests.step] at h
    split at h
    · cases h
    · obtain rfl := Option.some.inj h
      exact hp.spawn ⟨rfl, rfl, rfl, rfl, rfl, rfl, fun _ hx => hx⟩ rfl trivial
  | readerCloses =>
    obtain ⟨⟨t, pc⟩, ht, rfl⟩ := Option.map_eq_some_iff.1 h
    rcases readerCloses_pc ht with rfl | rfl <;>
      exact hp.spawn ⟨rfl, rfl, rfl, rfl, rfl, rfl, fun _ hx => hx⟩ rfl trivial
  | readerReturns =>
    obtain ⟨t, -, rfl⟩ := Option.map_eq_some_iff.1 h
    exact hp.quiet ⟨rfl, rfl, rfl, rfl, rfl, rfl, fun _ hx => hx⟩
  | connect | tick =>
    obtain rfl := Option.some.inj h
    exact hp.quiet ⟨rfl, rfl, rfl, rfl, rfl, rfl, fun _ hx => hx⟩
  | progress | cancelRequest | disconnect | transportDisconnect =>
    obtain rfl := Option.some.inj h
    exact hp.spawn ⟨rfl, rfl, rfl, rfl, rfl, rfl, fun _ hx => hx⟩ rfl trivial
  | step i => exact hp.stepAt (fun pc id => hfresh i pc id rfl) h

/-! ## Runs -/

theorem owned_init (transport : Transport) : Owned (init transport) where
  next := rfl
  issued := rfl
  passed := List.Sublist.refl _
  owned := List.Perm.refl _
  keyed := fun id c h => by cases h
  ok := fun pc h => by cases h
  explained := fun x h => by cases h

/-- **The ownership invariant holds in every state reached with fewer than `2 ^ 63` calls.** -/
theorem owned_of_run {transport : Transport} {labels : List Label} {p : Pool State Pc}
    (hrun : Lts.run step (init transport) labels = some p) : p.shared.calls < 2 ^ 63 → Owned p :=
  Lts.run_invariant (I := fun p => p.shared.calls < 2 ^ 63 → Owned p)
    (fun _ _ _ hp hstep hbound =>
      have hb := Nat.lt_of_le_of_lt (calls_le_of_step hstep) hbound
      (hp hb).step (fun _ _ _ _ hpc hid => (hp hb).fresh hb (List.mem_of_getElem? hpc) hid) hstep)
    (fun _ => owned_init transport) hrun

theorem Owned.id_of_mem {p : Pool State Pc} (hp : Owned p) {c : Callback} (hc : c < p.shared.calls) :
    (c, idOf c) ∈ p.shared.issued := by
  rw [hp.issued]
  exact List.mem_map.2 ⟨c, List.mem_range.2 hc, rfl⟩

theorem Owned.nodup_ids {p : Pool State Pc} (hp : Owned p) (hbound : p.shared.calls < 2 ^ 63) :
    (p.shared.issued.map Prod.snd).Nodup := by
  rw [hp.issued, List.map_map]
  refine List.Nodup.map_on (fun c hc d hd h => ?_) List.nodup_range
  have hlt : p.shared.calls < 2 ^ 64 := Nat.lt_trans hbound (by decide)
  exact idOf_inj (Nat.lt_trans (List.mem_range.1 hc) hlt) (Nat.lt_trans (List.mem_range.1 hd) hlt) h

/-- **Completed once, with its own answer**: after every run of fewer than `2 ^ 63` calls no callback was invoked twice,
each was invoked with the content of a received response to its own id or with an error of the session's own, and no two
calls drew one id. -/
theorem callbacks_once {transport : Transport} {labels : List Label} {p : Pool State Pc}
    (hrun : Lts.run step (init transport) labels = some p) (hbound : p.shared.calls < 2 ^ 63) :
    (p.shared.invoked.map Prod.fst).Nodup ∧
    (∀ x ∈ p.shared.invoked, x.2 ∉ localErrors →
      ∃ id, (x.1, id) ∈ p.shared.issued ∧ ∃ r ∈ p.shared.received, r.id = some id ∧ x.2 = responseResult r) ∧
    (p.shared.issued.map Prod.snd).Nodup := by
  have hp := owned_of_run hrun hbound
  refine ⟨(List.nodup_append.1 (List.nodup_append.1 hp.nodup).2.1).2.1, fun x hx hlocal => ?_, hp.nodup_ids hbound⟩
  have hlt : x.1 < p.shared.calls :=
    hp.lt_calls (List.mem_append_right _ (List.mem_append_right _ (List.mem_map_of_mem hx)))
  rcases hp.explained x hx with hr | hl
  · exact ⟨idOf x.1, hp.id_of_mem hlt, hr⟩
  · exact absurd hl hlocal

/-- A request, its answer, and the answer again. -/
def answeredTwice : List Label :=
  [.sendRequest (bytes "tools/list") none {}, .step 0, .step 0, .step 0,
    .response { id := some (.int 1), result := some .null }, .response { id := some (.int 1), result := some (.boolean true) },
    .step 1, .step 2, .step 2, .step 1, .step 2]

/-- Of two answers to one request the second to arrive wins here, and the first finds nothing to call. -/
theorem callbacks_once_answeredTwice :
    ∃ p, Lts.run step (init (.stdio true .running)) answeredTwice = some p ∧
      p.shared.invoked = [(0, .ok (.boolean true))] ∧ (p.shared.invoked.map Prod.fst).Nodup :=
  ⟨_, rfl, rfl, (@callbacks_once (.stdio true .running) answeredTwice _ rfl (by decide)).1⟩

end Requests
end Mcp
