import McpSdk.RequestsOnce
/-!
# RequestsClose — no outgoing request is orphaned, and when

`fail_all_pending` empties the table once per close event, and `StdioTransport::disconnect` and
`HttpClientTransport::disconnect` emit none: what is registered after the sweep, or still pending when a local
disconnect returns without one, stays.  `Orderly` is the condition on the steps that rules these out.
-/
namespace Mcp
namespace Requests

/-- **No orphans**: once a `handle_close` has finished or a local disconnect has returned, and no `send_request` is
running, nothing is pending, and every callback was invoked unless the thread that took it is about to. -/
def NoOrphans (p : Pool State Pc) : Prop :=
  p.shared.closeFinished = true ∨ p.shared.disconnected = true → (∀ pc ∈ p.threads, pc.isSending = false) →
    p.shared.pending = ∅ ∧
      ∀ c ∈ p.shared.passed, c ∈ p.shared.invoked.map Prod.fst ∨ ∃ pc ∈ p.threads, c ∈ pc.holds

/-- A section is orderly when it registers a request under a free id before any close, or returns from a local
disconnect after a sweep or with nothing pending. -/
def orderly (s : State) : Pc → Bool
  | .sendRegister id _ _ _ _ => !s.swept && !s.disconnected && (s.pending.lookup id).isNone
  | .transportReturn true => s.swept || (Dict.values s.pending).isEmpty
  | _ => true

/-- The condition on a step. -/
def Orderly (p : Pool State Pc) : Label → Prop
  | .step i => (p.threads[i]?).all (orderly p.shared) = true
  | _ => True

instance : ∀ (p : Pool State Pc) (l : Label), Decidable (Orderly p l)
  | _, .step _ => inferInstanceAs (Decidable (_ = true))
  | _, .connect => isTrue trivial
  | _, .sendRequest .. => isTrue trivial
  | _, .response _ => isTrue trivial
  | _, .progress _ => isTrue trivial
  | _, .cancelRequest .. => isTrue trivial
  | _, .timerScan => isTrue trivial
  | _, .tick _ => isTrue trivial
  | _, .readerCloses => isTrue trivial
  | _, .readerReturns => isTrue trivial
  | _, .disconnect _ => isTrue trivial
  | _, .transportDisconnect _ => isTrue trivial

/-! ## Sections -/

/-- A thread is past the sweep of its `handle_close`. -/
def Pc.sweeping : Pc → Bool
  | closeCalls .. => true
  | _ => false

/-- What a section does to the marks of a close. -/
structure Marks (s : State) (pc : Pc) (s' : State) (pc' : Pc) : Prop where
  swept : s.swept = true → s'.swept = true
  emptied : s'.swept = true → s.swept = true ∨ s'.pending = ∅
  disconnected : s'.disconnected = true → s.disconnected = true ∨ (pc = .transportReturn true ∧ s'.pending = s.pending)
  finished : s'.closeFinished = true → s.closeFinished = true ∨ pc.sweeping = true
  sweeping : pc'.sweeping = true → pc.sweeping = true ∨ s'.swept = true

theorem Marks.idle {s s' : State} {pc pc' : Pc} (hs : s'.swept = s.swept) (hd : s'.disconnected = s.disconnected)
    (hf : s'.closeFinished = s.closeFinished) (hp : pc'.sweeping = false) : Marks s pc s' pc' where
  swept := fun h => hs.trans h
  emptied := fun h => .inl (hs.symm.trans h)
  disconnected := fun h => .inl (hd.symm.trans h)
  finished := fun h => .inl (hf.symm.trans h)
  sweeping := fun h => by rw [hp] at h; cases h

theorem stop_sweeping (t : Transport) (own onReader : Bool) : (t.stop own onReader).2.sweeping = false := by
  fun_cases Transport.stop <;> rfl

theorem advance_marks {s s' : State} {pc pc' : Pc} (h : advance s pc = some (s', pc')) : Marks s pc s' pc' := by
  cases pc with
  | closeSwap k =>
    obtain ⟨rfl, rfl⟩ := Pool.section_inj h
    exact ⟨fun _ => rfl, fun _ => .inr rfl, .inl, .inl, fun _ => .inr rfl⟩
  | closeCalls k callbacks =>
    cases callbacks with
    | nil =>
      cases k <;>
        (obtain ⟨rfl, rfl⟩ := Pool.section_inj h
         exact ⟨fun h => h, .inl, .inl, fun _ => .inr rfl, fun h => by cases h⟩)
    | cons callback callbacks =>
      obtain ⟨rfl, rfl⟩ := Pool.section_inj h
      exact ⟨fun h => h, .inl, .inl, .inl, fun _ => .inl rfl⟩
  | transportStop own onReader =>
    obtain ⟨rfl, rfl⟩ := Pool.section_inj h
    exact .idle rfl rfl rfl (stop_sweeping s.transport own onReader)
  | transportReturn own =>
    obtain ⟨rfl, rfl⟩ := Pool.section_inj h
    refine ⟨fun h => h, .inl, fun hd => ?_, .inl, fun h => by cases h⟩
    rcases Bool.or_eq_true_iff.1 hd with hd | rfl
    · exact .inl hd
    · exact .inr ⟨rfl, rfl⟩
  | expired ids => cases ids <;> (obtain ⟨rfl, rfl⟩ := Pool.section_inj h; exact .idle rfl rfl rfl rfl)
  | _ =>
    simp only [advance] at h
    (repeat' split at h) <;> first
      | (obtain ⟨rfl, rfl⟩ := Pool.section_inj h; exact .idle rfl rfl rfl rfl)
      | cases h

/-- A thread that registers nothing leaves an empty table empty. -/
theorem Move.pending_empty {s s' : State} {pc pc' : Pc} (h : Move s pc s' pc') (hreg : pc.registers = none)
    (hs : s.pending = ∅) : s'.pending = ∅ := by
  cases h with
  | idle pending => rw [pending, hs]
  | register id c registers =>
    rw [hreg] at registers
    cases registers
  | take id c entry =>
    rw [hs, AList.lookup_empty] at entry
    cases entry
  | call c result explained pending => rw [pending, hs]
  | takeAll pending => exact pending

/-! ## Runs -/

/-- **The invariant of orderly runs.** -/
structure Closing (p : Pool State Pc) : Prop where
  owned : Owned p
  closed : p.shared.swept = true ∨ p.shared.disconnected = true → p.shared.pending = ∅
  finished : p.shared.closeFinished = true → p.shared.swept = true
  sweeping : ∀ pc ∈ p.threads, pc.sweeping = true → p.shared.swept = true

theorem orderly_registers {s : State} {pc : Pc} {id : RequestId} (h : orderly s pc = true)
    (hid : pc.registers = some id) : s.swept = false ∧ s.disconnected = false ∧ id ∉ s.pending := by
  cases pc <;> cases hid
  simp only [orderly, Bool.and_eq_true, Bool.not_eq_true', Option.isNone_iff_eq_none] at h
  exact ⟨h.1.1, h.1.2, AList.lookup_eq_none.1 h.2⟩

theorem orderly_transportReturn {s : State} (h : orderly s (.transportReturn true) = true) :
    s.swept = true ∨ s.pending = ∅ := by
  simp only [orderly, Bool.or_eq_true, List.isEmpty_iff] at h
  exact h.imp_right Dict.values_eq_nil.1

theorem Closing.stepAt {p q : Pool State Pc} {i : Nat} (hp : Closing p) (hord : Orderly p (.step i))
    (h : Pool.stepAt advance p i = some q) : Closing q := by
  have hfresh : ∀ pc id, p.threads[i]? = some pc → pc.registers = some id → id ∉ p.shared.pending := by
    intro pc id hpc hid
    rw [Orderly, hpc] at hord
    exact (orderly_registers hord hid).2.2
  have howned := hp.owned.stepAt hfresh h
  obtain ⟨pc, s', pc', hpc, hadv, rfl⟩ := Pool.stepAt_eq_some.1 h
  rw [Orderly, hpc, Option.all_some] at hord
  have hmem := List.mem_of_getElem? hpc
  have hmarks := advance_marks hadv
  have hkeep : p.shared.swept = true ∨ p.shared.disconnected = true → s'.pending = ∅ := by
    intro hclosed
    refine (advance_move hadv).2.pending_empty ?_ (hp.closed hclosed)
    cases hid : pc.registers with
    | none => rfl
    | some id =>
      obtain ⟨hs, hd, -⟩ := orderly_registers hord hid
      rw [hs, hd] at hclosed
      simp at hclosed
  refine ⟨howned, fun hclosed => ?_, fun hfin => ?_, ?_⟩
  · rcases hclosed with hs | hd
    · rcases hmarks.emptied hs with hs | he
      · exact hkeep (.inl hs)
      · exact he
    · rcases hmarks.disconnected hd with hd | ⟨rfl, he⟩
      · exact hkeep (.inr hd)
      · rcases orderly_transportReturn hord with hs | hempty
        · exact hkeep (.inl hs)
        · exact he.trans hempty
  · rcases hmarks.finished hfin with hfin | hsw
    · exact hmarks.swept (hp.finished hfin)
    · exact hmarks.swept (hp.sweeping pc hmem hsw)
  · refine Pool.forall_set (fun x hx hsw => hmarks.swept (hp.sweeping x hx hsw)) i (fun hsw => ?_)
    rcases hmarks.sweeping hsw with hsw | hs
    · exact hmarks.swept (hp.sweeping pc hmem hsw)
    · exact hs

/-- A label that starts an activity, or changes the surroundings, leaves the table and the marks of a close alone. -/
structure Started (p q : Pool State Pc) : Prop where
  swept : q.shared.swept = p.shared.swept
  disconnected : q.shared.disconnected = p.shared.disconnected
  finished : q.shared.closeFinished = p.shared.closeFinished
  pending : q.shared.pending = p.shared.pending
  threads : ∀ pc ∈ q.threads, pc ∈ p.threads ∨ pc.sweeping = false

theorem Started.spawn {p : Pool State Pc} {s' : State} {pc : Pc} (hs : s'.swept = p.shared.swept)
    (hd : s'.disconnected = p.shared.disconnected) (hf : s'.closeFinished = p.shared.closeFinished)
    (hp : s'.pending = p.shared.pending) (hpc : pc.sweeping = false) : Started p (p.spawn s' pc) :=
  ⟨hs, hd, hf, hp, Pool.forall_append_singleton (fun _ hx => .inl hx) (.inr hpc)⟩

theorem step_started {p q : Pool State Pc} {l : Label} (hl : ∀ i, l ≠ .step i) (h : step p l = some q) :
    Started p q := by
  cases l with
  | step i => exact absurd rfl (hl i)
  | sendRequest method params options =>
    obtain rfl := Option.some.inj h
    dsimp only
    cases requestParams params options <;> exact .spawn rfl rfl rfl rfl rfl
  | response r =>
    obtain rfl := Option.some.inj h
    refine .spawn rfl rfl rfl rfl ?_
    cases r.id <;> rfl
  | timerScan =>
    simp only [step] at h
    split at h
    · cases h
    · obtain rfl := Option.some.inj h
      exact .spawn rfl rfl rfl rfl rfl
  | readerCloses =>
    obtain ⟨⟨t, pc⟩, ht, rfl⟩ := Option.map_eq_some_iff.1 h
    rcases readerCloses_pc ht with rfl | rfl <;> exact .spawn rfl rfl rfl rfl rfl
  | readerReturns =>
    obtain ⟨t, -, rfl⟩ := Option.map_eq_some_iff.1 h
    exact ⟨rfl, rfl, rfl, rfl, fun _ hx => .inl hx⟩
  | connect | tick =>
    obtain rfl := Option.some.inj h
    exact ⟨rfl, rfl, rfl, rfl, fun _ hx => .inl hx⟩
  | progress | cancelRequest | disconnect | transportDisconnect =>
    obtain rfl := Option.some.inj h
    exact .spawn rfl rfl rfl rfl rfl

/-- **The step lemma of orderly runs.** -/
theorem Closing.step {p : Pool State Pc} {l : Label} {q : Pool State Pc} (hp : Closing p) (hord : Orderly p l)
    (h : step p l = some q) : Closing q := by
  by_cases hl : ∃ i, l = .step i
  · obtain ⟨i, rfl⟩ := hl
    exact hp.stepAt hord h
  have hstep : ∀ i, l ≠ .step i := fun i hi => hl ⟨i, hi⟩
  have hs := step_started hstep h
  refine ⟨hp.owned.step (fun i _ _ hi => absurd hi (hstep i)) h, fun hc => ?_, fun hf => ?_, fun pc hpc hsw => ?_⟩
  · rw [hs.swept, hs.disconnected] at hc
    rw [hs.pending]
    exact hp.closed hc
  · rw [hs.finished] at hf
    rw [hs.swept]
    exact hp.finished hf
  · rcases hs.threads pc hpc with hpc | hns
    · rw [hs.swept]
      exact hp.sweeping pc hpc hsw
    · rw [hns] at hsw
      cases hsw

theorem closing_init (transport : Transport) : Closing (init transport) where
  owned := owned_init transport
  closed := fun _ => rfl
  finished := fun h => by cases h
  sweeping := fun pc h => by cases h

theorem Closing.noOrphans {p : Pool State Pc} (hp : Closing p) : NoOrphans p := by
  intro hend _
  have hempty : p.shared.pending = ∅ := hp.closed (hend.imp_left hp.finished)
  refine ⟨hempty, fun c hc => ?_⟩
  have hmem := hp.owned.owned.mem_iff.2 hc
  rw [State.placed, hempty, Dict.values_empty, List.nil_append] at hmem
  rcases List.mem_append.1 hmem with hheld | hinv
  · exact .inr (Pool.mem_held.1 hheld)
  · exact .inl hinv

/-- **In orderly runs no request is orphaned.** -/
theorem noOrphans_of_orderly {transport : Transport} {labels : List Label} {p : Pool State Pc}
    (hord : Lts.Meets step Orderly (init transport) labels) (hrun : Lts.run step (init transport) labels = some p) :
    NoOrphans p :=
  (Lts.meets_invariant (fun _ _ _ hp hg hstep => Closing.step hp hg hstep) (closing_init transport) hord hrun).noOrphans

/-- A request that is outstanding when the session disconnects, and every section of the disconnect. -/
def disconnectOutstanding : List Label :=
  [.sendRequest (bytes "tools/list") none {}, .step 0, .step 0, .step 0, .disconnect false,
    .step 1, .step 1, .step 1, .step 1, .step 1, .step 1, .step 1]

/-- Over the HTTP session transport the disconnect itself emits the close event, and the request fails with it. -/
theorem noOrphans_of_orderly_session :
    ∃ p, Lts.run step (init (.session false)) disconnectOutstanding = some p ∧ p.shared.disconnected = true ∧
      p.shared.invoked = [(0, .error closedError)] ∧ NoOrphans p :=
  ⟨_, rfl, rfl, rfl, @noOrphans_of_orderly (.session false) disconnectOutstanding _ (by decide) rfl⟩

/-- Over stdio the reader returns without a close event, and the request stays pending for ever. -/
theorem stdio_disconnect_orphans :
    ∃ p, Lts.run step (init (.stdio false .none)) [.connect, .sendRequest (bytes "tools/list") none {}, .step 0, .step 0,
        .step 0, .disconnect false, .step 1, .readerReturns, .step 1, .step 1] = some p ∧
      p.shared.disconnected = true ∧ p.threads = [.done, .done] ∧ ¬ NoOrphans p := by
  refine ⟨_, rfl, rfl, rfl, fun h => ?_⟩
  have hempty := (h (.inr rfl) (by decide)).1
  exact absurd (congrArg Dict.values hempty) (by decide)

end Requests
end Mcp
