import McpSdk.Deadlines
/-!
# Tracking — what a finished request leaves in the timers

A request is tracked in two tables: its deadline under its id, its progress callback under its token.  `clear_tracking`
finds the callback through the deadline, so a request with a callback and no timeout keeps its callback for good.  Nor
does anything clear a request that is tracked only after it was completed.
-/
namespace Mcp

namespace Timers

variable {t : Timers} {now : TimePoint} {token : ProgressToken}

/-- There is something to track. -/
def tracks (o : RequestOptions) : Bool := (timeoutOf o).isSome || (o.progressToken.isSome && o.onProgress.isSome)

theorem callback_track {id : RequestId} {o : RequestOptions} (h : token ∈ (t.track now id o).progressCallbacks) :
    (o.progressToken = some token ∧ o.onProgress.isSome = true) ∨ token ∈ t.progressCallbacks := by
  unfold track at h
  dsimp only at h
  split at h
  · rename_i own callback howner hcallback
    rcases (AList.mem_insert _).1 h with rfl | h
    · exact .inl ⟨howner, by rw [hcallback]; rfl⟩
    · exact .inr h
  · exact .inr h

theorem mem_eraseToken {callbacks : Dict ProgressToken Callback} {own : Option ProgressToken}
    (h : token ∈ eraseToken callbacks own) : token ∈ callbacks ∧ own ≠ some token := by
  cases own with
  | none => exact ⟨h, fun h => by cases h⟩
  | some own =>
    obtain ⟨hne, h⟩ := AList.mem_erase.1 h
    exact ⟨h, fun heq => hne (Option.some.inj heq).symm⟩

/-- A callback survives the clearing of an id whose deadline is of another token. -/
theorem callback_clear {id : RequestId} (h : token ∈ (t.clear id).progressCallbacks) :
    token ∈ t.progressCallbacks ∧ ∀ d, t.deadlines.lookup id = some d → d.progressToken ≠ some token := by
  unfold clear at h
  cases hl : t.deadlines.lookup id with
  | none =>
    rw [hl] at h
    exact ⟨h, fun d hd => by cases hd⟩
  | some d =>
    rw [hl] at h
    obtain ⟨h, hne⟩ := mem_eraseToken h
    refine ⟨h, fun e he => ?_⟩
    rw [← Option.some.inj he]
    exact hne

theorem mem_foldl_eraseToken : ∀ {ds : List Deadline} {callbacks : Dict ProgressToken Callback},
    token ∈ ds.foldl (fun cs d => eraseToken cs d.progressToken) callbacks →
      token ∈ callbacks ∧ ∀ d ∈ ds, d.progressToken ≠ some token
  | [], _, h => ⟨h, fun _ hd => by cases hd⟩
  | e :: ds, callbacks, h => by
    rw [List.foldl_cons] at h
    obtain ⟨h, hne⟩ := mem_foldl_eraseToken h
    obtain ⟨h, hfirst⟩ := mem_eraseToken h
    refine ⟨h, fun d hd => ?_⟩
    rcases List.mem_cons.1 hd with rfl | hd
    · exact hfirst
    · exact hne d hd

/-- And a scan, if the deadlines of its token have time left. -/
theorem callback_expire (h : token ∈ (t.expire now).2.progressCallbacks) :
    token ∈ t.progressCallbacks ∧
      ∀ id ∈ (t.expire now).1, ∀ d, t.deadlines.lookup id = some d → d.progressToken ≠ some token := by
  obtain ⟨h, hne⟩ := mem_foldl_eraseToken h
  refine ⟨h, fun id hid d hd => hne d ?_⟩
  obtain ⟨e, he, hle⟩ := mem_expire_keys.1 hid
  rw [hd] at he
  obtain rfl := Option.some.inj he
  have hmem : (⟨id, d⟩ : (_ : RequestId) × Deadline) ∈ t.deadlines.entries := AList.mem_lookup_iff.1 hd
  exact List.mem_map.2 ⟨⟨id, d⟩, List.mem_filter.2 ⟨hmem, decide_eq_true hle⟩, rfl⟩

end Timers

namespace Tracking

open Requests (State Pc Label Transport idOf Owned)

/-! ## The options of a run -/

/-- A session, and the options each `send_request` call was given. -/
structure Tracked where
  pool : Pool State Pc
  options : List (Callback × RequestOptions) := []

/-- The request a step begins; a call that cannot put the token into its params begins none. -/
def begun (p : Pool State Pc) : Label → List (Callback × RequestOptions)
  | .sendRequest _ params options =>
    match Requests.requestParams params options with
    | .ok _ => [(p.shared.calls, options)]
    | .error _ => []
  | _ => []

def step (t : Tracked) (l : Label) : Option Tracked :=
  (Requests.step t.pool l).map fun pool => { pool, options := t.options ++ begun t.pool l }

def init (transport : Transport) : Tracked := { pool := Requests.init transport }

/-! ## The property and the condition -/

/-- No two requests of the run share a progress token. -/
def Distinct (options : List (Callback × RequestOptions)) : Prop := (options.filterMap (fun e => e.2.progressToken)).Nodup

/-- The id a `send_request` that has not returned sends under. -/
def sendingId : Pc → Option RequestId
  | .sendRegister id _ _ _ _ => some id
  | .sendTrack id _ _ _ => some id
  | .sendMessage id _ _ => some id
  | _ => none

/-- The callback of call `c` was invoked, and the call has returned. -/
def Finished (t : Tracked) (c : Callback) : Prop :=
  c ∈ t.pool.shared.invoked.map Prod.fst ∧ ∀ pc ∈ t.pool.threads, sendingId pc ≠ some (idOf c)

/-- **No finished request is tracked**: neither its deadline nor its callback is stored, and a progress with its token
calls nothing. -/
def Cleared (t : Tracked) : Prop :=
  ∀ e ∈ t.options, Finished t e.1 →
    t.pool.shared.timers.deadlines.lookup (idOf e.1) = none ∧
      ∀ token, e.2.progressToken = some token →
        t.pool.shared.timers.progressCallbacks.lookup token = none ∧
          (t.pool.shared.timers.progress t.pool.shared.now token).1 = none

/-- A request is pending, and no thread is between clearing it and taking its callback. -/
def Live (p : Pool State Pc) (id : RequestId) : Prop := id ∈ p.shared.pending ∧ ∀ pc ∈ p.threads, pc.clears id = false

/-- A pending request whose callback is stored and whose deadline is not. -/
def Untimed (t : Tracked) (id : RequestId) : Prop :=
  id ∈ t.pool.shared.pending ∧ t.pool.shared.timers.deadlines.lookup id = none ∧
    ∃ e ∈ t.options, idOf e.1 = id ∧ e.2.progressToken.any (fun token => decide (token ∈ t.pool.shared.timers.progressCallbacks)) = true

/-- **The condition on a section**: it tracks a request that nobody is about to complete, and it does not clear a pending
request that has a callback and no deadline. -/
def TidySection (t : Tracked) : Pc → Prop
  | .sendTrack id _ _ options => Timers.tracks options = true → Live t.pool id
  | .responseClear id _ => ¬ Untimed t id
  | .cancelClear id _ => ¬ Untimed t id
  | _ => True

def Tidy (t : Tracked) : Label → Prop
  | .step i => ∀ pc, t.pool.threads[i]? = some pc → TidySection t pc
  | _ => True

instance (options : List (Callback × RequestOptions)) : Decidable (Distinct options) :=
  inferInstanceAs (Decidable (List.Nodup _))

instance (p : Pool State Pc) (id : RequestId) : Decidable (Live p id) := inferInstanceAs (Decidable (_ ∧ _))

instance (t : Tracked) (id : RequestId) : Decidable (Untimed t id) := inferInstanceAs (Decidable (_ ∧ _ ∧ _))

instance (t : Tracked) : ∀ pc, Decidable (TidySection t pc)
  | .sendTrack id _ _ options => inferInstanceAs (Decidable (Timers.tracks options = true → Live t.pool id))
  | .responseClear id _ => inferInstanceAs (Decidable (¬ Untimed t id))
  | .cancelClear id _ => inferInstanceAs (Decidable (¬ Untimed t id))
  | .done | .sendRegister .. | .sendMessage .. | .responseTake .. | .responseCall .. | .progressClock _ | .progressCall ..
  | .cancelTake .. | .cancelNotify .. | .cancelCall _ | .expired _ | .expireTake .. | .expireCall .. | .closeState _
  | .closeClear _ | .closeSwap _ | .closeCalls .. | .transportStop .. | .transportJoin .. | .transportReturn _ => isTrue trivial

instance (t : Tracked) : ∀ l, Decidable (Tidy t l)
  | .step i =>
    match h : t.pool.threads[i]? with
    | none => isTrue fun pc hpc => by rw [h] at hpc; cases hpc
    | some pc => decidable_of_iff (TidySection t pc)
        ⟨fun ht x hx => by rw [h] at hx; cases hx; exact ht, fun ht => ht pc h⟩
  | .connect | .sendRequest .. | .response _ | .progress _ | .cancelRequest .. | .timerScan | .tick _ | .readerCloses
  | .readerReturns | .disconnect _ | .transportDisconnect _ => isTrue trivial

/-! ## The invariant -/

/-- Something of the request is stored. -/
def Stored (timers : Timers) (e : Callback × RequestOptions) : Prop :=
  idOf e.1 ∈ timers.deadlines ∨ ∃ token, e.2.progressToken = some token ∧ token ∈ timers.progressCallbacks

/-- **The invariant**: what is stored belongs to a request of the run, and a request that something is stored of is live. -/
structure Held (t : Tracked) : Prop where
  passed : t.options.map Prod.fst = t.pool.shared.passed
  sending : ∀ pc ∈ t.pool.threads, ∀ id options, pc.request = some (id, options) → ∃ e ∈ t.options, id = idOf e.1 ∧ options = e.2
  deadline : ∀ id d, t.pool.shared.timers.deadlines.lookup id = some d →
    ∃ e ∈ t.options, id = idOf e.1 ∧ d.progressToken = e.2.progressToken
  callback : ∀ token ∈ t.pool.shared.timers.progressCallbacks, ∃ e ∈ t.options, e.2.progressToken = some token
  live : ∀ e ∈ t.options, Stored t.pool.shared.timers e → Live t.pool (idOf e.1)

/-- What the pending table and the tokens are known to satisfy. -/
structure Sound (t : Tracked) : Prop where
  owned : Owned t.pool
  bound : t.pool.shared.calls < 2 ^ 63
  distinct : Distinct t.options

section Facts

variable {t : Tracked}

theorem Held.lt_calls (h : Held t) (hs : Sound t) {e : Callback × RequestOptions} (he : e ∈ t.options) :
    e.1 < t.pool.shared.calls := by
  have hpassed : e.1 ∈ t.pool.shared.passed := by
    rw [← h.passed]
    exact List.mem_map_of_mem he
  exact List.mem_range.1 (hs.owned.passed.subset hpassed)

/-- The ids of requests tell them apart. -/
theorem Held.eq_of_id (h : Held t) (hs : Sound t) {e f : Callback × RequestOptions} (he : e ∈ t.options) (hf : f ∈ t.options)
    (hid : idOf e.1 = idOf f.1) : e = f := by
  have hlt : t.pool.shared.calls < 2 ^ 64 := Nat.lt_trans hs.bound (by decide)
  have hfst := Requests.idOf_inj (Nat.lt_trans (h.lt_calls hs he) hlt) (Nat.lt_trans (h.lt_calls hs hf) hlt) hid
  have hnodup : (t.options.map Prod.fst).Nodup := by
    rw [h.passed]
    exact hs.owned.passed.nodup List.nodup_range
  exact List.inj_on_of_nodup_map hnodup he hf hfst

end Facts

/-- And so do their tokens. -/
theorem eq_of_token {token : ProgressToken} : ∀ {options : List (Callback × RequestOptions)}, Distinct options →
    ∀ {e f : Callback × RequestOptions}, e ∈ options → f ∈ options → e.2.progressToken = some token →
      f.2.progressToken = some token → e = f
  | [], _, _, _, he, _, _, _ => by cases he
  | g :: options, hdistinct, e, f, he, hf, htoken, hsame => by
    have hrest : Distinct options := List.Nodup.sublist ((List.sublist_cons_self g options).filterMap _) hdistinct
    have hfirst : g.2.progressToken = some token → ∀ x ∈ options, x.2.progressToken ≠ some token := by
      intro hg x hx hxtoken
      rw [Distinct, List.filterMap_cons, hg] at hdistinct
      exact (List.nodup_cons.1 hdistinct).1 (List.mem_filterMap.2 ⟨x, hx, hxtoken⟩)
    rcases List.mem_cons.1 he with rfl | hin <;> rcases List.mem_cons.1 hf with rfl | hin'
    · rfl
    · exact absurd hsame (hfirst htoken f hin')
    · exact absurd htoken (hfirst hsame e hin)
    · exact eq_of_token hrest hin hin' htoken hsame

/-! ## Steps -/

theorem Stored.of_lookup {timers : Timers} {e : Callback × RequestOptions} {d : Deadline}
    (h : timers.deadlines.lookup (idOf e.1) = some d) : Stored timers e :=
  .inl (AList.lookup_isSome.1 (by rw [h]; rfl))

/-- A deadline after a section was there before, or is the one the section tracks. -/
theorem deadline_of_move {s s' : State} {pc pc' : Pc} (hmove : Requests.TimerMove s pc s' pc') {id : RequestId} {d : Deadline}
    (hd : s'.timers.deadlines.lookup id = some d) :
    (∃ e, s.timers.deadlines.lookup id = some e ∧ d.progressToken = e.progressToken) ∨
      ∃ method params options, pc = .sendTrack id method params options ∧ Timers.tracks options = true ∧
        d.progressToken = options.progressToken := by
  cases hmove with
  | keep timers | register _ _ _ _ _ _ _ timers | take _ _ _ timers | takeAll _ _ timers =>
    rw [timers] at hd
    exact .inl ⟨d, hd, rfl⟩
  | track k method params options before after timers =>
    rw [timers] at hd
    rcases Timers.lookup_track hd with ⟨rfl, timeout, htimed, rfl⟩ | ⟨-, hd⟩
    · exact .inr ⟨method, params, options, before, by simp [Timers.tracks, htimed], rfl⟩
    · exact .inl ⟨d, hd, rfl⟩
  | clear k before after timers =>
    rw [timers] at hd
    exact .inl ⟨d, (Timers.lookup_clear hd).2, rfl⟩
  | progress note before after timers =>
    rw [timers] at hd
    obtain ⟨e, he, rfl⟩ := Timers.lookup_progress hd
    refine .inl ⟨e, he, ?_⟩
    split <;> rfl
  | clearAll after timers =>
    rw [timers] at hd
    cases hd

theorem callback_of_move {s s' : State} {pc pc' : Pc} (hmove : Requests.TimerMove s pc s' pc') {token : ProgressToken}
    (h : token ∈ s'.timers.progressCallbacks) :
    token ∈ s.timers.progressCallbacks ∨
      ∃ id method params options, pc = .sendTrack id method params options ∧ Timers.tracks options = true ∧
        options.progressToken = some token := by
  cases hmove with
  | keep timers | register _ _ _ _ _ _ _ timers | take _ _ _ timers | takeAll _ _ timers =>
    rw [timers] at h
    exact .inl h
  | track id method params options before after timers =>
    rw [timers] at h
    rcases Timers.callback_track h with ⟨htoken, hcallback⟩ | h
    · exact .inr ⟨id, method, params, options, before, by simp [Timers.tracks, htoken, hcallback], htoken⟩
    · exact .inl h
  | clear id before after timers =>
    rw [timers] at h
    exact .inl (Timers.callback_clear h).1
  | progress note before after timers =>
    rw [timers] at h
    exact .inl h
  | clearAll after timers =>
    rw [timers] at h
    cases h

section Steps

variable {t : Tracked}

/-- A live request stays live over a section that neither completes it nor is about to. -/
theorem Live.set {p : Pool State Pc} {k : RequestId} (h : Live p k) {s' : State} {pc' : Pc} (i : Nat) (hpending : k ∈ s'.pending)
    (hclears : pc'.clears k = false) : Live ⟨s', p.threads.set i pc'⟩ k :=
  ⟨hpending, Pool.forall_set h.2 i hclears⟩

theorem clears_eq_false {pc : Pc} {k : RequestId} (h : ¬ pc.clears k = true) : pc.clears k = false := by
  simpa using h

/-- **What is stored before and after a section is live after it.** -/
theorem Held.live_section (h : Held t) (hs : Sound t) {i : Nat} {pc pc' : Pc} {s' : State} (hpc : t.pool.threads[i]? = some pc)
    (hmove : Requests.TimerMove t.pool.shared pc s' pc') (htidy : TidySection t pc) {e : Callback × RequestOptions}
    (he : e ∈ t.options) (hbefore : Stored t.pool.shared.timers e) (hafter : Stored s'.timers e) :
    Live ⟨s', t.pool.threads.set i pc'⟩ (idOf e.1) := by
  have hlive := h.live e he hbefore
  have hown : pc.clears (idOf e.1) = false := hlive.2 pc (List.mem_of_getElem? hpc)
  cases hmove with
  | keep timers pending clears =>
    refine hlive.set i (by rw [pending]; exact hlive.1) (clears_eq_false fun hk => ?_)
    rw [clears _ hk] at hown
    cases hown
  | register id callback method params options before after timers pending =>
    refine hlive.set i ?_ (by rw [after]; rfl)
    rw [pending]
    exact (AList.mem_insert _).2 (.inr hlive.1)
  | track id method params options before after timers pending =>
    exact hlive.set i (by rw [pending]; exact hlive.1) (by rw [after]; rfl)
  | progress note before after timers pending =>
    exact hlive.set i (by rw [pending]; exact hlive.1) (after _)
  | take id before after timers pending =>
    have hne : idOf e.1 ≠ id := by
      intro heq
      rw [heq, before] at hown
      cases hown
    refine hlive.set i ?_ (clears_eq_false fun hk => ?_)
    · rw [pending]
      exact AList.mem_erase.2 ⟨hne, hlive.1⟩
    · rw [after _ hk] at hown
      cases hown
  | clearAll after timers =>
    rw [timers] at hafter
    rcases hafter with hmem | ⟨token, -, hmem⟩ <;> cases hmem
  | takeAll before =>
    rw [before] at hown
    cases hown
  | clear id before after timers pending =>
    have hne : idOf e.1 ≠ id := by
      rintro rfl
      rw [timers] at hafter
      rcases hafter with hmem | ⟨token, htoken, hmem⟩
      · obtain ⟨d, hd⟩ := Option.isSome_iff_exists.1 (AList.lookup_isSome.2 hmem)
        exact (Timers.lookup_clear hd).1 rfl
      · obtain ⟨hmem, hcleared⟩ := Timers.callback_clear hmem
        cases hd : t.pool.shared.timers.deadlines.lookup (idOf e.1) with
        | none =>
          -- without a deadline the callback is left over, which the condition excludes
          have huntimed : Untimed t (idOf e.1) := ⟨hlive.1, hd, e, he, rfl, by rw [htoken]; exact decide_eq_true hmem⟩
          cases pc <;> cases before <;> exact htidy huntimed
        | some d =>
          obtain ⟨f, hf, hid, hown⟩ := h.deadline _ d hd
          obtain rfl := h.eq_of_id hs he hf hid
          exact hcleared d hd (hown.trans htoken)
    exact hlive.set i (by rw [pending]; exact hlive.1) (clears_eq_false fun hk => hne ((after _).1 hk))

/-- **The section of a thread** under the condition. -/
theorem Held.section_ (h : Held t) (hs : Sound t) {i : Nat} {pc pc' : Pc} {s' : State} (hpc : t.pool.threads[i]? = some pc)
    (hadv : Requests.advance t.pool.shared pc = some (s', pc')) (htidy : TidySection t pc) :
    Held ⟨⟨s', t.pool.threads.set i pc'⟩, t.options⟩ := by
  have hspec := Requests.advance_timers hadv
  have hmem := List.mem_of_getElem? hpc
  -- the request a tracking section is of
  have htracked : ∀ {id : RequestId} {method : Bytes} {params : Option Json} {options : RequestOptions},
      pc = .sendTrack id method params options → ∃ e ∈ t.options, id = idOf e.1 ∧ options = e.2 := by
    rintro id method params options rfl
    exact h.sending _ hmem id options rfl
  have hsent : ∀ {id : RequestId} {method : Bytes} {params : Option Json} {options : RequestOptions},
      pc = .sendTrack id method params options → Timers.tracks options = true → Live ⟨s', t.pool.threads.set i pc'⟩ id := by
    rintro id method params options rfl htracks
    obtain ⟨rfl, rfl⟩ := Pool.section_inj hadv
    exact (htidy htracks).set i (htidy htracks).1 rfl
  exact {
    passed := by
      show t.options.map Prod.fst = s'.passed
      rw [(Requests.advance_move hadv).1.passed, h.passed]
    sending := by
      refine Pool.forall_set h.sending i fun id options hrequest => ?_
      rcases hspec.request with hnone | hsame
      · rw [hnone] at hrequest
        cases hrequest
      · exact h.sending pc hmem id options (hsame ▸ hrequest)
    deadline := by
      intro id d hd
      rcases deadline_of_move hspec.move hd with ⟨d', hd', htoken⟩ | ⟨method, params, options, hpc', -, htoken⟩
      · obtain ⟨e, he, hid, hown⟩ := h.deadline id d' hd'
        exact ⟨e, he, hid, htoken.trans hown⟩
      · obtain ⟨e, he, hid, rfl⟩ := htracked hpc'
        exact ⟨e, he, hid, htoken⟩
    callback := by
      intro token htoken
      rcases callback_of_move hspec.move htoken with hbefore | ⟨id, method, params, options, hpc', -, hown⟩
      · exact h.callback token hbefore
      · obtain ⟨e, he, -, rfl⟩ := htracked hpc'
        exact ⟨e, he, hown⟩
    live := by
      intro e he hstored
      by_cases hbefore : Stored t.pool.shared.timers e
      · exact h.live_section hs hpc hspec.move htidy he hbefore hstored
      · rcases hstored with hmem | ⟨token, htoken, hmem⟩
        · obtain ⟨d, hd⟩ := Option.isSome_iff_exists.1 (AList.lookup_isSome.2 hmem)
          rcases deadline_of_move hspec.move hd with ⟨d', hd', -⟩ | ⟨method, params, options, hpc', htracks, -⟩
          · exact absurd (Stored.of_lookup hd') hbefore
          · exact hsent hpc' htracks
        · rcases callback_of_move hspec.move hmem with hmem | ⟨id, method, params, options, hpc', htracks, hown⟩
          · exact absurd (.inr ⟨token, htoken, hmem⟩) hbefore
          · obtain ⟨f, hf, rfl, rfl⟩ := htracked hpc'
            obtain rfl := eq_of_token hs.distinct he hf htoken hown
            exact hsent hpc' htracks }

/-- **A scan** takes a callback out with the deadline that has run out. -/
theorem Held.scan (h : Held t) (hs : Sound t) :
    Held ⟨t.pool.spawn { t.pool.shared with timers := (t.pool.shared.timers.expire t.pool.shared.now).2 }
      (.expired (t.pool.shared.timers.expire t.pool.shared.now).1), t.options⟩ where
  passed := h.passed
  sending := Pool.forall_append_singleton h.sending fun _ _ hrequest => by cases hrequest
  deadline := fun id d hd => h.deadline id d (Timers.lookup_expire hd).1
  callback := fun token htoken => h.callback token (Timers.callback_expire htoken).1
  live := by
    intro e he hstored
    have hbefore : Stored t.pool.shared.timers e := by
      rcases hstored with hmem | ⟨token, htoken, hmem⟩
      · obtain ⟨d, hd⟩ := Option.isSome_iff_exists.1 (AList.lookup_isSome.2 hmem)
        exact .of_lookup (Timers.lookup_expire hd).1
      · exact .inr ⟨token, htoken, (Timers.callback_expire hmem).1⟩
    have hkept : idOf e.1 ∉ (t.pool.shared.timers.expire t.pool.shared.now).1 := by
      intro hexpired
      obtain ⟨d, hd, hle⟩ := Timers.mem_expire_keys.1 hexpired
      rcases hstored with hmem | ⟨token, htoken, hmem⟩
      · obtain ⟨d', hd'⟩ := Option.isSome_iff_exists.1 (AList.lookup_isSome.2 hmem)
        obtain ⟨hsame, hlate⟩ := Timers.lookup_expire hd'
        rw [hd] at hsame
        obtain rfl := Option.some.inj hsame
        exact absurd hlate (Int.not_lt.2 hle)
      · obtain ⟨f, hf, hid, hown⟩ := h.deadline _ d hd
        obtain rfl := h.eq_of_id hs he hf hid
        exact (Timers.callback_expire hmem).2 _ hexpired d hd (hown.trans htoken)
    have hlive := h.live e he hbefore
    exact ⟨hlive.1, Pool.forall_append_singleton hlive.2 (by simpa [Pc.clears] using hkept)⟩

theorem passed_step {p q : Pool State Pc} {l : Label} (h : Requests.step p l = some q) :
    q.shared.passed = p.shared.passed ++ (begun p l).map Prod.fst := by
  cases l with
  | sendRequest method params options =>
    obtain rfl := Option.some.inj h
    show (Requests.startSend p.shared method params options).1.passed = _
    simp only [Requests.startSend, begun]
    cases Requests.requestParams params options with
    | error e => exact (List.append_nil _).symm
    | ok params => rfl
  | step i =>
    obtain ⟨pc, s', pc', -, hadv, rfl⟩ := Pool.stepAt_eq_some.1 h
    rw [show begun p (.step i) = [] from rfl, List.map_nil, List.append_nil]
    exact (Requests.advance_move hadv).1.passed
  | timerScan =>
    simp only [Requests.step] at h
    split at h
    · cases h
    · obtain rfl := Option.some.inj h
      exact (List.append_nil _).symm
  | readerCloses | readerReturns =>
    obtain ⟨_, _, rfl⟩ := Option.map_eq_some_iff.1 h
    exact (List.append_nil _).symm
  | connect | response | progress | cancelRequest | tick | disconnect | transportDisconnect =>
    obtain rfl := Option.some.inj h
    exact (List.append_nil _).symm

/-- A request that has just begun is the one of the freshly drawn id. -/
theorem mem_begun {p : Pool State Pc} {l : Label} {e : Callback × RequestOptions} (h : e ∈ begun p l) : e.1 = p.shared.calls := by
  cases l with
  | sendRequest method params options =>
    simp only [begun] at h
    split at h
    · rw [List.mem_singleton.1 h]
    · cases h
  | _ => cases h

/-- A request that starts now has nothing stored yet. -/
theorem Held.options_of_stored (h : Held t) (hs : Sound t) {l : Label} (hdistinct : Distinct (t.options ++ begun t.pool l))
    {e : Callback × RequestOptions} (he : e ∈ t.options ++ begun t.pool l) (hstored : Stored t.pool.shared.timers e) :
    e ∈ t.options := by
  rcases List.mem_append.1 he with hold | hnew
  · exact hold
  · have hcalls := mem_begun hnew
    rcases hstored with hmem | ⟨token, htoken, hmem⟩
    · obtain ⟨d, hd⟩ := Option.isSome_iff_exists.1 (AList.lookup_isSome.2 hmem)
      obtain ⟨f, hf, hid, -⟩ := h.deadline _ d hd
      have hlt := h.lt_calls hs hf
      have hbound : t.pool.shared.calls < 2 ^ 64 := Nat.lt_trans hs.bound (by decide)
      have hfst := Requests.idOf_inj (hcalls ▸ hbound) (Nat.lt_trans hlt hbound) hid
      exact absurd (hfst.symm.trans hcalls) (Nat.ne_of_lt hlt)
    · obtain ⟨f, hf, hown⟩ := h.callback token hmem
      rwa [eq_of_token hdistinct he (List.mem_append_left _ hf) htoken hown]

/-- **A step from outside** stores nothing. -/
theorem Held.outside (h : Held t) (hs : Sound t) {q : Pool State Pc} {l : Label} (hstep : Requests.step t.pool l = some q)
    (hspec : Requests.Outside t.pool l q) (hdistinct : Distinct (t.options ++ begun t.pool l)) :
    Held ⟨q, t.options ++ begun t.pool l⟩ := by
  obtain ⟨started, hthreads, hstarted⟩ := hspec.threads
  exact {
    passed := by
      show (t.options ++ begun t.pool l).map Prod.fst = q.shared.passed
      rw [List.map_append, h.passed, passed_step hstep]
    sending := by
      intro pc hpc id options hrequest
      rw [hthreads] at hpc
      rcases List.mem_append.1 hpc with hpc | hpc
      · obtain ⟨e, he, heq⟩ := h.sending pc hpc id options hrequest
        exact ⟨e, List.mem_append_left _ he, heq⟩
      · obtain ⟨method, params, sent, rfl, rfl, hsent⟩ := (hstarted pc hpc).2 id options hrequest
        refine ⟨(t.pool.shared.calls, options), List.mem_append_right _ ?_, hs.owned.drawn, rfl⟩
        simp [begun, hsent]
    deadline := by
      intro id d hd
      rw [hspec.timers] at hd
      obtain ⟨e, he, heq⟩ := h.deadline id d hd
      exact ⟨e, List.mem_append_left _ he, heq⟩
    callback := by
      intro token htoken
      rw [hspec.timers] at htoken
      obtain ⟨e, he, heq⟩ := h.callback token htoken
      exact ⟨e, List.mem_append_left _ he, heq⟩
    live := by
      intro e he hstored
      rw [hspec.timers] at hstored
      have hlive := h.live e (h.options_of_stored hs hdistinct he hstored) hstored
      refine ⟨by rw [hspec.pending]; exact hlive.1, fun pc hpc => ?_⟩
      rw [hthreads] at hpc
      rcases List.mem_append.1 hpc with hpc | hpc
      · exact hlive.2 pc hpc
      · exact (hstarted pc hpc).1 _ }

/-- **The step lemma**, under the condition. -/
theorem Held.step (h : Held t) (hs : Sound t) {u : Tracked} {l : Label} (hdistinct : Distinct u.options) (htidy : Tidy t l)
    (hstep : step t l = some u) : Held u := by
  obtain ⟨q, hq, rfl⟩ := Option.map_eq_some_iff.1 hstep
  cases Requests.step_shape hq with
  | section_ i label pc s' pc' at_ adv result =>
    subst label result
    rw [show begun t.pool (.step i) = [] from rfl, List.append_nil]
    exact h.section_ hs at_ adv (htidy pc at_)
  | scan label result =>
    subst label result
    rw [show begun t.pool .timerScan = [] from rfl, List.append_nil]
    exact h.scan hs
  | outside hsection hscan spec => exact h.outside hs hq spec hdistinct

end Steps

/-! ## Runs -/

theorem held_init (transport : Transport) : Held (init transport) where
  passed := rfl
  sending := fun _ h => (by cases h)
  deadline := fun _ _ h => (by cases h)
  callback := fun _ h => (by cases h)
  live := fun _ h => (by cases h)

/-- **What is stored of a completed request is nothing.** -/
theorem Held.cleared {t : Tracked} (h : Held t) (hs : Sound t) : Cleared t := by
  intro e he hfinished
  have hgone : idOf e.1 ∉ t.pool.shared.pending := by
    intro hmem
    obtain ⟨c, hc⟩ := Option.isSome_iff_exists.1 (AList.lookup_isSome.2 hmem)
    have hplaced := (List.nodup_append.1 hs.owned.nodup).2.1
    have hpending : c ∈ Dict.values t.pool.shared.pending := (Dict.values_perm_of_lookup hc).mem_iff.2 List.mem_cons_self
    have hlt := hs.owned.lt_calls (List.mem_append_right _ (List.mem_append_left _ hpending))
    have hbound : t.pool.shared.calls < 2 ^ 64 := Nat.lt_trans hs.bound (by decide)
    have hown := Requests.idOf_inj (Nat.lt_trans (h.lt_calls hs he) hbound) (Nat.lt_trans hlt hbound) (hs.owned.keyed _ _ hc)
    exact List.disjoint_of_nodup_append hplaced (hown ▸ hpending) hfinished.1
  have hnothing : ¬ Stored t.pool.shared.timers e := fun hstored => hgone (h.live e he hstored).1
  refine ⟨AList.lookup_eq_none.2 fun hmem => hnothing (.inl hmem), fun token htoken => ?_⟩
  have hnone : t.pool.shared.timers.progressCallbacks.lookup token = none :=
    AList.lookup_eq_none.2 fun hmem => hnothing (.inr ⟨token, htoken, hmem⟩)
  exact ⟨hnone, hnone⟩

/-- **No finished request is tracked**, in a run whose sections all meet the condition. -/
theorem cleared_of_tidy {transport : Transport} {labels : List Label} {t : Tracked}
    (hrun : Lts.run step (init transport) labels = some t) (htidy : Lts.Meets step Tidy (init transport) labels)
    (hbound : t.pool.shared.calls < 2 ^ 63) (hdistinct : Distinct t.options) : Cleared t := by
  have hinv : t.pool.shared.calls < 2 ^ 63 → Distinct t.options → Sound t ∧ Held t := by
    refine Lts.meets_invariant (I := fun t => t.pool.shared.calls < 2 ^ 63 → Distinct t.options → Sound t ∧ Held t) ?_
      (fun hb hd => ⟨⟨Requests.owned_init transport, hb, hd⟩, held_init transport⟩) htidy hrun
    intro t l u h htidy hstep hb hd
    obtain ⟨q, hq, rfl⟩ := Option.map_eq_some_iff.1 hstep
    have hb' := Nat.lt_of_le_of_lt (Requests.calls_le_of_step hq) hb
    have hd' : Distinct t.options := List.Nodup.sublist ((List.sublist_append_left t.options _).filterMap _) hd
    obtain ⟨hs, hheld⟩ := h hb' hd'
    have howned := hs.owned.step (fun _ _ _ _ hpc hid => hs.owned.fresh hb' (List.mem_of_getElem? hpc) hid) hq
    exact ⟨⟨howned, hb, hd⟩, hheld.step hs hd htidy hstep⟩
  obtain ⟨hs, hheld⟩ := hinv hbound hdistinct
  exact hheld.cleared hs

/-- A request with a token and a callback, its answer, and a progress with its token after that. -/
def answeredThenProgress (options : RequestOptions) : List Label :=
  [.sendRequest (bytes "tools/call") none options, .step 0, .step 0, .step 0,
    .response { id := some (.int 1), result := some .null }, .step 1, .step 1, .step 1,
    .progress { progressToken := .int 7 }, .step 2]

/-- With a timeout of 100 ms the answer clears both tables. -/
theorem cleared_of_tidy_timed :
    ∃ t, Lts.run step (init (.stdio true .running))
        (answeredThenProgress { timeout := some 100, progressToken := some (.int 7), onProgress := some 5 }) = some t ∧
      t.pool.shared.invoked.map Prod.fst = [0] ∧ Cleared t :=
  ⟨_, rfl, by decide, @cleared_of_tidy (.stdio true .running)
    (answeredThenProgress { timeout := some 100, progressToken := some (.int 7), onProgress := some 5 }) _ rfl
    (by decide) (by decide) (by decide)⟩

/-- Without one the callback stays, and the next progress calls it. -/
theorem untimed_callback_stays :
    ∃ t, Lts.run step (init (.stdio true .running))
        (answeredThenProgress { progressToken := some (.int 7), onProgress := some 5 } ++ [.step 2]) = some t ∧
      t.pool.shared.calls < 2 ^ 63 ∧ Distinct t.options ∧ ¬ Cleared t ∧
      t.pool.shared.progressed.map Prod.fst = [5] := by
  refine ⟨_, rfl, by decide, by decide, fun hcleared => ?_, by decide⟩
  have hentry := hcleared (0, { progressToken := some (.int 7), onProgress := some 5 }) List.mem_cons_self
    ⟨by decide, by decide⟩
  exact absurd (hentry.2 (.int 7) rfl).1 (by decide)

end Tracking
end Mcp
