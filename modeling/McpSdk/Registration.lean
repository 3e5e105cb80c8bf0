import McpSdk.Handshake
import McpSdk.Lib.Pool
import Mathlib.Data.List.Induction
import Mathlib.Data.List.MinMax
import Mathlib.Order.WithBot
/-!
# Registration — which of the registered handlers a method gets

Patterns are exact or end in `*`.  Among those that match a method the most specific one decides: an exact pattern, else
the longest prefix.  What a later registration of the same pattern does depends on its kind: an exact one overwrites, a
wildcard is kept beside the earlier one, and the earlier one is found (`find_of_best`).
-/
namespace Mcp

variable {H ω : Type}

/-! ## Patterns -/

/-- What a pattern matches. -/
def Matches (pattern method : Bytes) : Prop :=
  if isWildcard pattern then startsWith method pattern.dropLast = true else pattern = method

instance (pattern method : Bytes) : Decidable (Matches pattern method) :=
  inferInstanceAs (Decidable (if isWildcard pattern then startsWith method pattern.dropLast = true else pattern = method))

/-- An exact pattern above every wildcard, a longer prefix above a shorter one. -/
def specificity (pattern : Bytes) : WithTop Nat :=
  if isWildcard pattern then WithTop.some pattern.dropLast.length else ⊤

theorem matches_exact {pattern method : Bytes} (hexact : isWildcard pattern = false) :
    Matches pattern method ↔ pattern = method := by
  simp [Matches, hexact]

theorem matches_wildcard {pattern method : Bytes} (hwild : isWildcard pattern = true) :
    Matches pattern method ↔ startsWith method pattern.dropLast = true := by
  simp [Matches, hwild]

theorem dropLast_append_star {pattern : Bytes} (hwild : isWildcard pattern = true) : pattern.dropLast ++ [ch '*'] = pattern :=
  List.dropLast_append_getLast? _ (eq_of_beq hwild)

/-- Two prefixes of one length are one. -/
theorem eq_of_startsWith {method p q : Bytes} (hp : startsWith method p = true) (hq : startsWith method q = true)
    (hlength : p.length = q.length) : p = q := by
  have hstarts := List.prefix_of_prefix_length_le (List.isPrefixOf_iff_prefix.1 hp) (List.isPrefixOf_iff_prefix.1 hq)
    (Nat.le_of_eq hlength)
  exact hstarts.eq_of_length hlength

/-! ## Histories -/

/-- The handlers set for a pattern, in order. -/
def settings (history : List (Bytes × H)) (pattern : Bytes) : List H :=
  (history.filter (fun entry => entry.1 == pattern)).map Prod.snd

/-- The most specific of the registered patterns that match. -/
structure Best (history : List (Bytes × H)) (method pattern : Bytes) : Prop where
  registered : pattern ∈ history.map Prod.fst
  fits : Matches pattern method
  most : ∀ other ∈ history.map Prod.fst, Matches other method → specificity other ≤ specificity pattern

/-- **The handler most recently set for the most specific pattern.** -/
def MostRecent (history : List (Bytes × H)) (method : Bytes) (found : Option H) : Prop :=
  ∀ pattern, Best history method pattern → found = (settings history pattern).getLast?

/-- **The pattern that decides was not set to anything else**, unless it is exact. -/
def Undisputed (history : List (Bytes × H)) (method : Bytes) : Prop :=
  ∀ pattern, Best history method pattern → isWildcard pattern = true →
    (settings history pattern).head? = (settings history pattern).getLast?

theorem settings_append (history : List (Bytes × H)) (entry : Bytes × H) (pattern : Bytes) :
    settings (history ++ [entry]) pattern = settings history pattern ++ if entry.1 = pattern then [entry.2] else [] := by
  unfold settings
  rw [List.filter_append, List.map_append]
  by_cases h : entry.1 = pattern <;> simp [h]

theorem settings_ne_nil {history : List (Bytes × H)} {pattern : Bytes} (h : pattern ∈ history.map Prod.fst) :
    settings history pattern ≠ [] := by
  obtain ⟨entry, hentry, rfl⟩ := List.mem_map.1 h
  have hmem : entry.2 ∈ settings history entry.1 :=
    List.mem_map_of_mem (List.mem_filter.2 ⟨hentry, beq_self_eq_true _⟩)
  exact List.ne_nil_of_mem hmem

theorem settings_eq_nil {history : List (Bytes × H)} {pattern : Bytes} (h : pattern ∉ history.map Prod.fst) :
    settings history pattern = [] := by
  unfold settings
  rw [List.map_eq_nil_iff, List.filter_eq_nil_iff]
  intro entry hentry heq
  exact h (List.mem_map.2 ⟨entry, hentry, eq_of_beq heq⟩)

/-- One of the patterns that match is most specific. -/
theorem exists_best {history : List (Bytes × H)} {method pattern : Bytes} (hmem : pattern ∈ history.map Prod.fst)
    (hfits : Matches pattern method) : ∃ best, Best history method best := by
  have hne : pattern ∈ (history.map Prod.fst).filter (fun p => decide (Matches p method)) :=
    List.mem_filter.2 ⟨hmem, decide_eq_true hfits⟩
  cases hbest : List.argmax specificity ((history.map Prod.fst).filter (fun p => decide (Matches p method))) with
  | none =>
    rw [List.argmax_eq_none.1 hbest] at hne
    cases hne
  | some best =>
    obtain ⟨hregistered, hbestfits⟩ := List.mem_filter.1 (List.argmax_mem hbest)
    refine ⟨best, hregistered, of_decide_eq_true hbestfits, fun other hother hotherfits => ?_⟩
    exact List.le_of_mem_argmax (List.mem_filter.2 ⟨hother, decide_eq_true hotherfits⟩) hbest

/-! ## The scan for the longest prefix -/

/-- The loop of `match_wildcard`. -/
def longest (patterns : List (Bytes × Option H)) (method : Bytes) : Option (Bytes × Option H) :=
  patterns.foldl (fun (best : Option (Bytes × Option H)) entry =>
    if startsWith method entry.1 && best.all (fun b => decide (b.1.length < entry.1.length)) then some entry else best)
    none

theorem matchWildcard_eq (patterns : List (Bytes × Option H)) (method : Bytes) :
    matchWildcard patterns method = (longest patterns method).bind Prod.snd := rfl

/-- The first of the longest matching prefixes. -/
structure FirstLongest (patterns : List (Bytes × Option H)) (method : Bytes) (entry : Bytes × Option H) : Prop where
  fits : startsWith method entry.1 = true
  split : ∃ before after, patterns = before ++ entry :: after ∧
    (∀ e ∈ before, startsWith method e.1 = true → e.1.length < entry.1.length) ∧
    ∀ e ∈ after, startsWith method e.1 = true → e.1.length ≤ entry.1.length

theorem longest_spec (patterns : List (Bytes × Option H)) (method : Bytes) :
    (longest patterns method = none → ∀ e ∈ patterns, startsWith method e.1 = false) ∧
      ∀ entry, longest patterns method = some entry → FirstLongest patterns method entry := by
  induction patterns using List.reverseRecOn with
  | nil => exact ⟨fun _ => List.forall_mem_nil _, nofun⟩
  | append_singleton patterns next ih =>
    have hstep : longest (patterns ++ [next]) method =
        if startsWith method next.1 && (longest patterns method).all (fun b => decide (b.1.length < next.1.length))
        then some next else longest patterns method := by
      unfold longest
      rw [List.foldl_append, List.foldl_cons, List.foldl_nil]
    rw [hstep]
    cases hnext : startsWith method next.1 with
    | false =>
      rw [Bool.false_and, if_neg Bool.false_ne_true]
      refine ⟨fun hnone => ?_, fun entry hentry => ?_⟩
      · refine Pool.forall_append_singleton (ih.1 hnone) hnext
      · obtain ⟨hfits, before, after, rfl, hbefore, hafter⟩ := ih.2 entry hentry
        refine ⟨hfits, before, after ++ [next], by simp, hbefore, Pool.forall_append_singleton hafter fun h => ?_⟩
        rw [hnext] at h
        cases h
    | true =>
      rw [Bool.true_and]
      cases hbest : longest patterns method with
      | none =>
        refine ⟨nofun, fun entry hentry => ?_⟩
        obtain rfl := Option.some.inj hentry
        refine ⟨hnext, patterns, [], rfl, fun e he hfits => ?_, List.forall_mem_nil _⟩
        rw [ih.1 hbest e he] at hfits
        cases hfits
      | some best =>
        obtain ⟨hfits, before, after, rfl, hbefore, hafter⟩ := ih.2 best hbest
        by_cases hlonger : best.1.length < next.1.length
        · rw [Option.all_some, decide_eq_true hlonger, if_pos rfl]
          refine ⟨nofun, fun entry hentry => ?_⟩
          obtain rfl := Option.some.inj hentry
          refine ⟨hnext, before ++ best :: after, [], rfl, fun e he hefits => ?_, List.forall_mem_nil _⟩
          rcases List.mem_append.1 he with he | he
          · exact Nat.lt_trans (hbefore e he hefits) hlonger
          rcases List.mem_cons.1 he with rfl | he
          · exact hlonger
          · exact Nat.lt_of_le_of_lt (hafter e he hefits) hlonger
        · rw [Option.all_some, decide_eq_false hlonger, if_neg Bool.false_ne_true]
          refine ⟨nofun, fun entry hentry => ?_⟩
          obtain rfl := Option.some.inj hentry
          exact ⟨hfits, before, after ++ [next], by simp, hbefore,
            Pool.forall_append_singleton hafter fun _ => Nat.le_of_not_lt hlonger⟩

/-! ## What a table finds -/

/-- The wildcards of a history, as they are stored. -/
def wildcards (history : List (Bytes × H)) : List (Bytes × Option H) :=
  (history.filter (fun entry => isWildcard entry.1)).map (fun entry => (entry.1.dropLast, some entry.2))

/-- **What the two containers hold** after a history: the last handler of each exact pattern, and every wildcard. -/
structure Records (history : List (Bytes × H)) (exacts : Dict Bytes (Option H)) (wild : List (Bytes × Option H)) : Prop where
  exacts : ∀ pattern, exacts.lookup pattern =
    if isWildcard pattern then none else (settings history pattern).getLast?.map some
  wild : wild = wildcards history

theorem records_nil : Records ([] : List (Bytes × H)) ∅ [] := by
  refine ⟨fun pattern => ?_, rfl⟩
  rw [AList.lookup_empty]
  split <;> rfl

theorem Records.wildcard {history : List (Bytes × H)} {exacts : Dict Bytes (Option H)} {wild : List (Bytes × Option H)}
    (h : Records history exacts wild) {pattern : Bytes} (hwild : isWildcard pattern = true) (handler : H) :
    Records (history ++ [(pattern, handler)]) exacts (wild ++ [(pattern.dropLast, some handler)]) := by
  refine ⟨fun other => ?_, ?_⟩
  · rw [h.exacts other]
    by_cases hother : isWildcard other = true
    · rw [if_pos hother, if_pos hother]
    · have hne : pattern ≠ other := fun heq => hother (heq ▸ hwild)
      rw [if_neg hother, if_neg hother, settings_append, if_neg hne, List.append_nil]
  · rw [h.wild]
    simp [wildcards, hwild]

theorem Records.exact {history : List (Bytes × H)} {exacts : Dict Bytes (Option H)} {wild : List (Bytes × Option H)}
    (h : Records history exacts wild) {pattern : Bytes} (hexact : isWildcard pattern = false) (handler : H) :
    Records (history ++ [(pattern, handler)]) (exacts.insert pattern (some handler)) wild := by
  refine ⟨fun other => ?_, ?_⟩
  · rw [Dict.lookup_insert_ite, settings_append]
    by_cases heq : other = pattern
    · rw [if_pos heq, heq, if_pos rfl, hexact, List.getLast?_append]
      rfl
    · rw [if_neg heq, if_neg (Ne.symm heq), List.append_nil, h.exacts other]
  · rw [h.wild]
    simp [wildcards, hexact]

/-- The body of `find_request_handler` and of `find_notification_handler`. -/
def findHandler (exacts : Dict Bytes (Option H)) (wild : List (Bytes × Option H)) (method : Bytes) : Option H :=
  match exacts.lookup method with
  | some handler => handler
  | none => matchWildcard wild method

theorem mem_wildcards {history : List (Bytes × H)} {entry : Bytes × Option H} (h : entry ∈ wildcards history) :
    ∃ pattern ∈ history.map Prod.fst, isWildcard pattern = true ∧ entry.1 = pattern.dropLast := by
  obtain ⟨stored, hstored, rfl⟩ := List.mem_map.1 h
  obtain ⟨hmem, hwild⟩ := List.mem_filter.1 hstored
  exact ⟨stored.1, List.mem_map_of_mem hmem, hwild, rfl⟩

theorem wildcards_mem {history : List (Bytes × H)} {pattern : Bytes} (hmem : pattern ∈ history.map Prod.fst)
    (hwild : isWildcard pattern = true) : ∃ entry ∈ wildcards history, entry.1 = pattern.dropLast := by
  obtain ⟨stored, hstored, rfl⟩ := List.mem_map.1 hmem
  exact ⟨_, List.mem_map_of_mem (List.mem_filter.2 ⟨hstored, hwild⟩), rfl⟩

/-- The handlers of a wildcard, read off the container. -/
theorem wildcards_settings {pattern : Bytes} (hwild : isWildcard pattern = true) : ∀ history : List (Bytes × H),
    ((wildcards history).filter (fun entry => entry.1 == pattern.dropLast)).map Prod.snd = (settings history pattern).map some
  | [] => rfl
  | (stored, handler) :: history => by
    have ih := wildcards_settings hwild history
    unfold wildcards settings at ih ⊢
    by_cases heq : stored = pattern
    · subst heq
      simp [hwild, ih]
    · by_cases hstored : isWildcard stored = true
      · have hne : stored.dropLast ≠ pattern.dropLast := by
          intro hdrop
          apply heq
          rw [← dropLast_append_star hstored, hdrop, dropLast_append_star hwild]
        simp [hstored, heq, hne, ih]
      · simp [hstored, heq, ih]

/-- An exact pattern beside the best one, which is a wildcard. -/
theorem Best.no_exact {history : List (Bytes × H)} {method pattern : Bytes} (hbest : Best history method pattern)
    (hwild : isWildcard pattern = true) (hexact : isWildcard method = false) : settings history method = [] := by
  apply settings_eq_nil
  intro hmem
  have hle := hbest.most method hmem ((matches_exact hexact).2 rfl)
  unfold specificity at hle
  rw [hexact, hwild, if_neg Bool.false_ne_true, if_pos rfl, top_le_iff] at hle
  exact WithTop.coe_ne_top hle

/-- **The scan finds the first handler of the best wildcard.** -/
theorem matchWildcard_of_best {history : List (Bytes × H)} {method pattern : Bytes} (hbest : Best history method pattern)
    (hwild : isWildcard pattern = true) : matchWildcard (wildcards history) method = (settings history pattern).head? := by
  have hfits := (matches_wildcard hwild).1 hbest.fits
  obtain ⟨own, hown, hownkey⟩ := wildcards_mem hbest.registered hwild
  rw [matchWildcard_eq]
  cases hlongest : longest (wildcards history) method with
  | none =>
    have hmiss := (longest_spec (wildcards history) method).1 hlongest own hown
    rw [hownkey, hfits] at hmiss
    cases hmiss
  | some entry =>
    obtain ⟨hentry, before, after, hsplit, hbefore, hafter⟩ := (longest_spec (wildcards history) method).2 entry hlongest
    have hmem : entry ∈ wildcards history := by
      rw [hsplit]
      exact List.mem_append_right _ List.mem_cons_self
    obtain ⟨found, hfound, hfoundwild, hkey⟩ := mem_wildcards hmem
    have hupper : entry.1.length ≤ pattern.dropLast.length := by
      have hle := hbest.most found hfound ((matches_wildcard hfoundwild).2 (hkey ▸ hentry))
      unfold specificity at hle
      rw [if_pos hfoundwild, if_pos hwild] at hle
      rw [hkey]
      exact WithTop.coe_le_coe.1 hle
    have hlower : pattern.dropLast.length ≤ entry.1.length := by
      rw [hsplit] at hown
      rw [← hownkey] at hfits ⊢
      rcases List.mem_append.1 hown with hown | hown
      · exact Nat.le_of_lt (hbefore own hown hfits)
      rcases List.mem_cons.1 hown with rfl | hown
      · exact Nat.le_refl _
      · exact hafter own hown hfits
    have hstart : entry.1 = pattern.dropLast := eq_of_startsWith hentry hfits (Nat.le_antisymm hupper hlower)
    have hnone : before.filter (fun e => e.1 == pattern.dropLast) = [] := by
      rw [List.filter_eq_nil_iff]
      intro e he heq
      have hlt := hbefore e he (by rw [eq_of_beq heq]; exact hfits)
      rw [eq_of_beq heq, hstart] at hlt
      exact Nat.lt_irrefl _ hlt
    have hstored := wildcards_settings hwild history
    rw [hsplit, List.filter_append, hnone, List.nil_append, List.filter_cons_of_pos (by rw [hstart]; exact beq_self_eq_true _),
      List.map_cons] at hstored
    have hhead := congrArg List.head? hstored
    rw [List.head?_cons, List.head?_map] at hhead
    obtain ⟨handler, hhandler, hsnd⟩ := Option.map_eq_some_iff.1 hhead.symm
    rw [Option.bind_some, hhandler]
    exact hsnd.symm

/-- **What is found for the best pattern**: the last handler set when it is exact, the first one when it is a wildcard. -/
theorem Records.find_of_best {history : List (Bytes × H)} {exacts : Dict Bytes (Option H)} {wild : List (Bytes × Option H)}
    (h : Records history exacts wild) {method pattern : Bytes} (hbest : Best history method pattern) :
    findHandler exacts wild method =
      if isWildcard pattern then (settings history pattern).head? else (settings history pattern).getLast? := by
  unfold findHandler
  rw [h.exacts method, h.wild]
  cases hwild : isWildcard pattern with
  | true =>
    have hlookup : (if isWildcard method then none else (settings history method).getLast?.map some) =
        (none : Option (Option H)) := by
      cases hmethod : isWildcard method with
      | true => rfl
      | false =>
        rw [hbest.no_exact hwild hmethod]
        rfl
    rw [hlookup, if_pos rfl]
    exact matchWildcard_of_best hbest hwild
  | false =>
    have heq := (matches_exact hwild).1 hbest.fits
    have hlast := List.getLast?_eq_some_getLast (settings_ne_nil hbest.registered)
    rw [← heq, hwild, if_neg Bool.false_ne_true, if_neg Bool.false_ne_true, hlast]
    rfl

/-- **Nothing is found exactly when no pattern matches.** -/
theorem Records.find_eq_none_iff {history : List (Bytes × H)} {exacts : Dict Bytes (Option H)}
    {wild : List (Bytes × Option H)} (h : Records history exacts wild) (method : Bytes) :
    findHandler exacts wild method = none ↔ ∀ pattern ∈ history.map Prod.fst, ¬ Matches pattern method := by
  constructor
  · intro hnone pattern hmem hfits
    obtain ⟨best, hbest⟩ := exists_best hmem hfits
    have hne := settings_ne_nil hbest.registered
    rw [h.find_of_best hbest] at hnone
    split at hnone
    · exact hne (List.head?_eq_none_iff.1 hnone)
    · exact hne (List.getLast?_eq_none_iff.1 hnone)
  · intro hnone
    have hlookup : exacts.lookup method = none := by
      rw [h.exacts method]
      cases hmethod : isWildcard method with
      | true => rfl
      | false =>
        rw [settings_eq_nil fun hmem => hnone method hmem ((matches_exact hmethod).2 rfl)]
        rfl
    unfold findHandler
    rw [hlookup, h.wild]
    show matchWildcard (wildcards history) method = none
    rw [matchWildcard_eq]
    cases hlongest : longest (wildcards history) method with
    | none => rfl
    | some entry =>
      obtain ⟨hentry, before, after, hsplit, -⟩ := (longest_spec (wildcards history) method).2 entry hlongest
      have hmem : entry ∈ wildcards history := by
        rw [hsplit]
        exact List.mem_append_right _ List.mem_cons_self
      obtain ⟨pattern, hpattern, hwild, hkey⟩ := mem_wildcards hmem
      exact absurd ((matches_wildcard hwild).2 (hkey ▸ hentry)) (hnone pattern hpattern)

theorem Records.mostRecent_iff {history : List (Bytes × H)} {exacts : Dict Bytes (Option H)}
    {wild : List (Bytes × Option H)} (h : Records history exacts wild) (method : Bytes) :
    MostRecent history method (findHandler exacts wild method) ↔ Undisputed history method := by
  constructor
  · intro hrecent pattern hbest hwild
    have hfound := hrecent pattern hbest
    rwa [h.find_of_best hbest, if_pos hwild] at hfound
  · intro hundisputed pattern hbest
    rw [h.find_of_best hbest]
    split
    · rename_i hwild
      exact hundisputed pattern hbest hwild
    · rfl

/-! ## The router -/

theorem findRequestHandler_eq (r : Router ω) (method : Bytes) :
    r.findRequestHandler method = findHandler r.requestHandlers r.wildcardRequestHandlers method := by
  unfold Router.findRequestHandler findHandler
  cases r.requestHandlers.lookup method <;> rfl

theorem findNotificationHandler_eq (r : Router ω) (method : Bytes) :
    r.findNotificationHandler method = findHandler r.notificationHandlers r.wildcardNotificationHandlers method := by
  unfold Router.findNotificationHandler findHandler
  cases r.notificationHandlers.lookup method <;> rfl

/-- A call of `set_request_handler` or of `set_notification_handler` with a handler that is not empty. -/
inductive Registration (ω : Type) where
  | request (pattern : Bytes) (handler : RequestHandler ω)
  | notification (pattern : Bytes) (handler : NotificationHandler ω)

namespace Registration

def apply (r : Router ω) : Registration ω → Router ω
  | request pattern handler => r.setRequestHandler pattern (some handler)
  | notification pattern handler => r.setNotificationHandler pattern (some handler)

/-- The router after a history of calls. -/
def applyAll (history : List (Registration ω)) : Router ω := history.foldl apply {}

def asRequest : Registration ω → Option (Bytes × RequestHandler ω)
  | request pattern handler => some (pattern, handler)
  | notification .. => none

def asNotification : Registration ω → Option (Bytes × NotificationHandler ω)
  | request .. => none
  | notification pattern handler => some (pattern, handler)

def requests (history : List (Registration ω)) : List (Bytes × RequestHandler ω) := history.filterMap asRequest

def notifications (history : List (Registration ω)) : List (Bytes × NotificationHandler ω) := history.filterMap asNotification

/-- **The router holds what its histories say**, that of the requests and that of the notifications. -/
theorem records (history : List (Registration ω)) :
    Records (requests history) (applyAll history).requestHandlers (applyAll history).wildcardRequestHandlers ∧
      Records (notifications history) (applyAll history).notificationHandlers
        (applyAll history).wildcardNotificationHandlers := by
  induction history using List.reverseRecOn with
  | nil => exact ⟨records_nil, records_nil⟩
  | append_singleton history call ih =>
    have hstep : applyAll (history ++ [call]) = apply (applyAll history) call := by
      unfold applyAll
      rw [List.foldl_append, List.foldl_cons, List.foldl_nil]
    unfold requests notifications at ih ⊢
    rw [hstep, List.filterMap_append, List.filterMap_append]
    obtain ⟨hrequests, hnotifications⟩ := ih
    cases call with
    | request pattern handler =>
      have hsame : (history.filterMap asNotification ++ [request pattern handler].filterMap asNotification) =
          history.filterMap asNotification := List.append_nil _
      rw [hsame]
      cases hwild : isWildcard pattern with
      | true =>
        simp only [apply, Router.setRequestHandler, hwild, if_true]
        exact ⟨hrequests.wildcard hwild handler, hnotifications⟩
      | false =>
        simp only [apply, Router.setRequestHandler, hwild, Bool.false_eq_true, if_false]
        exact ⟨hrequests.exact hwild handler, hnotifications⟩
    | notification pattern handler =>
      have hsame : (history.filterMap asRequest ++ [notification pattern handler].filterMap asRequest) =
          history.filterMap asRequest := List.append_nil _
      rw [hsame]
      cases hwild : isWildcard pattern with
      | true =>
        simp only [apply, Router.setNotificationHandler, hwild, if_true]
        exact ⟨hrequests, hnotifications.wildcard hwild handler⟩
      | false =>
        simp only [apply, Router.setNotificationHandler, hwild, Bool.false_eq_true, if_false]
        exact ⟨hrequests, hnotifications.exact hwild handler⟩

/-- `dispatch` answers by itself exactly when it finds no handler. -/
theorem dispatchRequest_missing_iff (s : Session ω) (w : ω) (r : JsonRpcRequest) :
    s.dispatchRequest w r = (Session.methodNotFound r, s, w, [.dispatch r.method]) ↔
      s.router.findRequestHandler r.method = none := by
  unfold Session.dispatchRequest
  cases s.router.findRequestHandler r.method with
  | none => exact iff_of_true rfl rfl
  | some handler =>
    refine iff_of_false (fun h => ?_) nofun
    have heffects := congrArg (fun out => out.2.2.2.length) h
    cases heffects

/-- **When dispatch selects the handler set last**: when the pattern that decides is exact or was always set to the same
handler.  Requests that no pattern matches, and no others, are answered by the router itself. -/
theorem selects_iff (history : List (Registration ω)) (method : Bytes) :
    (MostRecent (requests history) method ((applyAll history).findRequestHandler method) ∧
        MostRecent (notifications history) method ((applyAll history).findNotificationHandler method) ∧
        ∀ (s : Session ω) (w : ω) (r : JsonRpcRequest),
          ({ s with router := applyAll history }.dispatchRequest w { r with method } =
              (Session.methodNotFound { r with method }, { s with router := applyAll history }, w, [.dispatch method]) ↔
            ∀ pattern ∈ (requests history).map Prod.fst, ¬ Matches pattern method)) ↔
      Undisputed (requests history) method ∧ Undisputed (notifications history) method := by
  obtain ⟨hrequests, hnotifications⟩ := records history
  rw [findRequestHandler_eq, findNotificationHandler_eq]
  constructor
  · rintro ⟨hrequest, hnotification, -⟩
    exact ⟨(hrequests.mostRecent_iff method).1 hrequest, (hnotifications.mostRecent_iff method).1 hnotification⟩
  · rintro ⟨hrequest, hnotification⟩
    refine ⟨(hrequests.mostRecent_iff method).2 hrequest, (hnotifications.mostRecent_iff method).2 hnotification, ?_⟩
    intro s w r
    refine (dispatchRequest_missing_iff _ w _).trans ?_
    rw [findRequestHandler_eq]
    exact hrequests.find_eq_none_iff method

/-- A wildcard set twice. -/
theorem selects_first_wildcard : ¬ ∀ (history : List (Registration Unit)) (method : Bytes),
    MostRecent (requests history) method ((applyAll history).findRequestHandler method) := by
  intro h
  let answering (result : Json) : RequestHandler Unit := .user fun _ w => (.ok (.ok result), w)
  have hbest : Best (requests [request (bytes "a*") (answering (.object [])), request (bytes "a*") (answering .null)])
      (bytes "ab") (bytes "a*") := by
    refine ⟨List.mem_cons_self, by decide, fun other hother _ => ?_⟩
    rcases List.mem_cons.1 hother with rfl | hother
    · exact le_refl _
    · rw [List.mem_singleton.1 hother]
  have hfound : some (answering (.object [])) = some (answering .null) := h _ _ _ hbest
  have hrun := congrFun (congrFun (RequestHandler.user.inj (Option.some.inj hfound)) none) ()
  cases hrun

end Registration

end Mcp
