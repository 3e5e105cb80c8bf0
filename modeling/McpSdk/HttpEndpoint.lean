import McpSdk.HttpHead
/-!
# HttpEndpoint — one connection of the HTTP listener, and the origins it lets in

`handleConnection` runs one connection over the chunks its reads return; an empty chunk, or no more chunks, is an end of
the stream, a timeout or a shutdown.  The origin check compares prefixes, so it lets in every origin that merely begins
like a local one (`handleConnection_guards_iff`).
-/
namespace Mcp

/-- `HttpServerOptions`, as far as the endpoint's checks read it. -/
structure HttpServerOptions where
  path : Bytes := bytes "/mcp"
  allowedOrigins : List Bytes := []
  authorize : Option (Dict Bytes Bytes → Bool) := none

namespace HttpEndpoint

def isLocalhostOrigin (origin : Bytes) : Bool :=
  startsWith origin (bytes "http://localhost") || startsWith origin (bytes "http://127.0.0.1") ||
    startsWith origin (bytes "https://localhost") || startsWith origin (bytes "https://127.0.0.1")

def originAllowed (o : HttpServerOptions) (head : HttpHead) : Bool :=
  let origin := head.header (bytes "origin")
  origin.isEmpty || isLocalhostOrigin origin || o.allowedOrigins.any (fun allowed => origin == allowed)

inductive Outcome where
  | closed
  | simple (status : Int32) (reason body : Bytes)
  /-- `handler_(head, body, fd)`. -/
  | handled (head : HttpHead) (body : Bytes)

/-- The loop that reads the head: the head with its length, the buffer and the chunks to come. -/
def readHead (buffer : Bytes) (reads : List Bytes) : Except Outcome (HttpHead × Nat × Bytes × List Bytes) :=
  match parseHead true buffer with
  | .parsed head consumed => .ok (head, consumed, buffer, reads)
  | .malformed _ => .error (.simple 400 (bytes "Bad Request") (bytes "malformed HTTP request"))
  | .incomplete =>
    match reads with
    | [] => .error .closed
    | [] :: _ => .error .closed
    | chunk :: reads => readHead (buffer ++ chunk) reads

/-- The head a connection parses, if it gets that far. -/
def requestHead (reads : List Bytes) : Option HttpHead :=
  match readHead [] reads with
  | .ok (head, _) => some head
  | .error _ => none

/-- The loop that reads the body: at least `length` bytes, or `none` when the stream ends before. -/
def readBody (length : Nat) (body : Bytes) (reads : List Bytes) : Option Bytes :=
  if length ≤ body.length then some body
  else
    match reads with
    | [] => none
    | [] :: _ => none
    | chunk :: reads => readBody length (body ++ chunk) reads

/-- The checks after the head, in order: path, origin, authorization. -/
def refusal (o : HttpServerOptions) (head : HttpHead) : Option Outcome :=
  if head.target ≠ o.path then some (.simple 404 (bytes "Not Found") (bytes "unknown path"))
  else if originAllowed o head = false then some (.simple 403 (bytes "Forbidden") (bytes "origin not allowed"))
  else if o.authorize.any (fun authorize => !authorize head.headers) then
    some (.simple 401 (bytes "Unauthorized") (bytes "authorization failed"))
  else none

/-- The bytes the body takes. -/
def contentLength (head : HttpHead) : Nat := strtoull (head.header (bytes "content-length"))

/-- `handle_connection`, over the chunks of its reads. -/
def handleConnection (o : HttpServerOptions) (reads : List Bytes) : Outcome :=
  match readHead [] reads with
  | .error outcome => outcome
  | .ok (head, consumed, buffer, reads) =>
    match refusal o head with
    | some outcome => outcome
    | none =>
      match readBody (contentLength head) (buffer.drop consumed) reads with
      | none => .closed
      | some body => .handled head body

/-! ## Local origins -/

/-- Nothing, or a colon and a decimal port. -/
def IsPort (s : Bytes) : Prop := s = [] ∨ ∃ digits, digits ≠ [] ∧ (∀ b ∈ digits, isDigit b = true) ∧ s = ch ':' :: digits

/-- **An `http` or `https` origin whose host is exactly `localhost` or `127.0.0.1`.** -/
def IsLocalOrigin (origin : Bytes) : Prop :=
  ∃ scheme ∈ [bytes "http://", bytes "https://"], ∃ host ∈ [bytes "localhost", bytes "127.0.0.1"], ∃ port,
    IsPort port ∧ origin = scheme ++ host ++ port

/-- **The origins that may reach the handler.** -/
def OriginPermitted (o : HttpServerOptions) (origin : Bytes) : Prop :=
  origin = [] ∨ origin ∈ o.allowedOrigins ∨ IsLocalOrigin origin

def Outcome.isHandled : Outcome → Bool
  | handled .. => true
  | _ => false

def Outcome.isForbidden : Outcome → Bool
  | simple status _ _ => status == 403
  | _ => false

/-- **The origin guard** on one connection: only a permitted origin is handled, and every other is answered 403. -/
def Guards (o : HttpServerOptions) (head : HttpHead) (outcome : Outcome) : Prop :=
  (outcome.isHandled = true → OriginPermitted o (head.header (bytes "origin"))) ∧
    (¬ OriginPermitted o (head.header (bytes "origin")) → outcome.isForbidden = true ∧ outcome.isHandled = false)

theorem isLocalhostOrigin_of_isLocalOrigin {origin : Bytes} (h : IsLocalOrigin origin) :
    isLocalhostOrigin origin = true := by
  obtain ⟨scheme, hscheme, host, hhost, port, -, rfl⟩ := h
  simp only [List.mem_cons, List.not_mem_nil, or_false] at hscheme hhost
  have hpre : ∀ p : Bytes, p = scheme ++ host → startsWith (scheme ++ host ++ port) p = true := by
    rintro p rfl
    exact List.isPrefixOf_iff_prefix.2 (List.prefix_append _ _)
  unfold isLocalhostOrigin
  rcases hscheme with rfl | rfl <;> rcases hhost with rfl | rfl
  · rw [hpre (bytes "http://localhost") (by decide)]; rfl
  · rw [hpre (bytes "http://127.0.0.1") (by decide)]; simp
  · rw [hpre (bytes "https://localhost") (by decide)]; simp
  · rw [hpre (bytes "https://127.0.0.1") (by decide)]; simp

theorem originAllowed_of_permitted {o : HttpServerOptions} {head : HttpHead}
    (h : OriginPermitted o (head.header (bytes "origin"))) : originAllowed o head = true := by
  unfold originAllowed
  rcases h with h | h | h
  · simp [h]
  · simp only [Bool.or_eq_true, List.any_eq_true, beq_iff_eq]
    exact .inr ⟨_, h, rfl⟩
  · simp [isLocalhostOrigin_of_isLocalOrigin h]

/-- Of the other origins, those that begin like a local one pass it too, and no more. -/
theorem originAllowed_of_not_permitted {o : HttpServerOptions} {head : HttpHead}
    (h : ¬ OriginPermitted o (head.header (bytes "origin"))) :
    originAllowed o head = isLocalhostOrigin (head.header (bytes "origin")) := by
  have hne : (head.header (bytes "origin")).isEmpty = false := by
    rw [List.isEmpty_eq_false_iff]
    exact fun he => h (.inl he)
  have hlisted : o.allowedOrigins.any (fun allowed => head.header (bytes "origin") == allowed) = false := by
    rw [List.any_eq_false]
    intro allowed hmem heq
    exact h (.inr (.inl (beq_iff_eq.1 heq ▸ hmem)))
  simp only [originAllowed, hne, hlisted, Bool.false_or, Bool.or_false]

/-! ## The guard -/

/-- A connection with a parsed head goes by the checks. -/
theorem handleConnection_of_requestHead {o : HttpServerOptions} {reads : List Bytes} {head : HttpHead}
    (h : requestHead reads = some head) :
    (∃ outcome, refusal o head = some outcome ∧ handleConnection o reads = outcome) ∨
      (refusal o head = none ∧ (handleConnection o reads).isForbidden = false) := by
  unfold requestHead at h
  unfold handleConnection
  split at h
  · rename_i hread
    obtain rfl := Option.some.inj h
    rw [hread]
    simp only
    cases hr : refusal o _ with
    | some outcome => exact .inl ⟨outcome, rfl, rfl⟩
    | none =>
      refine .inr ⟨rfl, ?_⟩
      simp only
      split <;> rfl
  · cases h

theorem not_forbidden_of_originAllowed {o : HttpServerOptions} {head : HttpHead} {outcome : Outcome}
    (hpass : head.target ≠ o.path ∨ originAllowed o head = true) (h : refusal o head = some outcome) :
    outcome.isForbidden = false := by
  unfold refusal at h
  split at h
  · obtain rfl := Option.some.inj h
    rfl
  · rename_i htarget
    rw [if_neg (by rw [hpass.resolve_left htarget]; exact Bool.noConfusion)] at h
    split at h
    · obtain rfl := Option.some.inj h
      rfl
    · cases h

/-- **The origin guard holds of a request exactly when** its origin is permitted, or it names the endpoint's path and its
origin does not begin like a local one. -/
theorem handleConnection_guards_iff (o : HttpServerOptions) {reads : List Bytes} {head : HttpHead}
    (h : requestHead reads = some head) :
    Guards o head (handleConnection o reads) ↔
      OriginPermitted o (head.header (bytes "origin")) ∨
        (head.target = o.path ∧ isLocalhostOrigin (head.header (bytes "origin")) = false) := by
  constructor
  · intro hguards
    by_cases hperm : OriginPermitted o (head.header (bytes "origin"))
    · exact .inl hperm
    refine .inr ?_
    have hforbidden := (hguards.2 hperm).1
    by_contra hno
    have hpass : head.target ≠ o.path ∨ originAllowed o head = true := by
      rw [originAllowed_of_not_permitted hperm]
      by_cases htarget : head.target = o.path
      · exact .inr (Bool.not_eq_false _ ▸ fun hl => hno ⟨htarget, hl⟩)
      · exact .inl htarget
    rcases handleConnection_of_requestHead (o := o) h with ⟨outcome, hr, hout⟩ | ⟨-, hout⟩
    · rw [hout, not_forbidden_of_originAllowed hpass hr] at hforbidden
      cases hforbidden
    · rw [hout] at hforbidden
      cases hforbidden
  · rintro (hperm | ⟨htarget, hlocal⟩)
    · exact ⟨fun _ => hperm, fun hno => absurd hperm hno⟩
    · by_cases hperm : OriginPermitted o (head.header (bytes "origin"))
      · exact ⟨fun _ => hperm, fun hno => absurd hperm hno⟩
      have hrefused : refusal o head = some (.simple 403 (bytes "Forbidden") (bytes "origin not allowed")) := by
        unfold refusal
        rw [if_neg (not_not_intro htarget), if_pos ((originAllowed_of_not_permitted hperm).trans hlocal)]
      rcases handleConnection_of_requestHead (o := o) h with ⟨outcome, hr, hout⟩ | ⟨hr, -⟩
      · obtain rfl := Option.some.inj (hrefused.symm.trans hr)
        rw [hout]
        exact ⟨fun hh => (by cases hh), fun _ => ⟨rfl, rfl⟩⟩
      · rw [hrefused] at hr
        cases hr

def originRequest (origin : Bytes) : List Bytes :=
  [bytes "GET /mcp HTTP/1.1" ++ crlf ++ bytes "Origin: " ++ origin ++ crlf ++ crlf]

/-- A foreign origin on the endpoint's path is answered 403. -/
theorem handleConnection_guards_foreign :
    ∃ head, requestHead (originRequest (bytes "http://evil.com")) = some head ∧
      head.header (bytes "origin") = bytes "http://evil.com" ∧
      Guards {} head (handleConnection {} (originRequest (bytes "http://evil.com"))) := by
  obtain ⟨head, hhead⟩ : ∃ head, requestHead (originRequest (bytes "http://evil.com")) = some head :=
    Option.isSome_iff_exists.1 (by decide +kernel)
  have hfields : (requestHead (originRequest (bytes "http://evil.com"))).map
      (fun h => (h.target, h.header (bytes "origin"))) = some (bytes "/mcp", bytes "http://evil.com") := by decide +kernel
  rw [hhead] at hfields
  obtain ⟨htarget, horigin⟩ := Prod.mk.inj (Option.some.inj hfields)
  refine ⟨head, hhead, horigin, (handleConnection_guards_iff {} hhead).2 (.inr ⟨htarget, ?_⟩)⟩
  rw [horigin]
  decide +kernel

/-- Behind a local-looking beginning, the host goes on. -/
theorem not_isLocalOrigin_evil : ¬ IsLocalOrigin (bytes "http://localhost.evil.com") := by
  rintro ⟨scheme, hscheme, host, hhost, port, hport, heq⟩
  have hdrop : port = (bytes "http://localhost.evil.com").drop (scheme ++ host).length := by
    rw [heq, List.drop_left]
  have htake : (bytes "http://localhost.evil.com").take (scheme ++ host).length = scheme ++ host := by
    rw [heq, List.take_left]
  simp only [List.mem_cons, List.not_mem_nil, or_false] at hscheme hhost
  rcases hscheme with rfl | rfl <;> rcases hhost with rfl | rfl <;> first
    | exact absurd htake (by decide)
    | (rw [hdrop] at hport
       rcases hport with h | ⟨digits, -, -, h⟩
       · exact absurd h (by decide)
       · exact absurd (congrArg List.head? h) (by rw [List.head?_cons]; decide))

/-- `http://localhost.evil.com` reaches the handler. -/
theorem localhost_evil_handled :
    ∃ head, requestHead (originRequest (bytes "http://localhost.evil.com")) = some head ∧
      (handleConnection {} (originRequest (bytes "http://localhost.evil.com"))).isHandled = true ∧
      ¬ Guards {} head (handleConnection {} (originRequest (bytes "http://localhost.evil.com"))) := by
  obtain ⟨head, hhead⟩ : ∃ head, requestHead (originRequest (bytes "http://localhost.evil.com")) = some head :=
    Option.isSome_iff_exists.1 (by decide +kernel)
  have horigin : (requestHead (originRequest (bytes "http://localhost.evil.com"))).map
      (fun h => h.header (bytes "origin")) = some (bytes "http://localhost.evil.com") := by decide +kernel
  rw [hhead] at horigin
  have hhandled : (handleConnection {} (originRequest (bytes "http://localhost.evil.com"))).isHandled = true := by
    decide +kernel
  refine ⟨head, hhead, hhandled, fun h => ?_⟩
  have heq : head.header (bytes "origin") = bytes "http://localhost.evil.com" := Option.some.inj horigin
  have hperm := h.1 hhandled
  rw [heq] at hperm
  rcases hperm with h | h | h
  · exact absurd h (by decide)
  · cases h
  · exact not_isLocalOrigin_evil h

end HttpEndpoint
end Mcp
