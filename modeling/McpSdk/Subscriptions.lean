import McpSdk.ResourceProvider
/-!
# Subscriptions — a subscribed URI is one the provider serves

The subscribed URIs are a set of their own beside the resources and the templates.  Resources come and go, templates only
come, so the one removal that has to clean up is the removal of a resource, and it does.

Whether a URI is served is decided twice, by `subscribe` and by `read_resource`.  Only the latter looks at its shape
first, and a template may match what has none (`subscribe_agrees_iff`).
-/
namespace Mcp

namespace ResourceProvider

variable {α : Type}

/-- The calls that change a provider. -/
inductive Operation (α : Type) where
  | addResource (resource : Resource) (handler : Option (ReadHandler α))
  | addResourceTemplate (template : ResourceTemplate)
  | removeResource (uri : Bytes)
  | setReadHandler (handler : Option (ReadHandler α))
  | subscribe (uri : Bytes)
  | unsubscribe (uri : Bytes)
  | setCompletion (uriTemplate argument : Bytes) (callback : Option (CompletionCallback α))
  | setPageSize (pageSize : UInt64)

/-- The provider a call leaves; a call that fails leaves the one it found. -/
def perform (p : ResourceProvider α) : Operation α → ResourceProvider α
  | .addResource resource handler => (p.addResource resource handler).toOption.getD p
  | .addResourceTemplate template => (p.addResourceTemplate template).toOption.getD p
  | .removeResource uri => (p.removeResource uri).getD p
  | .setReadHandler handler => p.setReadHandler handler
  | .subscribe uri => (p.subscribe uri).toOption.getD p
  | .unsubscribe uri => p.unsubscribe uri
  | .setCompletion uriTemplate argument callback => p.setCompletion uriTemplate argument callback
  | .setPageSize pageSize => p.setPageSize pageSize

def performAll (p : ResourceProvider α) (ops : List (Operation α)) : ResourceProvider α := ops.foldl perform p

/-- The URI a call is on; a template is not one, and the other calls are on none. -/
def Operation.uri : Operation α → Option Bytes
  | .addResource resource _ => some resource.uri
  | .removeResource uri => some uri
  | .subscribe uri => some uri
  | .unsubscribe uri => some uri
  | _ => none

/-- **What the provider serves**: the URI of a registered resource, or one that a registered template matches. -/
def Serves (p : ResourceProvider α) (uri : Bytes) : Prop :=
  (∃ entry ∈ p.resources, entry.1.uri = uri) ∨
    ∃ template ∈ p.templates, ∃ values, matchUriTemplate template.uriTemplate uri = some values

theorem uriKnown_iff (p : ResourceProvider α) (uri : Bytes) : p.uriKnown uri = true ↔ p.Serves uri := by
  unfold uriKnown templateMatches Serves
  simp [List.any_eq_true, Option.isSome_iff_exists]

/-! ## What each call can do -/

/-- The outcome of adding a resource: nothing, or one more at the end. -/
theorem perform_addResource (p : ResourceProvider α) (resource : Resource) (handler : Option (ReadHandler α)) :
    p.perform (.addResource resource handler) = p ∨
      looksLikeUri resource.uri = true ∧
        p.perform (.addResource resource handler) = { p with resources := p.resources ++ [(resource, handler)] } := by
  unfold perform addResource
  by_cases huri : looksLikeUri resource.uri = true
  · by_cases hdup : p.resources.any (fun entry => entry.1.uri == resource.uri) = true
    · left
      simp [huri, hdup, Except.toOption]
    · right
      simp [huri, hdup, Except.toOption]
  · left
    simp [huri, Except.toOption]

theorem perform_addResourceTemplate (p : ResourceProvider α) (template : ResourceTemplate) :
    p.perform (.addResourceTemplate template) = p ∨
      p.perform (.addResourceTemplate template) = { p with templates := p.templates ++ [template] } := by
  unfold perform addResourceTemplate
  by_cases hdup : p.templates.any (fun existing => existing.uriTemplate == template.uriTemplate) = true
  · left
    simp [hdup, Except.toOption]
  · right
    simp [hdup, Except.toOption]

/-- A removal takes out one resource with the URI, and the subscription to it. -/
theorem perform_removeResource (p : ResourceProvider α) (uri : Bytes) :
    p.perform (.removeResource uri) = p ∨
      p.perform (.removeResource uri) = { p with
        resources := p.resources.eraseP (fun entry => entry.1.uri == uri)
        subscriptions := p.subscriptions.erase uri } := by
  unfold perform removeResource
  by_cases hfound : p.resources.any (fun entry => entry.1.uri == uri) = true
  · right
    simp [hfound]
  · left
    simp [hfound]

theorem perform_subscribe (p : ResourceProvider α) (uri : Bytes) :
    p.perform (.subscribe uri) = if p.uriKnown uri then p.withSubscriptions (insert uri p.subscriptions) else p := by
  unfold perform subscribe withSubscriptions
  by_cases h : p.uriKnown uri = true <;> simp [h, Except.toOption]

/-- **A refused subscription**: it fails exactly for a URI that is not served. -/
theorem subscribe_fails_iff (p : ResourceProvider α) (uri : Bytes) :
    (∃ e, p.subscribe uri = .error e) ↔ ¬ p.Serves uri := by
  rw [← uriKnown_iff]
  unfold subscribe
  by_cases h : p.uriKnown uri = true <;> simp [h]

/-! ## The invariant -/

/-- A URI other than the removed one is served as before. -/
theorem serves_removed {p q : ResourceProvider α} {uri removed : Bytes} (hne : uri ≠ removed)
    (hresources : q.resources = p.resources.eraseP (fun entry => entry.1.uri == removed)) (htemplates : q.templates = p.templates)
    (h : p.Serves uri) : q.Serves uri := by
  rcases h with ⟨entry, hentry, rfl⟩ | ⟨template, htemplate, hvalues⟩
  · refine Or.inl ⟨entry, ?_, rfl⟩
    rw [hresources]
    exact (List.mem_eraseP_of_neg (by simpa using hne)).2 hentry
  · exact Or.inr ⟨template, by rwa [htemplates], hvalues⟩

theorem serves_mono {p q : ResourceProvider α} {uri : Bytes} (hresources : p.resources ⊆ q.resources)
    (htemplates : p.templates ⊆ q.templates) (h : p.Serves uri) : q.Serves uri := by
  rcases h with ⟨entry, hentry, rfl⟩ | ⟨template, htemplate, hvalues⟩
  · exact Or.inl ⟨entry, hresources hentry, rfl⟩
  · exact Or.inr ⟨template, htemplates htemplate, hvalues⟩

/-- Every subscribed URI is served. -/
def SubscriptionsServed (p : ResourceProvider α) : Prop := ∀ uri ∈ p.subscriptions, p.Serves uri

theorem perform_served {p : ResourceProvider α} (hp : p.SubscriptionsServed) (op : Operation α) :
    (p.perform op).SubscriptionsServed := by
  intro uri huri
  cases op with
  | addResource resource handler =>
    rcases perform_addResource p resource handler with h | ⟨-, h⟩ <;> rw [h] at huri ⊢
    · exact hp uri huri
    · exact serves_mono (List.subset_append_left _ _) (List.Subset.refl _) (hp uri huri)
  | addResourceTemplate template =>
    rcases perform_addResourceTemplate p template with h | h <;> rw [h] at huri ⊢
    · exact hp uri huri
    · exact serves_mono (p := p) (fun _ h => h) (List.subset_append_left _ _) (hp uri huri)
  | removeResource removed =>
    rcases perform_removeResource p removed with h | h <;> rw [h] at huri ⊢
    · exact hp uri huri
    · obtain ⟨hne, huri⟩ := Finset.mem_erase.1 huri
      exact serves_removed hne rfl rfl (hp uri huri)
  | setReadHandler handler => exact hp uri huri
  | subscribe wanted =>
    rw [perform_subscribe] at huri ⊢
    by_cases hknown : p.uriKnown wanted = true
    · rw [if_pos hknown] at huri ⊢
      rcases Finset.mem_insert.1 huri with rfl | huri
      · exact (uriKnown_iff p uri).1 hknown
      · exact hp uri huri
    · rw [if_neg hknown] at huri ⊢
      exact hp uri huri
  | unsubscribe dropped => exact hp uri (Finset.mem_of_mem_erase huri)
  | setCompletion uriTemplate argument callback => exact hp uri huri
  | setPageSize pageSize => exact hp uri huri

theorem performAll_served : ∀ (ops : List (Operation α)) {p : ResourceProvider α}, p.SubscriptionsServed →
    (p.performAll ops).SubscriptionsServed
  | [], _, hp => hp
  | op :: ops, _, hp => performAll_served ops (perform_served hp op)

/-- **A call on another URI keeps a subscription**, and so does a call on none. -/
theorem perform_isSubscribed (p : ResourceProvider α) {op : Operation α} {uri : Bytes} (hother : op.uri ≠ some uri) :
    (p.perform op).isSubscribed uri = p.isSubscribed uri := by
  unfold isSubscribed
  congr 1
  cases op with
  | addResource resource handler => rcases perform_addResource p resource handler with h | ⟨-, h⟩ <;> rw [h]
  | addResourceTemplate template => rcases perform_addResourceTemplate p template with h | h <;> rw [h]
  | removeResource removed =>
    have hne : uri ≠ removed := fun h => hother (congrArg some h.symm)
    rcases perform_removeResource p removed with h | h <;> rw [h]
    simp [hne]
  | setReadHandler handler => rfl
  | subscribe wanted =>
    have hne : uri ≠ wanted := fun h => hother (congrArg some h.symm)
    rw [perform_subscribe]
    by_cases hknown : p.uriKnown wanted = true
    · rw [if_pos hknown]
      simp [withSubscriptions, hne]
    · rw [if_neg hknown]
  | unsubscribe dropped =>
    have hne : uri ≠ dropped := fun h => hother (congrArg some h.symm)
    simp [perform, unsubscribe, hne]
  | setCompletion uriTemplate argument callback => rfl
  | setPageSize pageSize => rfl

/-- **Subscriptions stay with what is served**: over every list of calls on a provider without subscriptions. -/
theorem subscriptions_served {p₀ : ResourceProvider α} (hnone : p₀.subscriptions = ∅) (ops : List (Operation α)) (uri : Bytes) :
    ((p₀.performAll ops).isSubscribed uri = true → (p₀.performAll ops).Serves uri) ∧
    ((∃ e, (p₀.performAll ops).subscribe uri = .error e) ↔ ¬ (p₀.performAll ops).Serves uri) ∧
    (¬ (p₀.performAll ops).Serves uri → (p₀.performAll ops).perform (.subscribe uri) = p₀.performAll ops) ∧
    (∀ op : Operation α, op.uri ≠ some uri →
      ((p₀.performAll ops).perform op).isSubscribed uri = (p₀.performAll ops).isSubscribed uri) := by
  have hserved : (p₀.performAll ops).SubscriptionsServed := by
    refine performAll_served ops ?_
    intro u hu
    rw [hnone] at hu
    exact absurd hu (Finset.notMem_empty u)
  refine ⟨fun h => hserved uri (of_decide_eq_true h), subscribe_fails_iff _ uri, fun h => ?_,
    fun op hop => perform_isSubscribed _ hop⟩
  rw [perform_subscribe, if_neg (mt (uriKnown_iff _ uri).1 h)]

/-- Two subscriptions of a fresh provider, one of which goes with its resource. -/
theorem subscriptions_served_removed :
    let ops : List (Operation Unit) := [.addResource { uri := bytes "a:b", name := [] } none,
      .addResourceTemplate { uriTemplate := bytes "c:{d}", name := [] },
      .subscribe (bytes "a:b"), .subscribe (bytes "c:1"), .removeResource (bytes "a:b")]
    (({} : ResourceProvider Unit).performAll ops).isSubscribed (bytes "a:b") = false ∧
      (({} : ResourceProvider Unit).performAll ops).isSubscribed (bytes "c:1") = true ∧
      (({} : ResourceProvider Unit).performAll ops).Serves (bytes "c:1") :=
  ⟨by decide, by decide, (subscriptions_served rfl _ _).1 (by decide)⟩

/-! ## Subscribing and reading -/

/-- `read_resource` up to the choice of the handler, which may be empty. -/
def selectHandler (p : ResourceProvider α) (uri : Bytes) : Result (Option (ReadHandler α)) :=
  if !looksLikeUri uri then .error (Error.of .invalidUri (bytes "invalid URI: " ++ uri))
  else
    match p.resolve uri with
    | none => .error (Error.of .resourceNotFound (bytes "resource not found: " ++ uri))
    | some handler => .ok handler

/-- Nothing of the application runs before the handler is chosen. -/
theorem readResource_eq (p : ResourceProvider α) (uri : Bytes) (app : α) :
    p.readResource uri app =
      match p.selectHandler uri with
      | .error e => (.error e, app)
      | .ok none => (.error (Error.of .internalError (bytes "no read handler for resource: " ++ uri)), app)
      | .ok (some handler) => (caught (handler uri app).1, (handler uri app).2) := by
  unfold readResource selectHandler
  cases looksLikeUri uri with
  | false => rfl
  | true =>
    match p.resolve uri with
    | none => rfl
    | some none => rfl
    | some (some handler) => rfl

/-- `read_resource` gets as far as a handler. -/
def Resolves (p : ResourceProvider α) (uri : Bytes) : Prop := ∃ handler, p.selectHandler uri = .ok handler

theorem isSome_resolve (p : ResourceProvider α) (uri : Bytes) : (p.resolve uri).isSome = p.uriKnown uri := by
  unfold resolve uriKnown
  cases hfound : p.resources.find? (fun entry => entry.1.uri == uri) with
  | some entry =>
    have hkey := List.find?_some hfound
    have hany : p.resources.any (fun entry => entry.1.uri == uri) = true :=
      List.any_eq_true.2 ⟨entry, List.mem_of_find?_eq_some hfound, hkey⟩
    rw [hany]
    rfl
  | none =>
    have hnone : p.resources.any (fun entry => entry.1.uri == uri) = false := by
      rw [List.any_eq_false]
      exact List.find?_eq_none.1 hfound
    rw [hnone]
    cases p.templateMatches uri <;> rfl

theorem resolves_iff (p : ResourceProvider α) (uri : Bytes) :
    p.Resolves uri ↔ looksLikeUri uri = true ∧ p.uriKnown uri = true := by
  rw [← isSome_resolve]
  unfold Resolves selectHandler
  cases looksLikeUri uri with
  | false => simp
  | true => cases p.resolve uri <;> simp

theorem subscribe_ok_iff (p : ResourceProvider α) (uri : Bytes) :
    (∃ q, p.subscribe uri = .ok q) ↔ p.uriKnown uri = true := by
  unfold subscribe
  cases p.uriKnown uri <;> simp

/-- Every registered resource has a URI of the right shape. -/
def ResourcesShaped (p : ResourceProvider α) : Prop := ∀ entry ∈ p.resources, looksLikeUri entry.1.uri = true

theorem perform_shaped {p : ResourceProvider α} (hp : p.ResourcesShaped) (op : Operation α) :
    (p.perform op).ResourcesShaped := by
  cases op with
  | addResource resource handler =>
    rcases perform_addResource p resource handler with h | ⟨huri, h⟩ <;> rw [h]
    · exact hp
    · intro entry hentry
      rcases List.mem_append.1 hentry with hold | hnew
      · exact hp entry hold
      · rw [List.mem_singleton.1 hnew]
        exact huri
  | addResourceTemplate template =>
    rcases perform_addResourceTemplate p template with h | h <;> rw [h]
    · exact hp
    · exact hp
  | removeResource removed =>
    rcases perform_removeResource p removed with h | h <;> rw [h]
    · exact hp
    · exact fun entry hentry => hp entry (List.mem_of_mem_eraseP hentry)
  | setReadHandler handler => exact hp
  | subscribe wanted =>
    rw [perform_subscribe]
    split
    · exact hp
    · exact hp
  | unsubscribe dropped => exact hp
  | setCompletion uriTemplate argument callback => exact hp
  | setPageSize pageSize => exact hp

theorem performAll_shaped : ∀ (ops : List (Operation α)) {p : ResourceProvider α}, p.ResourcesShaped →
    (p.performAll ops).ResourcesShaped
  | [], _, hp => hp
  | op :: ops, _, hp => performAll_shaped ops (perform_shaped hp op)

/-- What is not of the right shape can only be known through a template. -/
theorem uriKnown_of_shapeless {p : ResourceProvider α} (hp : p.ResourcesShaped) {uri : Bytes}
    (huri : looksLikeUri uri = false) : p.uriKnown uri = p.templateMatches uri := by
  have hnone : p.resources.any (fun entry => entry.1.uri == uri) = false := by
    rw [List.any_eq_false]
    intro entry hentry heq
    have hshape := hp entry hentry
    rw [eq_of_beq heq, huri] at hshape
    cases hshape
  unfold uriKnown
  rw [hnone, Bool.false_or]

theorem templateMatches_eq_false (p : ResourceProvider α) (uri : Bytes) :
    p.templateMatches uri = false ↔ ∀ template ∈ p.templates, matchUriTemplate template.uriTemplate uri = none := by
  unfold templateMatches
  simp [List.any_eq_false]

/-- **When the two copies of the rule agree**: for a string of the right shape, and for one that no template matches. -/
theorem subscribe_agrees_iff (ops : List (Operation α)) (uri : Bytes) :
    ((∃ q, (({} : ResourceProvider α).performAll ops).subscribe uri = .ok q) ↔
        (({} : ResourceProvider α).performAll ops).Resolves uri) ↔
      looksLikeUri uri = true ∨ ∀ template ∈ (({} : ResourceProvider α).performAll ops).templates,
        matchUriTemplate template.uriTemplate uri = none := by
  have hshaped : (({} : ResourceProvider α).performAll ops).ResourcesShaped :=
    performAll_shaped ops (List.forall_mem_nil _)
  rw [subscribe_ok_iff, resolves_iff, ← templateMatches_eq_false]
  cases hlooks : looksLikeUri uri with
  | true => simp
  | false =>
    rw [uriKnown_of_shapeless hshaped hlooks]
    simp

/-- A template that matches everything: what can be subscribed to is no URI to read. -/
theorem subscribe_accepts_shapeless : ¬ ∀ (ops : List (Operation Unit)) (uri : Bytes),
    (∃ q, (({} : ResourceProvider Unit).performAll ops).subscribe uri = .ok q) ↔
      (({} : ResourceProvider Unit).performAll ops).Resolves uri := by
  intro h
  have hagrees := h [.addResourceTemplate { uriTemplate := bytes "{x}", name := [] }] (bytes "abc")
  rw [subscribe_ok_iff, resolves_iff] at hagrees
  revert hagrees
  decide

end ResourceProvider

end Mcp
