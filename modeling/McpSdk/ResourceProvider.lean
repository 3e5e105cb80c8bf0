import McpSdk.PromptProvider
import McpSdk.ToolRegistry
import McpSdk.UriTemplate
import Mathlib.Data.Finset.Basic
/-!
# ResourceProvider — resources, templates and the subscriptions to them

One set of subscribed URIs belongs to the provider, whoever subscribed.  Handlers run on the application's state `α`.
-/
namespace Mcp

/-- "scheme:..." with an RFC 3986 scheme. -/
def looksLikeUri (uri : Bytes) : Bool :=
  match Search.indexOf [ch ':'] uri with
  | none => false
  | some colon =>
    colon != 0 && (uri.head?).any isAlpha &&
      ((uri.take colon).drop 1).all (fun c => isAlpha c || isDigit c || c == ch '+' || c == ch '-' || c == ch '.')

/-! ## Definitions on the wire -/

structure Resource where
  uri : Bytes
  name : Bytes
  title : Option Bytes := none
  description : Option Bytes := none
  mimeType : Option Bytes := none
  icons : Option (List Icon) := none
  annotations : Option Annotations := none

def Resource.toJson (r : Resource) : Json :=
  .object ([] |> Members.set (bytes "uri") (.string r.uri) |> Members.set (bytes "name") (.string r.name)
    |> setOptional (bytes "title") .string r.title |> setOptional (bytes "description") .string r.description
    |> setOptional (bytes "mimeType") .string r.mimeType |> setOptional (bytes "icons") iconsToJson r.icons
    |> setAnnotations r.annotations)

def Resource.fromJson (j : Json) : Except JsonException Resource := do
  let uri ← (← j.at_ (bytes "uri")).getString
  let name ← (← j.at_ (bytes "name")).getString
  let title ← getOptional j (bytes "title") Json.getString
  let description ← getOptional j (bytes "description") Json.getString
  let mimeType ← getOptional j (bytes "mimeType") Json.getString
  let icons ← getOptional j (bytes "icons") (Json.getArray Icon.fromJson)
  let annotations ← getOptional j (bytes "annotations") Annotations.fromJson
  return { uri, name, title, description, mimeType, icons, annotations }

structure ResourceTemplate where
  uriTemplate : Bytes
  name : Bytes
  title : Option Bytes := none
  description : Option Bytes := none
  mimeType : Option Bytes := none
  icons : Option (List Icon) := none
  annotations : Option Annotations := none

def ResourceTemplate.toJson (t : ResourceTemplate) : Json :=
  .object ([] |> Members.set (bytes "uriTemplate") (.string t.uriTemplate) |> Members.set (bytes "name") (.string t.name)
    |> setOptional (bytes "title") .string t.title |> setOptional (bytes "description") .string t.description
    |> setOptional (bytes "mimeType") .string t.mimeType |> setOptional (bytes "icons") iconsToJson t.icons
    |> setAnnotations t.annotations)

def ResourceTemplate.fromJson (j : Json) : Except JsonException ResourceTemplate := do
  let uriTemplate ← (← j.at_ (bytes "uriTemplate")).getString
  let name ← (← j.at_ (bytes "name")).getString
  let title ← getOptional j (bytes "title") Json.getString
  let description ← getOptional j (bytes "description") Json.getString
  let mimeType ← getOptional j (bytes "mimeType") Json.getString
  let icons ← getOptional j (bytes "icons") (Json.getArray Icon.fromJson)
  let annotations ← getOptional j (bytes "annotations") Annotations.fromJson
  return { uriTemplate, name, title, description, mimeType, icons, annotations }

structure ReadResourceResult where
  contents : List ResourceContents := []

def ReadResourceResult.toJson (r : ReadResourceResult) : Json :=
  .object [(bytes "contents", .array (r.contents.map ResourceContents.toJson))]

abbrev ReadHandler (α : Type) := Bytes → α → Except Exn (Result ReadResourceResult) × α

/-! ## The provider -/

structure ResourceProvider (α : Type) where
  resources : List (Resource × Option (ReadHandler α)) := []
  templates : List ResourceTemplate := []
  fallbackRead : Option (ReadHandler α) := none
  subscriptions : Finset Bytes := ∅
  completions : Completions α := ∅
  pageSize : UInt64 := 100

namespace ResourceProvider

variable {α : Type}

def addResource (p : ResourceProvider α) (resource : Resource) (handler : Option (ReadHandler α)) :
    Result (ResourceProvider α) :=
  if !looksLikeUri resource.uri then .error (Error.of .invalidUri (bytes "invalid URI: " ++ resource.uri))
  else if p.resources.any (fun entry => entry.1.uri == resource.uri) then
    .error (Error.of .invalidParams (bytes "resource already registered: " ++ resource.uri))
  else .ok { p with resources := p.resources ++ [(resource, handler)] }

def addResourceTemplate (p : ResourceProvider α) (template : ResourceTemplate) : Result (ResourceProvider α) :=
  if p.templates.any (fun existing => existing.uriTemplate == template.uriTemplate) then
    .error (Error.of .invalidParams (bytes "template already registered: " ++ template.uriTemplate))
  else .ok { p with templates := p.templates ++ [template] }

/-- A removed resource loses its subscription. -/
def removeResource (p : ResourceProvider α) (uri : Bytes) : Option (ResourceProvider α) :=
  if p.resources.any (fun entry => entry.1.uri == uri) then
    some { p with
      resources := p.resources.eraseP (fun entry => entry.1.uri == uri)
      subscriptions := p.subscriptions.erase uri }
  else none

def resourceCount (p : ResourceProvider α) : Nat := p.resources.length

def templateCount (p : ResourceProvider α) : Nat := p.templates.length

def hasCompletions (p : ResourceProvider α) : Bool := !p.completions.entries.isEmpty

def setReadHandler (p : ResourceProvider α) (handler : Option (ReadHandler α)) : ResourceProvider α :=
  { p with fallbackRead := handler }

def listResources (p : ResourceProvider α) (cursor : Option Bytes) : Except Exn (Result (Page Resource)) :=
  paginate (p.resources.map Prod.fst) cursor p.pageSize

def listResourceTemplates (p : ResourceProvider α) (cursor : Option Bytes) :
    Except Exn (Result (Page ResourceTemplate)) :=
  paginate p.templates cursor p.pageSize

def templateMatches (p : ResourceProvider α) (uri : Bytes) : Bool :=
  p.templates.any (fun template => (matchUriTemplate template.uriTemplate uri).isSome)

/-- The handler that serves a URI: `none` when nothing is registered for it, and an empty one may be found. -/
def resolve (p : ResourceProvider α) (uri : Bytes) : Option (Option (ReadHandler α)) :=
  match p.resources.find? (fun entry => entry.1.uri == uri) with
  | some entry => some (entry.2.orElse fun _ => p.fallbackRead)
  | none => if p.templateMatches uri then some p.fallbackRead else none

def readResource (p : ResourceProvider α) (uri : Bytes) (app : α) : Result ReadResourceResult × α :=
  if !looksLikeUri uri then (.error (Error.of .invalidUri (bytes "invalid URI: " ++ uri)), app)
  else
    match p.resolve uri with
    | none => (.error (Error.of .resourceNotFound (bytes "resource not found: " ++ uri)), app)
    | some none => (.error (Error.of .internalError (bytes "no read handler for resource: " ++ uri)), app)
    | some (some handler) => (caught (handler uri app).1, (handler uri app).2)

/-- `uri_known_locked`. -/
def uriKnown (p : ResourceProvider α) (uri : Bytes) : Bool :=
  p.resources.any (fun entry => entry.1.uri == uri) || p.templateMatches uri

def subscribe (p : ResourceProvider α) (uri : Bytes) : Result (ResourceProvider α) :=
  if p.uriKnown uri then .ok { p with subscriptions := insert uri p.subscriptions }
  else .error (Error.of .resourceNotFound (bytes "resource not found: " ++ uri))

def unsubscribe (p : ResourceProvider α) (uri : Bytes) : ResourceProvider α :=
  { p with subscriptions := p.subscriptions.erase uri }

def isSubscribed (p : ResourceProvider α) (uri : Bytes) : Bool := decide (uri ∈ p.subscriptions)

def setCompletion (p : ResourceProvider α) (uriTemplate argument : Bytes) (callback : Option (CompletionCallback α)) :
    ResourceProvider α :=
  { p with completions := p.completions.insert (uriTemplate, argument) callback }

def complete (p : ResourceProvider α) (uriTemplate argument value : Bytes) (app : α) :
    Except Exn (Option CompleteResult) × α :=
  p.completions.complete uriTemplate argument value app

def setPageSize (p : ResourceProvider α) (pageSize : UInt64) : ResourceProvider α :=
  { p with pageSize := clampPageSize pageSize }

/-! ## The other operations carry the subscriptions along -/

def withSubscriptions (p : ResourceProvider α) (subscriptions : Finset Bytes) : ResourceProvider α :=
  { p with subscriptions }

theorem addResource_withSubscriptions (p : ResourceProvider α) (subscriptions : Finset Bytes) (resource : Resource)
    (handler : Option (ReadHandler α)) :
    (p.withSubscriptions subscriptions).addResource resource handler =
      (p.addResource resource handler).map (fun q => q.withSubscriptions subscriptions) := by
  unfold addResource withSubscriptions
  by_cases huri : looksLikeUri resource.uri = true
  · by_cases hdup : p.resources.any (fun entry => entry.1.uri == resource.uri) = true
    · simp [huri, hdup, Except.map]
    · simp [huri, hdup, Except.map]
  · simp [huri, Except.map]

theorem addResourceTemplate_withSubscriptions (p : ResourceProvider α) (subscriptions : Finset Bytes)
    (template : ResourceTemplate) :
    (p.withSubscriptions subscriptions).addResourceTemplate template =
      (p.addResourceTemplate template).map (fun q => q.withSubscriptions subscriptions) := by
  unfold addResourceTemplate withSubscriptions
  by_cases hdup : p.templates.any (fun existing => existing.uriTemplate == template.uriTemplate) = true
  · simp [hdup, Except.map]
  · simp [hdup, Except.map]

theorem removeResource_withSubscriptions (p : ResourceProvider α) (subscriptions : Finset Bytes) (uri : Bytes) :
    (p.withSubscriptions subscriptions).removeResource uri =
      (p.removeResource uri).map (fun q => q.withSubscriptions (subscriptions.erase uri)) := by
  unfold removeResource withSubscriptions
  by_cases hfound : p.resources.any (fun entry => entry.1.uri == uri) = true
  · simp [hfound]
  · simp [hfound]

/-- **Who may subscribe does not depend on who did.** -/
theorem subscribe_withSubscriptions (p : ResourceProvider α) (subscriptions : Finset Bytes) (uri : Bytes) :
    (p.withSubscriptions subscriptions).subscribe uri =
      (p.subscribe uri).map (fun q => q.withSubscriptions (insert uri subscriptions)) := by
  have hknown : (p.withSubscriptions subscriptions).uriKnown uri = p.uriKnown uri := rfl
  unfold subscribe
  rw [hknown]
  by_cases h : p.uriKnown uri = true
  · simp [h, withSubscriptions, Except.map]
  · simp [h, Except.map]

theorem subscribe_eq_ok {p q : ResourceProvider α} {uri : Bytes} (h : p.subscribe uri = .ok q) :
    q = p.withSubscriptions (insert uri p.subscriptions) := by
  unfold subscribe at h
  split at h
  · cases h
    rfl
  · cases h

end ResourceProvider

end Mcp
