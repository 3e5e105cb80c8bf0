import McpSdk.Client
import McpSdk.Registries
/-!
# Listing — the paginated lists of a server

Tools, prompts, resources and resource templates are listed the same way: a handler reads the cursor, cuts a page from a
copy of the list, and the client reads the page back.  What a call of the API does to a list is one of three things: an
item of a new name at its end, the item of a name taken out, or nothing.
-/
namespace Mcp

open Attached (ApiCall applyCall)

inductive Listing
  | tools
  | prompts
  | resources
  | resourceTemplates

namespace Listing

variable {α : Type}

def handler : Listing → Server.Handler α
  | tools => Server.toolsList
  | prompts => Server.promptsList
  | resources => Server.resourcesList
  | resourceTemplates => Server.resourcesTemplatesList

def itemsKey : Listing → Bytes
  | tools => bytes "tools"
  | prompts => bytes "prompts"
  | resources => bytes "resources"
  | resourceTemplates => bytes "resourceTemplates"

/-- The member that tells the items of a list apart. -/
def nameKey : Listing → Bytes
  | tools => bytes "name"
  | prompts => bytes "name"
  | resources => bytes "uri"
  | resourceTemplates => bytes "uriTemplate"

def nameOf (l : Listing) (item : Json) : Option Bytes := (item.find l.nameKey).bind stringItem

/-- The list, as it is sent. -/
def items : Listing → Server α → List Json
  | tools, w => w.tools.tools.map fun entry => entry.1.toJson
  | prompts, w => w.prompts.prompts.map fun entry => entry.1.toJson
  | resources, w => w.resources.resources.map fun entry => entry.1.toJson
  | resourceTemplates, w => w.resources.templates.map ResourceTemplate.toJson

def names (l : Listing) (w : Server α) : List (Option Bytes) := (l.items w).map l.nameOf

def pageSize : Listing → Server α → UInt64
  | tools, w => w.tools.pageSize
  | prompts, w => w.prompts.pageSize
  | resources, w => w.resources.pageSize
  | resourceTemplates, w => w.resources.pageSize

def registers : Listing → ApiCall α → Bool
  | tools, .registerTool _ _ => true
  | prompts, .addPrompt _ _ => true
  | resources, .addResource _ _ => true
  | resourceTemplates, .addResourceTemplate _ => true
  | _, _ => false

def removes : Listing → ApiCall α → Option Bytes
  | tools, .removeTool name => some name
  | prompts, .removePrompt name => some name
  | resources, .removeResource uri => some uri
  | _, _ => none

def resizes : Listing → ApiCall α → Option UInt64
  | tools, .setToolPageSize pageSize => some pageSize
  | prompts, .setPromptPageSize pageSize => some pageSize
  | resources, .setResourcePageSize pageSize => some pageSize
  | resourceTemplates, .setResourcePageSize pageSize => some pageSize
  | _, _ => none

/-! ## What a call does to a list -/

theorem nameOf_tool (tool : Tool) : tools.nameOf tool.toJson = some tool.name := by
  rw [nameOf, nameKey, tool.find_toJson.1]
  rfl

theorem nameOf_prompt (prompt : Prompt) : prompts.nameOf prompt.toJson = some prompt.name := by
  rw [nameOf, nameKey, prompt.find_toJson.1]
  rfl

theorem nameOf_resource (resource : Resource) : resources.nameOf resource.toJson = some resource.uri := by
  rw [nameOf, nameKey, resource.find_toJson.1]
  rfl

theorem nameOf_template (template : ResourceTemplate) :
    resourceTemplates.nameOf template.toJson = some template.uriTemplate := by
  rw [nameOf, nameKey, template.find_toJson.1]
  rfl

section Shown

variable {R ι χ : Type} {reg : Registry R ι χ} {shown : ι → Json} {l : Listing}

/-- What a registry shows after a removal. -/
theorem shown_remove (hreg : reg.Lawful) (hname : ∀ i, l.nameOf (shown i) = some (reg.key i)) (r : R) (k : Bytes) :
    (reg.items ((reg.remove r k).getD r)).map shown = ((reg.items r).map shown).eraseP (fun j => l.nameOf j == some k) := by
  have hsame : ((fun j => l.nameOf j == some k) ∘ shown) = fun i => decide (reg.key i = k) := by
    funext i
    rw [Function.comp_apply, hname, Option.some_beq_some, beq_eq_decide]
  rw [List.eraseP_map, hsame]
  by_cases hk : k ∈ reg.keys r
  · obtain ⟨r', hr', hitems⟩ := hreg.removes r k hk
    rw [hr', Option.getD_some, hitems]
  · have hkept : ∀ i ∈ reg.items r, ¬ decide (reg.key i = k) = true := by
      intro i hi heq
      exact hk (List.mem_map.2 ⟨i, hi, of_decide_eq_true heq⟩)
    rw [hreg.missing r k hk, Option.getD_none, List.eraseP_of_forall_not hkept]

/-- ... and after it took something in. -/
theorem shown_add (hreg : reg.Lawful) (hname : ∀ i, l.nameOf (shown i) = some (reg.key i)) {r r' : R} {x : χ}
    (h : reg.add r x = .ok r') :
    ∃ j, l.nameOf j ∉ ((reg.items r).map shown).map l.nameOf ∧
      (reg.items r').map shown = (reg.items r).map shown ++ [j] := by
  cases hx : reg.accepts x with
  | none =>
    obtain ⟨e, he⟩ := hreg.refuses r x hx
    rw [he] at h
    cases h
  | some i =>
    by_cases hi : reg.key i ∈ reg.keys r
    · obtain ⟨e, he⟩ := hreg.duplicate r x i hx hi
      rw [he] at h
      cases h
    · obtain ⟨r'', hr'', hitems⟩ := hreg.adds r x i hx hi
      obtain rfl : r'' = r' := Except.ok.inj (hr''.symm.trans h)
      refine ⟨shown i, fun hmem => hi ?_, by rw [hitems, List.map_append]; rfl⟩
      rw [List.map_map, hname] at hmem
      obtain ⟨y, hy, heq⟩ := List.mem_map.1 hmem
      rw [Function.comp_apply, hname] at heq
      exact List.mem_map.2 ⟨y, hy, Option.some.inj heq⟩

end Shown

/-- **A removal takes out the item of that name**, if it is there. -/
theorem items_of_removes {l : Listing} {c : ApiCall α} {k : Bytes} (h : l.removes c = some k) (w : Server α) :
    l.items (applyCall w c).1 = (l.items w).eraseP (fun j => l.nameOf j == some k) := by
  cases l <;> cases c <;> cases h
  case tools.removeTool.refl =>
    have hshown := shown_remove ToolRegistry.lawful (l := .tools) (fun i => nameOf_tool i.1) w.tools k
    refine Eq.trans ?_ hshown
    simp only [applyCall, ToolRegistry.registry]
    cases w.tools.removeTool k <;> rfl
  case prompts.removePrompt.refl =>
    have hshown := shown_remove PromptProvider.lawful (l := .prompts) (fun i => nameOf_prompt i.1) w.prompts k
    refine Eq.trans ?_ hshown
    simp only [applyCall, PromptProvider.registry]
    cases w.prompts.removePrompt k <;> rfl
  case resources.removeResource.refl =>
    have hshown := shown_remove ResourceProvider.lawful (l := .resources) (fun i => nameOf_resource i.1) w.resources k
    refine Eq.trans ?_ hshown
    simp only [applyCall, ResourceProvider.registry]
    cases w.resources.removeResource k <;> rfl

/-- **A registration puts an item of a new name at the end**, or fails. -/
theorem items_of_registers {l : Listing} {c : ApiCall α} (h : l.registers c = true) (w : Server α) :
    l.items (applyCall w c).1 = l.items w ∨
      ∃ j, l.nameOf j ∉ l.names w ∧ l.items (applyCall w c).1 = l.items w ++ [j] := by
  cases l <;> cases c <;> try cases h
  case tools.registerTool tool handler =>
    simp only [applyCall]
    cases hadd : w.tools.registerTool tool handler with
    | error e => exact .inl rfl
    | ok r => exact .inr (shown_add (x := (tool, handler)) ToolRegistry.lawful (fun i => nameOf_tool i.1) hadd)
  case prompts.addPrompt prompt handler =>
    simp only [applyCall]
    cases hadd : w.prompts.addPrompt prompt handler with
    | error e => exact .inl rfl
    | ok r => exact .inr (shown_add (x := (prompt, handler)) PromptProvider.lawful (fun i => nameOf_prompt i.1) hadd)
  case resources.addResource resource handler =>
    simp only [applyCall]
    cases hadd : w.resources.addResource resource handler with
    | error e => exact .inl rfl
    | ok r => exact .inr (shown_add (x := (resource, handler)) ResourceProvider.lawful (fun i => nameOf_resource i.1) hadd)
  case resourceTemplates.addResourceTemplate template =>
    simp only [applyCall, ResourceProvider.addResourceTemplate]
    by_cases hdup : w.resources.templates.any (fun existing => existing.uriTemplate == template.uriTemplate) = true
    · rw [if_pos hdup]
      exact .inl rfl
    · rw [if_neg hdup]
      refine .inr ⟨template.toJson, fun hmem => hdup ?_, List.map_append⟩
      rw [names, items, List.map_map, nameOf_template] at hmem
      obtain ⟨existing, hexisting, heq⟩ := List.mem_map.1 hmem
      rw [Function.comp_apply, nameOf_template] at heq
      exact List.any_eq_true.2 ⟨existing, hexisting, beq_iff_eq.2 (Option.some.inj heq)⟩

/-- The operations on resources leave the templates and the page size, and those on templates the resources. -/
theorem addResource_frame {p p' : ResourceProvider α} {resource : Resource} {handler : Option (ReadHandler α)}
    (h : p.addResource resource handler = .ok p') : p'.templates = p.templates ∧ p'.pageSize = p.pageSize := by
  unfold ResourceProvider.addResource at h
  split at h
  · cases h
  · split at h <;> cases h
    exact ⟨rfl, rfl⟩

theorem addResourceTemplate_frame {p p' : ResourceProvider α} {template : ResourceTemplate}
    (h : p.addResourceTemplate template = .ok p') : p'.resources = p.resources ∧ p'.pageSize = p.pageSize := by
  unfold ResourceProvider.addResourceTemplate at h
  split at h <;> cases h
  exact ⟨rfl, rfl⟩

theorem removeResource_frame {p p' : ResourceProvider α} {uri : Bytes} (h : p.removeResource uri = some p') :
    p'.templates = p.templates ∧ p'.pageSize = p.pageSize := by
  unfold ResourceProvider.removeResource at h
  split at h <;> cases h
  exact ⟨rfl, rfl⟩

theorem subscribe_frame {p p' : ResourceProvider α} {uri : Bytes} (h : p.subscribe uri = .ok p') :
    p'.resources = p.resources ∧ p'.templates = p.templates ∧ p'.pageSize = p.pageSize := by
  unfold ResourceProvider.subscribe at h
  split at h <;> cases h
  exact ⟨rfl, rfl, rfl⟩

theorem registerTool_frame {r r' : ToolRegistry α} {tool : Tool} {handler : Option (ToolHandler α)}
    (h : r.registerTool tool handler = .ok r') : r'.pageSize = r.pageSize := by
  unfold ToolRegistry.registerTool at h
  split at h
  · cases h
  · split at h
    · cases h
    · split at h <;> cases h
      rfl

theorem removeTool_frame {r r' : ToolRegistry α} {name : Bytes} (h : r.removeTool name = some r') :
    r'.pageSize = r.pageSize := by
  unfold ToolRegistry.removeTool at h
  split at h <;> cases h
  rfl

theorem addPrompt_frame {p p' : PromptProvider α} {prompt : Prompt} {handler : Option (PromptHandler α)}
    (h : p.addPrompt prompt handler = .ok p') : p'.pageSize = p.pageSize := by
  unfold PromptProvider.addPrompt at h
  split at h
  · cases h
  · split at h
    · cases h
    · split at h <;> cases h
      rfl

theorem removePrompt_frame {p p' : PromptProvider α} {name : Bytes} (h : p.removePrompt name = some p') :
    p'.pageSize = p.pageSize := by
  unfold PromptProvider.removePrompt at h
  split at h <;> cases h
  rfl

/-- Every other call leaves the list alone. -/
theorem items_of_other {l : Listing} {c : ApiCall α} (hregisters : l.registers c = false) (hremoves : l.removes c = none)
    (w : Server α) : l.items (applyCall w c).1 = l.items w := by
  cases c with
  | registerTool tool handler =>
    simp only [applyCall]
    cases w.tools.registerTool tool handler <;> cases l <;> first | rfl | exact absurd hregisters (by simp [registers])
  | removeTool name =>
    simp only [applyCall]
    cases w.tools.removeTool name <;> cases l <;> first | rfl | cases hremoves
  | addPrompt prompt handler =>
    simp only [applyCall]
    cases w.prompts.addPrompt prompt handler <;> cases l <;> first | rfl | exact absurd hregisters (by simp [registers])
  | removePrompt name =>
    simp only [applyCall]
    cases w.prompts.removePrompt name <;> cases l <;> first | rfl | cases hremoves
  | addResource resource handler =>
    simp only [applyCall]
    cases hadd : w.resources.addResource resource handler with
    | error e => rfl
    | ok p =>
      cases l with
      | resources => exact absurd hregisters (by simp [registers])
      | resourceTemplates => exact congrArg (List.map _) (addResource_frame hadd).1
      | _ => rfl
  | addResourceTemplate template =>
    simp only [applyCall]
    cases hadd : w.resources.addResourceTemplate template with
    | error e => rfl
    | ok p =>
      cases l with
      | resources => exact congrArg (List.map _) (addResourceTemplate_frame hadd).1
      | resourceTemplates => exact absurd hregisters (by simp [registers])
      | _ => rfl
  | removeResource uri =>
    simp only [applyCall]
    cases hremove : w.resources.removeResource uri with
    | none => rfl
    | some p =>
      cases l with
      | resources => exact absurd hremoves (by simp [removes])
      | resourceTemplates => exact congrArg (List.map _) (removeResource_frame hremove).1
      | _ => rfl
  | subscribe uri =>
    simp only [applyCall]
    cases hsubscribe : w.resources.subscribe uri with
    | error e => rfl
    | ok p => cases l <;> first | rfl | simp only [items, subscribe_frame hsubscribe]
  | _ => cases l <;> rfl

/-- **The page size is the one last set**, and never 0. -/
theorem pageSize_applyCall (l : Listing) (w : Server α) (c : ApiCall α) :
    l.pageSize (applyCall w c).1 = ((l.resizes c).map clampPageSize).getD (l.pageSize w) := by
  cases c with
  | registerTool tool handler =>
    simp only [applyCall]
    cases hadd : w.tools.registerTool tool handler with
    | error e => cases l <;> rfl
    | ok r => cases l <;> first | rfl | exact registerTool_frame hadd
  | removeTool name =>
    simp only [applyCall]
    cases hremove : w.tools.removeTool name with
    | none => cases l <;> rfl
    | some r => cases l <;> first | rfl | exact removeTool_frame hremove
  | addPrompt prompt handler =>
    simp only [applyCall]
    cases hadd : w.prompts.addPrompt prompt handler with
    | error e => cases l <;> rfl
    | ok p => cases l <;> first | rfl | exact addPrompt_frame hadd
  | removePrompt name =>
    simp only [applyCall]
    cases hremove : w.prompts.removePrompt name with
    | none => cases l <;> rfl
    | some p => cases l <;> first | rfl | exact removePrompt_frame hremove
  | addResource resource handler =>
    simp only [applyCall]
    cases hadd : w.resources.addResource resource handler with
    | error e => cases l <;> rfl
    | ok p => cases l <;> first | rfl | exact (addResource_frame hadd).2
  | addResourceTemplate template =>
    simp only [applyCall]
    cases hadd : w.resources.addResourceTemplate template with
    | error e => cases l <;> rfl
    | ok p => cases l <;> first | rfl | exact (addResourceTemplate_frame hadd).2
  | removeResource uri =>
    simp only [applyCall]
    cases hremove : w.resources.removeResource uri with
    | none => cases l <;> rfl
    | some p => cases l <;> first | rfl | exact (removeResource_frame hremove).2
  | subscribe uri =>
    simp only [applyCall]
    cases hsubscribe : w.resources.subscribe uri with
    | error e => cases l <;> rfl
    | ok p => cases l <;> first | rfl | exact (subscribe_frame hsubscribe).2.2
  | _ => cases l <;> rfl

/-! ## A request and its reply -/

/-- What a client reads of a listing, in the JSON of its items. -/
def reply (l : Listing) (w : Server α) (cursor : Option Bytes) : Result (Client.ListResult Json) :=
  (caught (l.handler (Client.cursorParams cursor) w).1).bind (Client.parseList .ok l.itemsKey)

theorem pageToJson_map {T : Type} (toJson : T → Json) (key : Bytes) (page : Page T) :
    pageToJson toJson key page = pageToJson id key { items := page.items.map toJson, nextCursor := page.nextCursor } := by
  rw [pageToJson, pageToJson, List.map_id]

/-- **The handler answers with a page of the list.** -/
theorem handler_eq (l : Listing) (w : Server α) (cursor : Option Bytes) :
    (l.handler (Client.cursorParams cursor) w).1 =
      (paginate (l.items w) cursor (l.pageSize w)).map (Except.map (pageToJson id l.itemsKey)) := by
  have hpage : ∀ {T : Type} (list : List T) (toJson : T → Json) (pageSize : UInt64),
      Server.listPage (fun cursor => paginate list cursor pageSize) toJson l.itemsKey (Client.cursorParams cursor) =
        (paginate (list.map toJson) cursor pageSize).map (Except.map (pageToJson id l.itemsKey)) := by
    intro T list toJson pageSize
    rw [Client.listPage_cursorParams, paginate_map]
    rcases paginate list cursor pageSize with e | e | page
    · rfl
    · rfl
    · simp only [Except.map, pageToJson_map toJson]
  have hfst : ∀ {T β : Type} (entries : List (T × β)) (toJson : T → Json),
      entries.map (fun entry => toJson entry.1) = (entries.map Prod.fst).map toJson := fun _ _ => by rw [List.map_map]; rfl
  cases l with
  | tools =>
    rw [items, hfst]
    exact hpage _ Tool.toJson _
  | prompts =>
    rw [items, hfst]
    exact hpage _ Prompt.toJson _
  | resources =>
    rw [items, hfst]
    exact hpage _ Resource.toJson _
  | resourceTemplates => exact hpage _ ResourceTemplate.toJson _

/-- **The client reads the page that was cut.** -/
theorem reply_eq (l : Listing) (w : Server α) (cursor : Option Bytes) :
    l.reply w cursor = (caught (paginate (l.items w) cursor (l.pageSize w))).map Client.listResult := by
  have hkey : l.itemsKey ≠ bytes "nextCursor" := by cases l <;> decide
  rw [reply, handler_eq]
  rcases paginate (l.items w) cursor (l.pageSize w) with e | e | page
  · rfl
  · rfl
  · exact Client.parseList_pageToJson hkey fun _ _ => rfl

end Listing
end Mcp
