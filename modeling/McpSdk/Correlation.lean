import McpSdk.Handshake
import McpSdk.Encoding
/-!
# Correlation — the id of a request and the id of its response

An id goes from the wire into a `RequestId`, through the router into the response record and back to JSON.  The only
loss on the way is the cast of an unsigned literal to `std::int64_t`: modulo `2 ^ 64`, above `2 ^ 63 - 1` into the
negative numbers.
-/
namespace Mcp

/-! ## Ids as the wire shows them -/

/-- An id as the wire shows it: a text, or an integer whatever the number type that holds it. -/
inductive JsonId where
  | int (n : Int)
  | str (s : Bytes)
  deriving DecidableEq, Repr

def Json.toId : Json → Option JsonId
  | .numberInteger n => some (.int n.toInt)
  | .numberUnsigned n => some (.int n.toNat)
  | .string s => some (.str s)
  | _ => none

def Json.idMember (j : Json) : Option JsonId := (j.find (bytes "id")).bind Json.toId

/-- The id member is no integer literal above `2 ^ 63 - 1`. -/
def Json.idFits (j : Json) : Bool :=
  match j.find (bytes "id") with
  | some (.numberUnsigned n) => decide (n.toNat < 2 ^ 63)
  | _ => true

def RequestId.toJsonId : RequestId → JsonId
  | int n => .int n.toInt
  | str s => .str s

/-- An id after the cast to `std::int64_t`. -/
def JsonId.narrowed : JsonId → JsonId
  | int n => .int (n.bmod (2 ^ 64))
  | str s => .str s

theorem requestIdToJson_toId (id : RequestId) : (requestIdToJson id).toId = some id.toJsonId := by
  cases id <;> rfl

theorem toInt_toInt64 (n : UInt64) : n.toInt64.toInt = (n.toNat : Int).bmod (2 ^ 64) := by
  have hbits : n.toInt64.toInt = n.toBitVec.toInt := rfl
  rw [hbits, BitVec.toInt_eq_toNat_bmod]
  rfl

theorem requestIdFromJson_toId {j : Json} {id : RequestId} (h : requestIdFromJson j = some id) :
    ∃ v, j.toId = some v ∧ id.toJsonId = v.narrowed := by
  cases j with
  | numberInteger n =>
    rw [← Option.some.inj h]
    exact ⟨.int n.toInt, rfl, by simp [RequestId.toJsonId, JsonId.narrowed]⟩
  | numberUnsigned n =>
    rw [← Option.some.inj h]
    exact ⟨.int n.toNat, rfl, by simp [RequestId.toJsonId, JsonId.narrowed, toInt_toInt64]⟩
  | string s =>
    rw [← Option.some.inj h]
    exact ⟨.str s, rfl, rfl⟩
  | _ => cases h

/-! ## Accepted requests -/

/-- What `parse_message` read as a request. -/
theorem parseMessage_request {j : Json} {r : JsonRpcRequest} (h : parseMessage j = .ok (.ok (.request r))) :
    ∃ idJson, j.find (bytes "id") = some idJson ∧ requestIdFromJson idJson = some r.id := by
  unfold parseMessage at h
  split at h
  · exact absurd h refuse_ne_ok
  split at h
  · exact absurd h refuse_ne_ok
  split at h
  swap
  · exact absurd h ((parseResponse_spec j).2 r)
  unfold parseCall at h
  split at h
  swap
  · exact absurd h refuse_ne_ok
  dsimp only at h
  split at h
  · exact absurd h refuse_ne_ok
  split at h
  · cases h
  rename_i idJson hfind
  split at h
  · exact absurd h refuse_ne_ok
  rename_i id hid
  cases h
  exact ⟨idJson, hfind, hid⟩

/-- **The id of an accepted request** is its id member after the cast. -/
theorem idMember_of_request {j : Json} {r : JsonRpcRequest} (h : parseMessage j = .ok (.ok (.request r))) :
    ∃ v, j.idMember = some v ∧ r.id.toJsonId = v.narrowed ∧ (v.narrowed = v ↔ j.idFits = true) := by
  obtain ⟨idJson, hfind, hid⟩ := parseMessage_request h
  obtain ⟨v, hv, hnarrow⟩ := requestIdFromJson_toId hid
  refine ⟨v, by simp [Json.idMember, hfind, hv], hnarrow, ?_⟩
  unfold Json.idFits
  rw [hfind]
  cases idJson with
  | numberInteger n =>
    have hsame : v = .int n.toInt := (Option.some.inj hv).symm
    rw [← Option.some.inj hid] at hnarrow
    rw [← hnarrow, hsame]
    simp [RequestId.toJsonId]
  | numberUnsigned n =>
    obtain rfl : v = .int n.toNat := (Option.some.inj hv).symm
    have hlt : n.toNat < 2 ^ 64 := n.toNat_lt
    simp only [JsonId.narrowed, JsonId.int.injEq, decide_eq_true_eq]
    constructor
    · intro hbmod
      have hbound := Int.bmod_lt (x := (n.toNat : Int)) (m := 2 ^ 64) (by decide)
      omega
    · intro hfits
      exact Int.bmod_eq_of_le (by omega) (by omega)
  | string s =>
    have hsame : v = .str s := (Option.some.inj hv).symm
    simp [hsame, JsonId.narrowed]
  | _ => cases hv

namespace Session

variable {ω : Type}

/-- The id members of the responses that handling a message sends. -/
def answeredIds (out : Handled ω) : List (Option JsonId) :=
  out.effects.filterMap fun
    | .send (.response r) => some (responseToJson r).idMember
    | _ => none

theorem idMember_response {r : JsonRpcResponse} {id : RequestId} (h : r.id = some id) :
    (responseToJson r).idMember = some id.toJsonId := by
  have hne : bytes "id" ≠ bytes "error" ∧ bytes "id" ≠ bytes "result" := by decide
  unfold responseToJson Json.idMember
  rw [h]
  cases r.error <;> simp [hne.1, hne.2, requestIdToJson_toId]

/-- **An accepted request is answered once, under its narrowed id.** -/
theorem answeredIds_request {now : TimePoint} {s : Session ω} {w : ω} {r : JsonRpcRequest} :
    answeredIds (s.handleMessage now w (.request r)) = [some r.id.toJsonId] := by
  show answeredIds (handleRequest s w r) = _
  cases handleRequest_answered s w r with
  | rejected e gate out_eq =>
    rw [out_eq]
    simp [answeredIds, idMember_response (r := rejection r e) rfl]
  | missing gate find out_eq =>
    rw [out_eq]
    simp [answeredIds, idMember_response (r := methodNotFound r) rfl]
  | handled handler gate find out_eq =>
    rw [out_eq]
    simp [answeredIds, idMember_response (respond_id r.id _)]

theorem answeredIds_eq_iff {now : TimePoint} {s : Session ω} {w : ω} {j : Json} {r : JsonRpcRequest}
    (hj : parseMessage j = .ok (.ok (.request r))) :
    answeredIds (s.handleMessage now w (.request r)) = [j.idMember] ↔ j.idFits = true := by
  obtain ⟨v, hv, hid, hfits⟩ := idMember_of_request hj
  rw [answeredIds_request, hv, hid, ← hfits]
  simp

/-- **Responses echo the ids of their requests, and tell them apart, exactly when no id is an integer above
`2 ^ 63 - 1`.** -/
theorem answers_correlate_iff (now now' : TimePoint) (s s' : Session ω) (w w' : ω) {j k : Json} {r q : JsonRpcRequest}
    (hj : parseMessage j = .ok (.ok (.request r))) (hk : parseMessage k = .ok (.ok (.request q))) :
    (answeredIds (s.handleMessage now w (.request r)) = [j.idMember] ∧
      answeredIds (s'.handleMessage now' w' (.request q)) = [k.idMember] ∧
      (j.idMember ≠ k.idMember →
        answeredIds (s.handleMessage now w (.request r)) ≠ answeredIds (s'.handleMessage now' w' (.request q)))) ↔
    j.idFits = true ∧ k.idFits = true := by
  rw [answeredIds_eq_iff hj, answeredIds_eq_iff hk]
  constructor
  · rintro ⟨hfitsJ, hfitsK, -⟩
    exact ⟨hfitsJ, hfitsK⟩
  · rintro ⟨hfitsJ, hfitsK⟩
    refine ⟨hfitsJ, hfitsK, fun hne hsame => hne ?_⟩
    rw [(answeredIds_eq_iff hj).2 hfitsJ, (answeredIds_eq_iff hk).2 hfitsK] at hsame
    exact List.singleton_inj.1 hsame

theorem bmod_eq_bmod_iff (a b : Int) (n : Nat) : a.bmod n = b.bmod n ↔ a % n = b % n := by
  constructor
  · intro h
    rw [← Int.bmod_emod, h, Int.bmod_emod]
  · intro h
    rw [← Int.emod_bmod, h, Int.emod_bmod]

/-- **Which ids are answered alike**: equal ones, and integers that agree modulo `2 ^ 64`. -/
theorem answers_collide_iff (now now' : TimePoint) (s s' : Session ω) (w w' : ω) {j k : Json} {r q : JsonRpcRequest}
    (hj : parseMessage j = .ok (.ok (.request r))) (hk : parseMessage k = .ok (.ok (.request q))) :
    answeredIds (s.handleMessage now w (.request r)) = answeredIds (s'.handleMessage now' w' (.request q)) ↔
      j.idMember = k.idMember ∨
        ∃ a b : Int, j.idMember = some (.int a) ∧ k.idMember = some (.int b) ∧ a % (2 ^ 64 : Nat) = b % (2 ^ 64 : Nat) := by
  obtain ⟨v, hv, hid, -⟩ := idMember_of_request hj
  obtain ⟨u, hu, hid', -⟩ := idMember_of_request hk
  rw [answeredIds_request, answeredIds_request, hv, hu, hid, hid']
  cases v with
  | str a =>
    cases u with
    | str b => simp [JsonId.narrowed]
    | int b => simp [JsonId.narrowed]
  | int a =>
    cases u with
    | str b => simp [JsonId.narrowed]
    | int b =>
      have hmod := bmod_eq_bmod_iff a b (2 ^ 64)
      constructor
      · intro h
        refine .inr ⟨a, b, rfl, rfl, hmod.1 ?_⟩
        simpa [JsonId.narrowed] using h
      · rintro (h | ⟨x, y, hx, hy, h⟩)
        · rw [Option.some.inj h]
        · simp only [Option.some.injEq, JsonId.int.injEq] at hx hy
          subst hx hy
          simp only [JsonId.narrowed, hmod.2 h]

def pingWith (id : Json) : Json :=
  .object [(bytes "id", id), (bytes "jsonrpc", .string (bytes "2.0")), (bytes "method", .string methods.kPing)]

def freshServer : Session Unit := mkServer { serverInfo := { name := bytes "s", version := bytes "1" } }

/-- `18446744073709551615` and `-1` are both answered under `-1`. -/
theorem wideId_answered_negative :
    ∃ r q, parseMessage (pingWith (.numberUnsigned 18446744073709551615)) = .ok (.ok (.request r)) ∧
      parseMessage (pingWith (.numberInteger (-1))) = .ok (.ok (.request q)) ∧
      (pingWith (.numberUnsigned 18446744073709551615)).idMember = some (.int 18446744073709551615) ∧
      (pingWith (.numberInteger (-1))).idMember = some (.int (-1)) ∧
      answeredIds (freshServer.handleMessage 0 () (.request r)) = [some (.int (-1))] ∧
      answeredIds (freshServer.handleMessage 0 () (.request q)) = [some (.int (-1))] :=
  ⟨_, _, rfl, rfl, rfl, rfl, rfl, rfl⟩

/-- The extreme ids of `std::int64_t` come back. -/
theorem answers_correlate_iff_extremes :
    ∃ r q, answeredIds (freshServer.handleMessage 0 () (.request r)) = [some (.int (2 ^ 63 - 1))] ∧
      answeredIds (freshServer.handleMessage 0 () (.request q)) = [some (.int (-2 ^ 63))] := by
  have h := (answers_correlate_iff 0 0 freshServer freshServer () ()
    (j := pingWith (.numberUnsigned 9223372036854775807)) (k := pingWith (.numberInteger (-9223372036854775808)))
    rfl rfl).2 ⟨by decide, by decide⟩
  exact ⟨_, _, h.1, h.2.1⟩

end Session

end Mcp
