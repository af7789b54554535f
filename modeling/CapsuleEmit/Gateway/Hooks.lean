import CapsuleEmit.Foundation.Machine
import CapsuleEmit.Gateway.AuthorityTruth
import CapsuleEmit.Gateway.Bodies
import CapsuleEmit.Gateway.Pairing

namespace CapsuleEmit
namespace Gateway

open Scanner
open Numbers (Value)
open Authority (KeyMap Members auditSlots candidate collect hit keyMapOf keysOf sanitize slotField)

/-!
# The hooks of the servicer

`CheckRequest` seals a planned Capsule and puts an entry into the queue;
`CheckResponse` takes an entry out and seals the outcome.  A seal that fails is
logged, so that the gateway never fails for it.  What is sealed is put together
outside that guard, though: a float that is infinite or not a number, or a body
nested too deep, ends the hook with an exception, and in `CheckResponse` that
comes after the entry was taken.

A hook touches the queue once, under the lock, so the hooks are taken one after
another here.
-/

/-! ## Messages and the queue -/

structure McpRequest where
  method : String
  mcpRequest : Option Bytes
  serviceNames : List String
  metadataContext : Option (List (String × StructValue))

structure McpResponse where
  method : String
  mcpResponse : Bytes
  serviceNames : List String
  metadataContext : Option (List (String × StructValue))

/-- A planned call waiting for its response, with what was read of it. -/
structure Entry where
  plannedId : Option String
  toolName : Bytes
  arguments : List (Bytes × Tree)
  requestMd : Option Members
  backends : List String
  at' : Int

/-- What is handed to `_seal`. -/
structure Attempt where
  action : Bytes
  agentInput : Option Tree
  agentOutput : Option Tree
  verdict : Option String
  status : String
  confirms : Option String
  authority : Value
  backends : List String
  pairing : Option Pairing
  unchainedReason : Option String

structure Servicer where
  pending : List Entry
  attempts : List Attempt

/-- Drop planned calls whose response is overdue. -/
def expireEntries (pendingTtl now : Int) (pending : List Entry) : List Entry :=
  pending.dropWhile (fun entry => pendingTtl < now - entry.at')

/-- `_resolve()`: the entry, the pairing block and the queue. -/
def resolveEntries (pendingTtl now : Int) (pending : List Entry) :
    Option Entry × Pairing × List Entry :=
  match expireEntries pendingTtl now pending with
  | [] => (none, .unmatched 0, [])
  | [entry] => (some entry, .paired, [])
  | many => (none, .unresolved many.length (many.map Entry.plannedId), [])

/-! ## The hooks -/

/-- What a servicer is started with, and the interpreter under it. -/
structure Config where
  interpreter : Interpreter
  quote : String → String
  auditKeys : KeyMap
  pendingTtl : Int

variable (config : Config)

/-- `build_authority_block(request_md, response_md, key_map=self._audit_keys)` -/
def authorityBlock (request response : Option Members) : Except Raised Value :=
  (Authority.buildAuthorityBlock config.quote request response (some config.auditKeys)).mapError
    (fun _ => .floatInDigestError)

/-- The entry a request makes, and what is sealed for it. -/
def plan (request : McpRequest) (sealed : Option String) (now : Int) :
    Except Raised (Entry × Attempt) := do
  let call := parseCall config.interpreter request.mcpRequest
  let requestMd := metadataFromMessage request.metadataContext
  let agentInput ← canonicalBody config.interpreter call.2
  let authority ← authorityBlock config requestMd none
  return (⟨sealed, call.1, call.2, requestMd, request.serviceNames, now⟩,
    ⟨call.1, some agentInput, none, none, "planned", none, authority, request.serviceNames, none,
      none⟩)

/-- `CheckRequest`, with what sealing returned and the clock. -/
def checkRequest (s : Servicer) (request : McpRequest) (sealed : Option String) (now : Int) :
    Except Raised Unit × Servicer :=
  if request.method ≠ "tools/call" then (.ok (), s)
  else match plan config request sealed now with
    | .error raised => (.error raised, s)
    | .ok (entry, attempt) => (.ok (), ⟨s.pending ++ [entry], s.attempts ++ [attempt]⟩)

/-- What is sealed for a response that was paired with an entry, or with none. -/
def conclude (entry : Option Entry) (pairing : Pairing) (response : McpResponse) :
    Except Raised Attempt := do
  let result := parseResult config.interpreter response.mcpResponse
  let responseMd := metadataFromMessage response.metadataContext
  let failed := treeFailed result
  let agentInput ← entry.elim (.ok none)
    (fun e => (canonicalBody config.interpreter e.arguments).map some)
  let authority ← authorityBlock config (entry.bind Entry.requestMd) responseMd
  let agentOutput ← canonicalBody config.interpreter result
  return {
    action := entry.elim unknown Entry.toolName
    agentInput := agentInput
    agentOutput := some agentOutput
    verdict := some (if failed then "errored" else "executed")
    status := if failed then "failed" else "confirmed"
    confirms := entry.bind Entry.plannedId
    authority := authority
    backends := match entry with
      | some e => if e.backends.isEmpty then response.serviceNames else e.backends
      | none => response.serviceNames
    pairing := some pairing
    unchainedReason := match entry with
      | some e => if e.plannedId.isNone then some Gateway.unchainedReason else none
      | none => none }

/-- `CheckResponse`, with the clock. -/
def checkResponse (s : Servicer) (response : McpResponse) (now : Int) :
    Except Raised Unit × Servicer :=
  if response.method ≠ "tools/call" then (.ok (), s)
  else
    let resolved := resolveEntries config.pendingTtl now s.pending
    match conclude config resolved.1 resolved.2.1 response with
    | .error raised => (.error raised, ⟨resolved.2.2, s.attempts⟩)
    | .ok attempt => (.ok (), ⟨resolved.2.2, s.attempts ++ [attempt]⟩)

/-- A call of a hook. -/
inductive HookCall where
  | request (request : McpRequest) (sealed : Option String) (now : Int)
  | response (response : McpResponse) (now : Int)

def serve (s : Servicer) : HookCall → Except Raised Unit × Servicer
  | .request request sealed now => checkRequest config s request sealed now
  | .response response now => checkResponse config s response now

def Servicer.fresh : Servicer := ⟨[], []⟩

/-! ## What the hooks are to do -/

/-- `CheckRequest` passes the request and adds one entry to the queue. -/
def RequestServed (s : Servicer) (request : McpRequest) (sealed : Option String) (now : Int) :
    Prop :=
  (checkRequest config s request sealed now).1 = .ok () ∧
    ∃ entry, (checkRequest config s request sealed now).2.pending = s.pending ++ [entry]

/-- `CheckResponse` passes the response and hands one outcome to be sealed,
chained to and named after the entry it took, if it took one. -/
def ResponseServed (s : Servicer) (response : McpResponse) (now : Int) : Prop :=
  (checkResponse config s response now).1 = .ok () ∧
    ∃ attempt, (checkResponse config s response now).2.attempts = s.attempts ++ [attempt] ∧
      ∀ entry, (resolveEntries config.pendingTtl now s.pending).1 = some entry →
        attempt.confirms = entry.plannedId ∧ attempt.action = entry.toolName

/-! ## When they do it -/

/-- The values the audit slots take from the metadata of one hook hold no float
that is infinite or not a number. -/
def AuditFinite (md : Option Members) : Prop :=
  ∀ slot ∈ auditSlots, ∀ found,
    candidate (md.getD []) (keysOf (keyMapOf (some config.auditKeys)) slot) = some found →
      (sanitize found.1).1.Finite

/-- What a request brings can be sealed. -/
def CleanRequest (request : McpRequest) : Prop :=
  Sealable config.interpreter (parseCall config.interpreter request.mcpRequest).2 ∧
    AuditFinite config (metadataFromMessage request.metadataContext)

/-- What a response brings can be sealed. -/
def CleanResponse (response : McpResponse) : Prop :=
  Sealable config.interpreter (parseResult config.interpreter response.mcpResponse) ∧
    AuditFinite config (metadataFromMessage response.metadataContext)

/-! ## The floats of a block -/

section

variable {keyMap : KeyMap} {request response : Members}

theorem finiteItems_iff {items : List Value} :
    Numbers.FiniteItems items ↔ ∀ item ∈ items, item.Finite := by
  induction items with
  | nil => exact ⟨fun _ _ inside => absurd inside List.not_mem_nil, fun _ => trivial⟩
  | cons item items ih =>
      rw [List.forall_mem_cons, ← ih]
      exact Iff.rfl

theorem finiteMembers_iff {members : List (String × Value)} :
    Numbers.FiniteMembers members ↔ ∀ member ∈ members, member.2.Finite := by
  induction members with
  | nil => exact ⟨fun _ _ inside => absurd inside List.not_mem_nil, fun _ => trivial⟩
  | cons member members ih =>
      rw [List.forall_mem_cons, ← ih]
      exact Iff.rfl

theorem finite_sortedNames (names : List String) : (Authority.sortedNames names).Finite := by
  apply finiteItems_iff.mpr
  intro item inside
  rcases List.mem_map.mp inside with ⟨name, -, rfl⟩
  trivial

theorem finite_metadataKeys (md : Option Members) : (Authority.metadataKeys md).Finite := by
  cases md with
  | none => trivial
  | some md => exact finite_sortedNames _

/-- The items of a slot are finite when its field is. -/
theorem finite_slotItems {fields : List (String × Authority.Hit)}
    (all : ∀ field ∈ fields, field.2.value.Finite) (slot : String) :
    ∀ item ∈ Authority.slotItems fields slot, item.Finite := by
  intro item inside
  unfold Authority.slotItems at inside
  cases found : fields.lookup slot with
  | none =>
      rw [found] at inside
      cases inside
  | some field =>
      rw [found] at inside
      have whole : field.value.Finite := by
        rcases List.lookup_eq_some_iff.mp found with ⟨front, back, rfl, -⟩
        exact all (slot, field) (List.mem_append_right _ List.mem_cons_self)
      simp only [Option.map_some, Option.getD_some] at inside
      cases value : field.value with
      | list items =>
          rw [value] at inside whole
          exact finiteItems_iff.mp whole item inside
      | _ =>
          rw [value] at inside whole
          cases List.mem_singleton.mp inside
          exact whole

theorem finite_grantEntry {jti aud : Option Value}
    (first : ∀ value, jti = some value → value.Finite)
    (second : ∀ value, aud = some value → value.Finite) {entry : Value}
    (granted : Authority.grantEntry jti aud = some entry) : entry.Finite := by
  cases jti with
  | none =>
      cases aud with
      | none => cases granted
      | some b =>
          cases granted
          exact ⟨second b rfl, trivial⟩
  | some a =>
      cases aud with
      | none =>
          cases granted
          exact ⟨first a rfl, trivial⟩
      | some b =>
          cases granted
          exact ⟨first a rfl, second b rfl, trivial⟩

theorem finite_buildGrants {fields : List (String × Authority.Hit)}
    (all : ∀ field ∈ fields, field.2.value.Finite) :
    Numbers.FiniteItems (Authority.buildGrants fields) := by
  rw [finiteItems_iff]
  intro grant inside
  rcases List.mem_filterMap.mp inside with ⟨i, -, granted⟩
  refine finite_grantEntry (fun value there => ?_) (fun value there => ?_) granted
  · exact finite_slotItems all _ value (List.mem_of_getElem? there)
  · exact finite_slotItems all _ value (List.mem_of_getElem? there)

/-- A block is finite when the values of its fields are. -/
theorem finite_block_iff {request response : Option Members} :
    (Authority.block keyMap request response).Finite ↔
      ∀ slot ∈ auditSlots, ∀ found,
        hit (request.getD []) (response.getD []) (keysOf keyMap slot) = some found →
          (sanitize found.value).1.Finite := by
  have fields : (∀ field ∈ (collect keyMap (request.getD []) (response.getD [])).fields,
      field.2.value.Finite) ↔ ∀ slot ∈ auditSlots, ∀ found,
        hit (request.getD []) (response.getD []) (keysOf keyMap slot) = some found →
          (sanitize found.value).1.Finite := by
    constructor
    · intro all slot inside found there
      cases kept : slotField keyMap (request.getD []) (response.getD []) slot with
      | none =>
          rw [slotField, there, Option.bind_some] at kept
          split at kept
          · next dropped =>
              rw [dropped]
              trivial
          · cases kept
      | some field =>
          have whole := all (slot, field) (Authority.mem_collect_fields.mpr ⟨inside, kept⟩)
          rcases Authority.slotField_eq_some kept with ⟨other, again, rfl⟩
          rw [there] at again
          cases again
          exact whole
    · rintro all ⟨slot, field⟩ inside
      rcases Authority.mem_collect_fields.mp inside with ⟨slotInside, kept⟩
      rcases Authority.slotField_eq_some kept with ⟨found, there, rfl⟩
      exact all slot slotInside found there
  rw [← fields]
  constructor
  · rintro ⟨-, -, whole, -⟩ field inside
    have member := finiteMembers_iff.mp whole (field.1, Authority.fieldValue field.2)
      (List.mem_map.mpr ⟨field, inside, rfl⟩)
    exact member.1
  · intro all
    refine ⟨trivial, trivial, ?_, finite_buildGrants all, finite_sortedNames _,
      finite_sortedNames _, ⟨finite_metadataKeys _, finite_metadataKeys _, trivial⟩, trivial⟩
    apply finiteMembers_iff.mpr
    intro member inside
    rcases List.mem_map.mp inside with ⟨field, there, rfl⟩
    exact ⟨all field there, trivial, trivial, trivial⟩

end

variable {config}

theorem authorityBlock_ok_iff {request response : Option Members} :
    (∃ text, authorityBlock config request response = .ok text) ↔
      (Authority.block (keyMapOf (some config.auditKeys)) request response).Finite := by
  simp only [authorityBlock, mapError_eq_ok_iff]
  constructor
  · rintro ⟨text, built⟩
    exact Numbers.finite_of_canonicalizeForDigest _ built
  · intro whole
    rcases Numbers.canonicalizeForDigest_finite "extra_compute" whole with ⟨text, built, -⟩
    exact ⟨text, built⟩

theorem walk_nil {parts : List String} (some : parts ≠ []) :
    Authority.walk (.dict []) parts = none := by
  cases parts with
  | nil => exact absurd rfl some
  | cons part parts => rfl

/-- Nothing is found in no metadata. -/
theorem candidate_nil (keys : List String) : candidate [] keys = none := by
  unfold candidate
  rw [List.findSome?_eq_none_iff]
  intro key _
  have none : Authority.lookup [] key = none := by
    unfold Authority.lookup
    rw [List.any_nil, if_neg Bool.false_ne_true]
    split_ifs
    · apply walk_nil
      simp [Authority.segments]
    · rfl
  rw [none]
  rfl

theorem finite_requestBlock_iff {md : Option Members} :
    (Authority.block (keyMapOf (some config.auditKeys)) md none).Finite ↔
      AuditFinite config md := by
  rw [finite_block_iff]
  unfold AuditFinite
  refine forall_congr' fun slot => forall_congr' fun _ => ?_
  rw [Authority.hit_eq, Option.getD_none, candidate_nil, Option.map_none, Option.none_or,
    Option.or_none]
  constructor
  · intro all found there
    exact all ⟨found.1, found.2, "request"⟩ (by rw [there]; rfl)
  · intro all found there
    rcases Option.map_eq_some_iff.mp there with ⟨pair, taken, rfl⟩
    exact all pair taken

/-- Over request metadata that passed, a block is finite when the response
metadata passes. -/
theorem finite_responseBlock_iff {request response : Option Members}
    (passed : AuditFinite config request) :
    (Authority.block (keyMapOf (some config.auditKeys)) request response).Finite ↔
      AuditFinite config response := by
  rw [finite_block_iff]
  refine forall_congr' fun slot => forall_congr' fun inside => ?_
  rw [Authority.hit_eq]
  constructor
  · intro all found there
    exact all ⟨found.1, found.2, "response"⟩ (by rw [there]; rfl)
  · intro all found there
    cases later : candidate (response.getD []) (keysOf (keyMapOf (some config.auditKeys)) slot) with
    | some pair =>
        rw [later] at there
        cases there
        exact all pair later
    | none =>
        rw [later, Option.map_none, Option.none_or, Option.or_none] at there
        rcases Option.map_eq_some_iff.mp there with ⟨pair, taken, rfl⟩
        exact passed slot inside pair taken

theorem auditFinite_none : AuditFinite config none := by
  intro slot _ found there
  rw [Option.getD_none, candidate_nil] at there
  cases there

/-! ## What a hook does -/

/-- A plan can be put together when the request is clean. -/
theorem plan_ok_iff {request : McpRequest} {sealed : Option String} {now : Int} :
    (∃ planned, plan config request sealed now = .ok planned) ↔ CleanRequest config request := by
  unfold CleanRequest
  rw [← canonicalBody_ok_iff, ← finite_requestBlock_iff, ← authorityBlock_ok_iff]
  constructor
  · rintro ⟨planned, ok⟩
    rcases bind_eq_ok_iff.mp ok with ⟨agentInput, input, ok⟩
    rcases bind_eq_ok_iff.mp ok with ⟨authority, block, -⟩
    exact ⟨⟨agentInput, input⟩, ⟨authority, block⟩⟩
  · rintro ⟨⟨agentInput, input⟩, ⟨authority, block⟩⟩
    simp only [plan, input, block, ok_bind]
    exact ⟨_, rfl⟩

theorem plan_entry {request : McpRequest} {sealed : Option String} {now : Int} {entry : Entry}
    {attempt : Attempt} (ok : plan config request sealed now = .ok (entry, attempt)) :
    entry.arguments = (parseCall config.interpreter request.mcpRequest).2 ∧
      entry.requestMd = metadataFromMessage request.metadataContext := by
  rcases bind_eq_ok_iff.mp ok with ⟨agentInput, -, ok⟩
  rcases bind_eq_ok_iff.mp ok with ⟨authority, -, same⟩
  cases same
  exact ⟨rfl, rfl⟩

/-- The entry was put together once, so it can be again. -/
def Entry.Sound (config : Config) (entry : Entry) : Prop :=
  Sealable config.interpreter entry.arguments ∧ AuditFinite config entry.requestMd

/-- An outcome can be put together when the response is clean. -/
theorem conclude_ok_iff {entry : Option Entry} (sound : ∀ e, entry = some e → e.Sound config)
    {pairing : Pairing} {response : McpResponse} :
    (∃ attempt, conclude config entry pairing response = .ok attempt) ↔
      CleanResponse config response := by
  have passed : AuditFinite config (entry.bind Entry.requestMd) := by
    cases entry with
    | none => exact auditFinite_none
    | some e => exact (sound e rfl).2
  unfold CleanResponse
  rw [← canonicalBody_ok_iff, ← finite_responseBlock_iff passed, ← authorityBlock_ok_iff]
  constructor
  · rintro ⟨attempt, ok⟩
    rcases bind_eq_ok_iff.mp ok with ⟨agentInput, -, ok⟩
    rcases bind_eq_ok_iff.mp ok with ⟨authority, block, ok⟩
    rcases bind_eq_ok_iff.mp ok with ⟨agentOutput, output, -⟩
    exact ⟨⟨agentOutput, output⟩, ⟨authority, block⟩⟩
  · rintro ⟨⟨agentOutput, output⟩, ⟨authority, block⟩⟩
    have input : ∃ agentInput, entry.elim (.ok none)
        (fun e => (canonicalBody config.interpreter e.arguments).map some) = .ok agentInput := by
      cases entry with
      | none => exact ⟨none, rfl⟩
      | some e =>
          rcases canonicalBody_ok_iff.mpr (sound e rfl).1 with ⟨text, canonical⟩
          exact ⟨some text, map_eq_ok_iff.mpr ⟨text, canonical, rfl⟩⟩
    rcases input with ⟨agentInput, input⟩
    simp only [conclude, input, block, output, ok_bind]
    exact ⟨_, rfl⟩

theorem conclude_names {entry : Entry} {pairing : Pairing} {response : McpResponse}
    {attempt : Attempt} (ok : conclude config (some entry) pairing response = .ok attempt) :
    attempt.confirms = entry.plannedId ∧ attempt.action = entry.toolName := by
  rcases bind_eq_ok_iff.mp ok with ⟨agentInput, -, ok⟩
  rcases bind_eq_ok_iff.mp ok with ⟨authority, -, ok⟩
  rcases bind_eq_ok_iff.mp ok with ⟨agentOutput, -, same⟩
  cases same
  exact ⟨rfl, rfl⟩

/-- The entry a response is paired with was in the queue. -/
theorem mem_of_resolved {pendingTtl now : Int} {pending : List Entry} {entry : Entry}
    (taken : (resolveEntries pendingTtl now pending).1 = some entry) : entry ∈ pending := by
  unfold resolveEntries at taken
  split at taken
  · cases taken
  · next single =>
      cases taken
      have inside : entry ∈ expireEntries pendingTtl now pending := by
        rw [single]
        exact List.mem_singleton_self entry
      exact (List.dropWhile_suffix _).subset inside
  · cases taken

/-- A response leaves nothing in the queue. -/
theorem resolved_rest (pendingTtl now : Int) (pending : List Entry) :
    (resolveEntries pendingTtl now pending).2.2 = [] := by
  unfold resolveEntries
  split <;> rfl

/-! ## Reachable states -/

/-- Every entry of the queue was put together once. -/
def Sound (config : Config) (s : Servicer) : Prop := ∀ entry ∈ s.pending, entry.Sound config

theorem sound_checkRequest {s : Servicer} (sound : Sound config s) (request : McpRequest)
    (sealed : Option String) (now : Int) :
    Sound config (checkRequest config s request sealed now).2 := by
  unfold checkRequest
  split_ifs with other
  · exact sound
  · cases planned : plan config request sealed now with
    | error raised => exact sound
    | ok pair =>
        rcases pair with ⟨entry, attempt⟩
        intro e inside
        rcases List.mem_append.mp inside with before | new
        · exact sound e before
        · cases List.mem_singleton.mp new
          have clean := plan_ok_iff.mp ⟨_, planned⟩
          rcases plan_entry planned with ⟨arguments, requestMd⟩
          exact ⟨arguments ▸ clean.1, requestMd ▸ clean.2⟩

theorem sound_checkResponse {s : Servicer} (sound : Sound config s) (response : McpResponse)
    (now : Int) : Sound config (checkResponse config s response now).2 := by
  unfold checkResponse
  split_ifs with other
  · exact sound
  · dsimp only
    have none : Sound config
        ⟨(resolveEntries config.pendingTtl now s.pending).2.2, s.attempts⟩ := by
      intro entry inside
      rw [resolved_rest] at inside
      cases inside
    split
    · exact none
    · exact none

theorem sound_after (calls : List HookCall) :
    Sound config (Machine.after (serve config) Servicer.fresh calls) := by
  apply Machine.invariant
  · intro s call sound
    cases call with
    | request request sealed now => exact sound_checkRequest sound request sealed now
    | response response now => exact sound_checkResponse sound response now
  · exact nofun

/-! ## The exact condition -/

theorem requestServed_iff (s : Servicer) {request : McpRequest}
    (call : request.method = "tools/call") (sealed : Option String) (now : Int) :
    RequestServed config s request sealed now ↔ CleanRequest config request := by
  rw [← @plan_ok_iff config request sealed now]
  unfold RequestServed checkRequest
  rw [if_neg (not_not_intro call)]
  cases planned : plan config request sealed now with
  | error raised =>
      constructor
      · rintro ⟨passed, -⟩
        cases passed
      · rintro ⟨pair, ok⟩
        cases ok
  | ok pair => exact ⟨fun _ => ⟨pair, rfl⟩, fun _ => ⟨rfl, pair.1, rfl⟩⟩

theorem responseServed_iff {s : Servicer} (sound : Sound config s) {response : McpResponse}
    (call : response.method = "tools/call") (now : Int) :
    ResponseServed config s response now ↔ CleanResponse config response := by
  have taken : ∀ e, (resolveEntries config.pendingTtl now s.pending).1 = some e → e.Sound config :=
    fun e paired => sound e (mem_of_resolved paired)
  have concludes := @conclude_ok_iff config _ taken
    (resolveEntries config.pendingTtl now s.pending).2.1 response
  rw [← concludes]
  unfold ResponseServed checkResponse
  rw [if_neg (not_not_intro call)]
  dsimp only
  cases concluded : conclude config (resolveEntries config.pendingTtl now s.pending).1
      (resolveEntries config.pendingTtl now s.pending).2.1 response with
  | error raised =>
      constructor
      · rintro ⟨passed, -⟩
        cases passed
      · rintro ⟨attempt, ok⟩
        cases ok
  | ok attempt =>
      refine ⟨fun _ => ⟨attempt, rfl⟩, fun _ => ⟨rfl, attempt, rfl, fun entry paired => ?_⟩⟩
      rw [paired] at concluded
      exact conclude_names concluded

/-- Whatever has been served before and whatever sealing does, a hook does what
it is to do exactly when what it was sent can be sealed. -/
theorem hooks_served_iff (config : Config) (calls : List HookCall) :
    (∀ request sealed now, request.method = "tools/call" →
      (RequestServed config (Machine.after (serve config) Servicer.fresh calls) request sealed now ↔
        CleanRequest config request)) ∧
    (∀ response now, response.method = "tools/call" →
      (ResponseServed config (Machine.after (serve config) Servicer.fresh calls) response now ↔
        CleanResponse config response)) :=
  ⟨fun _ sealed now call => requestServed_iff _ call sealed now,
    fun _ now call => responseServed_iff (sound_after calls) call now⟩

/-! ## Calls -/

def plainConfig : Config where
  interpreter := ⟨990, 480, fun _ => .zero false, fun value =>
    match value with
    | .string bytes => some bytes
    | _ => none⟩
  quote := id
  auditKeys := []
  pendingTtl := 120

/-- A call of the tool `t` with the text of an argument. -/
def callOf (argument : Bytes) : McpRequest :=
  ⟨"tools/call", some (utf8 "\x7b\"name\":\"t\",\"arguments\":\x7b\"x\":" ++ argument ++
    utf8 "\x7d\x7d"), [], none⟩

/-- A response with the text of a result. -/
def resultOf (result : Bytes) : McpResponse := ⟨"tools/call", result, [], none⟩

set_option maxRecDepth 8000 in
theorem callOf_one : parseCall plainConfig.interpreter (callOf (utf8 "1")).mcpRequest =
    (utf8 "t", [(utf8 "x", .number ⟨[49], rfl, rfl⟩)]) := by
  rfl

set_option maxRecDepth 8000 in
theorem callOf_nan : parseCall plainConfig.interpreter (callOf nanName).mcpRequest =
    (utf8 "t", [(utf8 "x", .constant nanName)]) := by
  rfl

theorem resultOf_one : parseResult plainConfig.interpreter (resultOf [49]).mcpResponse =
    [(utf8 "result", .number ⟨[49], rfl, rfl⟩)] := by
  rfl

theorem resultOf_nan : parseResult plainConfig.interpreter (resultOf nanName).mcpResponse =
    [(utf8 "result", .constant nanName)] := by
  rfl

theorem clean_callOf_one : CleanRequest plainConfig (callOf (utf8 "1")) := by
  refine ⟨?_, auditFinite_none⟩
  rw [callOf_one]
  exact ⟨rfl, by decide⟩

theorem clean_resultOf_one : CleanResponse plainConfig (resultOf [49]) := by
  refine ⟨?_, auditFinite_none⟩
  rw [resultOf_one]
  exact ⟨rfl, by decide⟩

/-- A call whose plan could not be sealed, and its response, are served. -/
theorem hooks_served_one :
    RequestServed plainConfig Servicer.fresh (callOf (utf8 "1")) none 0 ∧
      ResponseServed plainConfig
        (Machine.after (serve plainConfig) Servicer.fresh [.request (callOf (utf8 "1")) none 0])
        (resultOf [49]) 1 :=
  ⟨((hooks_served_iff plainConfig []).1 _ none 0 rfl).mpr clean_callOf_one,
    ((hooks_served_iff plainConfig [.request (callOf (utf8 "1")) none 0]).2 _ 1 rfl).mpr
      clean_resultOf_one⟩

/-- A call with the argument `NaN` is not planned, and a result `NaN` loses the
outcome of a call that was. -/
theorem hooks_lost :
    ¬ RequestServed plainConfig Servicer.fresh (callOf nanName) (some "1") 0 ∧
      ¬ ResponseServed plainConfig
        (Machine.after (serve plainConfig) Servicer.fresh
          [.request (callOf (utf8 "1")) (some "1") 0]) (resultOf nanName) 1 := by
  constructor
  · intro served
    rcases (requestServed_iff _ rfl _ _).mp served with ⟨⟨finite, -⟩, -⟩
    rw [callOf_nan] at finite
    cases finite
  · intro served
    rcases (responseServed_iff (sound_after _) rfl _).mp served with ⟨⟨finite, -⟩, -⟩
    rw [resultOf_nan] at finite
    cases finite

end Gateway
end CapsuleEmit
