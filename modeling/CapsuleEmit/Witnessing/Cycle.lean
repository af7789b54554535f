import CapsuleEmit.Witnessing.Passes

namespace CapsuleEmit
namespace Witnessing

open Continuity

/-!
# The checkpoint cycle of a process

A due cycle, or a push, drains the backlog, builds a checkpoint on the one the
process remembers, offers it to every witness and then writes its stamp.  The
steps are separate, and the process can stop between any two of them; one that
starts again remembers the newest checkpoint its ledger has.  A process that
stops within a step is one whose remaining requests do not arrive.

The log itself is another package: it says how large the log is and builds a
checkpoint over it, or refuses to.
-/

/-- The log package: the size of a log, and the next checkpoint of a log from the
one before. -/
structure LogPackage where
  mmrSize : List Entry → Nat
  emitCheckpoint : List Entry → String → Option Checkpoint → String → Option Checkpoint

/-- What the log package promises: a checkpoint is of the log it is built for, has
no confirmation yet, starts where the one before leads and is larger. -/
structure LogPackage.Lawful (log : LogPackage) : Prop where
  logId : ∀ {ledger id prev now cp}, log.emitCheckpoint ledger id prev now = some cp → cp.logId = id
  unwitnessed : ∀ {ledger id prev now cp}, log.emitCheckpoint ledger id prev now = some cp →
    cp.witnesses = []
  starts : ∀ {ledger id prev now cp}, log.emitCheckpoint ledger id prev now = some cp →
    ∀ before ∈ prev, cp.link.prev = before.link.next
  forward : ∀ {ledger id prev now cp}, log.emitCheckpoint ledger id prev now = some cp →
    cp.prevSize < cp.mmrSize

/-- What a checkpoint's signature covers. -/
def Checkpoint.body (cp : Checkpoint) : Checkpoint := { cp with witnesses := [] }

/-- A request to register a checkpoint, and whether the witness accepted it. -/
structure Request where
  url : String
  checkpoint : Checkpoint
  accepted : Bool

/-- How far the cycle of a process is. -/
inductive Phase where
  | idle
  | drained (urls : List String)
  | built (urls : List String) (cp : Checkpoint) (cose : Option String)
  | registered (cp : Checkpoint) (cose : Option String)

/-- A process over its ledger, the witnesses, and the requests made so far.  What
the process remembers is the checkpoint before the next, once it has looked
for it. -/
structure Site where
  ledger : List Entry
  parties : String → Party
  memory : Option (Option Checkpoint)
  phase : Phase
  requests : List Request

/-- What can happen: a line is appended; a cycle falls due or is pushed for; the
checkpoint is built; it is offered; its stamp is written; the process stops
and starts again. -/
inductive Event where
  | append (capsuleId content : String)
  | due (urls : List String) (attempts : String → Nat → Attempt)
  | push (urls : List String) (attempts : String → Nat → Attempt)
  | build (timestamp : String) (cose : Option String)
  | register (deliveries : String → Delivery)
  | persistStamp (stored : Bool)
  | crash

/-! ## The steps -/

section

variable (digests : Digests) (log : LogPackage) (logId : String) (sign : Bool)

/-- The remembered checkpoint, read from the ledger the first time. -/
def Site.prev (site : Site) : Option Checkpoint :=
  site.memory.getD (lastPersistedCheckpoint site.ledger logId)

/-- The requests of a pass. -/
def Pass.requests (pass : Pass) : List Request :=
  pass.offers.map (fun offer => ⟨offer.url, offer.state.checkpoint.body, offer.accepted⟩)

/-- Begin a cycle: drain the backlog of the configured witnesses, if any. -/
def beginCycle (urls : List String) (attempts : String → Nat → Attempt) (site : Site) : Site :=
  if resolvedWitnessUrls urls = [] then site
  else
    let pass := retryPendingWitnessStamps digests ⟨true, urls, sign, attempts⟩
      ⟨site.ledger, site.parties⟩
    { ledger := pass.world.ledger
      parties := pass.world.parties
      memory := some (site.prev logId)
      phase := .drained (resolvedWitnessUrls urls)
      requests := site.requests ++ pass.requests }

/-- Nothing is new since the remembered checkpoint. -/
def nothingNew (site : Site) : Bool :=
  log.mmrSize site.ledger = 0 ||
    match site.prev logId with
    | some prev => log.mmrSize site.ledger ≤ prev.mmrSize
    | none => false

/-- What registering a checkpoint with the witnesses does. -/
structure Registration where
  parties : String → Party
  checkpoint : Checkpoint
  requests : List Request

/-- The delivery of a request; one that needs the signer and has none does not
leave. -/
def deliveryTo (deliveries : String → Delivery) (url : String) : Delivery :=
  if !sign && bindingOf url = .rekor then .unreached else deliveries url

/-- A checkpoint keeps a confirmation it gets. -/
def Checkpoint.keep (cp : Checkpoint) : Response → Checkpoint
  | .stamped witness => { cp with witnesses := cp.witnesses ++ [witness] }
  | _ => cp

/-- Offer a checkpoint to the witnesses in turn. -/
def registerAll (deliveries : String → Delivery) :
    List String → (String → Party) → Checkpoint → Registration
  | [], parties, cp => ⟨parties, cp, []⟩
  | url :: urls, parties, cp =>
      let delivery := deliveryTo sign deliveries url
      let response := registerWith (parties url) url cp delivery
      let rest := registerAll deliveries urls (Function.update parties url response.1)
        (cp.keep response.2)
      ⟨rest.parties, rest.checkpoint,
        ⟨url, cp.body, delivery.accepted (parties url) cp⟩ :: rest.requests⟩

/-- The stamp line of a checkpoint. -/
def checkpointEntry (cp : Checkpoint) (cose : Option String) : Entry :=
  .checkpointStamp (digests.entryDigest cp) cp cose

/-- Write the stamp of a checkpoint. -/
def persistCheckpointStamp (stored : Bool) (cp : Checkpoint) (cose : Option String)
    (ledger : List Entry) : List Entry :=
  persist stored (checkpointEntry digests cp cose) ledger

/-- The site after an event; one that is out of turn changes nothing. -/
def next (site : Site) : Event → Site
  | .append capsuleId content =>
      { site with ledger := appendToLedger (.other capsuleId content) site.ledger }
  | .due urls attempts =>
      match site.phase with
      | .idle => beginCycle digests logId sign urls attempts site
      | _ => site
  | .push urls attempts =>
      match site.phase with
      | .idle =>
          if resolvedWitnessUrls urls = [] then site
          else if nothingNew log logId site then { site with memory := some (site.prev logId) }
          else beginCycle digests logId sign urls attempts site
      | _ => site
  | .build timestamp cose =>
      match site.phase with
      | .drained urls =>
          match log.emitCheckpoint site.ledger logId (site.prev logId) timestamp with
          | none => { site with phase := .idle }
          | some cp => { site with memory := some (some cp), phase := .built urls cp cose }
      | _ => site
  | .register deliveries =>
      match site.phase with
      | .built _ cp none => { site with phase := .registered cp none }
      | .built urls cp (some cose) =>
          let made := registerAll sign deliveries urls site.parties cp
          { site with
            parties := made.parties
            memory := some (some made.checkpoint)
            phase := .registered made.checkpoint (some cose)
            requests := site.requests ++ made.requests }
      | _ => site
  | .persistStamp stored =>
      match site.phase with
      | .registered cp cose =>
          { site with
            ledger := persistCheckpointStamp digests stored cp cose site.ledger
            phase := .idle }
      | _ => site
  | .crash => { site with memory := none, phase := .idle }

/-- The site as a machine without answers. -/
def step (site : Site) (event : Event) : Unit × Site :=
  ((), next digests log logId sign site event)

/-- A new ledger, before any witness knows its log. -/
def Site.start : Site := ⟨[], fun _ => none, none, .idle, []⟩

end

end Witnessing
end CapsuleEmit
