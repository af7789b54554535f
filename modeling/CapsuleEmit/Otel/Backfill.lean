import CapsuleEmit.Foundation.Machine
import CapsuleEmit.Otel.Spans

namespace CapsuleEmit
namespace Otel

open Scanner (Tree)

/-!
# Sealing the spans of exported files

A run reads a file, and the source digests the ledger holds, and then seals the
effects of the file whose digest is not among them.  What it has sealed it adds
to the digests; a seal that failed it does not, even where the record has
reached the ledger before the failure.

The attempts at sealing are the only part the world decides: when each one is
made and how it ends.
-/

/-! ## The ledger -/

def sourceRefType : String := "otel-span"

/-- `provenance_mode` of a backfilled record. -/
structure ProvenanceMode where
  digest : String
  sourceAssertedAt : String
  importBatch : String
  importedAt : String

/-- The member a capsule states its provenance in. -/
def ProvenanceMode.toTree (mode : ProvenanceMode) : Tree :=
  .object [(utf8 "mode", .string (utf8 "backfilled")),
    (utf8 "source_ref", .object [(utf8 "type", .string (utf8 sourceRefType)),
      (utf8 "digest_alg", .string (utf8 "SHA-256")), (utf8 "digest", .string (utf8 mode.digest))]),
    (utf8 "source_asserted_at", .string (utf8 mode.sourceAssertedAt)),
    (utf8 "import_batch", .string (utf8 mode.importBatch)),
    (utf8 "imported_at", .string (utf8 mode.importedAt)),
    (utf8 "time_rung", .string (utf8 "self_attested"))]

def nonCapsuleKinds : List String :=
  ["checkpoint_stamp", "disclosure_record", "checkpoint_witness_backfill", "archived_segment"]

/-- Whether `read_ledger` returns an entry. -/
def isCapsule (capsule : Tree) : Bool :=
  (match member capsule "kind" with
    | some (.string kind) => !nonCapsuleKinds.any (fun name => kind = utf8 name)
    | _ => true) &&
  (match member capsule "record_type" with
    | some (.string name) => name ≠ utf8 "padding"
    | _ => true)

/-- The source digest of a capsule, if it has one. -/
def sourceRef (capsule : Tree) : Option Bytes :=
  (member capsule "provenance_mode").bind (fun mode =>
    (member mode "source_ref").bind (fun ref =>
      match member ref "type", member ref "digest" with
      | some (.string type), some (.string digest) =>
          if type = utf8 sourceRefType then some digest else none
      | _, _ => none))

/-- `_sealed_source_refs` -/
def sealedSourceRefs (ledger : List Tree) : List Bytes :=
  (ledger.filter isCapsule).filterMap sourceRef

/-! ## Sealing -/

/-- The span's own times, beside the block. -/
structure SpanTime where
  start : String
  finish : Option String

/-- What the emitter is asked to seal: the facts, under an action label, with the provenance
and the times. -/
structure Request where
  action : Bytes
  facts : SpanFacts
  provenance : ProvenanceMode
  spanTime : SpanTime

/-- A record the emitter has built. -/
structure Emitted where
  capsuleId : String
  capsule : Tree

/-- The emitter: the record it seals for a request. -/
abbrev Emitter := Request → Emitted

/-- What the emitter is relied on for: a record is a capsule that states its provenance. -/
structure Documented (emitter : Emitter) : Prop where
  isCapsule : ∀ request, Otel.isCapsule (emitter request).capsule = true
  states : ∀ request, member (emitter request).capsule "provenance_mode" =
    some request.provenance.toTree

/-- How an attempt ends: the record is in the ledger, nothing is, or the record is and the
emitter raised after that. -/
inductive Fate where
  | sealed
  | failed
  | landed
  deriving DecidableEq

/-- An attempt at sealing a span: when it is made, and how it ends. -/
structure Attempt where
  importedAt : String
  fate : Fate

/-- A call of `seal_otlp_file`: the bytes of the file, the option it is given, whether the
ledger is a flat one that is no longer written, and the attempt at the span of each place. -/
structure Run where
  raw : Bytes
  clearTraceContext : Bool
  flatStopped : Bool
  attempts : Nat → Attempt

/-- Why a run raises. -/
inductive Raised where
  | refused (why : Refusal)
  | flatLedger
  | laundering
  | unencodable
  deriving DecidableEq

/-- `BackfillReport`, without the batch. -/
structure Report where
  sealed : List String
  skippedObservation : Nat
  failed : Nat
  skippedDuplicate : Nat
  skippedInvalid : Nat

/-- How far a run is: the ledger, the digests it knows, and its report. -/
structure Progress where
  ledger : List Tree
  seen : List Bytes
  report : Report

variable (interpreter : Interpreter) (emitter : Emitter)

def Parsed.digest (parsed : Parsed) : Bytes :=
  utf8 (sourceDigest parsed.facts.traceId parsed.facts.spanId)

/-- `facts.name or "unknown"` -/
def SpanFacts.label (facts : SpanFacts) : Bytes :=
  if facts.name.isEmpty then utf8 "unknown" else facts.name

/-- What the emitter is asked for a span: its name is an action only where it may be in clear. -/
def requestOf (run : Run) (importedAt : String) (parsed : Parsed) : Request where
  action := if run.clearTraceContext then parsed.facts.label
    else utf8 (Sha256.hex (Sha256.digest parsed.facts.label))
  facts := parsed.facts
  provenance := {
    digest := sourceDigest parsed.facts.traceId parsed.facts.spanId
    sourceAssertedAt := interpreter.rfc3339 parsed.start
    importBatch := Sha256.hex (Sha256.digest run.raw)
    importedAt := importedAt }
  spanTime := ⟨interpreter.rfc3339 parsed.start, parsed.finish.map interpreter.rfc3339⟩

/-- How an attempt ends, and what is reported of it. -/
def Progress.attempted (progress : Progress) (parsed : Parsed) (emitted : Emitted) :
    Fate → Progress
  | .sealed => {
      ledger := progress.ledger ++ [emitted.capsule]
      seen := progress.seen ++ [parsed.digest]
      report := { progress.report with sealed := progress.report.sealed ++ [emitted.capsuleId] } }
  | .failed => { progress with
      report := { progress.report with failed := progress.report.failed + 1 } }
  | .landed => { progress with
      ledger := progress.ledger ++ [emitted.capsule]
      report := { progress.report with failed := progress.report.failed + 1 } }

/-- `process_span_facts`, and the report of its result. -/
def processSpanFacts (run : Run) (attempt : Attempt) (parsed : Parsed) (progress : Progress) :
    Except Raised Progress := do
  ensure (run.clearTraceContext || (utf8? parsed.facts.label).isSome) .unencodable
  return progress.attempted parsed (emitter (requestOf interpreter run attempt.importedAt parsed))
    attempt.fate

/-- One span of the file. -/
def sealSpan (run : Run) (attempt : Attempt) (parsed : Option Parsed) (progress : Progress) :
    Except Raised Progress :=
  match parsed with
  | none => .ok { progress with
      report := { progress.report with skippedInvalid := progress.report.skippedInvalid + 1 } }
  | some parsed =>
      if parsed.digest ∈ progress.seen then .ok { progress with
        report := { progress.report with
          skippedDuplicate := progress.report.skippedDuplicate + 1 } }
      else if classifySpanSignal1 parsed.facts.attributes ≠ .effect then .ok { progress with
        report := { progress.report with
          skippedObservation := progress.report.skippedObservation + 1 } }
      else do
        ensure (!run.flatStopped) .flatLedger
        ensure (attempt.importedAt ≠ interpreter.rfc3339 parsed.start) .laundering
        processSpanFacts interpreter emitter run attempt parsed progress

/-- The spans of the file from a place on; a run that raises leaves what it has written. -/
def sealSpans (run : Run) : Nat → List (Option Parsed) → Progress → Option Raised × Progress
  | _, [], progress => (none, progress)
  | place, parsed :: rest, progress =>
      match sealSpan interpreter emitter run (run.attempts place) parsed progress with
      | .error raised => (some raised, progress)
      | .ok progress => sealSpans run (place + 1) rest progress

/-- `seal_otlp_file`: the report and the ledger after it. -/
def sealOtlpFile (ledger : List Tree) (run : Run) : Except Raised Report × List Tree :=
  match fileSpans interpreter run.raw with
  | .error why => (.error (.refused why), ledger)
  | .ok spans =>
      match sealSpans interpreter emitter run 0 (spans.map (parseSpan interpreter))
          ⟨ledger, sealedSourceRefs ledger, ⟨[], 0, 0, 0, 0⟩⟩ with
      | (some raised, progress) => (.error raised, progress.ledger)
      | (none, progress) => (.ok progress.report, progress.ledger)

/-! ## What a run is expected to do -/

/-- An effect of a file, by its place. -/
def EffectAt (spans : List (Option Parsed)) (place : Nat) (parsed : Parsed) : Prop :=
  spans[place]? = some (some parsed) ∧ classifySpanSignal1 parsed.facts.attributes = .effect

/-- A run tries to seal an effect: the ledger does not hold it, and no seal of it in front of
this place was good. -/
def Tried (refs : List Bytes) (run : Run) (spans : List (Option Parsed)) (place : Nat)
    (parsed : Parsed) : Prop :=
  EffectAt spans place parsed ∧ parsed.digest ∉ refs ∧
    ∀ earlier < place, ∀ other, EffectAt spans earlier other → other.digest = parsed.digest →
      (run.attempts earlier).fate ≠ .sealed

/-- Nothing is in the way of an effect a run tries to seal, and where the seal fails after its
record has landed the span does not come again. -/
structure Sealable (run : Run) (spans : List (Option Parsed)) (place : Nat)
    (parsed : Parsed) : Prop where
  written : run.flatStopped = false
  encodable : run.clearTraceContext = true ∨ (utf8? parsed.facts.label).isSome = true
  apart : (run.attempts place).importedAt ≠ interpreter.rfc3339 parsed.start
  traceId : parsed.facts.traceId.length = 32
  spanId : parsed.facts.spanId.length = 16
  last : (run.attempts place).fate = .landed → ∀ later, place < later → ∀ other,
    EffectAt spans later other → other.digest ≠ parsed.digest

/-- A run of a text with no other ends of lines than LF and CR LF, with nothing in the way of
the effects it tries to seal. -/
structure Proper (ledger : List Tree) (run : Run) : Prop where
  even : ∀ text, utf8? run.raw = some text → Even interpreter text.toList
  each : ∀ spans, fileSpans interpreter run.raw = .ok spans → ∀ place parsed,
    Tried (sealedSourceRefs ledger) run (spans.map (parseSpan interpreter)) place parsed →
      Sealable interpreter run (spans.map (parseSpan interpreter)) place parsed

/-- The digest a span is known by in the ledger. -/
def digestOf (traceId spanId : Bytes) : Bytes := utf8 (sourceDigest traceId spanId)

/-- A capsule of an effect of a file. -/
def SealOf (spans : List (Option Tree × Tree)) (capsule : Tree) : Prop :=
  isCapsule capsule = true ∧ ∃ span ∈ spans, ∃ traceId spanId,
    Eligible interpreter span.2 traceId spanId ∧
      sourceRef capsule = some (digestOf traceId spanId)

/-- The spans of a ledger that have been added to another, each of them once and none that was
there. -/
def AddedOnce (ledger added : List Tree) : Prop :=
  (sealedSourceRefs added).Nodup ∧ ∀ ref ∈ sealedSourceRefs added, ref ∉ sealedSourceRefs ledger

/-- What a run has done with the spans of a file it accepted: every capsule it added is one of
an effect, no effect has two, and each effect is in the ledger afterwards unless the attempt at
it failed. -/
structure Complete (ledger : List Tree) (run : Run) (spans : List (Option Tree × Tree))
    (report : Report) (ledger' : List Tree) : Prop where
  added : ∃ new, ledger' = ledger ++ new ∧ AddedOnce ledger new ∧
    ∀ capsule ∈ new, SealOf interpreter spans capsule
  complete : ∀ place span traceId spanId, spans[place]? = some span →
    Eligible interpreter span.2 traceId spanId →
      digestOf traceId spanId ∈ sealedSourceRefs ledger' ∨ (run.attempts place).fate = .failed
  counts : report.sealed.length + report.skippedObservation + report.failed +
    report.skippedDuplicate + report.skippedInvalid = spans.length

/-- A run accepts the file of a trace and no other, writes nothing when it refuses one, and is
complete when it does not. -/
structure Sound (ledger : List Tree) (run : Run) : Prop where
  accepts : (∀ why, (sealOtlpFile interpreter emitter ledger run).1 ≠ .error (.refused why)) ↔
    ∃ text, utf8? run.raw = some text ∧ IsTrace interpreter text.toList
  refuses : ∀ raised, (sealOtlpFile interpreter emitter ledger run).1 = .error raised →
    (sealOtlpFile interpreter emitter ledger run).2 = ledger
  completes : ∀ spans, fileSpans interpreter run.raw = .ok spans → ∃ report,
    (sealOtlpFile interpreter emitter ledger run).1 = .ok report ∧
      Complete interpreter ledger run spans report (sealOtlpFile interpreter emitter ledger run).2

variable {interpreter emitter}

/-! ## Ledgers -/

theorem sealedSourceRefs_append (ledger added : List Tree) :
    sealedSourceRefs (ledger ++ added) = sealedSourceRefs ledger ++ sealedSourceRefs added := by
  rw [sealedSourceRefs, List.filter_append, List.filterMap_append]
  rfl

theorem sealedSourceRefs_singleton {capsule : Tree} {ref : Bytes} (kept : isCapsule capsule = true)
    (states : sourceRef capsule = some ref) : sealedSourceRefs [capsule] = [ref] := by
  rw [sealedSourceRefs, List.filter_cons_of_pos kept, List.filter_nil, List.filterMap_cons, states]
  rfl

/-- What is added to a ledger stays added once when more is added that way. -/
theorem AddedOnce.append {ledger first second : List Tree} (one : AddedOnce ledger first)
    (two : AddedOnce (ledger ++ first) second) : AddedOnce ledger (first ++ second) := by
  have apart : ∀ ref ∈ sealedSourceRefs second,
      ref ∉ sealedSourceRefs ledger ∧ ref ∉ sealedSourceRefs first := by
    intro ref inside
    have missing := two.2 ref inside
    rw [sealedSourceRefs_append, List.mem_append, not_or] at missing
    exact missing
  constructor
  · rw [sealedSourceRefs_append]
    apply List.Nodup.append one.1 two.1
    intro ref inFirst inSecond
    exact (apart ref inSecond).2 inFirst
  · intro ref inside
    rw [sealedSourceRefs_append, List.mem_append] at inside
    rcases inside with inFirst | inSecond
    · exact one.2 ref inFirst
    · exact (apart ref inSecond).1

/-- The digest of a provenance is read back from the capsule that states it. -/
theorem sourceRef_of_states {capsule : Tree} {mode : ProvenanceMode}
    (states : member capsule "provenance_mode" = some mode.toTree) :
    sourceRef capsule = some (utf8 mode.digest) := by
  rw [sourceRef, states]
  rfl

theorem mem_sealedSourceRefs {ledger : List Tree} {ref : Bytes} :
    ref ∈ sealedSourceRefs ledger ↔
      ∃ capsule ∈ ledger, isCapsule capsule = true ∧ sourceRef capsule = some ref := by
  simp only [sealedSourceRefs, List.mem_filterMap, List.mem_filter, and_assoc]

/-! ## The loop -/

/-- How many spans a report counts. -/
def Report.total (report : Report) : Nat :=
  report.sealed.length + report.skippedObservation + report.failed + report.skippedDuplicate +
    report.skippedInvalid

/-- What holds in front of a place.  A digest is known when the ledger had it or a seal of it
was good, so a record that landed and failed is in the ledger and not known. -/
structure Kept (ledger : List Tree) (run : Run) (spans : List (Option Parsed)) (place : Nat)
    (progress : Progress) : Prop where
  added : ∃ new, progress.ledger = ledger ++ new ∧ AddedOnce ledger new ∧
    ∀ capsule ∈ new, isCapsule capsule = true ∧ ∃ earlier < place, ∃ parsed,
      Tried (sealedSourceRefs ledger) run spans earlier parsed ∧
        (run.attempts earlier).fate ≠ .failed ∧ sourceRef capsule = some parsed.digest
  seen : ∀ ref, ref ∈ progress.seen ↔ ref ∈ sealedSourceRefs ledger ∨
    ∃ earlier < place, ∃ other, EffectAt spans earlier other ∧ other.digest = ref ∧
      (run.attempts earlier).fate = .sealed
  complete : ∀ earlier < place, ∀ other, EffectAt spans earlier other →
    other.digest ∈ sealedSourceRefs progress.ledger ∨ (run.attempts earlier).fate = .failed
  counts : progress.report.total = place

/-- A run starts with nothing added. -/
theorem Kept.start (ledger : List Tree) (run : Run) (spans : List (Option Parsed)) :
    Kept ledger run spans 0 ⟨ledger, sealedSourceRefs ledger, ⟨[], 0, 0, 0, 0⟩⟩ where
  added := by
    refine ⟨[], by rw [List.append_nil], ⟨List.nodup_nil, nofun⟩, nofun⟩
  seen := by
    intro ref
    constructor
    · exact Or.inl
    · rintro (known | ⟨earlier, before, -⟩)
      · exact known
      · exact absurd before (Nat.not_lt_zero _)
  complete := fun earlier before => absurd before (Nat.not_lt_zero _)
  counts := rfl

section

variable {ledger : List Tree} {run : Run} {spans : List (Option Parsed)} {place : Nat}
  {progress : Progress}

/-- What is known is in the ledger. -/
theorem Kept.mem_of_seen (kept : Kept ledger run spans place progress) {ref : Bytes}
    (known : ref ∈ progress.seen) : ref ∈ sealedSourceRefs progress.ledger := by
  rcases (kept.seen ref).mp known with held | ⟨earlier, before, other, effect, rfl, good⟩
  · rcases kept.added with ⟨new, same, -⟩
    rw [same, sealedSourceRefs_append]
    exact List.mem_append_left _ held
  · rcases kept.complete earlier before other effect with inside | failed
    · exact inside
    · rw [good] at failed
      cases failed

/-- An effect that is not known is one the run tries to seal. -/
theorem Kept.tried (kept : Kept ledger run spans place progress) {parsed : Parsed}
    (effect : EffectAt spans place parsed) (unknown : parsed.digest ∉ progress.seen) :
    Tried (sealedSourceRefs ledger) run spans place parsed := by
  rw [kept.seen, not_or] at unknown
  refine ⟨effect, unknown.1, fun earlier before other there same good => ?_⟩
  exact unknown.2 ⟨earlier, before, other, there, same, good⟩

/-- A span that adds nothing: what is at its place is known, or the attempt at it failed. -/
theorem Kept.same (kept : Kept ledger run spans place progress) (report : Report)
    (counted : report.total = place + 1)
    (covered : ∀ other, EffectAt spans place other →
      other.digest ∈ progress.seen ∨ (run.attempts place).fate = .failed) :
    Kept ledger run spans (place + 1) { progress with report := report } where
  added := by
    rcases kept.added with ⟨new, same, once, each⟩
    refine ⟨new, same, once, fun capsule inside => ?_⟩
    rcases each capsule inside with ⟨capsuleKind, earlier, before, rest⟩
    exact ⟨capsuleKind, earlier, Nat.lt_succ_of_lt before, rest⟩
  seen := by
    intro ref
    change ref ∈ progress.seen ↔ _
    constructor
    · intro known
      rcases (kept.seen ref).mp known with held | ⟨earlier, before, rest⟩
      · exact Or.inl held
      · exact Or.inr ⟨earlier, Nat.lt_succ_of_lt before, rest⟩
    · rintro (held | ⟨earlier, before, other, effect, rfl, good⟩)
      · exact (kept.seen _).mpr (Or.inl held)
      · rcases Nat.lt_succ_iff_lt_or_eq.mp before with before | rfl
        · exact (kept.seen _).mpr (Or.inr ⟨earlier, before, other, effect, rfl, good⟩)
        · rcases covered other effect with known | failed
          · exact known
          · rw [good] at failed
            cases failed
  complete := by
    intro earlier before other effect
    rcases Nat.lt_succ_iff_lt_or_eq.mp before with before | rfl
    · exact kept.complete earlier before other effect
    · exact (covered other effect).imp_left kept.mem_of_seen
  counts := counted

/-- A record that reaches the ledger: its digest is new, for a record of it that had landed
before would be the last of its span. -/
theorem Kept.add (kept : Kept ledger run spans place progress) {parsed : Parsed} {capsule : Tree}
    (each : ∀ place parsed, Tried (sealedSourceRefs ledger) run spans place parsed →
      Sealable interpreter run spans place parsed)
    (effect : EffectAt spans place parsed) (unknown : parsed.digest ∉ progress.seen)
    (kind : isCapsule capsule = true) (states : sourceRef capsule = some parsed.digest)
    {seen : List Bytes} (landed : (run.attempts place).fate ≠ .failed)
    (known : ∀ ref, ref ∈ seen ↔
      ref ∈ progress.seen ∨ ref = parsed.digest ∧ (run.attempts place).fate = .sealed)
    (report : Report) (counted : report.total = place + 1) :
    Kept ledger run spans (place + 1) ⟨progress.ledger ++ [capsule], seen, report⟩ where
  added := by
    rcases kept.added with ⟨new, same, once, all⟩
    have tried := kept.tried effect unknown
    refine ⟨new ++ [capsule], by rw [same, List.append_assoc], once.append ⟨?_, ?_⟩, ?_⟩
    · rw [sealedSourceRefs_singleton kind states]
      exact List.nodup_singleton _
    · intro ref inside
      rw [sealedSourceRefs_singleton kind states, List.mem_singleton] at inside
      rw [inside, sealedSourceRefs_append, List.mem_append, not_or]
      refine ⟨tried.2.1, fun there => ?_⟩
      rcases mem_sealedSourceRefs.mp there with ⟨other, inNew, -, named⟩
      rcases (all other inNew).2 with ⟨earlier, before, first, triedFirst, fate, stated⟩
      rw [stated, Option.some.injEq] at named
      cases ended : (run.attempts earlier).fate with
      | sealed => exact tried.2.2 earlier before first triedFirst.1 named ended
      | failed => exact fate ended
      | landed =>
          exact (each earlier first triedFirst).last ended place before parsed effect named.symm
    · intro other inside
      rcases List.mem_append.mp inside with old | new
      · rcases all other old with ⟨capsuleKind, earlier, before, rest⟩
        exact ⟨capsuleKind, earlier, Nat.lt_succ_of_lt before, rest⟩
      · rw [List.mem_singleton.mp new]
        exact ⟨kind, place, Nat.lt_succ_self _, parsed, tried, landed, states⟩
  seen := by
    intro ref
    change ref ∈ seen ↔ _
    rw [known, kept.seen]
    constructor
    · rintro ((held | ⟨earlier, before, rest⟩) | ⟨rfl, good⟩)
      · exact Or.inl held
      · exact Or.inr ⟨earlier, Nat.lt_succ_of_lt before, rest⟩
      · exact Or.inr ⟨place, Nat.lt_succ_self _, parsed, effect, rfl, good⟩
    · rintro (held | ⟨earlier, before, other, there, rfl, good⟩)
      · exact Or.inl (Or.inl held)
      · rcases Nat.lt_succ_iff_lt_or_eq.mp before with before | rfl
        · exact Or.inl (Or.inr ⟨earlier, before, other, there, rfl, good⟩)
        · have same : other = parsed := by
            have both := there.1.symm.trans effect.1
            simpa using both
          exact Or.inr ⟨by rw [same], good⟩
  complete := by
    intro earlier before other there
    change _ ∈ sealedSourceRefs (progress.ledger ++ [capsule]) ∨ _
    rw [sealedSourceRefs_append, List.mem_append]
    rcases Nat.lt_succ_iff_lt_or_eq.mp before with before | rfl
    · exact (kept.complete earlier before other there).imp_left Or.inl
    · have same : other = parsed := by
        have both := there.1.symm.trans effect.1
        simpa using both
      rw [same, sealedSourceRefs_singleton kind states]
      exact Or.inl (Or.inr (List.mem_singleton_self _))
  counts := counted

end

section

variable {ledger : List Tree} {run : Run} {spans : List (Option Parsed)}

/-- An attempt at an effect keeps what holds in front of it, whatever its fate. -/
theorem Kept.attempted {place : Nat} {parsed : Parsed} {progress : Progress} {emitted : Emitted}
    (kept : Kept ledger run spans place progress)
    (each : ∀ place parsed, Tried (sealedSourceRefs ledger) run spans place parsed →
      Sealable interpreter run spans place parsed)
    (effect : EffectAt spans place parsed) (unknown : parsed.digest ∉ progress.seen)
    (kind : isCapsule emitted.capsule = true)
    (states : sourceRef emitted.capsule = some parsed.digest) :
    Kept ledger run spans (place + 1)
      (progress.attempted parsed emitted (run.attempts place).fate) := by
  have counted := kept.counts
  rw [Report.total] at counted
  cases ended : (run.attempts place).fate with
  | sealed =>
      apply kept.add each effect unknown kind states
      · rw [ended]
        nofun
      · intro ref
        simp only [ended, List.mem_append, List.mem_singleton, and_true]
      · simp only [Report.total, List.length_append, List.length_singleton]
        omega
  | failed =>
      apply kept.same _ _ (fun _ _ => Or.inr ended)
      simp only [Report.total]
      omega
  | landed =>
      apply kept.add each effect unknown kind states
      · rw [ended]
        nofun
      · intro ref
        simp only [ended, reduceCtorEq, and_false, or_false]
      · simp only [Report.total]
        omega

/-- One span keeps what holds in front of it. -/
theorem sealSpan_kept (documented : Documented emitter) {place : Nat} {parsed : Option Parsed}
    {progress : Progress} (kept : Kept ledger run spans place progress)
    (each : ∀ place parsed, Tried (sealedSourceRefs ledger) run spans place parsed →
      Sealable interpreter run spans place parsed)
    (there : spans[place]? = some parsed) :
    ∃ progress', sealSpan interpreter emitter run (run.attempts place) parsed progress =
      .ok progress' ∧ Kept ledger run spans (place + 1) progress' := by
  have counted := kept.counts
  rw [Report.total] at counted
  cases parsed with
  | none =>
      refine ⟨_, rfl, kept.same _ ?_ ?_⟩
      · simp only [Report.total]
        omega
      · rintro other ⟨found, -⟩
        rw [there] at found
        cases found
  | some parsed =>
      rw [sealSpan]
      by_cases known : parsed.digest ∈ progress.seen
      · rw [if_pos known]
        refine ⟨_, rfl, kept.same _ ?_ ?_⟩
        · simp only [Report.total]
          omega
        · rintro other ⟨found, -⟩
          rw [there, Option.some.injEq, Option.some.injEq] at found
          rw [← found]
          exact Or.inl known
      · rw [if_neg known]
        by_cases effect : classifySpanSignal1 parsed.facts.attributes = .effect
        · have here : EffectAt spans place parsed := ⟨there, effect⟩
          have sealable := each place parsed (kept.tried here known)
          have encodable : (run.clearTraceContext || (utf8? parsed.facts.label).isSome) = true := by
            rw [Bool.or_eq_true]
            exact sealable.encodable
          refine ⟨_, ?_, kept.attempted each here known (documented.isCapsule _)
            (sourceRef_of_states (documented.states
              (requestOf interpreter run (run.attempts place).importedAt parsed)))⟩
          rw [if_neg (not_not_intro effect), sealable.written, decide_eq_true sealable.apart,
            processSpanFacts, encodable]
          rfl
        · rw [if_pos effect]
          refine ⟨_, rfl, kept.same _ ?_ ?_⟩
          · simp only [Report.total]
            omega
          · rintro other ⟨found, classified⟩
            rw [there, Option.some.injEq, Option.some.injEq] at found
            rw [← found] at classified
            exact absurd classified effect

/-- The rest of the spans keep what holds in front of them. -/
theorem sealSpans_kept (documented : Documented emitter)
    (each : ∀ place parsed, Tried (sealedSourceRefs ledger) run spans place parsed →
      Sealable interpreter run spans place parsed) (rest : List (Option Parsed)) :
    ∀ {place : Nat} {progress : Progress}, Kept ledger run spans place progress →
      rest = spans.drop place → ∃ progress',
        sealSpans interpreter emitter run place rest progress = (none, progress') ∧
          Kept ledger run spans (place + rest.length) progress' := by
  induction rest with
  | nil =>
      intro place progress kept _
      exact ⟨progress, rfl, kept⟩
  | cons parsed rest ih =>
      intro place progress kept same
      have there : spans[place]? = some parsed := by
        rw [← List.head?_drop, ← same]
        rfl
      have after : rest = spans.drop (place + 1) := by
        rw [← List.tail_drop, ← same]
        rfl
      rcases sealSpan_kept documented kept each there with ⟨progress', ok, kept'⟩
      rcases ih kept' after with ⟨final, done, keptAll⟩
      refine ⟨final, by rw [sealSpans, ok]; exact done, ?_⟩
      rw [List.length_cons, Nat.add_comm rest.length, ← Nat.add_assoc]
      exact keptAll

end

/-! ## Runs -/

/-- What holds behind the last span is what is expected of the run. -/
theorem Kept.toComplete {ledger : List Tree} {run : Run} {spans : List (Option Tree × Tree)}
    {progress : Progress}
    (kept : Kept ledger run (spans.map (parseSpan interpreter)) spans.length progress)
    (each : ∀ place parsed,
      Tried (sealedSourceRefs ledger) run (spans.map (parseSpan interpreter)) place parsed →
        Sealable interpreter run (spans.map (parseSpan interpreter)) place parsed) :
    Complete interpreter ledger run spans progress.report progress.ledger where
  added := by
    rcases kept.added with ⟨new, same, once, all⟩
    refine ⟨new, same, once, fun capsule inside => ?_⟩
    rcases all capsule inside with ⟨kind, place, -, parsed, tried, -, states⟩
    have sealable := each place parsed tried
    have found := tried.1.1
    rw [List.getElem?_map, Option.map_eq_some_iff] at found
    rcases found with ⟨span, there, read⟩
    exact ⟨kind, span, List.mem_of_getElem? there, parsed.facts.traceId, parsed.facts.spanId,
      eligible_of_parseSpan read sealable.traceId sealable.spanId tried.1.2, states⟩
  complete := by
    intro place span traceId spanId there eligible
    rcases @parseSpan_of_eligible interpreter span.2 traceId spanId span.1 eligible with
      ⟨parsed, read, rfl, rfl, effect⟩
    have before : place < spans.length := (List.getElem?_eq_some_iff.mp there).1
    apply kept.complete place before parsed ⟨?_, effect⟩
    rw [List.getElem?_map, there, Option.map_some]
    exact congrArg some read
  counts := kept.counts

/-- A file that is refused is refused before anything is written. -/
theorem sealOtlpFile_refused {ledger : List Tree} {run : Run} {why : Refusal}
    (read : fileSpans interpreter run.raw = .error why) :
    sealOtlpFile interpreter emitter ledger run = (.error (.refused why), ledger) := by
  rw [sealOtlpFile, read]

/-- A proper run does what is expected of it. -/
theorem sealOtlpFile_sound (documented : Documented emitter) {ledger : List Tree} {run : Run}
    (proper : Proper interpreter ledger run) : Sound interpreter emitter ledger run := by
  have accepted := accepted_iff proper.even
  cases read : fileSpans interpreter run.raw with
  | error why =>
      have answer := @sealOtlpFile_refused _ emitter ledger _ _ read
      rw [read] at accepted
      refine ⟨?_, fun _ _ => by rw [answer], fun spans ok => ?_⟩
      · rw [answer, ← accepted]
        constructor
        · intro never
          exact absurd rfl (never why)
        · rintro ⟨spans, impossible⟩
          cases impossible
      · rw [read] at ok
        cases ok
  | ok spans =>
      have each := proper.each spans read
      rcases sealSpans_kept documented each (spans.map (parseSpan interpreter))
        (Kept.start ledger run _) rfl with ⟨final, done, kept⟩
      rw [Nat.zero_add, List.length_map] at kept
      have answer : sealOtlpFile interpreter emitter ledger run =
          (.ok final.report, final.ledger) := by
        rw [sealOtlpFile, read]
        dsimp only
        rw [done]
      refine ⟨?_, ?_, ?_⟩
      · rw [← accepted, answer]
        exact ⟨fun _ => ⟨spans, read⟩, fun _ why => nofun⟩
      · intro raised impossible
        rw [answer] at impossible
        cases impossible
      · intro others same
        rw [read, Except.ok.injEq] at same
        rw [answer, ← same]
        exact ⟨final.report, rfl, kept.toComplete each⟩

/-- A run that is as expected adds effects once, whether it accepts its file or not. -/
theorem Sound.addedOnce {ledger : List Tree} {run : Run}
    (sound : Sound interpreter emitter ledger run) :
    ∃ new, (sealOtlpFile interpreter emitter ledger run).2 = ledger ++ new ∧
      AddedOnce ledger new := by
  cases read : fileSpans interpreter run.raw with
  | error why =>
      have answer := @sealOtlpFile_refused _ emitter ledger _ _ read
      exact ⟨[], by rw [answer, List.append_nil], List.nodup_nil, nofun⟩
  | ok spans =>
      rcases sound.completes spans read with ⟨report, -, complete⟩
      rcases complete.added with ⟨new, same, once, -⟩
      exact ⟨new, same, once⟩

/-- Over runs that are all proper: each of them does what is expected of it, and no effect is
added to the ledger twice. -/
theorem sealOtlpFile_runs (documented : Documented emitter) {ledger : List Tree} {runs : List Run}
    (guarded : Machine.Guarded (sealOtlpFile interpreter emitter) (Proper interpreter) ledger
      runs) :
    (∀ front run back, runs = front ++ run :: back → Sound interpreter emitter
      (Machine.after (sealOtlpFile interpreter emitter) ledger front) run) ∧
    ∃ new, Machine.after (sealOtlpFile interpreter emitter) ledger runs = ledger ++ new ∧
      AddedOnce ledger new := by
  constructor
  · rintro front run back rfl
    rw [Machine.guarded_append] at guarded
    exact sealOtlpFile_sound documented guarded.2.1
  · induction runs generalizing ledger with
    | nil => exact ⟨[], (List.append_nil _).symm, List.nodup_nil, nofun⟩
    | cons run runs ih =>
        rcases (sealOtlpFile_sound documented guarded.1).addedOnce with ⟨first, same, one⟩
        rcases ih guarded.2 with ⟨second, rest, two⟩
        rw [same] at rest two
        refine ⟨first ++ second, ?_, one.append two⟩
        rw [Machine.after_cons, same, rest, List.append_assoc]

/-! ## A file -/

/-- An interpreter on texts whose numbers are texts of digits and whose times are in the first
second of 1970. -/
def sampleInterpreter : Interpreter where
  levels := some 1000
  number := fun _ => none
  int := fun text =>
    if !text.isEmpty && text.all (fun b => 48 ≤ b && b ≤ 57) then
      some (text.foldl (fun n b => 10 * n + (b.toNat - 48)) 0)
    else none
  float := fun _ => true
  rfc3339 := fun _ => "1970-01-01T00:00:00.000001Z"

/-- An emitter whose records state their action, their status and their provenance. -/
def sampleEmitter : Emitter := fun request => {
  capsuleId := Sha256.hex (Sha256.digest (request.action ++ utf8 request.provenance.digest))
  capsule := .object [
    (utf8 "action_id", .string request.action),
    (utf8 "effect", .object [(utf8 "type", .string request.action),
      (utf8 "status", .string (utf8 (if request.facts.statusIsError then "failed"
        else "confirmed")))]),
    (utf8 "provenance_mode", request.provenance.toTree)] }

theorem sampleEmitter_documented : Documented sampleEmitter where
  isCapsule := fun _ => rfl
  states := fun _ => rfl

/-- An export of one effect, with a trace id in upper case. -/
def exportRun : Run where
  raw := utf8 ("\x7b\"resourceSpans\":[\x7b\"scopeSpans\":[\x7b\"spans\":[\x7b" ++
    "\"traceId\":\"0AF7651916CD43DD8448EB211C80319C\",\"spanId\":\"b7ad6b7169203331\"," ++
    "\"startTimeUnixNano\":\"1000\",\"name\":\"pay\"\x7d]\x7d]\x7d]\x7d")
  clearTraceContext := true
  flatStopped := false
  attempts := fun _ => ⟨"2026-01-01T00:00:00.000000Z", .sealed⟩

theorem exportRun_proper (ledger : List Tree) : Proper sampleInterpreter ledger exportRun where
  even := by
    intro text decoded malformed
    rw [exportRun, utf8?_utf8, Option.some.injEq] at decoded
    have read : IsDocument sampleInterpreter text.toList := by
      rw [← decoded]
      decide +kernel
    rcases read with ⟨doc, loaded, -⟩
    rw [malformed] at loaded
    cases loaded
  each := by
    intro spans read place parsed tried
    have checked : (fileSpans sampleInterpreter exportRun.raw).toOption.all (fun spans =>
        (spans.map (parseSpan sampleInterpreter)).all (fun parsed => parsed.all (fun parsed =>
          parsed.facts.traceId.length = 32 && parsed.facts.spanId.length = 16))) = true := by
      decide +kernel
    rw [read] at checked
    have ids := List.all_eq_true.mp checked _ (List.mem_of_getElem? tried.1.1)
    rw [Option.all_some, Bool.and_eq_true, decide_eq_true_eq, decide_eq_true_eq] at ids
    have apart : "2026-01-01T00:00:00.000000Z" ≠ "1970-01-01T00:00:00.000001Z" := by decide
    exact ⟨rfl, Or.inl rfl, apart, ids.1, ids.2, nofun⟩

/-- A file that is imported twice. -/
theorem export_sealed_once :
    (∀ front run back, [exportRun, exportRun] = front ++ run :: back →
      Sound sampleInterpreter sampleEmitter
        (Machine.after (sealOtlpFile sampleInterpreter sampleEmitter) [] front) run) ∧
    ∃ new, Machine.after (sealOtlpFile sampleInterpreter sampleEmitter) [] [exportRun, exportRun] =
      [] ++ new ∧ AddedOnce [] new :=
  sealOtlpFile_runs sampleEmitter_documented ⟨exportRun_proper _, exportRun_proper _, trivial⟩

/-- Two documents, the second with a line separator in a name. -/
def separatedRun : Run where
  raw := utf8 ("\x7b\"resourceSpans\":[]\x7d\n" ++
    "\x7b\"resourceSpans\":[],\"\u2028\":\"\"\x7d\n")
  clearTraceContext := true
  flatStopped := false
  attempts := fun _ => ⟨"2026-01-01T00:00:00.000000Z", .sealed⟩

/-- A text is cut at a line separator in a string, so its lines are no documents. -/
theorem separated_not_accepted : ¬Sound sampleInterpreter sampleEmitter [] separatedRun := by
  intro sound
  have trace : ∃ text, utf8? separatedRun.raw = some text ∧
      IsTrace sampleInterpreter text.toList := by
    refine ⟨_, utf8?_utf8 _, ?_⟩
    decide +kernel
  cases read : fileSpans sampleInterpreter separatedRun.raw with
  | error why =>
      apply sound.accepts.mpr trace why
      rw [sealOtlpFile_refused read]
  | ok spans =>
      have refused : (fileSpans sampleInterpreter separatedRun.raw).toBool = false := by
        decide +kernel
      rw [read] at refused
      cases refused

end Otel
end CapsuleEmit
