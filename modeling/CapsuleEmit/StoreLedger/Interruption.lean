import CapsuleEmit.StoreLedger.Concrete

namespace CapsuleEmit
namespace StoreLedger

/-!
# Appends, crashes and retries

The runs of a ledger over its two stores: appends of capsules and of padding
records, each of which may be interrupted between its two writes, bucket
padding, and reopening.
-/

open Python (Dict Value)
open ArtifactStore (Record Artifact)

universe u v

/-- What happens to a ledger. -/
inductive Event where
  | submit (padding : Bool) (line : Dict) (statement : Bytes) (fault : Fault)
  | pad (signer : Signer) (bucket : Int) (draws : Nat → Draw)
  | reopen

/-- What the caller sees.  A process that has ended answers nothing. -/
inductive Answer where
  | replied (reply : Reply)
  | opened (report : RecoveryReport)
  | refused (e : LedgerError)
  | ended

section

variable (packages : Packages) (config : Config)
variable {α : Type u} {β : Type v} (artifacts : RecordStore α) (log : EntryLog β)

def step (site : Site α β) : Event → Answer × Site α β
  | .submit padding line statement fault =>
      if site.up then
        let result := submit packages config artifacts log site padding line statement fault
        (.replied result.1, result.2)
      else (.ended, site)
  | .pad signer bucket draws =>
      if site.up then
        let result := padToBucket packages config artifacts log signer site bucket draws
        (.replied result.1, result.2)
      else (.ended, site)
  | .reopen =>
      match openStores packages config artifacts log site.stores with
      | .ok (ledger, report) => (.opened report, { site with ledger := ledger, up := true })
      | .error e => (.refused e, { site with up := false })

/-- A ledger that was opened on an empty log. -/
def start (stores : Stores α β) : Site α β := ⟨Ledger.empty, stores, [], true⟩

end

section

variable {packages : Packages} {config : Config}
variable {α : Type u} {β : Type v} {artifacts : RecordStore α} {log : EntryLog β}

/-! ## What every append keeps, every run keeps -/

theorem keep_padEach {P : Site α β → Prop}
    (keep : ∀ site padding line statement fault, P site →
      P (submit packages config artifacts log site padding line statement fault).2)
    (signer : Signer) (draws : List Draw) {site : Site α β} (holds : P site) :
    P (padEach packages config artifacts log signer site draws).2 := by
  induction draws generalizing site with
  | nil => exact holds
  | cons draw draws ih =>
      rw [padEach]
      split
      · exact holds
      · next record statement signed =>
          have next := keep site true record statement draw.fault holds
          rw [submit, if_pos rfl] at next
          split
          · next entries site' same =>
              rw [same] at next
              exact ih next
          · exact next

theorem keep_step {P : Site α β → Prop}
    (keep : ∀ site padding line statement fault, P site →
      P (submit packages config artifacts log site padding line statement fault).2)
    (reopen : ∀ site, P site → P (step packages config artifacts log site .reopen).2)
    (site : Site α β) (event : Event) (holds : P site) :
    P (step packages config artifacts log site event).2 := by
  cases event with
  | submit padding line statement fault =>
      rw [step]
      split
      · exact keep site padding line statement fault holds
      · exact holds
  | pad signer bucket draws =>
      rw [step]
      split
      · exact keep_padEach keep signer _ holds
      · exact holds
  | reopen => exact reopen site holds

theorem keep_after {P : Site α β → Prop}
    (keep : ∀ site padding line statement fault, P site →
      P (submit packages config artifacts log site padding line statement fault).2)
    (reopen : ∀ site, P site → P (step packages config artifacts log site .reopen).2)
    {site : Site α β} (holds : P site) (events : List Event) :
    P (Machine.after (step packages config artifacts log) site events) :=
  Machine.invariant (keep_step keep reopen) holds events

/-! ## Coherence -/

theorem Coherent.openStores_eq (lawful : log.Lawful) {site : Site α β}
    (coherent : Coherent packages config artifacts log site) :
    openStores packages config artifacts log site.stores =
      .ok (site.ledger, ⟨site.ledger.lines.length, none⟩) := by
  rw [StoreLedger.openStores_eq lawful, coherent.replayed]
  rfl

theorem Coherent.with_up {site : Site α β} (coherent : Coherent packages config artifacts log site)
    (up : Bool) : Coherent packages config artifacts log { site with up := up } :=
  ⟨coherent.replayed, coherent.named, coherent.nodup, coherent.recorded⟩

theorem Coherent.step_reopen (lawful : log.Lawful) {site : Site α β}
    (coherent : Coherent packages config artifacts log site) :
    step packages config artifacts log site .reopen =
      (.opened ⟨site.ledger.lines.length, none⟩, { site with up := true }) := by
  rw [step, coherent.openStores_eq lawful]

theorem coherent_start (stores : Stores α β) (empty : log.values stores.log = []) :
    Coherent packages config artifacts log (start stores) := by
  constructor
  case replayed => rw [start, empty]; rfl
  case named => rw [start, empty]; rfl
  case nodup => rw [start, empty]; exact List.nodup_nil
  case recorded => exact .nil

theorem coherent_submit (json : packages.json.Lawful) (store : artifacts.Lawful packages)
    (lawful : log.Lawful) (ordered : IgnoresOrder config.indexer) {site : Site α β}
    (coherent : Coherent packages config artifacts log site) (padding : Bool) (line : Dict)
    (statement : Bytes) (fault : Fault) :
    Coherent packages config artifacts log
      (submit packages config artifacts log site padding line statement fault).2 := by
  rcases submit_cases store lawful coherent padding line statement fault with
    ⟨e, _, same⟩ | ⟨capsuleId, record, checked, written⟩
  · rw [same]
    exact coherent
  · exact coherent.of_written json store ordered checked.fits checked.recomputes checked.stated
      checked.made written

/-- What is in memory is what the stores hold, in every state of a run. -/
theorem coherent_after (json : packages.json.Lawful) (store : artifacts.Lawful packages)
    (lawful : log.Lawful) (ordered : IgnoresOrder config.indexer) {site : Site α β}
    (coherent : Coherent packages config artifacts log site) (events : List Event) :
    Coherent packages config artifacts log
      (Machine.after (step packages config artifacts log) site events) := by
  apply keep_after (P := Coherent packages config artifacts log)
  · exact fun site padding line statement fault holds =>
      coherent_submit json store lawful ordered holds padding line statement fault
  · intro site holds
    rw [holds.step_reopen lawful]
    exact holds.with_up true
  · exact coherent

/-! ## The record of an interrupted line stays -/

theorem get_of_written (store : artifacts.Lawful packages) {site site' : Site α β} {record : Record}
    {line : Dict} {statement : Bytes} {padding : Bool} {fault : Fault} {reply : Reply}
    (written : Written config artifacts log site record line statement padding fault reply site')
    {id : String} {held : Record} (got : artifacts.get site.stores.artifacts id = .ok held) :
    artifacts.get site'.stores.artifacts id = .ok held := by
  cases written with
  | refused kind => exact got
  | crashed put => exact store.kept put got
  | logFailed put kind => exact store.kept put got
  | done put value_hex fresh appended => exact store.kept put got

theorem get_after (json : packages.json.Lawful) (store : artifacts.Lawful packages)
    (lawful : log.Lawful) (ordered : IgnoresOrder config.indexer) {site : Site α β}
    (coherent : Coherent packages config artifacts log site) {id : String} {held : Record}
    (got : artifacts.get site.stores.artifacts id = .ok held) (events : List Event) :
    artifacts.get (Machine.after (step packages config artifacts log) site events).stores.artifacts
      id = .ok held := by
  let Kept (site : Site α β) : Prop := Coherent packages config artifacts log site ∧
    artifacts.get site.stores.artifacts id = .ok held
  have kept : Kept (Machine.after (step packages config artifacts log) site events) := by
    apply keep_after (P := Kept)
    · rintro site padding line statement fault ⟨coherent, got⟩
      refine ⟨coherent_submit json store lawful ordered coherent padding line statement fault, ?_⟩
      rcases submit_cases store lawful coherent padding line statement fault with
        ⟨e, _, same⟩ | ⟨capsuleId, record, checked, written⟩
      · rw [same]
        exact got
      · exact get_of_written store written got
    · rintro site ⟨coherent, got⟩
      rw [coherent.step_reopen lawful]
      exact ⟨coherent.with_up true, got⟩
    · exact ⟨coherent, got⟩
  exact kept.2

/-! ## A line can be written again -/

/-- A call that ended between its two writes. -/
def Reply.interrupted : Reply → Bool
  | .crashed => true
  | .raised e => e.kind = .log
  | .done _ => false

/-- A call that ended between its two writes has passed its checks, and the
record is in the store. -/
theorem held_of_interrupted (store : artifacts.Lawful packages) (lawful : log.Lawful)
    {site : Site α β} (coherent : Coherent packages config artifacts log site) {padding : Bool}
    {line : Dict} {statement : Bytes} {fault : Fault}
    (interrupted : (submit packages config artifacts log site padding line statement
      fault).1.interrupted = true) :
    ∃ capsuleId record, Checked packages config site.ledger capsuleId record line statement padding ∧
      ArtifactStore.validId capsuleId = true ∧
      artifacts.get (submit packages config artifacts log site padding line statement
        fault).2.stores.artifacts capsuleId = .ok (prepared packages record) := by
  rcases submit_cases store lawful coherent padding line statement fault with
    ⟨e, kind, same⟩ | ⟨capsuleId, record, checked, written⟩
  · rw [same] at interrupted
    exact absurd (of_decide_eq_true interrupted) kind
  · refine ⟨capsuleId, record, checked, ?_⟩
    generalize submit packages config artifacts log site padding line statement fault = result
      at written interrupted ⊢
    rcases result with ⟨reply, site'⟩
    rw [← checked.capsuleId_eq]
    cases written with
    | refused kind => exact absurd (of_decide_eq_true interrupted) kind
    | crashed put => exact ⟨(store.admitted put).1, store.stored put⟩
    | logFailed put kind => exact ⟨(store.admitted put).1, store.stored put⟩
    | done put value_hex fresh appended => cases interrupted

theorem recompute_ok {lineNo lineNo' : Nat} {line : Dict} {capsuleId : String}
    (ok : recompute packages lineNo line capsuleId = .ok ()) :
    recompute packages lineNo' line capsuleId = .ok () := by
  unfold recompute at ok ⊢
  split at ok
  · cases ok
  · next recomputed same =>
      rw [ensure_eq_ok_iff.mp ok]
      rfl

theorem checkStatement_ok {lineNo lineNo' : Nat} {line : Dict} {capsuleId : String}
    {statement : Bytes} (ok : checkStatement packages lineNo line capsuleId statement = .ok ()) :
    checkStatement packages lineNo' line capsuleId statement = .ok () := by
  unfold checkStatement at ok ⊢
  split at ok
  · rfl
  · cases ok

theorem appendable_of_fits {ledger : Ledger} {capsule : Dict} {capsuleId : String}
    (fits : Fits packages config ledger capsuleId capsule false) :
    appendable config ledger capsule = .ok capsuleId := by
  have chained : (!config.linear || decide (parent capsule = ledger.chainHead)) = true := by
    cases linear : config.linear with
    | false => rfl
    | true => simp [fits.chained rfl linear]
  rw [appendable, fits.kind, Bool.not_false, ensure_true, ok_bind, fits.named]
  dsimp only
  rw [chained, ensure_true, ok_bind]

theorem paddable_of_fits {ledger : Ledger} {record : Dict} {capsuleId : String}
    (fits : Fits packages config ledger capsuleId record true) :
    paddable packages ledger record = .ok capsuleId := by
  rw [paddable, fits.kind, ensure_true, ok_bind, fits.shaped rfl, fits.named]

/-- Where a line fits that passed its checks before, writing it commits its record. -/
theorem submit_of_checked (lawful : log.Lawful) {site : Site α β}
    (coherent : Coherent packages config artifacts log site) {ledger : Ledger} {capsuleId : String}
    {record : Record} {line : Dict} {statement : Bytes} {padding : Bool}
    (checked : Checked packages config ledger capsuleId record line statement padding)
    (fits : Fits packages config site.ledger capsuleId line padding) (fault : Fault) :
    submit packages config artifacts log site padding line statement fault =
      commit config artifacts log site capsuleId record line (some statement) padding fault := by
  have passed : checkLine packages log site capsuleId line statement = .ok record := by
    rw [checkLine, recompute_ok checked.recomputes, checkStatement_ok checked.stated, checked.made,
      coherent.checkNotStale_eq lawful]
    rfl
  cases padding with
  | false =>
      rw [submit, if_neg Bool.false_ne_true, append, appendable_of_fits fits]
      dsimp only
      rw [writeLine, passed]
  | true =>
      rw [submit, if_pos rfl, appendPadding, paddable_of_fits fits]
      dsimp only
      rw [writeLine, passed]

/-- An id of the log is the id of a line whose append returned. -/
theorem Coherent.acked_of_mem {site : Site α β}
    (coherent : Coherent packages config artifacts log site) {value : Bytes}
    (inside : value ∈ log.values site.stores.log) :
    ∃ acked ∈ site.acked, str? "capsule_id" acked.line = some (Sha256.hex value) := by
  have names : site.ledger.lines.map (fun line => some line.capsuleId) =
      site.acked.map (fun acked => str? "capsule_id" acked.line) :=
    map_eq_of_forall₂ (fun _ _ recorded => recorded.named.symm) coherent.recorded
  have name : some (Sha256.hex value) ∈ site.ledger.lines.map (fun line => some line.capsuleId) := by
    have logged := List.mem_map_of_mem (f := Sha256.hex) inside
    rw [← coherent.named] at logged
    rcases List.mem_map.mp logged with ⟨line, there, same⟩
    exact List.mem_map.mpr ⟨line, there, congrArg some same⟩
  rw [names] at name
  exact List.mem_map.mp name

/-- A line whose record is in the store is written by the next append where it
fits, unless the log has it. -/
theorem submit_of_held (store : artifacts.Lawful packages) (lawful : log.Lawful)
    {site : Site α β} (coherent : Coherent packages config artifacts log site)
    {ledger : Ledger} {capsuleId : String} {record : Record} {line : Dict} {statement : Bytes}
    {padding : Bool} (checked : Checked packages config ledger capsuleId record line statement padding)
    (valid : ArtifactStore.validId capsuleId = true)
    (held : artifacts.get site.stores.artifacts capsuleId = .ok (prepared packages record))
    (fits : padding = true ∨ config.linear = false ∨ parent line = site.ledger.chainHead)
    (absent : ∀ acked ∈ site.acked, str? "capsule_id" acked.line ≠ str? "capsule_id" line) :
    ∃ site', submit packages config artifacts log site padding line statement .none =
        (.done (site.ledger.entries + 1), site') ∧
      site'.acked = site.acked ++ [⟨line, some statement⟩] := by
  have fitting : Fits packages config site.ledger capsuleId line padding := by
    refine ⟨checked.fits.named, checked.fits.kind, checked.fits.shaped, ?_⟩
    rintro notPadding linear
    rcases fits with isPadding | notLinear | head
    · rw [notPadding] at isPadding
      cases isPadding
    · rw [linear] at notLinear
      cases notLinear
    · exact head
  have again : artifacts.put site.stores.artifacts record = .ok site.stores.artifacts := by
    rcases toRecord_spec checked.made with ⟨_, _, _, _, _, _, _, _, _, _, _, rfl⟩
    exact store.retried held (by simp)
  rw [ArtifactStore.validId, Bool.and_eq_true, decide_eq_true_eq] at valid
  rcases Python.fromHex_of_digits (n := 32) valid.1 valid.2 with ⟨value, decoded, isId⟩
  have fresh : value ∉ log.values site.stores.log := by
    intro inside
    rcases coherent.acked_of_mem inside with ⟨acked, returned, same⟩
    exact absent acked returned (by rw [same, isId, checked.fits.named])
  rcases lawful.append_new fresh with ⟨state', inserted, _⟩
  rw [submit_of_checked lawful coherent checked fitting, commit, again]
  dsimp only
  rw [decoded]
  dsimp only
  rw [inserted, Ledger.entries, coherent.length_eq]
  exact ⟨_, rfl, rfl⟩

/-! ## Runs -/

/-- After every run of appends, paddings, interruptions and reopenings of a
ledger that was opened on an empty log: opening its stores gives the ledger as
it is in memory; its lines are the lines whose append returned, in order and
once each, and read back as they were appended; an append that is refused
changes neither the stores nor the ledger; and a line whose append ended
between its two writes is written once by the next append of it where it fits. -/
theorem reopens_as_live (json : packages.json.Lawful) (store : artifacts.Lawful packages)
    (lawful : log.Lawful) (ordered : IgnoresOrder config.indexer) (stores : Stores α β)
    (empty : log.values stores.log = []) (events : List Event) :
    let run := Machine.after (step packages config artifacts log)
    let site := run (start stores) events
    openStores packages config artifacts log site.stores =
        .ok (site.ledger, ⟨site.ledger.lines.length, none⟩) ∧
      List.Forall₂ (Recorded packages artifacts site.stores.artifacts) site.ledger.lines site.acked ∧
      (site.ledger.lines.map LedgerLine.capsuleId).Nodup ∧
      (∀ padding line statement e site',
        submit packages config artifacts log site padding line statement .none = (.raised e, site') →
        site' = site) ∧
      ∀ padding line statement fault,
        (submit packages config artifacts log site padding line statement fault).1.interrupted = true →
        ∀ later,
          let site' := run
            (submit packages config artifacts log site padding line statement fault).2 later
          padding = true ∨ config.linear = false ∨ parent line = site'.ledger.chainHead →
          (∀ acked ∈ site'.acked, str? "capsule_id" acked.line ≠ str? "capsule_id" line) →
          ∃ site'', submit packages config artifacts log site' padding line statement .none =
              (.done (site'.ledger.entries + 1), site'') ∧
            site''.acked = site'.acked ++ [⟨line, some statement⟩] := by
  intro run site
  have coherent : Coherent packages config artifacts log site :=
    coherent_after json store lawful ordered (coherent_start stores empty) events
  refine ⟨coherent.openStores_eq lawful, coherent.recorded, ?_, ?_, ?_⟩
  · rw [coherent.named]
    exact coherent.nodup.map (Function.LeftInverse.injective (g := fun id =>
      (Python.fromHex id).getD []) (fun value => by simp [Python.fromHex_hex]))
  · intro padding line statement e site' refused
    rcases submit_cases store lawful coherent padding line statement .none with
      ⟨_, _, same⟩ | ⟨_, record, _, written⟩
    · rw [same] at refused
      exact (Prod.mk.inj refused).2.symm
    · rw [refused] at written
      generalize isRaised : Reply.raised e = reply at written
      dsimp only at written
      cases written with
      | refused kind => rfl
      | done put value_hex fresh appended => cases isRaised
  · intro padding line statement fault interrupted later site' fits absent
    rcases held_of_interrupted store lawful coherent interrupted with
      ⟨capsuleId, record, checked, valid, held⟩
    have next := coherent_submit json store lawful ordered coherent padding line statement fault
    exact submit_of_held store lawful (coherent_after json store lawful ordered next later) checked
      valid (get_after json store lawful ordered next held later) fits absent

end

/-- A padding record whose append is interrupted by a crash, and appended again
after the ledger was opened again. -/
def sampleRun : List Event :=
  [.submit true firstPadding.line firstPadding.statement .crash, .reopen,
    .submit true firstPadding.line firstPadding.statement .none]

def sampleSite : Site (Records samplePackages) (List Bytes) :=
  Machine.after (step samplePackages sampleConfig (listStore samplePackages) listLog)
    (start sampleStores) sampleRun

theorem sampleSite_reopens :
    openStores samplePackages sampleConfig (listStore samplePackages) listLog sampleSite.stores =
        .ok (sampleSite.ledger, ⟨sampleSite.ledger.lines.length, none⟩) ∧
      (sampleSite.ledger.lines.map LedgerLine.capsuleId).Nodup := by
  unfold sampleSite
  have json : samplePackages.json.Lawful := Python.compactText_lawful
  have ordered : IgnoresOrder sampleConfig.indexer := counterpartyCitationKeys_ignoresOrder
  have live := @reopens_as_live samplePackages sampleConfig _ _ (listStore samplePackages) listLog
    json listStore_lawful listLog_lawful ordered sampleStores rfl sampleRun
  constructor
  · exact live.1
  · exact live.2.2.1

end StoreLedger
end CapsuleEmit
