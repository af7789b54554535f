import CapsuleEmit.StoreLedger.Replay

namespace CapsuleEmit
namespace StoreLedger

/-!
# A reopened ledger is the live ledger

A ledger appends, pads, is interrupted and is opened again.  The record of a
line is put before its entry is appended, so an interruption leaves at most a
record that no entry names.  Everything a replay reads of a written line is
what the checks before its write have read, so opening the stores gives the
ledger as it was in memory, and the line that was interrupted can be written
again.
-/

open Python (Dict Value)
open ArtifactStore (Record Artifact)

universe u v

section

variable {packages : Packages} {config : Config}
variable {α : Type u} {β : Type v} {artifacts : RecordStore α} {log : EntryLog β}

/-! ## A written line is read back -/

/-- What the record of a line holds. -/
theorem toRecord_spec {capsuleId : String} {line : Dict} {statement : Bytes} {record : Record}
    (made : toRecord packages capsuleId line statement = .ok record) :
    ∃ signature keyId envelope key capsule,
      str? "signature" line = some signature ∧ str? "key_id" line = some keyId ∧
      Sha256.hex envelope = signature ∧ Sha256.hex key = keyId ∧
      (packages.verifyProducerEnvelope capsuleId envelope).publicKey = some key ∧
      packages.json.dumps (.dict ((line.without "signature").without "key_id")) = .ok capsule ∧
      record = ⟨capsuleId, capsule, envelope,
        [⟨statementName, "", some statement, .present, packages.sha256Hex statement⟩]⟩ := by
  unfold toRecord at made
  dsimp only at made
  split at made
  · next signature keyId signed keyed =>
      split at made
      · cases made
      · next envelope decoded =>
          split at made
          · cases made
          · next key found =>
              rcases bind_eq_ok_iff.mp made with ⟨_, _, made⟩
              rcases bind_eq_ok_iff.mp made with ⟨_, isKey, made⟩
              rcases bind_eq_ok_iff.mp made with ⟨_, isSignature, made⟩
              have sameKey := of_decide_eq_true (ensure_eq_ok_iff.mp isKey)
              have sameSignature := of_decide_eq_true (ensure_eq_ok_iff.mp isSignature)
              split at made
              · cases made
              · next capsule written =>
                  exact ⟨signature, keyId, envelope, key, capsule, signed, keyed,
                    sameSignature.symm, sameKey.symm, found, written, (Except.ok.inj made).symm⟩
  · cases made

/-- The record of a line reads back as the line with its statement. -/
theorem readRecord_of_toRecord (json : packages.json.Lawful) {capsuleId : String} {line : Dict}
    {statement : Bytes} {record : Record} {store : α}
    (made : toRecord packages capsuleId line statement = .ok record)
    (isJson : ∃ members, Python.decodeStrictJson packages.json record.capsule = .ok (.dict members))
    (held : artifacts.get store capsuleId = .ok (prepared packages record)) :
    ∃ parsed, SameMembers parsed line ∧ ∀ lineNo,
      readRecord packages artifacts store lineNo capsuleId = .ok (parsed, some statement, true) := by
  rcases toRecord_spec made with
    ⟨signature, keyId, envelope, key, capsule, signed, keyed, isSignature, isKey, verified, written, rfl⟩
  rcases isJson with ⟨members, decoded⟩
  have body := Python.decodeStrictJson_dumps json written decoded
  refine ⟨_, sameMembers_restored signed keyed, fun lineNo => ?_⟩
  rw [readRecord, held]
  dsimp only [prepared]
  rw [decoded, body]
  dsimp only [Value.dict?]
  rw [verified, isSignature]
  simp [isKey, statementName]

/-- A line that may be written where the ledger is. -/
structure Fits (packages : Packages) (config : Config) (ledger : Ledger) (capsuleId : String)
    (line : Dict) (padding : Bool) : Prop where
  named : str? "capsule_id" line = some capsuleId
  kind : isPadding line = padding
  shaped : padding = true → checkPaddingShape packages line = none
  chained : padding = false → config.linear = true → parent line = ledger.chainHead

theorem fits_of_appendable {ledger : Ledger} {capsule : Dict} {capsuleId : String}
    (ok : appendable config ledger capsule = .ok capsuleId) :
    Fits packages config ledger capsuleId capsule false := by
  unfold appendable at ok
  rcases bind_eq_ok_iff.mp ok with ⟨_, chained, ok⟩
  have kind := ensure_eq_ok_iff.mp chained
  split at ok
  · cases ok
  · next stored named =>
      rcases bind_eq_ok_iff.mp ok with ⟨_, fitting, same⟩
      have fits := ensure_eq_ok_iff.mp fitting
      cases same
      constructor
      case named => exact named
      case kind => simpa using kind
      case shaped => exact fun isPadding => nomatch isPadding
      case chained =>
        intro _ linear
        simpa [linear] using fits

theorem fits_of_paddable {ledger : Ledger} {record : Dict} {capsuleId : String}
    (ok : paddable packages ledger record = .ok capsuleId) :
    Fits packages config ledger capsuleId record true := by
  unfold paddable at ok
  rcases bind_eq_ok_iff.mp ok with ⟨_, isPadding, ok⟩
  have kind := ensure_eq_ok_iff.mp isPadding
  split at ok
  · cases ok
  · next shaped =>
      split at ok
      · cases ok
      · next stored named =>
          cases ok
          refine ⟨named, kind, fun _ => shaped, ?_⟩
          intro isCapsule
          cases isCapsule

/-- An indexer that reads the members of a record and not their order. -/
def IgnoresOrder (indexer : Dict → List String) : Prop :=
  ∀ left right, SameMembers left right → indexer left = indexer right

theorem counterpartyCitationKeys_ignoresOrder : IgnoresOrder counterpartyCitationKeys := by
  intro left right same
  rw [counterpartyCitationKeys, counterpartyCitationKeys, same.get, same.get]

theorem indexLine_congr (ordered : IgnoresOrder config.indexer) {left right : Dict}
    (same : SameMembers left right) (ledger : Ledger) (capsuleId : String) (seq : Nat)
    (padding : Bool) :
    indexLine config ledger capsuleId seq left padding =
      indexLine config ledger capsuleId seq right padding := by
  rw [indexLine, indexLine, same.timestamp, ordered left right same]

/-- A replay admits a line that was written where the ledger is. -/
theorem admitEntry_of_written (ordered : IgnoresOrder config.indexer) {store : α} {ledger : Ledger}
    {line parsed : Dict} {statement value : Bytes} {padding : Bool} {seq : Nat}
    (fits : Fits packages config ledger (Sha256.hex value) line padding)
    (recomputes : recompute packages seq line (Sha256.hex value) = .ok ())
    (stated : checkStatement packages seq line (Sha256.hex value) statement = .ok ())
    (read : readRecord packages artifacts store seq (Sha256.hex value) =
      .ok (parsed, some statement, true)) (same : SameMembers parsed line) :
    admitEntry packages config artifacts store ledger (seq, value) =
      .ok (indexLine config ledger (Sha256.hex value) seq line padding) := by
  have named := (same.str? "capsule_id").trans fits.named
  have shaped : (if isPadding parsed = true then checkPaddingShape packages parsed else none) = none := by
    rw [same.isPadding, fits.kind]
    split
    · next isPadding => exact same.symm.checkPaddingShape (fits.shaped isPadding)
    · rfl
  have chained : (padding || !config.linear || decide (parent parsed = ledger.chainHead)) = true := by
    cases isPadding : padding with
    | true => rfl
    | false =>
        cases linear : config.linear with
        | false => rfl
        | true => simp [same.parent, fits.chained isPadding linear]
  simp only [admitEntry, read, ok_bind, named, decide_true, ensure_true, admitLine]
  rw [same.recompute, recomputes, ok_bind, shaped]
  dsimp only
  rw [same.isPadding, fits.kind, chained, ensure_true, ok_bind, same.checkStatement, stated, ok_bind,
    indexLine_congr ordered same]

/-! ## One written line -/

@[simp] theorem lines_indexLine (ledger : Ledger) (capsuleId : String) (seq : Nat) (line : Dict)
    (padding : Bool) :
    (indexLine config ledger capsuleId seq line padding).lines =
      ledger.lines ++ [⟨capsuleId, seq, padding, timestamp line⟩] := by
  cases padding <;> rfl

/-- A line in memory reads back as the line whose append returned. -/
structure Recorded (packages : Packages) (artifacts : RecordStore α) (store : α)
    (line : LedgerLine) (acked : Acked) : Prop where
  named : str? "capsule_id" acked.line = some line.capsuleId
  read : ∃ parsed, SameMembers parsed acked.line ∧ ∀ lineNo,
    readRecord packages artifacts store lineNo line.capsuleId =
      .ok (parsed, acked.statement, true)

theorem Recorded.of_put {store state : α} {record : Record} {line : LedgerLine} {acked : Acked}
    (lawful : artifacts.Lawful packages) (recorded : Recorded packages artifacts store line acked)
    (put : artifacts.put store record = .ok state) : Recorded packages artifacts state line acked := by
  rcases recorded.read with ⟨parsed, same, read⟩
  rcases held_of_readRecord (read 0) with ⟨held, got⟩
  have stays := (lawful.kept put got).trans got.symm
  refine ⟨recorded.named, parsed, same, fun lineNo => ?_⟩
  rw [readRecord_congr stays, read]

/-- What is in memory is what a replay of the stores gives. -/
structure Coherent (packages : Packages) (config : Config) (artifacts : RecordStore α)
    (log : EntryLog β) (site : Site α β) : Prop where
  replayed : (numbered (log.values site.stores.log)).foldlM
    (admitEntry packages config artifacts site.stores.artifacts) Ledger.empty = .ok site.ledger
  named : site.ledger.lines.map LedgerLine.capsuleId = (log.values site.stores.log).map Sha256.hex
  nodup : (log.values site.stores.log).Nodup
  recorded : List.Forall₂ (Recorded packages artifacts site.stores.artifacts) site.ledger.lines site.acked

/-- What a write does from a coherent site: it refuses and changes nothing, it is
interrupted after the put, or it adds the line. -/
inductive Written (config : Config) (artifacts : RecordStore α) (log : EntryLog β)
    (site : Site α β) (record : Record) (line : Dict) (statement : Bytes) (padding : Bool) :
    Fault → Reply → Site α β → Prop where
  | refused {fault : Fault} {e : LedgerError} (kind : e.kind ≠ .log) :
      Written config artifacts log site record line statement padding fault (.raised e) site
  | crashed {state : α} (put : artifacts.put site.stores.artifacts record = .ok state) :
      Written config artifacts log site record line statement padding .crash .crashed
        { site with stores.artifacts := state, up := false }
  | logFailed {state : α} {why : String} {e : LedgerError}
      (put : artifacts.put site.stores.artifacts record = .ok state) (kind : e.kind = .log) :
      Written config artifacts log site record line statement padding (.logFails why) (.raised e)
        { site with stores.artifacts := state }
  | done {state : α} {state' : β} {value : Bytes}
      (put : artifacts.put site.stores.artifacts record = .ok state)
      (value_hex : Sha256.hex value = record.capsuleId)
      (fresh : value ∉ log.values site.stores.log)
      (appended : log.values state' = log.values site.stores.log ++ [value]) :
      Written config artifacts log site record line statement padding .none
        (.done ((log.values site.stores.log).length + 1))
        { site with
          stores := ⟨state, state'⟩
          ledger := indexLine config site.ledger record.capsuleId
            ((log.values site.stores.log).length + 1) line padding
          acked := site.acked ++ [⟨line, some statement⟩] }

namespace Coherent

variable {site : Site α β}

theorem length_eq (coherent : Coherent packages config artifacts log site) :
    site.ledger.lines.length = (log.values site.stores.log).length := by
  have lengths := congrArg List.length coherent.named
  simpa only [List.length_map] using lengths

theorem held (coherent : Coherent packages config artifacts log site) {value : Bytes}
    (inside : value ∈ log.values site.stores.log) :
    ∃ record, artifacts.get site.stores.artifacts (Sha256.hex value) = .ok record := by
  rw [← map_snd_numbered (log.values site.stores.log)] at inside
  rcases List.mem_map.mp inside with ⟨entry, logged, rfl⟩
  exact held_of_foldlM coherent.replayed entry logged

/-- The records of the log are the same after a put. -/
theorem get_of_put (store : artifacts.Lawful packages)
    (coherent : Coherent packages config artifacts log site) {record : Record} {state : α}
    (put : artifacts.put site.stores.artifacts record = .ok state) {value : Bytes}
    (inside : value ∈ log.values site.stores.log) :
    artifacts.get state (Sha256.hex value) =
      artifacts.get site.stores.artifacts (Sha256.hex value) := by
  rcases coherent.held inside with ⟨record, got⟩
  rw [store.kept put got, got]

theorem replayed_of_put (store : artifacts.Lawful packages)
    (coherent : Coherent packages config artifacts log site) {record : Record} {state : α}
    (put : artifacts.put site.stores.artifacts record = .ok state) :
    (numbered (log.values site.stores.log)).foldlM (admitEntry packages config artifacts state)
      Ledger.empty = .ok site.ledger := by
  rw [← coherent.replayed]
  exact foldlM_admitEntry_congr (fun entry inside =>
    coherent.get_of_put store put (mem_of_mem_numbered inside)) _

theorem recorded_of_put (store : artifacts.Lawful packages)
    (coherent : Coherent packages config artifacts log site) {record : Record} {state : α}
    (put : artifacts.put site.stores.artifacts record = .ok state) :
    List.Forall₂ (Recorded packages artifacts state) site.ledger.lines site.acked :=
  coherent.recorded.imp (fun _ _ recorded => recorded.of_put store put)

/-- A coherent site is coherent after a put. -/
theorem of_put (store : artifacts.Lawful packages)
    (coherent : Coherent packages config artifacts log site) {record : Record} {state : α}
    (put : artifacts.put site.stores.artifacts record = .ok state) (up : Bool) :
    Coherent packages config artifacts log { site with stores.artifacts := state, up := up } where
  replayed := coherent.replayed_of_put store put
  named := coherent.named
  nodup := coherent.nodup
  recorded := coherent.recorded_of_put store put

/-- A coherent site is coherent after a write. -/
theorem of_written (json : packages.json.Lawful) (store : artifacts.Lawful packages)
    (ordered : IgnoresOrder config.indexer) (coherent : Coherent packages config artifacts log site)
    {capsuleId : String} {record : Record} {line : Dict} {statement : Bytes} {padding : Bool}
    {fault : Fault} {reply : Reply} {site' : Site α β}
    (fits : Fits packages config site.ledger capsuleId line padding)
    (recomputes : recompute packages (site.ledger.lines.length + 1) line capsuleId = .ok ())
    (stated : checkStatement packages (site.ledger.lines.length + 1) line capsuleId statement = .ok ())
    (made : toRecord packages capsuleId line statement = .ok record)
    (written : Written config artifacts log site record line statement padding fault reply site') :
    Coherent packages config artifacts log site' := by
  have recordId : record.capsuleId = capsuleId := by
    rcases toRecord_spec made with ⟨_, _, _, _, _, _, _, _, _, _, _, rfl⟩
    rfl
  cases written with
  | refused kind => exact coherent
  | crashed put => exact coherent.of_put store put false
  | logFailed put kind => exact coherent.of_put store put site.up
  | done put value_hex fresh appended =>
      have held := store.stored put
      rw [recordId] at held value_hex
      rcases readRecord_of_toRecord json made (store.admitted put).2 held with ⟨parsed, same, read⟩
      rw [coherent.length_eq] at recomputes stated
      rw [recordId]
      constructor
      case replayed =>
        subst value_hex
        rw [appended, numbered_concat, List.foldlM_append, coherent.replayed_of_put store put,
          ok_bind, List.foldlM_cons,
          admitEntry_of_written ordered fits recomputes stated (read _) same]
        rfl
      case named =>
        rw [lines_indexLine, appended, List.map_append, List.map_append, coherent.named]
        simp [value_hex]
      case nodup =>
        rw [appended, List.nodup_append]
        exact ⟨coherent.nodup, List.nodup_singleton _, fun a inside b last same =>
          fresh (by rw [← List.mem_singleton.mp last, ← same]; exact inside)⟩
      case recorded =>
        rw [lines_indexLine]
        refine List.rel_append (coherent.recorded_of_put store put) (List.Forall₂.cons ?_ .nil)
        exact ⟨fits.named, parsed, same, read⟩

end Coherent

/-! ## The writes of a ledger -/

theorem kind_of_recompute {lineNo : Nat} {line : Dict} {stored : String} {e : LedgerError}
    (refused : recompute packages lineNo line stored = .error e) : e.kind = .capsuleIdMismatch := by
  unfold recompute at refused
  split at refused
  · cases refused
    rfl
  · rw [← (ensure_eq_error_iff.mp refused).2]

theorem kind_of_checkStatement {lineNo : Nat} {line : Dict} {capsuleId : String} {statement : Bytes}
    {e : LedgerError} (refused : checkStatement packages lineNo line capsuleId statement = .error e) :
    e.kind = .statementInvalid := by
  unfold checkStatement at refused
  split at refused
  · cases refused
  · cases refused
    rfl

theorem kind_of_toRecord {capsuleId : String} {line : Dict} {statement : Bytes} {e : LedgerError}
    (refused : toRecord packages capsuleId line statement = .error e) : e.kind ≠ .log := by
  unfold toRecord at refused
  dsimp only at refused
  split at refused
  · split at refused
    · cases refused
      simp
    · split at refused
      · cases refused
        simp
      · rcases bind_eq_error_iff.mp refused with unverified | ⟨_, _, refused⟩
        · rw [← (ensure_eq_error_iff.mp unverified).2]
          simp
        · rcases bind_eq_error_iff.mp refused with otherKey | ⟨_, _, refused⟩
          · rw [← (ensure_eq_error_iff.mp otherKey).2]
            simp
          · rcases bind_eq_error_iff.mp refused with otherCase | ⟨_, _, refused⟩
            · rw [← (ensure_eq_error_iff.mp otherCase).2]
              simp
            · split at refused
              · cases refused
                simp
              · cases refused
  · cases refused
    simp

theorem kind_of_appendable {ledger : Ledger} {capsule : Dict} {e : LedgerError}
    (refused : appendable config ledger capsule = .error e) : e.kind ≠ .log := by
  unfold appendable at refused
  rcases bind_eq_error_iff.mp refused with misrouted | ⟨_, _, refused⟩
  · rw [← (ensure_eq_error_iff.mp misrouted).2]
    simp
  · split at refused
    · cases refused
      simp
    · rcases bind_eq_error_iff.mp refused with broken | ⟨_, _, refused⟩
      · rw [← (ensure_eq_error_iff.mp broken).2]
        simp
      · cases refused

theorem kind_of_paddable {ledger : Ledger} {record : Dict} {e : LedgerError}
    (refused : paddable packages ledger record = .error e) : e.kind ≠ .log := by
  unfold paddable at refused
  rcases bind_eq_error_iff.mp refused with misrouted | ⟨_, _, refused⟩
  · rw [← (ensure_eq_error_iff.mp misrouted).2]
    simp
  · split at refused
    · cases refused
      simp
    · split at refused
      · cases refused
        simp
      · cases refused

namespace Coherent

variable {site : Site α β}

/-- No other writer is ahead of a coherent site. -/
theorem checkNotStale_eq (lawful : log.Lawful)
    (coherent : Coherent packages config artifacts log site) : checkNotStale log site = .ok () := by
  have scanned := lawful.scan (Nat.le_of_eq coherent.length_eq) Nat.one_pos lawful.limit_pos
  change _ = Except.ok (((numbered (log.values site.stores.log)).drop _).take 1) at scanned
  rw [List.drop_eq_nil_of_le (by rw [length_numbered, coherent.length_eq])] at scanned
  rw [checkNotStale, scanned]
  rfl

/-- A commit is a write. -/
theorem written_commit (store : artifacts.Lawful packages) (lawful : log.Lawful)
    (coherent : Coherent packages config artifacts log site) (record : Record) (line : Dict)
    (statement : Bytes) (padding : Bool) (fault : Fault) :
    Written config artifacts log site record line statement padding fault
      (commit config artifacts log site record.capsuleId record line (some statement) padding fault).1
      (commit config artifacts log site record.capsuleId record line (some statement) padding fault).2 := by
  unfold commit
  dsimp only
  split
  · exact .refused (by simp)
  · next state put =>
      cases fault with
      | crash => exact .crashed put
      | logFails why => exact .logFailed put rfl
      | none =>
          have valid := (store.admitted put).1
          rw [ArtifactStore.validId, Bool.and_eq_true, decide_eq_true_eq] at valid
          rcases Python.fromHex_of_digits (n := 32) valid.1 valid.2 with ⟨value, decoded, isId⟩
          rw [decoded]
          dsimp only
          by_cases known : value ∈ log.values site.stores.log
          · rcases coherent.held known with ⟨held, got⟩
            rw [isId] at got
            rcases lawful.append_known known with ⟨seq, again⟩
            rw [again, store.known put got]
            exact .refused (by simp)
          · rcases lawful.append_new known with ⟨state', inserted, appended⟩
            rw [inserted]
            exact .done put isId known appended

end Coherent

/-- Append a capsule or a padding record. -/
def submit (packages : Packages) (config : Config) (artifacts : RecordStore α) (log : EntryLog β)
    (site : Site α β) (padding : Bool) (line : Dict) (statement : Bytes) (fault : Fault) :
    Reply × Site α β :=
  if padding then appendPadding packages config artifacts log site line statement fault
  else append packages config artifacts log site line statement fault

/-- A line that passed every check before its write. -/
structure Checked (packages : Packages) (config : Config) (ledger : Ledger) (capsuleId : String)
    (record : Record) (line : Dict) (statement : Bytes) (padding : Bool) : Prop where
  fits : Fits packages config ledger capsuleId line padding
  recomputes : recompute packages (ledger.lines.length + 1) line capsuleId = .ok ()
  stated : checkStatement packages (ledger.lines.length + 1) line capsuleId statement = .ok ()
  made : toRecord packages capsuleId line statement = .ok record

theorem Checked.capsuleId_eq {ledger : Ledger} {capsuleId : String} {record : Record} {line : Dict}
    {statement : Bytes} {padding : Bool}
    (checked : Checked packages config ledger capsuleId record line statement padding) :
    record.capsuleId = capsuleId := by
  rcases toRecord_spec checked.made with ⟨_, _, _, _, _, _, _, _, _, _, _, rfl⟩
  rfl

theorem writeLine_cases (store : artifacts.Lawful packages) (lawful : log.Lawful)
    {site : Site α β} (coherent : Coherent packages config artifacts log site) {capsuleId : String}
    {line : Dict} {padding : Bool} (fits : Fits packages config site.ledger capsuleId line padding)
    (statement : Bytes) (fault : Fault) :
    (∃ e, e.kind ≠ .log ∧
      writeLine packages config artifacts log site capsuleId line statement padding fault =
        (.raised e, site)) ∨
    ∃ record, Checked packages config site.ledger capsuleId record line statement padding ∧
      Written config artifacts log site record line statement padding fault
        (writeLine packages config artifacts log site capsuleId line statement padding fault).1
        (writeLine packages config artifacts log site capsuleId line statement padding fault).2 := by
  unfold writeLine
  split
  · next e refused =>
      refine Or.inl ⟨e, ?_, rfl⟩
      unfold checkLine at refused
      rcases bind_eq_error_iff.mp refused with digest | ⟨_, _, refused⟩
      · rw [kind_of_recompute digest]
        decide
      · rcases bind_eq_error_iff.mp refused with unsigned | ⟨_, _, refused⟩
        · rw [kind_of_checkStatement unsigned]
          decide
        · rcases bind_eq_error_iff.mp refused with unsuited | ⟨_, _, refused⟩
          · exact kind_of_toRecord unsuited
          · rw [coherent.checkNotStale_eq lawful] at refused
            cases refused
  · next record checked =>
      right
      unfold checkLine at checked
      rcases bind_eq_ok_iff.mp checked with ⟨_, recomputes, checked⟩
      rcases bind_eq_ok_iff.mp checked with ⟨_, stated, checked⟩
      rcases bind_eq_ok_iff.mp checked with ⟨made, isMade, checked⟩
      rcases bind_eq_ok_iff.mp checked with ⟨_, _, same⟩
      cases same
      have whole : Checked packages config site.ledger capsuleId record line statement padding :=
        ⟨fits, recomputes, stated, isMade⟩
      refine ⟨record, whole, ?_⟩
      rw [← whole.capsuleId_eq]
      exact coherent.written_commit store lawful record line statement padding fault

/-- What appending does from a coherent site. -/
theorem submit_cases (store : artifacts.Lawful packages) (lawful : log.Lawful)
    {site : Site α β} (coherent : Coherent packages config artifacts log site) (padding : Bool)
    (line : Dict) (statement : Bytes) (fault : Fault) :
    (∃ e, e.kind ≠ .log ∧
      submit packages config artifacts log site padding line statement fault = (.raised e, site)) ∨
    ∃ capsuleId record, Checked packages config site.ledger capsuleId record line statement padding ∧
      Written config artifacts log site record line statement padding fault
        (submit packages config artifacts log site padding line statement fault).1
        (submit packages config artifacts log site padding line statement fault).2 := by
  cases padding with
  | false =>
      rw [submit, if_neg Bool.false_ne_true, append]
      split
      · next e refused => exact Or.inl ⟨e, kind_of_appendable refused, rfl⟩
      · next capsuleId ok =>
          rcases writeLine_cases store lawful coherent (fits_of_appendable ok) statement fault with
            refused | ⟨record, checked, written⟩
          · exact Or.inl refused
          · exact Or.inr ⟨capsuleId, record, checked, written⟩
  | true =>
      rw [submit, if_pos rfl, appendPadding]
      split
      · next e refused => exact Or.inl ⟨e, kind_of_paddable refused, rfl⟩
      · next capsuleId ok =>
          rcases writeLine_cases store lawful coherent (fits_of_paddable ok) statement fault with
            refused | ⟨record, checked, written⟩
          · exact Or.inl refused
          · exact Or.inr ⟨capsuleId, record, checked, written⟩

end

end StoreLedger
end CapsuleEmit
