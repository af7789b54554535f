import CapsuleEmit.RustLedger.MemoryBacking

namespace CapsuleEmit
namespace RustLedger

/-!
# The lines of a store-backed ledger

Every line a store-backed ledger admits is read back from its stores with the
members it was written with, and no two lines that differ in a member have one
record.
-/

open ArtifactStore (CollisionFree Record SameRecord acceptRecord hashed)

universe u v

variable {packages : StorePackages} {α : Type u} {β : Type v} {stores : Stores α β}
  {indexer : Value → List String}

/-! ## Writes -/

/-- SHA-256 tells a record from what a store has under its Capsule ID. -/
def Separated (packages : StorePackages) (stores : Stores α β) (state : Backing α β)
    (record : Record) : Prop :=
  ∀ existing, stores.artifacts.get state.artifacts record.capsuleId = .ok existing →
    CollisionFree packages.artifacts
      (hashed packages.artifacts existing ++ hashed packages.artifacts record)

/-- A record that a store took is what it has under the Capsule ID. -/
theorem get_of_put (lawful : packages.Lawful) {trusted : List Bytes}
    (store : stores.artifacts.Lawful packages.artifacts trusted) {state : Backing α β}
    {id : String} {line : Value} {statement : Bytes} {record : Record} {after : α}
    (made : toRecord packages id line statement = .ok record)
    (separated : Separated packages stores state record)
    (put : stores.artifacts.put state.artifacts record = (.ok (), after)) :
    acceptRecord packages.artifacts trusted record = .ok record ∧
      stores.artifacts.get after record.capsuleId = .ok record := by
  cases accepted : acceptRecord packages.artifacts trusted record with
  | error e =>
      rw [store.refused accepted] at put
      cases put
  | ok prepared =>
      have same := prepared_toRecord made accepted
      subst same
      refine ⟨rfl, ?_⟩
      cases got : stores.artifacts.get state.artifacts prepared.capsuleId with
      | error e =>
          have valid :=
            ArtifactStore.validId_of_verify (ArtifactStore.acceptRecord_ok accepted).2.1
          rw [store.absent valid got] at got
          rcases store.fresh accepted got with ⟨state', again, kept, -⟩
          rw [put, Prod.mk.injEq] at again
          rw [again.2]
          exact kept
      | ok existing =>
          have answer := store.held accepted got
          rw [put, Prod.mk.injEq] at answer
          have checksums : ArtifactStore.storageChecksum packages.artifacts existing =
              ArtifactStore.storageChecksum packages.artifacts prepared := by
            by_contra different
            rw [if_pos different] at answer
            cases answer.1
          have unpurged : ArtifactStore.hasPurged existing = false := by
            rw [if_neg (not_not.mpr checksums)] at answer
            by_contra purged
            rw [if_pos (Bool.not_eq_false _ ▸ purged)] at answer
            cases answer.1
          have held := ArtifactStore.sameRecord_of_checksum lawful.artifacts accepted
            (store.verified got).2 unpurged (separated existing got) checksums
          rcases toRecord_eq_ok_iff.mp made with ⟨envelope, -, shape⟩
          have single : prepared.artifacts = [statementArtifact packages statement] := by rw [shape]
          rw [answer.2, got, SameRecord.eq_of_single held single]

/-- What a line that is written leaves in the stores. -/
theorem write_ok (lawful : packages.Lawful) {trusted : List Bytes}
    (store : stores.artifacts.Lawful packages.artifacts trusted) {state after : Backing α β}
    {id : String} {line : Value} {statement : Bytes} {seq : Nat}
    (separated : ∀ record, toRecord packages id line statement = .ok record →
      Separated packages stores state record)
    (written : stores.write packages state id line statement = (.ok seq, after)) :
    ∃ record, toRecord packages id line statement = .ok record ∧
      acceptRecord packages.artifacts trusted record = .ok record ∧
      stores.artifacts.get after.artifacts id = .ok record := by
  unfold Stores.write at written
  split at written
  · cases written
  · next record made =>
      have named : record.capsuleId = id := by
        rcases toRecord_eq_ok_iff.mp made with ⟨envelope, -, rfl⟩
        rfl
      split at written
      · cases written
      · next done artifacts put =>
          rcases get_of_put lawful store made (separated record made) put with ⟨accepted, got⟩
          rw [named] at got
          refine ⟨record, made, accepted, ?_⟩
          split at written
          · cases written
          · split at written
            · cases written
            · cases written
              exact got
            · cases written

/-- A line with a new Capsule ID whose record is admitted is written. -/
theorem write_fresh {trusted : List Bytes}
    (store : stores.artifacts.Lawful packages.artifacts trusted) (log : stores.log.Lawful)
    {state : Backing α β} {id : String} {line : Value} {statement : Bytes} {record : Record}
    (made : toRecord packages id line statement = .ok record)
    (accepted : acceptRecord packages.artifacts trusted record = .ok record)
    (absent : stores.artifacts.get state.artifacts id = .error .notFound) {value : Bytes}
    (decoded : hexDecode id = some value) (fresh : value ∉ stores.log.values state.log) :
    ∃ after, stores.write packages state id line statement =
        (.ok ((stores.log.values state.log).length + 1), after) ∧
      stores.artifacts.get after.artifacts id = .ok record ∧
      (∀ other, other ≠ id → stores.artifacts.get after.artifacts other =
        stores.artifacts.get state.artifacts other) ∧
      stores.log.values after.log = stores.log.values state.log ++ [value] := by
  have named : record.capsuleId = id := by
    rcases toRecord_eq_ok_iff.mp made with ⟨envelope, -, rfl⟩
    rfl
  rcases store.fresh accepted (named ▸ absent) with ⟨artifacts, put, got, others⟩
  rcases log.append_new fresh with ⟨entries, appended, values⟩
  refine ⟨⟨artifacts, entries⟩, ?_, named ▸ got, fun other different => others other
    (named ▸ different), values⟩
  simp only [Stores.write, made, put, decoded, appended]

/-! ## Admitted lines -/

theorem storesLayout_write (state : Backing α β) (id : String) (line : Value) (statement : Bytes) :
    (storesLayout packages stores).write state id line statement =
      stores.write packages state id line statement := rfl

/-- An append of either kind returned `Ok`. -/
def Admits (packages : StorePackages) (stores : Stores α β) (indexer : Value → List String)
    (book : Book (Backing α β)) (line : Value) (statement : Bytes) (after : Book (Backing α β)) :
    Prop :=
  (storesLayout packages stores).append packages.ledger indexer book line statement =
      (.ok (), after) ∨
    (storesLayout packages stores).appendPadding packages.ledger book line statement =
      (.ok (), after)

theorem commit_ok {σ : Type u} {layout : Layout σ} {book after : Book σ} {id : String}
    {record : Value} {statement : Bytes}
    (committed : layout.commit indexer book id record statement = (.ok (), after)) :
    ∃ offset, layout.write book.storage id record statement = (.ok offset, after.storage) ∧
      after.ledger = book.ledger.enter indexer id offset record := by
  unfold Layout.commit at committed
  split at committed
  · cases committed
  · next offset storage written =>
      cases committed
      exact ⟨offset, written, rfl⟩

theorem Admits.written {book after : Book (Backing α β)} {line : Value} {statement : Bytes}
    (admits : Admits packages stores indexer book line statement after) :
    ∃ id seq, Admissible packages.ledger book.ledger line id statement ∧
      stores.write packages book.storage id line statement = (.ok seq, after.storage) ∧
      after.ledger = book.ledger.enter indexer id seq line := by
  rcases admits with appended | padded
  · rw [Layout.append_eq] at appended
    split at appended
    · cases appended
    · next id checked =>
        rcases commit_ok appended with ⟨seq, written, entered⟩
        exact ⟨id, seq, (appendChecks_eq_ok_iff.mp checked).2, written, entered⟩
  · rw [(storesLayout packages stores).appendPadding_eq indexer] at padded
    split at padded
    · cases padded
    · next id checked =>
        rcases commit_ok padded with ⟨seq, written, entered⟩
        exact ⟨id, seq, (paddingChecks_eq_ok_iff.mp checked).2, written, entered⟩

/-- An admitted line has a record, the stores read it back with the members of
the line and its statement, and every line with the Capsule ID, the Capsule and
the envelope of the record has the members of the line. -/
theorem admitted_reads_back (lawful : packages.Lawful) {trusted : List Bytes}
    (store : stores.artifacts.Lawful packages.artifacts trusted) {book after : Book (Backing α β)}
    {line : Value} {statement : Bytes}
    (admits : Admits packages stores indexer book line statement after)
    (separated : ∀ id record, toRecord packages id line statement = .ok record →
      Separated packages stores book.storage record) :
    ∃ id record, line.capsuleId = some id ∧ toRecord packages id line statement = .ok record ∧
      (∀ lineNo, ∃ read, stores.read packages after.storage lineNo id =
        .ok (read, some statement) ∧ SameMembers read line) ∧
      ∀ id' other statement' record', toRecord packages id' other statement' = .ok record' →
        record'.capsuleId = record.capsuleId → record'.capsule = record.capsule →
        record'.producerEnvelope = record.producerEnvelope → SameMembers other line := by
  rcases admits.written with ⟨id, seq, admissible, written, -⟩
  rcases write_ok lawful store (separated id) written with ⟨record, made, accepted, got⟩
  refine ⟨id, record, admissible.stored, made, fun lineNo => ?_, ?_⟩
  · rcases readRecord_toRecord lawful made accepted lineNo with ⟨read, same, members⟩
    exact ⟨read, by rw [Stores.read, got]; exact same, members⟩
  · intro id' other statement' record' made' sameId capsule envelope
    exact sameMembers_of_record made' made sameId capsule envelope

/-! ## A padding line -/

/-- The stores of a ledger whose padding is signed by a trusted key. -/
def paddingStores : Stores (MemoryRecords paddingStorePackages.artifacts [signerKey])
    (List Bytes) := memoryStores paddingStorePackages.artifacts [signerKey]

/-- A ledger on empty stores. -/
def emptyBook : Book (Backing (MemoryRecords paddingStorePackages.artifacts [signerKey])
    (List Bytes)) := ⟨.empty, .empty _ _, []⟩

def firstRecord : Record where
  capsuleId := paddingId
  capsule := (bareLine firstPadding).toText
  producerEnvelope := firstEnvelope
  artifacts := [statementArtifact paddingStorePackages firstStatement.message]

theorem firstPadding_enveloped :
    Enveloped paddingStorePackages firstPadding paddingId firstEnvelope where
  object := ⟨_, rfl⟩
  signature := paddingRecord_signature ..
  verified := by
    simp [paddingStorePackages, storePackages, ArtifactStore.checkEnvelope,
      ArtifactStore.concretePackages]
  keyId := by
    rw [firstPadding, paddingRecord_keyId]
    simp [paddingStorePackages, storePackages, ArtifactStore.checkEnvelope,
      ArtifactStore.concretePackages]

theorem firstPadding_made : toRecord paddingStorePackages paddingId firstPadding
    firstStatement.message = .ok firstRecord :=
  toRecord_eq_ok_iff.mpr ⟨firstEnvelope, firstPadding_enveloped, rfl⟩

theorem firstRecord_accepted :
    acceptRecord paddingStorePackages.artifacts [signerKey] firstRecord = .ok firstRecord := by
  have admissible := firstPadding_admissible .empty
  have key : (paddingStorePackages.artifacts.envelope paddingId firstEnvelope).publicKey =
      signerKey := by
    simp [paddingStorePackages, storePackages, ArtifactStore.checkEnvelope,
      ArtifactStore.concretePackages]
  refine acceptRecord_line_iff.mpr ⟨?_, succeeds_iff.mpr ⟨_, verify_paddingLine
    paddingStorePackages_lawful (admissible.shaped (isPadding_paddingRecord ..))
    admissible.stored admissible.computed firstPadding_enveloped (key ▸ List.mem_cons_self) _⟩⟩
  apply @sized_paddingRecord paddingDigest paddingNonce signerKey firstSignature firstStatement
  · exact ⟨length_bigEndian .., List.length_replicate .., length_bigEndian .., by
      rw [firstSignature, List.length_append, length_bigEndian, length_bigEndian]⟩
  · decide
  · rfl
  · rw [firstStatement, List.length_append, length_bigEndian, length_bigEndian]
  · rfl

theorem validId_paddingId : ArtifactStore.validId paddingId = true :=
  isNonce_hex ⟨paddingDigest, length_bigEndian ..⟩

theorem firstPadding_admitted : ∃ after, Admits paddingStorePackages paddingStores
    counterpartyCitationKeys emptyBook firstPadding firstStatement.message after := by
  have absent : paddingStores.artifacts.get emptyBook.storage.artifacts paddingId =
      .error .notFound := get_absent validId_paddingId rfl
  rcases write_fresh memoryRecords_lawful StoreLedger.listLog_lawful firstPadding_made
    firstRecord_accepted absent (hexDecode_hex paddingDigest) List.not_mem_nil
    with ⟨after, written, -⟩
  have padding : isPadding firstPadding = true := isPadding_paddingRecord ..
  have admissible : Admissible paddingStorePackages.ledger emptyBook.ledger firstPadding paddingId
    firstStatement.message := firstPadding_admissible .empty
  exact ⟨_, Or.inr (Layout.appendPadding_written _ counterpartyCitationKeys padding admissible
    ((storesLayout_write ..).trans written))⟩

/-- A padding line on empty stores is read back. -/
theorem padding_reads_back : ∃ after id record,
    Admits paddingStorePackages paddingStores counterpartyCitationKeys emptyBook firstPadding
      firstStatement.message after ∧
    firstPadding.capsuleId = some id ∧
    toRecord paddingStorePackages id firstPadding firstStatement.message = .ok record ∧
    (∀ lineNo, ∃ read, paddingStores.read paddingStorePackages after.storage lineNo id =
      .ok (read, some firstStatement.message) ∧ SameMembers read firstPadding) ∧
    ∀ id' other statement' record',
      toRecord paddingStorePackages id' other statement' = .ok record' →
      record'.capsuleId = record.capsuleId → record'.capsule = record.capsule →
      record'.producerEnvelope = record.producerEnvelope → SameMembers other firstPadding := by
  rcases firstPadding_admitted with ⟨after, admits⟩
  rcases admitted_reads_back paddingStorePackages_lawful memoryRecords_lawful admits
    (fun _ _ _ existing got => by cases (get_eq_ok_iff.mp got).2) with ⟨id, record, reads⟩
  exact ⟨after, id, record, admits, reads⟩

end RustLedger
end CapsuleEmit
