import CapsuleEmit.RustLedger.Padding

namespace CapsuleEmit
namespace RustLedger

/-!
# Runs on a flat ledger

A run is a list of calls on a ledger opened on an empty file, with every write
completing.  While each record that is accepted reads back, and the statement
written with it is also one for the earlier lines with its Capsule ID, opening
the file again gives the live ledger.
-/

variable {packages : Packages} {indexer : Value → List String}

/-! ## Calls -/

/-- The calls on a ledger; padding comes with what the random source gives. -/
inductive Op (packages : Packages) where
  | append (capsule : Value) (signedStatement : Bytes)
  | appendPadding (record : Value) (signedStatement : Bytes)
  | padToBucket (bucket : Nat) (signer : Signer packages) (issuer : String) (draw : Nat → Nonce)

/-- One call: its answer, the line count of `padToBucket` included, and the state after it. -/
def step (packages : Packages) (indexer : Value → List String) (state : State) :
    Op packages → Except LedgerError (Option Nat) × State
  | .append capsule statement =>
      let (answer, after) := append packages indexer none state capsule statement
      (answer.map (fun _ => none), after)
  | .appendPadding record statement =>
      let (answer, after) := appendPadding packages none state record statement
      (answer.map (fun _ => none), after)
  | .padToBucket bucket signer issuer draw =>
      let (answer, after) := padToBucket packages signer issuer draw state bucket
      (answer.map some, after)

/-! ## The condition -/

/-- A record that passes the checks nests no deeper than the decoder follows,
and its statement is one for the lines that share its Capsule ID. -/
def Keeps (packages : Packages) (state : State) (record : Value) (statement : Bytes) : Prop :=
  ∀ id, Admissible packages state.ledger record id statement →
    record.tree.nesting ≤ decoderLevels ∧ MatchesHeld packages state id statement

/-- Every statement of a padding is one for the lines that share its Capsule ID. -/
def PaddingKeeps (packages : Packages) (signer : Signer packages) (issuer : String) :
    List Nonce → State → Prop
  | [], _ => True
  | nonce :: nonces, state =>
      (∀ id record, buildPadding packages signer nonce = .ok (id, record) →
        MatchesHeld packages state id (paddingStatement packages signer issuer id record)) ∧
      PaddingKeeps packages signer issuer nonces (padRecords packages signer issuer [nonce] state).2

def Guard (packages : Packages) (state : State) : Op packages → Prop
  | .append capsule statement => isPadding capsule = false → Keeps packages state capsule statement
  | .appendPadding record statement =>
      isPadding record = true → Keeps packages state record statement
  | .padToBucket bucket signer issuer draw => PaddingKeeps packages signer issuer
      ((List.range (missingLines bucket state.ledger.entries)).map draw) state

/-! ## Steps -/

/-- What may be written: a condition on the state, the record, its Capsule ID and its statement. -/
abbrev Condition := State → Value → String → Bytes → Prop

/-- The condition on each padding record a call draws. -/
def PaddingPermits (packages : Packages) (allowed : Condition) (signer : Signer packages)
    (issuer : String) : List Nonce → State → Prop
  | [], _ => True
  | nonce :: nonces, state =>
      (∀ id record, buildPadding packages signer nonce = .ok (id, record) →
        allowed state record id (paddingStatement packages signer issuer id record)) ∧
      PaddingPermits packages allowed signer issuer nonces
        (padRecords packages signer issuer [nonce] state).2

theorem PaddingPermits.imp {allowed weaker : Condition} {signer : Signer packages}
    {issuer : String} {nonces : List Nonce} {state : State}
    (imp : ∀ nonce state id record statement, buildPadding packages signer nonce = .ok (id, record) →
      allowed state record id statement → weaker state record id statement)
    (permits : PaddingPermits packages allowed signer issuer nonces state) :
    PaddingPermits packages weaker signer issuer nonces state := by
  induction nonces generalizing state with
  | nil => trivial
  | cons nonce nonces ih =>
      exact ⟨fun id record built => imp _ _ _ _ _ built (permits.1 id record built),
        ih permits.2⟩

/-- The condition on each record a call writes. -/
def Permits (packages : Packages) (allowed : Condition) (state : State) : Op packages → Prop
  | .append capsule statement => isPadding capsule = false → ∀ id,
      Admissible packages state.ledger capsule id statement → allowed state capsule id statement
  | .appendPadding record statement => isPadding record = true → ∀ id,
      Admissible packages state.ledger record id statement → allowed state record id statement
  | .padToBucket bucket signer issuer draw => PaddingPermits packages allowed signer issuer
      ((List.range (missingLines bucket state.ledger.entries)).map draw) state

section

variable {allowed : Condition} {Inv : State → Prop}
  (keep : ∀ state record id statement, Inv state →
    Admissible packages state.ledger record id statement → allowed state record id statement →
      Inv (state.written indexer record id statement))

include keep

theorem padRecords_keeps (lawful : packages.Lawful) (signer : Signer packages) (issuer : String)
    {nonces : List Nonce} {state : State} (start : Inv state)
    (permits : PaddingPermits packages allowed signer issuer nonces state) :
    Inv (padRecords packages signer issuer nonces state).2 := by
  induction nonces generalizing state with
  | nil => exact start
  | cons nonce nonces ih =>
      rcases buildPadding_ok signer lawful nonce with ⟨id, computed, built⟩
      rcases padRecords_cons signer lawful indexer issuer nonce [] state with ⟨other, same, single⟩
      rw [computed, Except.ok.injEq] at same
      subst same
      have held := permits.1 id _ built
      have rest := permits.2
      rw [single] at rest
      rcases padRecords_cons signer lawful indexer issuer nonce nonces state
        with ⟨other, same, whole⟩
      rw [computed, Except.ok.injEq] at same
      subst same
      rw [whole]
      exact ih (keep _ _ _ _ start
        (admissible_sealedPadding signer lawful issuer state.ledger computed) held) rest

theorem appends_keeps {state : State} (start : Inv state) {record : Value} {statement : Bytes}
    (permits : ∀ id, Admissible packages state.ledger record id statement →
      allowed state record id statement) {result : Except LedgerError Unit × State}
    (appends : Appends packages indexer none state record statement result) : Inv result.2 := by
  rcases appends with ⟨e, rfl⟩ | ⟨id, admissible, rfl⟩
  · exact start
  · exact keep _ _ _ _ start admissible (permits id admissible)

/-- What each permitted write keeps a call keeps. -/
theorem step_keeps (lawful : packages.Lawful) (state : State) (op : Op packages)
    (start : Inv state) (permits : Permits packages allowed state op) :
    Inv (step packages indexer state op).2 := by
  cases op with
  | append capsule statement =>
      cases padding : isPadding capsule with
      | true =>
          have same : (append packages indexer none state capsule statement).2 = state := by
            rw [append, if_pos padding]
          change Inv (append packages indexer none state capsule statement).2
          rw [same]
          exact start
      | false =>
          exact appends_keeps keep start (permits padding)
            (append_appends none state capsule statement)
  | appendPadding record statement =>
      cases padding : isPadding record with
      | false =>
          have same : (appendPadding packages none state record statement).2 = state := by
            rw [appendPadding, if_pos padding]
          change Inv (appendPadding packages none state record statement).2
          rw [same]
          exact start
      | true =>
          exact appends_keeps keep start (permits padding)
            (appendPadding_appends none state record statement)
  | padToBucket bucket signer issuer draw =>
      have kept := padRecords_keeps keep lawful signer issuer start permits
      have same : (step packages indexer state (.padToBucket bucket signer issuer draw)).2 =
          (padRecords packages signer issuer
            ((List.range (missingLines bucket state.ledger.entries)).map draw) state).2 := by
        rw [step, padToBucket]
        rcases padRecords packages signer issuer
          ((List.range (missingLines bucket state.ledger.entries)).map draw) state
          with ⟨_ | _, after⟩ <;> rfl
      rw [same]
      exact kept

end

/-- What keeps a ledger sound. -/
def Lasting (packages : Packages) : Condition := fun state record id statement =>
  record.tree.nesting ≤ decoderLevels ∧ MatchesHeld packages state id statement

theorem paddingPermits_of_keeps {signer : Signer packages} {issuer : String} {nonces : List Nonce}
    {state : State} (lawful : packages.Lawful)
    (keeps : PaddingKeeps packages signer issuer nonces state) :
    PaddingPermits packages (Lasting packages) signer issuer nonces state := by
  induction nonces generalizing state with
  | nil => trivial
  | cons nonce nonces ih =>
      refine ⟨fun id record built => ⟨?_, keeps.1 id record built⟩, ih keeps.2⟩
      rcases buildPadding_ok signer lawful nonce with ⟨other, -, same⟩
      rw [same, Except.ok.injEq, Prod.mk.injEq] at built
      rw [← built.2]
      exact nesting_paddingRecord ..

theorem permits_of_guard (lawful : packages.Lawful) {state : State} {op : Op packages}
    (guarded : Guard packages state op) : Permits packages (Lasting packages) state op := by
  cases op with
  | append capsule statement => exact guarded
  | appendPadding record statement => exact guarded
  | padToBucket bucket signer issuer draw => exact paddingPermits_of_keeps lawful guarded

theorem step_sound (lawful : packages.Lawful) (state : State) (op : Op packages)
    (sound : Sound packages indexer state) (guarded : Guard packages state op) :
    Sound packages indexer (step packages indexer state op).2 :=
  step_keeps (fun _ _ _ _ sound admissible lasting =>
    sound.written lawful admissible lasting.1 lasting.2) lawful state op sound
    (permits_of_guard lawful guarded)

/-- A refused call changes neither the ledger nor its files. -/
theorem step_refused (lawful : packages.Lawful) (state : State) (op : Op packages)
    {e : LedgerError} (refused : (step packages indexer state op).1 = .error e) :
    (step packages indexer state op).2 = state := by
  have unchanged : ∀ {record statement} {result : Except LedgerError Unit × State},
      Appends packages indexer none state record statement result →
      result.1.map (fun _ => (none : Option Nat)) = .error e → result.2 = state := by
    intro record statement result appends failed
    rcases appends with ⟨e, rfl⟩ | ⟨id, admissible, rfl⟩
    · rfl
    · cases failed
  cases op with
  | append capsule statement =>
      exact unchanged (append_appends none state capsule statement) refused
  | appendPadding record statement =>
      exact unchanged (appendPadding_appends none state record statement) refused
  | padToBucket bucket signer issuer draw =>
      rcases padToBucket_ok signer lawful issuer draw state bucket with ⟨after, same⟩
      rw [step, same] at refused
      cases refused

theorem sound_fresh (statements : String → Option Bytes) :
    Sound packages indexer (.fresh statements) :=
  sound_iff.mpr ⟨rfl, Utf8.valid_nil, rfl⟩

/-! ## Runs -/

/-- After every run that meets the condition, opening the file gives the live
ledger, and every refused call leaves ledger and files as they are. -/
theorem run_reopens (lawful : packages.Lawful) (statements : String → Option Bytes)
    {ops : List (Op packages)}
    (guarded : Machine.Guarded (step packages indexer) (Guard packages) (.fresh statements) ops) :
    let state := Machine.after (step packages indexer) (.fresh statements) ops
    openWithIndexer packages indexer state.disk = .ok ⟨state.ledger, none, state.disk⟩ ∧
      ∀ op e, (step packages indexer state op).1 = .error e →
        (step packages indexer state op).2 = state := by
  have sound := Machine.invariant_of_guarded (fun state op => step_sound lawful state op)
    (sound_fresh statements) guarded
  exact ⟨sound.opens, fun op e refused => step_refused lawful _ op refused⟩

/-! ## One padding record under two keys -/

theorem firstPadding_admissible (ledger : Ledger) :
    Admissible paddingPackages ledger firstPadding paddingId firstStatement.message where
  stored := paddingRecord_capsuleId ..
  computed := (computeCapsuleId_paddingRecord _ _ _ _ paddingPackages_lawful).trans paddingBody_id
  shaped _ := checkPaddingShape_paddingRecord _ _ _ _ (isNonce_hex ⟨paddingNonce, rfl⟩)
  linked := Or.inl (isPadding_paddingRecord ..)
  matched := by
    have parsed : paddingPackages.parseSign1 firstStatement.message =
        .ok (some firstPadding.toText) := by
      apply @tablePackages_parseSign1 _ _ paddingStatements_separate firstStatement
      exact List.mem_cons_self
    refine checkStatementMatches_paddingRecord _ _ _ _ paddingPackages_lawful ?_ ?_ parsed ?_
    · simp [signerKey, ArtifactStore.bigEndian]
    · simp [paddingPackages, tablePackages, firstStatement]
    · exact (tablePackages_verifySignature paddingStatements_separate List.mem_cons_self _).trans
        (decide_eq_true rfl)

theorem secondPadding_admissible (ledger : Ledger) :
    Admissible paddingPackages ledger secondPadding paddingId secondStatement.message where
  stored := paddingRecord_capsuleId ..
  computed := (computeCapsuleId_paddingRecord _ _ _ _ paddingPackages_lawful).trans paddingBody_id
  shaped _ := checkPaddingShape_paddingRecord _ _ _ _ (isNonce_hex ⟨paddingNonce, rfl⟩)
  linked := Or.inl (isPadding_paddingRecord ..)
  matched := by
    have inside : secondStatement ∈ [firstStatement, secondStatement] := by simp
    have parsed : paddingPackages.parseSign1 secondStatement.message =
        .ok (some secondPadding.toText) := by
      apply @tablePackages_parseSign1 _ _ paddingStatements_separate secondStatement
      exact inside
    refine checkStatementMatches_paddingRecord _ _ _ _ paddingPackages_lawful ?_ ?_ parsed ?_
    · simp [otherKey, ArtifactStore.bigEndian]
    · simp [paddingPackages, tablePackages, secondStatement]
    · exact (tablePackages_verifySignature paddingStatements_separate inside _).trans
        (decide_eq_true rfl)

/-- The statement under the other key is not one for the first record. -/
theorem firstPadding_mismatched :
    checkStatementMatches paddingPackages firstPadding paddingId secondStatement.message ≠
      .ok () := by
  have inside : secondStatement ∈ [firstStatement, secondStatement] := by simp
  have isKey : paddingPackages.isVerifyingKey signerKey = true := by
    simp [paddingPackages, tablePackages, firstStatement]
  have sized : signerKey.length = 32 := by simp [signerKey, ArtifactStore.bigEndian]
  have key : producerVerifyingKey paddingPackages firstPadding = some (.ok signerKey) := by
    simp [producerVerifyingKey, firstPadding, paddingRecord_keyId, isKey, sized]
  have unverified : paddingPackages.verifySignature secondStatement.message signerKey = false :=
    (tablePackages_verifySignature paddingStatements_separate inside _).trans
      (decide_eq_false signerKey_ne.symm)
  intro matched
  rw [checkStatementMatches, matchedPayload, key] at matched
  simp only [bind_eq_ok_iff, mapError_eq_ok_iff, verifySignedStatement, ensure_eq_ok_iff,
    unverified] at matched
  rcases matched with ⟨payload, ⟨found, -, done, refused, -⟩, -⟩
  exact absurd refused Bool.false_ne_true

def firstAppended : State := (State.fresh (fun _ => none)).written counterpartyCitationKeys
  firstPadding paddingId firstStatement.message

def secondAppended : State := firstAppended.written counterpartyCitationKeys secondPadding
  paddingId secondStatement.message

theorem step_appendPadding {state : State} {record : Value} {id : String} {statement : Bytes}
    (padding : isPadding record = true)
    (admissible : Admissible packages state.ledger record id statement) :
    step packages indexer state (.appendPadding record statement) =
      (.ok none, state.written indexer record id statement) := by
  rw [step, appendPadding_admissible indexer padding admissible]
  rfl

theorem step_append {state : State} {record : Value} {id : String} {statement : Bytes}
    (chained : isPadding record = false)
    (admissible : Admissible packages state.ledger record id statement) :
    step packages indexer state (.append record statement) =
      (.ok none, state.written indexer record id statement) := by
  rw [step, append_admissible none chained admissible]
  rfl

theorem firstPadding_appended : step paddingPackages counterpartyCitationKeys
    (.fresh (fun _ => none)) (.appendPadding firstPadding firstStatement.message) =
      (.ok none, firstAppended) :=
  step_appendPadding (isPadding_paddingRecord ..) (firstPadding_admissible _)

theorem secondPadding_appended : step paddingPackages counterpartyCitationKeys
    firstAppended (.appendPadding secondPadding secondStatement.message) =
      (.ok none, secondAppended) :=
  step_appendPadding (isPadding_paddingRecord ..) (secondPadding_admissible _)

/-- One padding record and a record that goes elsewhere reopen. -/
theorem padding_reopens :
    let state := Machine.after (step paddingPackages counterpartyCitationKeys)
      (.fresh (fun _ => none)) [.appendPadding firstPadding firstStatement.message,
        .append firstPadding firstStatement.message]
    openWithIndexer paddingPackages counterpartyCitationKeys state.disk =
        .ok ⟨state.ledger, none, state.disk⟩ ∧
      ∀ op e, (step paddingPackages counterpartyCitationKeys state op).1 = .error e →
        (step paddingPackages counterpartyCitationKeys state op).2 = state := by
  apply run_reopens paddingPackages_lawful
  refine ⟨fun _ id admissible => ⟨nesting_paddingRecord .., ?_⟩, fun chained => ?_, trivial⟩
  · exact fun line inside => absurd inside List.not_mem_nil
  · rw [firstPadding, isPadding_paddingRecord] at chained
    cases chained

theorem capsules_written (state : State) (record : Value) (id : String) (statement : Bytes) :
    (state.written indexer record id statement).disk.capsules =
      state.disk.capsules ++ lineOf record := rfl

theorem capsules_fresh (statements : String → Option Bytes) :
    (State.fresh statements).disk.capsules = [] := rfl

theorem split_secondAppended : Lines.split newline secondAppended.disk.capsules =
    ([firstPadding.toText, secondPadding.toText], []) := by
  rw [secondAppended, capsules_written, firstAppended, capsules_written, capsules_fresh,
    List.nil_append, Lines.split_append, split_lineOf, List.nil_append, split_lineOf,
    List.singleton_append]

/-- A padding record that is appended again under another key is accepted, and
the ledger does not open again. -/
theorem rekeyed_unopened :
    let ops := [.appendPadding firstPadding firstStatement.message,
      .appendPadding secondPadding secondStatement.message]
    let start := State.fresh (fun _ => none)
    Machine.answers (step paddingPackages counterpartyCitationKeys) start ops =
        [.ok none, .ok none] ∧
      ∀ opened, openWithIndexer paddingPackages counterpartyCitationKeys
        (Machine.after (step paddingPackages counterpartyCitationKeys) start ops).disk ≠
          .ok opened := by
  intro ops start
  have first := firstPadding_appended
  have second := secondPadding_appended
  refine ⟨by rw [Machine.answers, Machine.answers, Machine.answers, first, second], ?_⟩
  rw [Machine.after_cons, Machine.after_cons, Machine.after_nil, first, second]
  intro opened opens
  have decoded := paddingPackages_lawful.reads firstPadding (nesting_paddingRecord ..)
  rw [open_eq, split_secondAppended, List.map_cons, Utf8.fromUtf8Lossy_of_valid (valid_toText firstPadding),
    replayLines, isEmpty_toText, if_neg Bool.false_ne_true, Value.toText, decoded] at opens
  have admission : ∃ ledger, Ledger.admit paddingPackages counterpartyCitationKeys .empty 1 0
      firstPadding (readStatementFile secondAppended.disk.statements 1) = .ok ledger := by
    rcases map_eq_ok_iff.mp opens with ⟨final, replayed, -⟩
    rcases bind_eq_ok_iff.mp replayed with ⟨parsed, same, replayed⟩
    cases same
    rcases bind_eq_ok_iff.mp replayed with ⟨ledger, admitted, -⟩
    exact ⟨ledger, admitted⟩
  rcases admission with ⟨ledger, admitted⟩
  rcases admit_ok_iff.mp admitted with ⟨id, bytes, found, admissible, -⟩
  have named := admissible.stored
  rw [firstPadding, paddingRecord_capsuleId, Option.some.injEq] at named
  subst named
  have written : bytes = secondStatement.message := by
    simpa [readStatementFile, secondAppended, State.written, Disk.write] using found.symm
  rw [written] at admissible
  exact firstPadding_mismatched admissible.matched

end RustLedger
end CapsuleEmit
