import CapsuleEmit.RustLedger.Journal
import CapsuleEmit.RustLedger.StoreLines

namespace CapsuleEmit
namespace RustLedger

/-!
# The two layouts

While every record that passes the checks of an append is one the stores take
under a new Capsule ID, a ledger on empty stores and one on an empty file answer
every call alike, and have the same head, the same Capsule IDs in order and the
same records.  The stores refuse any other record that the file takes.
-/

open ArtifactStore (Record acceptRecord validId)

universe u v

/-! ## Capsule IDs in order -/

/-- The order of the pairs of an offset and a Capsule ID. -/
def pairLe (left right : Nat × String) : Bool :=
  left.1 < right.1 || left.1 = right.1 && left.2 ≤ right.2

/-- `Ledger::capsule_ids_in_order`: the indexed Capsule IDs by their offsets. -/
def Ledger.capsuleIdsInOrder (ledger : Ledger) : List String :=
  (((ledger.lines.map LedgerLine.capsuleId).dedup.filterMap (fun id =>
    (ledger.index id).map (fun offset => (offset, id)))).mergeSort pairLe).map Prod.snd

/-- The lines of a ledger have different Capsule IDs and ascending offsets, and
the index knows those that are no padding. -/
structure Orderly (ledger : Ledger) : Prop where
  once : (ledger.lines.map LedgerLine.capsuleId).Nodup
  ascending : ledger.lines.Pairwise (fun first second => first.offset < second.offset)
  index : ∀ id, ledger.index id =
    (ledger.lines.find? (fun line => line.capsuleId = id && !line.padding)).map LedgerLine.offset

theorem orderly_empty : Orderly .empty :=
  ⟨List.nodup_nil, List.Pairwise.nil, fun _ => rfl⟩

theorem orderly_enter {indexer : Value → List String} {ledger : Ledger} (orderly : Orderly ledger)
    {id : String} {offset : Nat} {record : Value}
    (fresh : id ∉ ledger.lines.map LedgerLine.capsuleId)
    (last : ∀ line ∈ ledger.lines, line.offset < offset) :
    Orderly (ledger.enter indexer id offset record) where
  once := by
    rw [Ledger.enter_lines, List.map_append, List.nodup_append]
    refine ⟨orderly.once, List.nodup_singleton _, ?_⟩
    intro known inside other single same
    rw [List.map_singleton, List.mem_singleton] at single
    exact fresh (by rwa [same, single] at inside)
  ascending := by
    rw [Ledger.enter_lines, List.pairwise_append]
    refine ⟨orderly.ascending, List.pairwise_singleton _ _, fun line inside other single => ?_⟩
    rw [List.mem_singleton.mp single]
    exact last line inside
  index := by
    intro other
    rw [Ledger.enter_lines, List.find?_append, Ledger.enter_index]
    by_cases same : other = id
    · subst same
      have absent : ledger.lines.find? (fun line => line.capsuleId = other && !line.padding) =
          none := by
        apply List.find?_eq_none.mpr
        intro line inside found
        rw [Bool.and_eq_true, decide_eq_true_eq] at found
        exact fresh (List.mem_map.mpr ⟨line, inside, found.1⟩)
      have unknown := orderly.index other
      rw [absent, Option.map_none] at unknown
      rw [absent, Option.none_or]
      split
      · next padding => simp [unknown, LedgerLine.new, padding]
      · next chained => simp [LedgerLine.new, chained]
    · have elsewhere : [LedgerLine.new id offset record].find? (fun line =>
          line.capsuleId = other && !line.padding) = none := by
        simp [LedgerLine.new, Ne.symm same]
      rw [elsewhere, Option.or_none, ← orderly.index other]
      split
      · rfl
      · exact Function.update_of_ne same _ _

/-- The index of an orderly ledger gives a line that is no padding its offset. -/
theorem Orderly.index_line {ledger : Ledger} (orderly : Orderly ledger) {line : LedgerLine}
    (inside : line ∈ ledger.lines) :
    ledger.index line.capsuleId = if line.padding then none else some line.offset := by
  have unique : ∀ other ∈ ledger.lines, other.capsuleId = line.capsuleId → other = line :=
    fun other known same => List.inj_on_of_nodup_map orderly.once known inside same
  rw [orderly.index]
  cases found : ledger.lines.find? (fun other =>
      other.capsuleId = line.capsuleId && !other.padding) with
  | none =>
      have none := List.find?_eq_none.mp found line inside
      cases padding : line.padding with
      | true => rfl
      | false => simp [padding] at none
  | some other =>
      have named := List.find?_some found
      rw [Bool.and_eq_true, decide_eq_true_eq, Bool.not_eq_true'] at named
      have same := unique other (List.mem_of_find?_eq_some found) named.1
      subst same
      rw [named.2]
      rfl

/-- What the index of an orderly ledger knows of a Capsule ID. -/
theorem Orderly.index_cases {ledger : Ledger} (orderly : Orderly ledger) (id : String) :
    (ledger.index id = none ∧ ∀ line ∈ ledger.lines, line.capsuleId = id → line.padding = true) ∨
      ∃ line ∈ ledger.lines, line.capsuleId = id ∧ line.padding = false ∧
        ledger.index id = some line.offset := by
  by_cases chained : ∃ line ∈ ledger.lines, line.capsuleId = id ∧ line.padding = false
  · rcases chained with ⟨line, inside, rfl, padding⟩
    refine Or.inr ⟨line, inside, rfl, padding, ?_⟩
    rw [orderly.index_line inside, padding]
    rfl
  · have padded : ∀ line ∈ ledger.lines, line.capsuleId = id → line.padding = true := by
      intro line inside named
      by_contra padding
      exact chained ⟨line, inside, named, Bool.not_eq_true _ ▸ padding⟩
    refine Or.inl ⟨?_, padded⟩
    rw [orderly.index, Option.map_eq_none_iff, List.find?_eq_none]
    intro line inside found
    rw [Bool.and_eq_true, decide_eq_true_eq, Bool.not_eq_true'] at found
    exact chained ⟨line, inside, found⟩

/-- The Capsule IDs of an orderly ledger in order are those of its chained lines. -/
theorem Orderly.capsuleIdsInOrder {ledger : Ledger} (orderly : Orderly ledger) :
    ledger.capsuleIdsInOrder =
      (ledger.lines.filter (fun line => !line.padding)).map LedgerLine.capsuleId := by
  have pairs : ∀ lines : List LedgerLine, (∀ line ∈ lines, line ∈ ledger.lines) →
      (lines.map LedgerLine.capsuleId).filterMap (fun id =>
        (ledger.index id).map (fun offset => (offset, id))) =
      (lines.filter (fun line => !line.padding)).map (fun line =>
        (line.offset, line.capsuleId)) := by
    intro lines
    induction lines with
    | nil => intro; rfl
    | cons line lines ih =>
        intro inside
        have rest := ih (fun other known => inside other (List.mem_cons_of_mem _ known))
        rw [List.map_cons, List.filterMap_cons, orderly.index_line (inside line List.mem_cons_self),
          rest]
        cases padding : line.padding with
        | true => simp [padding]
        | false => simp [padding]
  have sorted : ((ledger.lines.filter (fun line => !line.padding)).map (fun line =>
      (line.offset, line.capsuleId))).Pairwise (fun left right => pairLe left right = true) := by
    rw [List.pairwise_map]
    apply (orderly.ascending.sublist List.filter_sublist).imp
    intro first second less
    simp [pairLe, less]
  rw [Ledger.capsuleIdsInOrder, orderly.once.dedup, pairs ledger.lines (fun _ inside => inside),
    List.mergeSort_of_pairwise sorted, List.map_map]
  rfl

/-! ## Calls on both layouts -/

section

variable {packages : Packages} {indexer : Value → List String} {τ : Type u} {layout : Layout τ}
  {R : State → Book τ → Prop} {allowed : Condition}
  (alike : ∀ {state book}, R state book → book.ledger.entries = state.ledger.entries ∧
    book.ledger.chainHead = state.ledger.chainHead)
  (write : ∀ {state book record id statement}, R state book →
    Admissible packages state.ledger record id statement → allowed state record id statement →
      ∃ offset storage, layout.write book.storage id record statement = (.ok offset, storage) ∧
        R (state.written indexer record id statement)
          ⟨book.ledger.enter indexer id offset record, storage⟩)

include alike write

theorem append_related {state : State} {book : Book τ} (related : R state book) {record : Value}
    {statement : Bytes} (permits : Permits packages allowed state (.append record statement)) :
    (layout.append packages indexer book record statement).1 =
        (append packages indexer none state record statement).1 ∧
      R (append packages indexer none state record statement).2
        (layout.append packages indexer book record statement).2 := by
  rcases alike related with ⟨entries, head⟩
  rw [append_checks, Layout.append_eq, (checks_congr entries head).1]
  cases checked : appendChecks packages state.ledger record statement with
  | error e => exact ⟨rfl, related⟩
  | ok id =>
      rcases appendChecks_eq_ok_iff.mp checked with ⟨chained, admissible⟩
      rcases write related admissible (permits chained id admissible)
        with ⟨offset, storage, written, kept⟩
      simp only [Layout.commit, written]
      exact ⟨trivial, kept⟩

theorem appendPadding_related {state : State} {book : Book τ} (related : R state book)
    {record : Value} {statement : Bytes}
    (permits : Permits packages allowed state (.appendPadding record statement)) :
    (layout.appendPadding packages book record statement).1 =
        (appendPadding packages none state record statement).1 ∧
      R (appendPadding packages none state record statement).2
        (layout.appendPadding packages book record statement).2 := by
  rcases alike related with ⟨entries, head⟩
  rw [@appendPadding_checks packages indexer, Layout.appendPadding_eq _ indexer,
    (checks_congr entries head).2]
  cases checked : paddingChecks packages state.ledger record statement with
  | error e => exact ⟨rfl, related⟩
  | ok id =>
      rcases paddingChecks_eq_ok_iff.mp checked with ⟨padding, admissible⟩
      rcases write related admissible (permits padding id admissible)
        with ⟨offset, storage, written, kept⟩
      simp only [Layout.commit, written]
      exact ⟨trivial, kept⟩

omit alike in
theorem padRecords_related (lawful : packages.Lawful) (signer : Signer packages) (issuer : String)
    {nonces : List Nonce} {state : State} {book : Book τ} (related : R state book)
    (permits : PaddingPermits packages allowed signer issuer nonces state) :
    (layout.padRecords packages signer issuer nonces book).1 =
        (padRecords packages signer issuer nonces state).1 ∧
      R (padRecords packages signer issuer nonces state).2
        (layout.padRecords packages signer issuer nonces book).2 := by
  induction nonces generalizing state book with
  | nil => exact ⟨rfl, related⟩
  | cons nonce nonces ih =>
      rcases buildPadding_ok signer lawful nonce with ⟨id, computed, built⟩
      have admissible := admissible_sealedPadding signer lawful issuer state.ledger computed
      have padding : isPadding (sealedPadding signer id (Sha256.hex nonce.1)) = true :=
        isPadding_paddingRecord ..
      rcases write related admissible (permits.1 id _ built)
        with ⟨offset, storage, written, kept⟩
      have admissible' : Admissible packages book.ledger (sealedPadding signer id
          (Sha256.hex nonce.1)) id (paddingStatement packages signer issuer id
            (sealedPadding signer id (Sha256.hex nonce.1))) :=
        { admissible with linked := Or.inl padding }
      have flat := appendPadding_admissible indexer padding admissible
      have single : (padRecords packages signer issuer [nonce] state).2 =
          state.written indexer (sealedPadding signer id (Sha256.hex nonce.1)) id
            (paddingStatement packages signer issuer id
              (sealedPadding signer id (Sha256.hex nonce.1))) := by
        rw [padRecords, built]
        simp only [flat, padRecords]
      have rest := permits.2
      rw [single] at rest
      rw [Layout.padRecords, padRecords, built]
      simp only [Layout.appendPadding_written layout indexer padding admissible' written, flat]
      exact ih kept rest

/-- A call on both layouts is answered alike and keeps them related, if every
record it writes is permitted. -/
theorem step_related (lawful : packages.Lawful) {state : State} {book : Book τ}
    (related : R state book) {op : Op packages} (permits : Permits packages allowed state op) :
    (layout.step packages indexer book op).1 = (step packages indexer state op).1 ∧
      R (step packages indexer state op).2 (layout.step packages indexer book op).2 := by
  cases op with
  | append record statement =>
      rcases append_related alike write related permits with ⟨same, kept⟩
      exact ⟨congrArg (Except.map (fun _ => none)) same, kept⟩
  | appendPadding record statement =>
      rcases appendPadding_related alike write related permits with ⟨same, kept⟩
      exact ⟨congrArg (Except.map (fun _ => none)) same, kept⟩
  | padToBucket bucket signer issuer draw =>
      have paired := padRecords_related write lawful signer issuer related permits
      rw [Layout.step, step, Layout.padToBucket, padToBucket, (alike related).1]
      generalize padRecords packages signer issuer
        ((List.range (missingLines bucket state.ledger.entries)).map draw) state = flat at paired ⊢
      generalize layout.padRecords packages signer issuer
        ((List.range (missingLines bucket state.ledger.entries)).map draw) book = kept at paired ⊢
      rcases flat with ⟨answer, after⟩
      rcases kept with ⟨answer', after'⟩
      rcases paired with ⟨same, related'⟩
      dsimp only at same related'
      subst same
      cases answer' with
      | error e => exact ⟨rfl, related'⟩
      | ok done => exact ⟨congrArg (fun n => Except.ok (some n)) (alike related').1, related'⟩

end

/-! ## Twins -/

section

variable {packages : StorePackages} {trusted : List Bytes} {α : Type u} {β : Type v}
  {stores : Stores α β} {indexer : Value → List String}

/-- The record of a line that the stores take under a new Capsule ID. -/
def Storable (packages : StorePackages) (trusted : List Bytes) : Condition :=
  fun state record id statement =>
    (∃ kept, toRecord packages id record statement = .ok kept ∧
      acceptRecord packages.artifacts trusted kept = .ok kept) ∧
    id ∉ state.ledger.lines.map LedgerLine.capsuleId

/-- A line of the file and a line of the stores that were written for one record. -/
structure TwinLine (packages : StorePackages) (trusted : List Bytes) (stores : Stores α β)
    (disk : Disk) (backing : Backing α β) (line twin : LedgerLine) : Prop where
  capsuleId : twin.capsuleId = line.capsuleId
  padding : twin.padding = line.padding
  written : ∃ record statement kept, Stored disk record line ∧
    disk.statements line.capsuleId = some statement ∧
    toRecord packages line.capsuleId record statement = .ok kept ∧
    acceptRecord packages.artifacts trusted kept = .ok kept ∧
    stores.artifacts.get backing.artifacts line.capsuleId = .ok kept

theorem chained_twins {disk : Disk} {backing : Backing α β} {lines twins : List LedgerLine}
    (paired : List.Forall₂ (TwinLine packages trusted stores disk backing) lines twins) :
    (twins.filter (fun line => !line.padding)).map LedgerLine.capsuleId =
      (lines.filter (fun line => !line.padding)).map LedgerLine.capsuleId := by
  induction paired with
  | nil => rfl
  | cons first _ ih =>
      rw [List.filter_cons, List.filter_cons, first.padding]
      split
      · rw [List.map_cons, List.map_cons, first.capsuleId, ih]
      · exact ih

/-- A flat ledger and one on stores that hold the same records. -/
structure Twin (packages : StorePackages) (trusted : List Bytes) (stores : Stores α β)
    (flat : State) (book : Book (Backing α β)) : Prop where
  entries : book.ledger.entries = flat.ledger.entries
  chainHead : book.ledger.chainHead = flat.ledger.chainHead
  orderly : Orderly flat.ledger
  orderly' : Orderly book.ledger
  lines : List.Forall₂ (TwinLine packages trusted stores flat.disk book.storage)
    flat.ledger.lines book.ledger.lines
  places : ∀ line ∈ book.ledger.lines, line.offset ≤ (stores.log.values book.storage.log).length
  log : (stores.log.values book.storage.log).map Sha256.hex =
    flat.ledger.lines.map LedgerLine.capsuleId
  absent : ∀ id, validId id = true → id ∉ flat.ledger.lines.map LedgerLine.capsuleId →
    stores.artifacts.get book.storage.artifacts id = .error .notFound

theorem Stored.offset_lt {disk : Disk} {record : Value} {line : LedgerLine}
    (stored : Stored disk record line) : line.offset < disk.capsules.length := by
  rcases stored.place with ⟨front, back, whole, offset⟩
  have sized : 0 < (lineOf record).length := by simp [lineOf]
  rw [whole, List.length_append, List.length_append]
  omega

/-- Lines that were written stay so when another one is. -/
theorem TwinLine.grown {disk : Disk} {backing after : Backing α β} {line twin : LedgerLine}
    (twins : TwinLine packages trusted stores disk backing line twin) {id : String}
    (other : line.capsuleId ≠ id) (statement bytes : Bytes)
    (others : ∀ known, known ≠ id → stores.artifacts.get after.artifacts known =
      stores.artifacts.get backing.artifacts known) :
    TwinLine packages trusted stores (disk.write id statement bytes) after line twin := by
  rcases twins.written with ⟨record, said, kept, stored, found, made, accepted, got⟩
  refine ⟨twins.capsuleId, twins.padding, record, said, kept,
    stored.grown (disk.grown_write id statement bytes), ?_, made, accepted, ?_⟩
  · exact (Function.update_of_ne other _ _).trans found
  · rw [others _ other, got]

theorem twin_fresh {backing : Backing α β} (statements : String → Option Bytes)
    (artifacts : ∀ id, validId id = true →
      stores.artifacts.get backing.artifacts id = .error .notFound)
    (log : stores.log.values backing.log = []) :
    Twin packages trusted stores (.fresh statements) ⟨.empty, backing⟩ where
  entries := rfl
  chainHead := rfl
  orderly := orderly_empty
  orderly' := orderly_empty
  lines := List.Forall₂.nil
  places := fun _ inside => nomatch inside
  log := by rw [log]; rfl
  absent := fun id valid _ => artifacts id valid

/-- A record that is written to both layouts keeps them twins. -/
theorem Twin.written (lawful : packages.Lawful)
    (store : stores.artifacts.Lawful packages.artifacts trusted) (log : stores.log.Lawful)
    {flat : State} {book : Book (Backing α β)} (twin : Twin packages trusted stores flat book)
    {record : Value} {id : String} {statement : Bytes}
    (admissible : Admissible packages.ledger flat.ledger record id statement)
    (storable : Storable packages trusted flat record id statement) :
    ∃ offset storage,
      (storesLayout packages stores).write book.storage id record statement =
        (.ok offset, storage) ∧
      Twin packages trusted stores (flat.written indexer record id statement)
        ⟨book.ledger.enter indexer id offset record, storage⟩ := by
  rcases storable with ⟨⟨kept, made, accepted⟩, fresh⟩
  rcases isDigest_of_computeCapsuleId lawful.ledger admissible.computed with ⟨digest, size, rfl⟩
  have valid : validId (Sha256.hex digest) = true := isNonce_hex ⟨digest, size⟩
  have unlogged : digest ∉ stores.log.values book.storage.log := by
    intro inside
    apply fresh
    rw [← twin.log]
    exact List.mem_map_of_mem inside
  rcases write_fresh store log made accepted (twin.absent _ valid fresh) (hexDecode_hex digest)
    unlogged with ⟨after, written, got, others, values⟩
  have known : ∀ line ∈ flat.ledger.lines, line.capsuleId ≠ Sha256.hex digest := by
    intro line inside same
    exact fresh (List.mem_map.mpr ⟨line, inside, same⟩)
  have ids : book.ledger.lines.map LedgerLine.capsuleId =
      flat.ledger.lines.map LedgerLine.capsuleId :=
    (map_eq_of_forall₂ (fun _ _ twins => twins.capsuleId.symm) twin.lines).symm
  refine ⟨_, after, (storesLayout_write ..).trans written, ?_⟩
  constructor
  · simp only [State.written, Ledger.enter_entries, twin.entries]
  · simp only [State.written, Ledger.enter_chainHead, twin.chainHead]
  · apply orderly_enter twin.orderly fresh
    intro line inside
    rcases exists_of_forall₂ twin.lines.flip inside with ⟨other, -, twins⟩
    rcases twins.written with ⟨_, _, _, stored, -⟩
    exact stored.offset_lt
  · apply orderly_enter twin.orderly' (ids ▸ fresh)
    intro line inside
    exact Nat.lt_succ_of_le (twin.places line inside)
  · simp only [State.written, Ledger.enter_lines]
    apply List.rel_append
    · exact forall₂_imp_of_mem_left twin.lines
        (fun line _ inside twins => twins.grown (known line inside) _ _ others)
    · refine List.Forall₂.cons ⟨rfl, rfl, record, statement, kept, ?_, ?_, made, accepted, got⟩
        List.Forall₂.nil
      · refine ⟨admissible.stored, rfl, nesting_line_of_accepted lawful made accepted,
          ⟨flat.disk.capsules, [], ?_, rfl⟩, ?_⟩
        · simp [Disk.write]
        · simp [Disk.write, LedgerLine.new]
      · simp [Disk.write, LedgerLine.new]
  · intro line inside
    rw [Ledger.enter_lines, List.mem_append, List.mem_singleton] at inside
    rw [values, List.length_append, List.length_singleton]
    rcases inside with inside | rfl
    · exact (twin.places line inside).trans (Nat.le_succ _)
    · exact Nat.le_refl _
  · rw [values, List.map_append, twin.log, State.written, Ledger.enter_lines, List.map_append]
    rfl
  · intro other valid' absent
    rw [State.written, Ledger.enter_lines, List.map_append, List.mem_append, not_or,
      List.map_singleton, List.mem_singleton] at absent
    exact (others other absent.2).trans (twin.absent other valid' absent.1)

/-- The same answer to a lookup: nothing, or a record with the same members and statement. -/
def SameLookup (flat kept : Except LedgerError (Option LedgerEntry)) : Prop :=
  (flat = .ok none ∧ kept = .ok none) ∨ ∃ entry twin, flat = .ok (some entry) ∧
    kept = .ok (some twin) ∧ SameMembers twin.capsule entry.capsule ∧
    twin.signedStatement = entry.signedStatement

theorem Twin.lookup (lawful : packages.Lawful) {flat : State} {book : Book (Backing α β)}
    (twin : Twin packages trusted stores flat book) (id : String) :
    SameLookup (lookup packages.ledger flat.ledger flat.disk id)
      ((storesLayout packages stores).lookup book id) := by
  rcases twin.orderly.index_cases id with ⟨unknown, padded⟩ | ⟨line, inside, named, chained, found⟩
  · rcases twin.orderly'.index_cases id with ⟨unknown', -⟩ | ⟨line', inside', named', chained', -⟩
    · refine Or.inl ⟨?_, ?_⟩
      · rw [RustLedger.lookup, unknown]
      · rw [Layout.lookup, unknown']
    · rcases exists_of_forall₂ twin.lines inside' with ⟨line, inside, twins⟩
      have padding := padded line inside (twins.capsuleId.symm.trans named')
      rw [← twins.padding, chained'] at padding
      cases padding
  · subst named
    rcases exists_of_forall₂ twin.lines.flip inside with ⟨line', inside', twins⟩
    have found' := twin.orderly'.index_line inside'
    rw [twins.capsuleId, twins.padding, chained, if_neg Bool.false_ne_true] at found'
    rcases twins.written with ⟨record, statement, kept, stored, said, made, accepted, got⟩
    rcases readRecord_toRecord lawful made accepted line'.offset with ⟨read, same, members⟩
    refine Or.inr ⟨⟨record, statement⟩, ⟨read, statement⟩, ?_, ?_, members, rfl⟩
    · simp only [RustLedger.lookup, found, stored.readLine lawful.ledger, readStatement, said,
        ok_bind, Option.elim_some, pure_eq_ok]
    · simp only [Layout.lookup, found', storesLayout, Stores.read, got, same, ok_bind,
        Option.elim_some, pure_eq_ok, Except.map]

/-- The refusals only the stores have. -/
def OwnRefusal : LedgerError → Prop
  | .envelope _ _ => True
  | .store _ => True
  | .alreadyInLog _ => True
  | _ => False

/-- The stores refuse any other record that passes the checks. -/
theorem Twin.refused
    (store : stores.artifacts.Lawful packages.artifacts trusted) (log : stores.log.Lawful)
    {flat : State} {book : Book (Backing α β)} (twin : Twin packages trusted stores flat book)
    {record : Value} {id : String} {statement : Bytes}
    (admissible : Admissible packages.ledger flat.ledger record id statement)
    (unstorable : ¬ Storable packages trusted flat record id statement) :
    ∃ e storage, OwnRefusal e ∧
      (storesLayout packages stores).write book.storage id record statement =
        (.error e, storage) := by
  simp only [storesLayout_write]
  cases made : toRecord packages id record statement with
  | error e =>
      rcases toRecord_error made with ⟨detail, rfl⟩
      exact ⟨.envelope id detail, book.storage, trivial, by simp only [Stores.write, made]⟩
  | ok kept =>
      cases put : stores.artifacts.put book.storage.artifacts kept with
      | mk answer artifacts =>
          cases answer with
          | error e =>
              exact ⟨.store (errorText e), _, trivial, by simp only [Stores.write, made, put]; rfl⟩
          | ok done =>
              have accepted : acceptRecord packages.artifacts trusted kept = .ok kept := by
                cases accepted : acceptRecord packages.artifacts trusted kept with
                | error e =>
                    rw [store.refused accepted] at put
                    cases put
                | ok prepared => rw [prepared_toRecord made accepted]
              have known : id ∈ flat.ledger.lines.map LedgerLine.capsuleId := by
                by_contra fresh
                exact unstorable ⟨⟨kept, made, accepted⟩, fresh⟩
              rw [← twin.log] at known
              rcases List.mem_map.mp known with ⟨value, logged, rfl⟩
              rcases log.append_known logged with ⟨seq, appended⟩
              refine ⟨.alreadyInLog (Sha256.hex value), ⟨artifacts, book.storage.log⟩, trivial, ?_⟩
              simp only [Stores.write, made, put, hexDecode_hex, appended]

/-! ## Runs -/

/-- The append of a record of either kind. -/
def appendOf (record : Value) (statement : Bytes) : Op packages.ledger :=
  if isPadding record then .appendPadding record statement else .append record statement

/-- The checks of an append of either kind. -/
theorem appendOf_refused
    (store : stores.artifacts.Lawful packages.artifacts trusted) (log : stores.log.Lawful)
    {flat : State} {book : Book (Backing α β)} (twin : Twin packages trusted stores flat book)
    {record : Value} {id : String} {statement : Bytes}
    (admissible : Admissible packages.ledger flat.ledger record id statement)
    (unstorable : ¬ Storable packages trusted flat record id statement) :
    (step packages.ledger indexer flat (appendOf record statement)).1 = .ok none ∧
      ∃ e storage, OwnRefusal e ∧
        (storesLayout packages stores).step packages.ledger indexer book
          (appendOf record statement) = (.error e, ⟨book.ledger, storage⟩) := by
  rcases twin.refused store log admissible unstorable with ⟨e, storage, own, refused⟩
  have admissible' := admissible.of_head twin.chainHead
  unfold appendOf
  split
  · next padding =>
      exact ⟨by rw [step_appendPadding padding admissible], e, storage, own,
        Layout.step_appendPadding_refused _ indexer padding admissible' refused⟩
  · next chained =>
      rw [Bool.not_eq_true] at chained
      exact ⟨by rw [step_append chained admissible], e, storage, own,
        Layout.step_append_refused _ indexer chained admissible' refused⟩

theorem twins_run (lawful : packages.Lawful)
    (store : stores.artifacts.Lawful packages.artifacts trusted) (log : stores.log.Lawful)
    {flat : State} {book : Book (Backing α β)} (twin : Twin packages trusted stores flat book)
    {ops : List (Op packages.ledger)}
    (guarded : Machine.Guarded (step packages.ledger indexer)
      (Permits packages.ledger (Storable packages trusted)) flat ops) :
    Machine.answers ((storesLayout packages stores).step packages.ledger indexer) book ops =
        Machine.answers (step packages.ledger indexer) flat ops ∧
      Twin packages trusted stores (Machine.after (step packages.ledger indexer) flat ops)
        (Machine.after ((storesLayout packages stores).step packages.ledger indexer) book ops) := by
  induction ops generalizing flat book with
  | nil => exact ⟨rfl, twin⟩
  | cons op ops ih =>
      have related := @step_related packages.ledger indexer _ (storesLayout packages stores)
        (Twin packages trusted stores) (Storable packages trusted)
        (fun twin => ⟨twin.entries, twin.chainHead⟩)
        (fun twin admissible storable => twin.written lawful store log admissible storable)
        lawful.ledger _ _ twin _ guarded.1
      rcases ih related.2 guarded.2 with ⟨answers, twins⟩
      exact ⟨by rw [Machine.answers, Machine.answers, related.1, answers], twins⟩

theorem openStores_empty (log : stores.log.Lawful) {backing : Backing α β}
    (empty : stores.log.values backing.log = []) :
    stores.openStores packages indexer backing = .ok .empty := by
  have page := @log.scan backing.log 0 stores.log.maxScanLimit (Nat.zero_le _) log.limit_pos
    (Nat.le_refl _)
  rw [empty, List.zipIdx_nil, List.map_nil, List.drop_nil, List.take_nil] at page
  rw [Stores.openStores, empty, Stores.replayPages, page]
  rfl

/-- The ledger of an empty file and that of empty stores answer a run alike, and
have the same head, the same Capsule IDs in order and the same records, if every
record that passes the checks in the run is one the stores take under a new
Capsule ID.  Any other record that passes them then is taken by the file and
refused by the stores. -/
theorem layouts_agree (lawful : packages.Lawful)
    (store : stores.artifacts.Lawful packages.artifacts trusted) (log : stores.log.Lawful)
    (statements : String → Option Bytes) {backing : Backing α β}
    (noRecords : ∀ id, validId id = true →
      stores.artifacts.get backing.artifacts id = .error .notFound)
    (noEntries : stores.log.values backing.log = []) {ops : List (Op packages.ledger)}
    (guarded : Machine.Guarded (step packages.ledger indexer)
      (Permits packages.ledger (Storable packages trusted)) (.fresh statements) ops) :
    openWithIndexer packages.ledger indexer ⟨[], statements⟩ =
        .ok ⟨.empty, none, ⟨[], statements⟩⟩ ∧
      stores.openStores packages indexer backing = .ok .empty ∧
      let storeStep := (storesLayout packages stores).step packages.ledger indexer
      let flat := Machine.after (step packages.ledger indexer) (.fresh statements) ops
      let book := Machine.after storeStep ⟨.empty, backing⟩ ops
      Machine.answers storeStep ⟨.empty, backing⟩ ops =
          Machine.answers (step packages.ledger indexer) (.fresh statements) ops ∧
        book.ledger.chainHead = flat.ledger.chainHead ∧
        book.ledger.capsuleIdsInOrder = flat.ledger.capsuleIdsInOrder ∧
        (∀ id, SameLookup (lookup packages.ledger flat.ledger flat.disk id)
          ((storesLayout packages stores).lookup book id)) ∧
        ∀ record id statement, Admissible packages.ledger flat.ledger record id statement →
          ¬ Storable packages trusted flat record id statement →
            (step packages.ledger indexer flat (appendOf record statement)).1 = .ok none ∧
              ∃ e storage, OwnRefusal e ∧
                storeStep book (appendOf record statement) = (.error e, ⟨book.ledger, storage⟩) := by
  have initial : Twin packages trusted stores (.fresh statements) ⟨.empty, backing⟩ :=
    twin_fresh statements noRecords noEntries
  refine ⟨(sound_fresh statements).opens, openStores_empty log noEntries, ?_⟩
  intro storeStep flat book
  rcases twins_run lawful store log initial guarded with ⟨answers, twin⟩
  refine ⟨answers, twin.chainHead, ?_, twin.lookup lawful, ?_⟩
  · rw [twin.orderly.capsuleIdsInOrder, twin.orderly'.capsuleIdsInOrder, chained_twins twin.lines]
  · intro record id statement admissible unstorable
    exact appendOf_refused store log twin admissible unstorable

end

/-- One padding record of a trusted signer. -/
def paddingOps : List (Op paddingStorePackages.ledger) :=
  [.appendPadding firstPadding firstStatement.message]

theorem paddingOps_guarded : Machine.Guarded
    (step paddingStorePackages.ledger counterpartyCitationKeys)
    (Permits paddingStorePackages.ledger (Storable paddingStorePackages [signerKey]))
    (.fresh (fun _ => none)) paddingOps := by
  refine ⟨fun _ id admissible => ⟨⟨firstRecord, ?_, firstRecord_accepted⟩, List.not_mem_nil⟩,
    trivial⟩
  have stored := admissible.stored
  have named : firstPadding.capsuleId = some paddingId := paddingRecord_capsuleId ..
  rw [named, Option.some.injEq] at stored
  rw [← stored]
  exact firstPadding_made

/-- A padding record of a trusted signer on both layouts. -/
theorem padding_layouts_agree :
    let storeStep := (storesLayout paddingStorePackages paddingStores).step
      paddingStorePackages.ledger counterpartyCitationKeys
    let flat := Machine.after (step paddingStorePackages.ledger counterpartyCitationKeys)
      (.fresh (fun _ => none)) paddingOps
    let book := Machine.after storeStep ⟨.empty, emptyBook.storage⟩ paddingOps
    Machine.answers storeStep ⟨.empty, emptyBook.storage⟩ paddingOps = [.ok none] ∧
      book.ledger.capsuleIdsInOrder = flat.ledger.capsuleIdsInOrder ∧
      ∀ id, SameLookup (lookup paddingStorePackages.ledger flat.ledger flat.disk id)
        ((storesLayout paddingStorePackages paddingStores).lookup book id) := by
  have noRecords : ∀ id, validId id = true →
      paddingStores.artifacts.get emptyBook.storage.artifacts id = .error .notFound :=
    fun id valid => get_absent valid rfl
  have noEntries : paddingStores.log.values emptyBook.storage.log = [] := rfl
  have agree := layouts_agree paddingStorePackages_lawful memoryRecords_lawful
    StoreLedger.listLog_lawful (fun _ => none) noRecords noEntries paddingOps_guarded
  rcases agree.2.2 with ⟨answers, -, ids, lookups, -⟩
  have first : (step paddingStorePackages.ledger counterpartyCitationKeys (.fresh (fun _ => none))
      (.appendPadding firstPadding firstStatement.message)).1 = .ok none :=
    congrArg Prod.fst firstPadding_appended
  have single := Machine.answers_singleton (step paddingStorePackages.ledger
    counterpartyCitationKeys) (.fresh (fun _ => none))
    (.appendPadding firstPadding firstStatement.message)
  rw [first] at single
  exact ⟨answers.trans single, ids, lookups⟩

/-! ## A record without an envelope -/

/-- The packages that know the record with a note, which has no envelope. -/
def noteStorePackages : StorePackages := storePackages notePackages (fun _ => ⟨false, none, []⟩) []

def noteStores : Stores (MemoryRecords noteStorePackages.artifacts [signerKey]) (List Bytes) :=
  memoryStores noteStorePackages.artifacts [signerKey]

/-- A record without an envelope is taken by the file and refused by the stores. -/
theorem unsigned_layouts_differ :
    let flatStep := step noteStorePackages.ledger counterpartyCitationKeys
    let storeStep := (storesLayout noteStorePackages noteStores).step noteStorePackages.ledger
      counterpartyCitationKeys
    let book : Book (Backing (MemoryRecords noteStorePackages.artifacts [signerKey])
      (List Bytes)) := ⟨.empty, .empty _ _, []⟩
    let ops := [Op.append replacedRecord noteStatement.message]
    Machine.answers flatStep (.fresh (fun _ => none)) ops = [.ok none] ∧
      Machine.answers storeStep book ops = [.error (.envelope (Sha256.hex noteDigest)
        "a store-backed ledger needs the line's producer envelope (signature and key_id)")] := by
  intro flatStep storeStep book ops
  have chained : isPadding replacedRecord = false := noteRecord_chained ..
  have admissible : Admissible noteStorePackages.ledger .empty replacedRecord
      (Sha256.hex noteDigest) noteStatement.message := noteRecord_admissible _ _ rfl
  have unsigned : replacedRecord.str? "signature" = none := by
    rw [Value.str?, replacedRecord, noteRecord_absent _ _ (by decide) (by decide)]
    rfl
  have made : toRecord noteStorePackages (Sha256.hex noteDigest) replacedRecord
      noteStatement.message = .error (.envelope (Sha256.hex noteDigest)
        "a store-backed ledger needs the line's producer envelope (signature and key_id)") := by
    rw [toRecord, envelopeMembers, unsigned]
    rfl
  constructor
  · have appended := @step_append noteStorePackages.ledger counterpartyCitationKeys
      (.fresh (fun _ => none)) _ _ _ chained admissible
    exact congrArg (fun result => [result.1]) appended
  · have refused : (storesLayout noteStorePackages noteStores).write book.storage
        (Sha256.hex noteDigest) replacedRecord noteStatement.message =
        (.error (.envelope (Sha256.hex noteDigest)
          "a store-backed ledger needs the line's producer envelope (signature and key_id)"),
          book.storage) := by
      simp only [storesLayout_write, Stores.write, made]
    have call := Layout.step_append_refused (storesLayout noteStorePackages noteStores)
      counterpartyCitationKeys chained admissible refused
    exact congrArg (fun result => [result.1]) call

end RustLedger
end CapsuleEmit
