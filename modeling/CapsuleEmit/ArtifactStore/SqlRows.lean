import CapsuleEmit.ArtifactStore.Paging
import CapsuleEmit.ArtifactStore.Sql

namespace CapsuleEmit
namespace ArtifactStore
namespace Sql

/-!
# What an operation does to the rows of a namespace

The tables of a file belong to all its namespaces.  An operation of another
namespace leaves the rows of this one as they are, and gives sequence numbers
of its own, so the numbers of this namespace ascend with gaps.  The inserts of
a put succeed when the record is verified, its id is new and its values have
distinct keys, and add exactly the rows of the record.
-/

variable {packages : Packages} {trusted : List Bytes} {ns : String} {db db' : Database}

/-! ## The rows of other namespaces -/

/-- What the keys of the index tables and the counter guarantee. -/
structure WellFormed (db : Database) : Prop where
  distinct : (db.indexRecords.map IndexedRow.seq).Nodup
  given : ∀ row ∈ db.indexRecords, 1 ≤ row.seq ∧ row.seq ≤ db.sequence
  entries : db.index.Nodup

/-- The rows of a namespace are the same, and the file is still well formed. -/
structure SameRows (ns : String) (db db' : Database) : Prop where
  tables : db.indexTables = true → db'.indexTables = true
  paths : db'.indexPaths.find? (fun row => row.ns = ns) = db.indexPaths.find? (fun row => row.ns = ns)
  capsules : db'.capsules.filter (fun row => row.ns = ns) =
    db.capsules.filter (fun row => row.ns = ns)
  artifacts : db'.artifacts.filter (fun row => row.ns = ns) =
    db.artifacts.filter (fun row => row.ns = ns)
  records : db'.indexRecords.filter (fun row => row.ns = ns) =
    db.indexRecords.filter (fun row => row.ns = ns)
  index : ∀ row : EntryRow, row.ns = ns → (row ∈ db'.index ↔ row ∈ db.index)
  sequence : db.sequence ≤ db'.sequence
  wellFormed : WellFormed db → WellFormed db'

theorem SameRows.refl (ns : String) (db : Database) : SameRows ns db db :=
  ⟨id, rfl, rfl, rfl, rfl, fun _ _ => Iff.rfl, Nat.le_refl _, id⟩

theorem SameRows.trans {db'' : Database} (first : SameRows ns db db') (second : SameRows ns db' db'') :
    SameRows ns db db'' where
  tables := second.tables ∘ first.tables
  paths := second.paths.trans first.paths
  capsules := second.capsules.trans first.capsules
  artifacts := second.artifacts.trans first.artifacts
  records := second.records.trans first.records
  index := fun row own => (second.index row own).trans (first.index row own)
  sequence := Nat.le_trans first.sequence second.sequence
  wellFormed := second.wellFormed ∘ first.wellFormed

/-- A loop keeps what each of its steps keeps. -/
theorem foldlM_rel {α σ : Type} {R : σ → σ → Prop} (refl : ∀ s, R s s)
    (trans : ∀ {a b c}, R a b → R b c → R a c) {f : σ → α → Result σ}
    (step : ∀ s a s', f s a = .ok s' → R s s') {items : List α} {s s' : σ}
    (ok : items.foldlM f s = .ok s') : R s s' := by
  induction items generalizing s with
  | nil =>
      rw [List.foldlM_nil] at ok
      cases ok
      exact refl _
  | cons a items ih =>
      rw [List.foldlM_cons] at ok
      obtain ⟨next, first, rest⟩ := bind_eq_ok_iff.mp ok
      exact trans (step s a next first) (ih rest)

theorem filter_concat_other {ρ : Type} {own : ρ → Bool} {row : ρ} (other : own row = false)
    (rows : List ρ) : (rows ++ [row]).filter own = rows.filter own := by
  rw [List.filter_append, List.filter_singleton, other]
  simp

section Other

variable {other : String}

theorem insertEntry_sameRows (different : other ≠ ns) {seq : Nat} {entry : String × String}
    (ok : insertEntry packages other seq db entry = .ok db') : SameRows ns db db' := by
  unfold insertEntry at ok
  split at ok
  · next index inserted =>
      cases ok
      obtain ⟨free, rfl⟩ := Tables.insert_eq_some_iff.mp inserted
      refine { SameRows.refl ns db with index := fun row own => ?_, wellFormed := fun wf => ?_ }
      · have absent : row ≠ ⟨other, entry.1, valueKey packages entry.2, seq⟩ := by
          rintro rfl
          exact different own
        simp [absent]
      · refine { wf with entries := List.nodup_append.mpr ⟨wf.entries, List.nodup_singleton _, ?_⟩ }
        intro row inside new single
        rw [List.mem_singleton.mp single]
        exact free row inside
  · cases ok

theorem add_sameRows (different : other ≠ ns) {paths : List String} {id : String} {capsule : Bytes}
    (ok : add packages other paths db id capsule = .ok db') : SameRows ns db db' := by
  obtain ⟨extracted, _, ok⟩ := bind_eq_ok_iff.mp ok
  simp only at ok
  split at ok
  · cases ok
    exact .refl ns db
  · next records inserted =>
      obtain ⟨_, rfl⟩ := Tables.insert_eq_some_iff.mp inserted
      have entered : SameRows ns db { db with
          indexRecords := db.indexRecords ++ [⟨db.sequence + 1, other, id, extracted.ts⟩]
          sequence := db.sequence + 1 } := by
        refine { SameRows.refl ns db with
          records := filter_concat_other (by simp [different]) _
          sequence := Nat.le_succ _
          wellFormed := fun wf => ⟨?_, ?_, wf.entries⟩ }
        · rw [List.map_append, List.nodup_append]
          refine ⟨wf.distinct, List.nodup_singleton _, fun a inside b new => ?_⟩
          obtain ⟨row, member, rfl⟩ := List.mem_map.mp inside
          have bound := (wf.given row member).2
          rw [List.map_singleton, List.mem_singleton] at new
          simp only at new
          omega
        · intro row member
          rcases List.mem_append.mp member with member | single
          · have bounds := wf.given row member
            exact ⟨bounds.1, Nat.le_succ_of_le bounds.2⟩
          · rw [List.mem_singleton.mp single]
            exact ⟨Nat.succ_le_succ (Nat.zero_le _), Nat.le_refl _⟩
      exact entered.trans (foldlM_rel (SameRows.refl ns) SameRows.trans
        (fun _ _ _ => insertEntry_sameRows different) ok)

theorem backfill_sameRows (different : other ≠ ns) {paths : List String}
    (ok : backfill packages other paths db = .ok db') : SameRows ns db db' := by
  refine foldlM_rel (SameRows.refl ns) SameRows.trans (fun s row s' step => ?_) ok
  split at step
  · next added =>
      cases step
      exact add_sameRows different added
  · cases step
    exact .refl ns s
  · cases step

theorem declare_sameRows (different : other ≠ ns) {paths : List String}
    (ok : declare packages other paths db = .ok db') : SameRows ns db db' := by
  obtain ⟨normalized, _, ok⟩ := bind_eq_ok_iff.mp ok
  obtain ⟨current, _, ok⟩ := bind_eq_ok_iff.mp ok
  cases current with
  | some current =>
      simp only at ok
      split at ok
      · cases ok
        exact .refl ns db
      · cases ok
  | none =>
      simp only at ok
      split at ok
      · cases ok
      · next rows inserted =>
          obtain ⟨_, rfl⟩ := Tables.insert_eq_some_iff.mp inserted
          have entered : SameRows ns db { db with
              indexPaths := db.indexPaths ++ [⟨other, encodePaths normalized⟩] } := by
            refine { SameRows.refl ns db with paths := ?_, wellFormed := fun wf => ⟨wf.distinct, wf.given, wf.entries⟩ }
            rw [List.find?_append]
            simp [different]
          exact entered.trans (backfill_sameRows different ok)

theorem insertArtifact_sameRows (different : other ≠ ns) {id : String} {a : Artifact}
    (ok : insertArtifact other id db a = .ok db') : SameRows ns db db' := by
  obtain ⟨_, _, ok⟩ := bind_eq_ok_iff.mp ok
  split at ok
  · cases ok
  · next rows inserted =>
      obtain ⟨_, _, ok⟩ := bind_eq_ok_iff.mp ok
      cases ok
      obtain ⟨_, rfl⟩ := Tables.insert_eq_some_iff.mp inserted
      exact { SameRows.refl ns db with
        artifacts := filter_concat_other (by simp [different]) _, wellFormed := fun wf => ⟨wf.distinct, wf.given, wf.entries⟩ }

theorem putOn_sameRows (different : other ≠ ns) {now : String} {record : Record}
    (ok : putOn packages trusted other now record db = .ok db') : SameRows ns db db' := by
  obtain ⟨prepared, _, ok⟩ := bind_eq_ok_iff.mp ok
  simp only at ok
  split at ok
  · obtain ⟨_, _, ok⟩ := bind_eq_ok_iff.mp ok
    obtain ⟨_, _, ok⟩ := bind_eq_ok_iff.mp ok
    obtain ⟨_, _, ok⟩ := bind_eq_ok_iff.mp ok
    cases ok
    exact .refl ns db
  · next rows inserted =>
      obtain ⟨_, rfl⟩ := Tables.insert_eq_some_iff.mp inserted
      obtain ⟨next, artifacts, ok⟩ := bind_eq_ok_iff.mp ok
      have entered : SameRows ns db { db with capsules := db.capsules ++ [⟨other, prepared.capsuleId,
          prepared.capsule, prepared.producerEnvelope, storageChecksum packages prepared, now⟩] } :=
        { SameRows.refl ns db with
          capsules := filter_concat_other (by simp [different]) _, wellFormed := fun wf => ⟨wf.distinct, wf.given, wf.entries⟩ }
      refine (entered.trans (foldlM_rel (SameRows.refl ns) SameRows.trans
        (fun _ _ _ => insertArtifact_sameRows different) artifacts)).trans ?_
      obtain ⟨current, _, ok⟩ := bind_eq_ok_iff.mp ok
      cases current with
      | none =>
          cases ok
          exact .refl ns _
      | some paths => exact add_sameRows different ok

theorem purgeOn_sameRows (different : other ≠ ns) {now id : String}
    (ok : purgeOn other now id db = .ok db') : SameRows ns db db' := by
  obtain ⟨_, _, ok⟩ := bind_eq_ok_iff.mp ok
  obtain ⟨_, _, ok⟩ := bind_eq_ok_iff.mp ok
  cases ok
  refine { SameRows.refl ns db with artifacts := ?_, wellFormed := fun wf => ⟨wf.distinct, wf.given, wf.entries⟩ }
  simp only
  induction db.artifacts with
  | nil => rfl
  | cons row rows ih =>
      rw [List.map_cons, List.filter_cons, List.filter_cons, ih]
      by_cases own : row.ns = ns
      · have skipped : (row.ns = other && row.capsuleId = id && row.retentionState = "present") =
            false := by
          simp [own, different.symm]
        simp only [skipped, Bool.false_eq_true, if_false]
      · have purgedOwn : (if (row.ns = other && row.capsuleId = id &&
            row.retentionState = "present") = true then purgeRow now row else row).ns = row.ns := by
          split <;> rfl
        rw [if_neg (by rw [purgedOwn, decide_eq_true_eq]; exact own),
          if_neg (by rw [decide_eq_true_eq]; exact own)]

theorem withTx_sameRows {α : Type} {run : Database → Result (α × Database)}
    (step : ∀ value db', run db = .ok (value, db') → SameRows ns db db') :
    SameRows ns db (withTx db run).2 := by
  unfold withTx
  split
  · next value db' ok => exact step value db' ok
  · exact .refl ns db

theorem put_sameRows (different : other ≠ ns) (now : String) (record : Record) (db : Database) :
    SameRows ns db (put packages trusted other now record db).2 := by
  refine withTx_sameRows (fun value db' ok => ?_)
  cases made : putOn packages trusted other now record db with
  | error e => simp [made, Except.map] at ok
  | ok next =>
      rw [made] at ok
      cases ok
      exact putOn_sameRows different made

theorem purge_sameRows (different : other ≠ ns) (now id : String) (db : Database) :
    SameRows ns db (purge other now id db).2 := by
  unfold purge
  split
  · refine withTx_sameRows (fun value db' ok => ?_)
    cases made : purgeOn other now id db with
    | error e => simp [made, Except.map] at ok
    | ok next =>
        rw [made] at ok
        cases ok
        exact purgeOn_sameRows different made
  · exact .refl ns db

theorem initIndex_sameRows (different : other ≠ ns) (paths : List String) (db : Database) :
    SameRows ns db (initIndex packages other paths db).2 := by
  unfold initIndex
  split
  · exact .refl ns db
  · have provisioned : SameRows ns db { db with indexTables := true } :=
      { SameRows.refl ns db with tables := fun _ => rfl, wellFormed := fun wf => ⟨wf.distinct, wf.given, wf.entries⟩ }
    refine provisioned.trans (withTx_sameRows (fun value db' ok => ?_))
    cases made : declare packages other paths { db with indexTables := true } with
    | error e => simp [made, Except.map] at ok
    | ok next =>
        rw [made] at ok
        cases ok
        exact declare_sameRows different made

end Other

/-! ## The rows a put adds -/

/-- The row of an original that a put adds. -/
def rowOf (ns id : String) (a : Artifact) : ArtifactRow :=
  ⟨ns, id, a.name, a.binding, a.content, a.contentSha256, a.state.asStr, none⟩

/-- The originals of a record whose rows are not there yet are inserted. -/
theorem insertArtifacts_eq {id : String} {artifacts : List Artifact}
    (checks : ∀ a ∈ artifacts, (rowOf ns id a).check = true)
    (names : (artifacts.map Artifact.name).Nodup)
    (fresh : ∀ row ∈ db.artifacts, ∀ a ∈ artifacts, row.ns = ns → row.capsuleId = id →
      row.name ≠ a.name)
    (parent : db.capsules.any (fun row => row.ns = ns && row.capsuleId = id) = true) :
    artifacts.foldlM (insertArtifact ns id) db =
      .ok { db with artifacts := db.artifacts ++ artifacts.map (rowOf ns id) } := by
  induction artifacts generalizing db with
  | nil =>
      rw [List.foldlM_nil, List.map_nil, List.append_nil]
      rfl
  | cons a artifacts ih =>
      obtain ⟨absent, names⟩ := List.nodup_cons.mp names
      have free : ∀ other ∈ db.artifacts, (other.ns, other.capsuleId, other.name) ≠
          ((rowOf ns id a).ns, (rowOf ns id a).capsuleId, (rowOf ns id a).name) := by
        intro row member same
        obtain ⟨sameNs, sameRest⟩ := Prod.mk.inj same
        obtain ⟨sameId, sameName⟩ := Prod.mk.inj sameRest
        exact fresh row member a List.mem_cons_self sameNs sameId sameName
      have inserted : insertArtifact ns id db a =
          .ok { db with artifacts := db.artifacts ++ [rowOf ns id a] } := by
        have check : (rowOf ns id a).check = true := checks a List.mem_cons_self
        rw [rowOf] at check free
        simp only [insertArtifact, check, ensure_true, ok_bind, Tables.insert_of_fresh free, parent]
        rfl
      rw [List.foldlM_cons, inserted, ok_bind, @ih { db with artifacts := db.artifacts ++ [rowOf ns id a] }
        (fun b member => checks b (List.mem_cons_of_mem _ member)) names ?_ parent]
      · simp only [List.map_cons, List.append_assoc, List.singleton_append]
      · intro row member b inArtifacts own sameId
        rcases List.mem_append.mp member with member | single
        · exact fresh row member b (List.mem_cons_of_mem _ inArtifacts) own sameId
        · rw [List.mem_singleton.mp single]
          intro same
          have named : a.name = b.name := same
          rw [named] at absent
          exact absent (List.mem_map_of_mem inArtifacts)

/-- The values of a record under a new number are inserted. -/
theorem insertEntries_eq {seq : Nat} {entries : List (String × String)}
    (keys : (entries.map (fun entry => (entry.1, valueKey packages entry.2))).Nodup)
    (fresh : ∀ row ∈ db.index, ∀ entry ∈ entries,
      (⟨ns, entry.1, valueKey packages entry.2, seq⟩ : EntryRow) ≠ row) :
    entries.foldlM (insertEntry packages ns seq) db =
      .ok { db with
        index := db.index ++
          entries.map (fun entry => ⟨ns, entry.1, valueKey packages entry.2, seq⟩) } := by
  induction entries generalizing db with
  | nil =>
      rw [List.foldlM_nil, List.map_nil, List.append_nil]
      rfl
  | cons entry entries ih =>
      obtain ⟨absent, keys⟩ := List.nodup_cons.mp keys
      have inserted : insertEntry packages ns seq db entry = .ok { db with
          index := db.index ++ [⟨ns, entry.1, valueKey packages entry.2, seq⟩] } := by
        rw [insertEntry, Tables.insert_of_fresh (fun row member same =>
          fresh row member entry List.mem_cons_self same.symm)]
      rw [List.foldlM_cons, inserted, ok_bind, @ih { db with
        index := db.index ++ [⟨ns, entry.1, valueKey packages entry.2, seq⟩] } keys ?_]
      · simp only [List.map_cons, List.append_assoc, List.singleton_append]
      · intro row member other inEntries
        rcases List.mem_append.mp member with member | single
        · exact fresh row member other (List.mem_cons_of_mem _ inEntries)
        · rw [List.mem_singleton.mp single]
          intro same
          simp only [EntryRow.mk.injEq, true_and, and_true] at same
          refine absent (List.mem_map.mpr ⟨other, inEntries, ?_⟩)
          rw [same.1, same.2]

/-! ## The row constraint of a verified original -/

theorem length_sha256Hex (lawful : packages.Lawful) (data : Bytes) :
    (sha256Hex packages data).length = 64 := by
  have bytes := lawful.sha256_size data
  rw [sha256Hex, Sha256.hex, String.length_ofList]
  generalize packages.sha256 data = digest at bytes
  have size : ∀ bytes : Bytes, (bytes.flatMap (fun b =>
      [Sha256.hexDigit (b.toNat / 16), Sha256.hexDigit (b.toNat % 16)])).length =
        2 * bytes.length := by
    intro bytes
    induction bytes with
    | nil => rfl
    | cons b bytes ih =>
        rw [List.flatMap_cons, List.length_append, ih, List.length_cons]
        simp only [List.length_cons, List.length_nil]
        omega
  rw [size, bytes]

/-- The row of an original that passed its state check keeps the constraint,
if it carries its checksum and is not purged. -/
theorem check_rowOf (lawful : packages.Lawful) {a : Artifact} {committed : String} {verified : Bool}
    (settled : Settled packages a) (kept : a.state ≠ .purged)
    (ok : verifyState packages committed a = .ok verified) (id : String) :
    (rowOf ns id a).check = true := by
  obtain ⟨name, binding, content, state, sum⟩ := a
  cases state with
  | purged => exact absurd rfl kept
  | present =>
      cases content with
      | none => cases ok
      | some content =>
          have sums : sum = sha256Hex packages content := settled rfl
          have size : sum.length = 64 := sums ▸ length_sha256Hex lawful content
          simp [ArtifactRow.check, rowOf, RetentionState.asStr, size]
  | neverRetained =>
      obtain ⟨_, gone, _⟩ := bind_eq_ok_iff.mp ok
      rw [ensure_eq_ok_iff, Bool.and_eq_true, Option.isNone_iff_eq_none, String.isEmpty_iff] at gone
      simp only at gone
      obtain ⟨rfl, rfl⟩ := gone
      rfl

/-- Purging the row of a present original keeps the constraint. -/
theorem check_purgeRow (lawful : packages.Lawful) {a : Artifact} (settled : Settled packages a)
    (present : a.state = .present) {row : ArtifactRow} (same : row.stored = a.stored) (now : String) :
    (purgeRow now row).check = true := by
  have sums : row.contentSha256 = a.contentSha256 := congrArg StoredArtifact.contentSha256 same
  have size : row.contentSha256.length = 64 := by
    rw [sums, settled present]
    exact length_sha256Hex lawful _
  simp [ArtifactRow.check, purgeRow, size]

theorem stored_purgeRow {a : Artifact} (present : a.state = .present) {row : ArtifactRow}
    (same : row.stored = a.stored) (now : String) :
    (purgeRow now row).stored = (purgedArtifact a).stored := by
  obtain ⟨ns, id, name, field, content, sum, state, gone⟩ := row
  simp only [ArtifactRow.stored, Artifact.stored, StoredArtifact.mk.injEq] at same
  obtain ⟨rfl, rfl, -, rfl, -⟩ := same
  rw [purgedArtifact, if_pos present]
  rfl

end Sql
end ArtifactStore
end CapsuleEmit
