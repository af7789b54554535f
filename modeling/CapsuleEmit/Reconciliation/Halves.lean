import Mathlib.Data.List.Basic
import Mathlib.Data.List.Perm.Basic
import Mathlib.Logic.Function.Basic
import Mathlib.Tactic.Common

namespace CapsuleEmit
namespace Reconciliation

/-!
# Reconciling two halves of an exchange

A requester compares each of its records with the counterparty's record of the same
exchange, found by a key.  The halves match, the counterparty's half is not there,
or they contradict each other.

The counterparty's records are put into a table by their keys, so of several with
one key the last is compared; and halves without a digest contradict each other.
The verdicts are independent of the order, and mean what they say, exactly when
the records of each exchange agree about the requester's digest.
-/

universe u v

/-! ## Records -/

/-- The digests a compute attestation commits to, by their fields. -/
abbrev ComputeAttestation := List (String × Option String)

structure ModelAttestation where
  computeAttestation : Option ComputeAttestation

/-- A record of an exchange, with whatever else a key is taken of. -/
structure Record (ρ : Type u) where
  modelAttestation : Option ModelAttestation
  rest : ρ

/-- The digest a record commits to in a field, if it does. -/
def digestOf {ρ : Type u} (record : Record ρ) (digestField : String) : Option String :=
  let attestation := record.modelAttestation.getD ⟨none⟩
  (List.lookup digestField (attestation.computeAttestation.getD [])).join

inductive ReconciliationState where
  | matched
  | requesterOnly
  | contradicted
deriving DecidableEq, Repr

/-- The outcome of one exchange. -/
structure ReconciledExchange (κ : Type v) where
  key : κ
  state : ReconciliationState
  requesterDigest : Option String
  counterpartyDigest : Option String
  detail : String

/-! ## The fold -/

section

variable {ρ : Type u} {κ : Type v} [DecidableEq κ]

/-- The records by their keys; a later record takes the place of an earlier one. -/
def byKey (keyFn : Record ρ → κ) (records : List (Record ρ)) : κ → Option (Record ρ) :=
  records.foldl (fun table record => Function.update table (keyFn record) (some record))
    (fun _ => none)

/-- The outcome for one requester record. -/
def reconcileOne (keyFn : Record ρ → κ) (digestField : String)
    (counterpartyByKey : κ → Option (Record ρ)) (req : Record ρ) : ReconciledExchange κ :=
  let key := keyFn req
  let reqDigest := digestOf req digestField
  match counterpartyByKey key with
  | none => ⟨key, .requesterOnly, reqDigest, none,
      "no counterparty record found for this exchange — not present, not failed"⟩
  | some cp =>
      let cpDigest := digestOf cp digestField
      if reqDigest.isSome ∧ reqDigest = cpDigest then
        ⟨key, .matched, reqDigest, cpDigest, "requester and counterparty digests agree"⟩
      else
        ⟨key, .contradicted, reqDigest, cpDigest, "requester and counterparty digests disagree"⟩

def reconcile (keyFn : Record ρ → κ) (digestField : String)
    (requesterRecords counterpartyRecords : List (Record ρ)) : List (ReconciledExchange κ) :=
  requesterRecords.map (reconcileOne keyFn digestField (byKey keyFn counterpartyRecords))

/-- The count of the outcomes in a state. -/
def count (results : List (ReconciledExchange κ)) (state : ReconciliationState) : Nat :=
  results.countP (fun result => result.state = state)

/-- The counts of the three states and the total. -/
def fold (results : List (ReconciledExchange κ)) : List (String × Nat) :=
  [("matched", count results .matched), ("requester_only", count results .requesterOnly),
    ("contradicted", count results .contradicted), ("total", results.length)]

omit [DecidableEq κ] in
/-- Every outcome is counted in one state. -/
theorem count_add (results : List (ReconciledExchange κ)) :
    count results .matched + count results .requesterOnly + count results .contradicted =
      results.length := by
  induction results with
  | nil => rfl
  | cons result results ih =>
      simp only [count, List.countP_cons, List.length_cons] at ih ⊢
      cases result.state with
      | matched => simp; omega
      | requesterOnly => simp; omega
      | contradicted => simp; omega

/-! ## What decides a verdict -/

variable {keyFn : Record ρ → κ} {digestField : String}

/-- The counterparty records of an exchange. -/
def ofExchange (keyFn : Record ρ → κ) (key : κ) (records : List (Record ρ)) : List (Record ρ) :=
  records.filter (fun record => keyFn record = key)

theorem foldl_update (records : List (Record ρ)) (table : κ → Option (Record ρ)) (key : κ) :
    records.foldl (fun table record => Function.update table (keyFn record) (some record)) table
      key = (ofExchange keyFn key records).getLast?.or (table key) := by
  induction records generalizing table with
  | nil => rfl
  | cons record records ih =>
      rw [List.foldl_cons, ih, ofExchange, ofExchange, List.filter_cons]
      by_cases own : keyFn record = key
      · subst own
        rw [Function.update_self, if_pos (decide_eq_true rfl), List.getLast?_cons]
        cases (records.filter (fun other => keyFn other = keyFn record)).getLast? with
        | none => rfl
        | some last => rfl
      · rw [Function.update_of_ne (Ne.symm own), if_neg (by simpa using own)]

/-- The table holds the last record of an exchange. -/
theorem byKey_eq (records : List (Record ρ)) (key : κ) :
    byKey keyFn records key = (ofExchange keyFn key records).getLast? := by
  rw [byKey, foldl_update, Option.or_none]

/-- The verdict about a requester record. -/
def verdict (keyFn : Record ρ → κ) (digestField : String) (counterparty : List (Record ρ))
    (req : Record ρ) : ReconciliationState :=
  (reconcileOne keyFn digestField (byKey keyFn counterparty) req).state

theorem verdict_eq (counterparty : List (Record ρ)) (req : Record ρ) :
    verdict keyFn digestField counterparty req =
      match (ofExchange keyFn (keyFn req) counterparty).getLast? with
      | none => .requesterOnly
      | some cp =>
          if (digestOf req digestField).isSome ∧
              digestOf req digestField = digestOf cp digestField then .matched
          else .contradicted := by
  simp only [verdict, reconcileOne, byKey_eq]
  cases (ofExchange keyFn (keyFn req) counterparty).getLast? with
  | none => rfl
  | some cp =>
      simp only
      split
      · rfl
      · rfl

/-- The counterparty's half agrees with a requester record. -/
def Agrees (digestField : String) (req cp : Record ρ) : Prop :=
  (digestOf req digestField).isSome ∧ digestOf req digestField = digestOf cp digestField

instance (digestField : String) (req cp : Record ρ) : Decidable (Agrees digestField req cp) :=
  inferInstanceAs (Decidable (_ ∧ _))

theorem verdict_of_last {counterparty : List (Record ρ)} {req cp : Record ρ}
    (last : (ofExchange keyFn (keyFn req) counterparty).getLast? = some cp) :
    (verdict keyFn digestField counterparty req = .matched ↔ Agrees digestField req cp) ∧
      (verdict keyFn digestField counterparty req = .contradicted ↔
        ¬ Agrees digestField req cp) := by
  have compared : verdict keyFn digestField counterparty req =
      if Agrees digestField req cp then .matched else .contradicted := by
    rw [verdict_eq, last]
    rfl
  rw [compared]
  by_cases agrees : Agrees digestField req cp
  · simp [agrees]
  · simp [agrees]

theorem verdict_of_nil {counterparty : List (Record ρ)} {req : Record ρ}
    (none : ofExchange keyFn (keyFn req) counterparty = []) :
    verdict keyFn digestField counterparty req = .requesterOnly := by
  rw [verdict_eq, none]
  rfl

theorem mem_ofExchange {counterparty : List (Record ρ)} {key : κ} {cp : Record ρ} :
    cp ∈ ofExchange keyFn key counterparty ↔ cp ∈ counterparty ∧ keyFn cp = key := by
  rw [ofExchange, List.mem_filter, decide_eq_true_eq]

theorem last_of_ne_nil {counterparty : List (Record ρ)} {key : κ}
    (present : ofExchange keyFn key counterparty ≠ []) :
    ∃ cp, (ofExchange keyFn key counterparty).getLast? = some cp ∧
      cp ∈ ofExchange keyFn key counterparty :=
  ⟨_, List.getLast?_eq_some_getLast present, List.getLast_mem present⟩

/-- Any record of an exchange is the last of it in some order. -/
theorem exists_perm_last {counterparty : List (Record ρ)} {key : κ} {cp : Record ρ}
    (inside : cp ∈ ofExchange keyFn key counterparty) :
    ∃ other, other.Perm counterparty ∧
      (ofExchange keyFn key other).getLast? = some cp := by
  rcases mem_ofExchange.mp inside with ⟨member, own⟩
  rcases List.append_of_mem member with ⟨front, back, rfl⟩
  refine ⟨front ++ back ++ [cp], ?_, ?_⟩
  · have swapped := (List.perm_append_singleton cp back).append_left front
    rwa [← List.append_assoc] at swapped
  · rw [ofExchange, List.filter_append, List.filter_cons, if_pos (decide_eq_true own),
      List.filter_nil, List.getLast?_append, List.getLast?_singleton]
    rfl

end

/-! ## Honest verdicts -/

section

variable {ρ : Type u} {κ : Type v} [DecidableEq κ] (keyFn : Record ρ → κ) (digestField : String)

/-- No verdict changes with the order of the counterparty's records; a match has a
counterparty record with an equal digest, and a contradiction one with a digest
that differs from the requester's. -/
structure Honest (requester counterparty : List (Record ρ)) : Prop where
  ordered : ∀ other, other.Perm counterparty →
    (reconcile keyFn digestField requester other).map ReconciledExchange.state =
      (reconcile keyFn digestField requester counterparty).map ReconciledExchange.state
  matched : ∀ req ∈ requester, verdict keyFn digestField counterparty req = .matched →
    ∃ cp ∈ counterparty, keyFn cp = keyFn req ∧ ∃ digest,
      digestOf cp digestField = some digest ∧ digestOf req digestField = some digest
  contradicted : ∀ req ∈ requester, verdict keyFn digestField counterparty req = .contradicted →
    ∃ cp ∈ counterparty, keyFn cp = keyFn req ∧ ∃ theirs ours,
      digestOf cp digestField = some theirs ∧ digestOf req digestField = some ours ∧
      theirs ≠ ours

/-- The counterparty has no record of the exchange, or the requester's record has a
digest that all of the counterparty's have, or that none has and one differs from. -/
def Clear (counterparty : List (Record ρ)) (req : Record ρ) : Prop :=
  ofExchange keyFn (keyFn req) counterparty = [] ∨
    ∃ ours, digestOf req digestField = some ours ∧
      ((∀ cp ∈ ofExchange keyFn (keyFn req) counterparty,
          digestOf cp digestField = some ours) ∨
        ((∀ cp ∈ ofExchange keyFn (keyFn req) counterparty,
            digestOf cp digestField ≠ some ours) ∧
          ∃ cp ∈ ofExchange keyFn (keyFn req) counterparty, digestOf cp digestField ≠ none))

variable {keyFn digestField}

theorem map_state (requester counterparty : List (Record ρ)) :
    (reconcile keyFn digestField requester counterparty).map ReconciledExchange.state =
      requester.map (verdict keyFn digestField counterparty) := by
  rw [reconcile, List.map_map]
  rfl

theorem agrees_iff {req cp : Record ρ} {ours : String}
    (digest : digestOf req digestField = some ours) :
    Agrees digestField req cp ↔ digestOf cp digestField = some ours := by
  rw [Agrees, digest]
  exact ⟨fun both => both.2.symm, fun same => ⟨rfl, same.symm⟩⟩

theorem ofExchange_perm {counterparty other : List (Record ρ)} (perm : other.Perm counterparty)
    (key : κ) : (ofExchange keyFn key other).Perm (ofExchange keyFn key counterparty) :=
  perm.filter _

/-- A clear record gets one verdict in every order. -/
theorem verdict_perm {counterparty other : List (Record ρ)} {req : Record ρ}
    (clear : Clear keyFn digestField counterparty req) (perm : other.Perm counterparty) :
    verdict keyFn digestField other req = verdict keyFn digestField counterparty req := by
  have same : (ofExchange keyFn (keyFn req) other).Perm (ofExchange keyFn (keyFn req) counterparty) :=
    ofExchange_perm perm (keyFn req)
  by_cases absent : ofExchange keyFn (keyFn req) counterparty = []
  · have absent' : ofExchange keyFn (keyFn req) other = [] := (absent ▸ same).eq_nil
    rw [verdict_of_nil absent, verdict_of_nil absent']
  · have present : ofExchange keyFn (keyFn req) other ≠ [] :=
      fun none => absent (same.symm.trans (none ▸ List.Perm.refl _)).eq_nil
    rcases last_of_ne_nil absent with ⟨cp, last, inside⟩
    rcases last_of_ne_nil present with ⟨cp', last', inside'⟩
    have member := same.mem_iff.mp inside'
    rcases clear with none | ⟨ours, digest, all | ⟨none, -⟩⟩
    · exact absurd none absent
    · rw [(verdict_of_last last).1.mpr ((agrees_iff digest).mpr (all cp inside)),
        (verdict_of_last last').1.mpr ((agrees_iff digest).mpr (all cp' member))]
    · have differs := none cp inside
      have differs' := none cp' member
      rw [(verdict_of_last last).2.mpr (fun agrees => differs ((agrees_iff digest).mp agrees)),
        (verdict_of_last last').2.mpr (fun agrees => differs' ((agrees_iff digest).mp agrees))]

/-- The verdicts are honest exactly when every requester record is clear. -/
theorem honest_iff (requester counterparty : List (Record ρ)) :
    Honest keyFn digestField requester counterparty ↔
      ∀ req ∈ requester, Clear keyFn digestField counterparty req := by
  constructor
  · intro honest req inside
    by_cases absent : ofExchange keyFn (keyFn req) counterparty = []
    · exact Or.inl absent
    · rcases last_of_ne_nil absent with ⟨last, isLast, lastInside⟩
      have sameVerdict : ∀ cp ∈ ofExchange keyFn (keyFn req) counterparty,
          Agrees digestField req cp ↔ Agrees digestField req last := by
        intro cp member
        rcases exists_perm_last member with ⟨other, perm, isLast'⟩
        have states := honest.ordered other perm
        rw [map_state, map_state] at states
        have same := List.map_inj_left.mp states req inside
        rw [← (verdict_of_last isLast').1, ← (verdict_of_last isLast).1, same]
      by_cases agrees : Agrees digestField req last
      · rcases Option.isSome_iff_exists.mp agrees.1 with ⟨ours, digest⟩
        refine Or.inr ⟨ours, digest, Or.inl fun cp member => ?_⟩
        exact (agrees_iff digest).mp ((sameVerdict cp member).mpr agrees)
      · rcases honest.contradicted req inside ((verdict_of_last isLast).2.mpr agrees)
          with ⟨cp, member, own, theirs, ours, present, digest, -⟩
        refine Or.inr ⟨ours, digest, Or.inr ⟨fun other member' same => ?_, cp,
          mem_ofExchange.mpr ⟨member, own⟩, by rw [present]; exact Option.some_ne_none theirs⟩⟩
        exact agrees ((sameVerdict other member').mp ((agrees_iff digest).mpr same))
  · intro clear
    refine ⟨fun other perm => ?_, fun req inside matched => ?_, fun req inside contradicted => ?_⟩
    · rw [map_state, map_state]
      exact List.map_congr_left (fun req inside => verdict_perm (clear req inside) perm)
    · rcases clear req inside with absent | ⟨ours, digest, -⟩
      · rw [verdict_of_nil absent] at matched
        cases matched
      · have present : ofExchange keyFn (keyFn req) counterparty ≠ [] := by
          intro absent
          rw [verdict_of_nil absent] at matched
          cases matched
        rcases last_of_ne_nil present with ⟨cp, last, member⟩
        rcases mem_ofExchange.mp member with ⟨within, own⟩
        have agrees := (verdict_of_last last).1.mp matched
        exact ⟨cp, within, own, ours, (agrees_iff digest).mp agrees, digest⟩
    · rcases clear req inside with absent | ⟨ours, digest, all | ⟨none, cp, member, present⟩⟩
      · rw [verdict_of_nil absent] at contradicted
        cases contradicted
      · by_cases absent : ofExchange keyFn (keyFn req) counterparty = []
        · rw [verdict_of_nil absent] at contradicted
          cases contradicted
        · rcases last_of_ne_nil absent with ⟨cp, last, member⟩
          exact absurd ((agrees_iff digest).mpr (all cp member))
            ((verdict_of_last last).2.mp contradicted)
      · rcases mem_ofExchange.mp member with ⟨within, own⟩
        rcases Option.ne_none_iff_exists'.mp present with ⟨theirs, differs⟩
        refine ⟨cp, within, own, theirs, ours, differs, digest, fun same => ?_⟩
        exact none cp member (by rw [differs, same])

end

/-! ## Two records of one exchange -/

/-- A record of the exchange `call` with the given digest. -/
def outputRecord (digest : Option String) : Record String where
  modelAttestation := some ⟨some [("agent_output_digest", digest)]⟩
  rest := "call"

/-- A verdict changes with the order of the counterparty's records, and halves
without digests contradict each other. -/
theorem verdicts_not_honest :
    verdict Record.rest "agent_output_digest" [outputRecord (some "b"), outputRecord (some "a")]
        (outputRecord (some "a")) = .matched ∧
      verdict Record.rest "agent_output_digest" [outputRecord (some "a"), outputRecord (some "b")]
        (outputRecord (some "a")) = .contradicted ∧
      verdict Record.rest "agent_output_digest" [outputRecord none] (outputRecord none) =
        .contradicted ∧
      ¬ Honest Record.rest "agent_output_digest" [outputRecord none] [outputRecord none] := by
  have silent : verdict Record.rest "agent_output_digest" [outputRecord none]
      (outputRecord none) = .contradicted := by decide
  refine ⟨by decide, by decide, silent, fun honest => ?_⟩
  rcases honest.contradicted (outputRecord none) List.mem_cons_self silent
    with ⟨cp, -, -, theirs, ours, -, digest, -⟩
  cases digest

end Reconciliation
end CapsuleEmit
